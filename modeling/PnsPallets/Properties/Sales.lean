import PnsPallets.Properties.Authorship
import PnsPallets.Properties.Payments
import PnsPallets.Properties.Reports

/-!
# Sales and fees in the event log

Three accounts kept over whole runs:

- for each name, the `Listed` events are the sales, the gift purchases, the cancellations, and
  one more while the name is listed (`listings_balance`): no listing is used twice;
- a sale is made under a listing that the seller made, at the price and in the term named
  there, and that has stood ever since (`sale_under_own_listing`);
- the money that leaves circulation between two blocks is the fees that the events name
  (`issuance_replays`).
-/

namespace PnsPallets

open Frame Registry Registrar Zones

variable {T : Config} {L : Set Bytes} {s s' : State T} {o : Origin} {call : Call T}
  {n : DomainHash} {es : List (RuntimeEvent T)}

/-! ## The listings -/

/-- What a successful call does on the marketplace, if anything. -/
inductive Deals (s : State T) : Origin → Call T → List MarketplaceEvent → Prop where
  | list {who : AccountId} {n : DomainHash} {price : Balance} {expiresAt : Moment} :
      s.registrar.ownerToPrimaryName.get who = some n → s.listings.get n = none →
      Deals s (.signed who) (.createListing price expiresAt) [.listed n who price expiresAt]
  | delist {who : AccountId} {n : DomainHash} :
      s.registrar.ownerToPrimaryName.get who = some n → (s.listings.get n).isSome = true →
      Deals s (.signed who) .cancelListing [.delisted n who]
  | sell {buyer : AccountId} {name : Bytes} {n : DomainHash} {listing : Listing} :
      Marketplace.listedNode T name = .ok n → s.listings.get n = some listing →
      Deals s (.signed buyer) (.buyName name none)
        [ .sold n listing.seller buyer listing.price (Marketplace.protocolFee T listing.price) ]
  | give {buyer recip : AccountId} {name : Bytes} {n : DomainHash} {listing : Listing} :
      Marketplace.listedNode T name = .ok n → s.listings.get n = some listing →
      Deals s (.signed buyer) (.buyName name (some recip))
        [ .nameBoughtForRecipient n listing.seller buyer recip listing.price
            (Marketplace.protocolFee T listing.price) ]
  | quiet {o : Origin} {call : Call T} : Deals s o call []

theorem callEvents_deals (hok : dispatch s o call = .ok s') (h : callEvents s o call = .ok es) :
    Deals s o call (marketOf es) := by
  by_cases hplain : call.isPlain = true
  · rw [marketOf_plain (callEvents_plain hplain h)]
    exact .quiet
  cases call with
  | register name owner rejectOffer =>
    rw [(registerEvents_report h).1]
    exact .quiet
  | acceptOfferedName name =>
    simp only [callEvents, acceptOfferedNameEvents, bind_eq_ok, pure_eq_ok] at h
    obtain ⟨-, -, -, -, rfl⟩ := h
    exact .quiet
  | renew =>
    simp only [callEvents, renewEvents, bind_eq_ok, pure_eq_ok] at h
    obtain ⟨-, -, -, -, -, -, -, -, -, -, rfl⟩ := h
    exact .quiet
  | createListing price expiresAt =>
    simp only [callEvents, Marketplace.createListingEvents, bind_eq_ok, pure_eq_ok] at h
    obtain ⟨who, hwho, n, hn, rfl⟩ := h
    obtain ⟨x, m, hx, -, hm, hnew, -⟩ := createListing_eq_ok hok
    obtain rfl := ensureSigned_eq_ok hwho
    obtain rfl : who = x := Origin.signed.inj hx
    obtain rfl : n = m := Option.some.inj ((okOr_eq_ok.mp hn).symm.trans hm)
    have hnone := Option.isNone_iff_eq_none.mp (Option.isSome_eq_false_iff.mp hnew)
    exact .list hm hnone
  | cancelListing =>
    simp only [callEvents, Marketplace.cancelListingEvents, bind_eq_ok, pure_eq_ok] at h
    obtain ⟨who, hwho, n, hn, rfl⟩ := h
    obtain ⟨x, m, hx, hm, hlisted, -⟩ := cancelListing_eq_ok hok
    obtain rfl := ensureSigned_eq_ok hwho
    obtain rfl : who = x := Origin.signed.inj hx
    obtain rfl : n = m := Option.some.inj ((okOr_eq_ok.mp hn).symm.trans hm)
    exact .delist hm hlisted
  | buyName name recipient =>
    simp only [callEvents, Marketplace.buyNameEvents, bind_eq_ok, okOr_eq_ok] at h
    obtain ⟨buyer, hbuyer, n, hn, listing, hlisting, h⟩ := h
    obtain rfl := ensureSigned_eq_ok hbuyer
    cases recipient with
    | none =>
      cases h
      rw [marketOf_append, marketOf_plain (plain_transferEvents s buyer n)]
      exact .sell hn hlisting
    | some recip =>
      cases h
      rw [marketOf_append, marketOf_plain (plain_transferEvents s recip n)]
      exact .give hn hlisting
  | _ => exact absurd rfl hplain

/-- The listings after a successful call, by what it reports. -/
theorem Reachable.deals (hcf : CollisionFree T.keccak256 T.baseNode L) (h : Reachable T L s)
    (hL : ∀ l ∈ call.labels, l ∈ L) (hok : dispatch s o call = .ok s') :
    ∃ es, callEvents s o call = .ok es ∧ Deals s o call (marketOf es) ∧
      s'.listings.get = (marketOf es).foldl MarketplaceEvent.relist s.listings.get := by
  obtain ⟨es, hevents, htracks⟩ := dispatch_publishes hcf (h.consistent hcf) hL hok
  refine ⟨es, hevents, callEvents_deals hok hevents, ?_⟩
  exact (congrArg Index.listing htracks).trans (foldl_listing es (indexOf s))

/-! ## No listing is used twice -/

/-- How often the log opens a listing of `n`. -/
def opened (n : DomainHash) (log : List (RuntimeEvent T)) : ℕ :=
  (marketOf log).countP (MarketplaceEvent.opens n)

/-- How often the log closes a listing of `n`. -/
def closed (n : DomainHash) (log : List (RuntimeEvent T)) : ℕ :=
  (marketOf log).countP (MarketplaceEvent.closes n)

/-- One if the name is listed. -/
def listedNow (s : State T) (n : DomainHash) : ℕ := ((s.listings.get n).isSome).toNat

/-- An event opens a listing only where there is none, and closes one only where there is one. -/
def MarketplaceEvent.Fits (table : DomainHash → Option Listing) (event : MarketplaceEvent) :
    Prop :=
  (table event.node).isSome = event.listing.isNone

theorem Deals.fits {ms : List MarketplaceEvent} (h : Deals s o call ms) :
    ms = [] ∨ ∃ event, ms = [event] ∧ event.Fits s.listings.get := by
  cases h with
  | list _ hnone => exact .inr ⟨_, rfl, congrArg Option.isSome hnone⟩
  | delist _ hsome => exact .inr ⟨_, rfl, hsome⟩
  | sell _ hlisting | give _ hlisting => exact .inr ⟨_, rfl, congrArg Option.isSome hlisting⟩
  | quiet => exact .inl rfl

theorem MarketplaceEvent.Fits.balance {table : DomainHash → Option Listing}
    {event : MarketplaceEvent} (h : event.Fits table) (n : DomainHash) :
    [event].countP (opens n) + (table n).isSome.toNat
      = [event].countP (closes n) + (event.relist table n).isSome.toNat := by
  unfold Fits at h
  unfold opens closes relist
  by_cases hn : event.node = n
  · subst hn
    cases hlisting : event.listing <;> simp [h, hlisting]
  · simp [hn, Function.update_of_ne (Ne.symm hn)]

/-- What the log of one call adds to the two counts. -/
theorem Deals.balance {ms : List MarketplaceEvent} (h : Deals s o call ms) (n : DomainHash)
    (hlistings : s'.listings.get = ms.foldl MarketplaceEvent.relist s.listings.get) :
    ms.countP (MarketplaceEvent.opens n) + listedNow s n
      = ms.countP (MarketplaceEvent.closes n) + listedNow s' n := by
  unfold listedNow
  rw [hlistings]
  rcases h.fits with rfl | ⟨event, rfl, hfits⟩
  · rfl
  · exact hfits.balance n

/-- **No listing is used twice.** Along every run and for every name, the listings opened are those
sold, given away or cancelled, and one more while the name is listed. -/
theorem listings_balance (hcf : CollisionFree T.keccak256 T.baseNode L)
    {q : State T × List (RuntimeEvent T)}
    (h : (journal T).Reach (fun q i => Admissible L q.1 i) q) (n : DomainHash) :
    opened n q.2 = closed n q.2 + listedNow q.1 n := by
  induction h with
  | @init q hq =>
    obtain ⟨⟨root, balances, parentHash, hs⟩, hnil⟩ := hq
    have hempty : q.1.listings.get n = none :=
      congrFun (congrArg Index.listing (genesis_index hs)) n
    rw [hnil, listedNow, hempty]
    rfl
  | @step q i hq hadm ih =>
    have hreach : Reachable T L q.1 := Machine.journaling_fst hq
    show opened n (q.2 ++ published q.1 i) = closed n (q.2 ++ published q.1 i) + _
    rw [opened, closed, marketOf_append, List.countP_append, List.countP_append]
    cases i with
    | newBlock now number hash ledger => exact ih
    | extrinsic o call =>
      show _ + (marketOf (deposited q.1 o call)).countP _
        = _ + (marketOf (deposited q.1 o call)).countP _
          + listedNow (commit q.1 (dispatch q.1 o call)) n
      unfold deposited
      cases hres : dispatch q.1 o call with
      | error err => exact ih
      | ok s' =>
        obtain ⟨es, hevents, hdeals, hlistings⟩ := hreach.deals hcf hadm hres
        have hstep := hdeals.balance n hlistings
        unfold opened closed at ih
        rw [commit_ok, hevents]
        show _ + (marketOf es).countP _ = _ + (marketOf es).countP _ + listedNow s' n
        omega

open Devnet in
/-- A listing opened and used for a gift. -/
theorem listings_balance_gift :
    opened (node alice) (recorded purchaseInputs).2 = 1 ∧
      closed (node alice) (recorded purchaseInputs).2 = 1 := by
  have hreach : (journal config).Reach (fun q i => Admissible labels q.1 i)
      (recorded purchaseInputs) := recorded_reach (by decide +kernel)
  have hbalance := listings_balance collisionFree hreach (node alice)
  have hopened : opened (node alice) (recorded purchaseInputs).2 = 1 := by decide +kernel
  have hlisted : listedNow (recorded purchaseInputs).1 (node alice) = 0 := by decide +kernel
  exact ⟨hopened, by omega⟩

/-! ## A sale keeps to the seller's own listing -/

/-- The listing in the table after a call was there before, or was made by the call. -/
theorem Deals.listing_from {ms : List MarketplaceEvent} {listing : Listing}
    (h : Deals s o call ms)
    (hlistings : s'.listings.get = ms.foldl MarketplaceEvent.relist s.listings.get)
    (hget : s'.listings.get n = some listing) :
    (o = .signed listing.seller ∧ call = .createListing listing.price listing.expiresAt ∧
      s.registrar.ownerToPrimaryName.get listing.seller = some n) ∨
    s.listings.get n = some listing := by
  rw [hlistings] at hget
  -- an event about another name leaves the listing, and only `Listed` puts one there
  have hother : ∀ event : MarketplaceEvent, event.listing = none →
      event.relist s.listings.get n = some listing → s.listings.get n = some listing := by
    intro event hnone hrelist
    unfold MarketplaceEvent.relist at hrelist
    by_cases hn : n = event.node
    · rw [hn, Function.update_self, hnone] at hrelist
      cases hrelist
    · rwa [Function.update_of_ne hn] at hrelist
  cases h with
  | @list who m price expiresAt hm _ =>
    by_cases hn : n = m
    · subst hn
      have hsame : (⟨who, price, expiresAt⟩ : Listing) = listing := by
        simpa [MarketplaceEvent.relist, MarketplaceEvent.node, MarketplaceEvent.listing] using hget
      subst hsame
      exact .inl ⟨rfl, rfl, hm⟩
    · right
      simpa [MarketplaceEvent.relist, MarketplaceEvent.node, hn] using hget
  | delist _ _ | sell _ _ | give _ _ => exact .inr (hother _ rfl hget)
  | quiet => exact .inr hget

/-- A listing was made on the run by its seller, for the name that was theirs to list, and has
stood since. -/
theorem listing_made (hcf : CollisionFree T.keccak256 T.baseNode L) {s₀ : State T}
    {inputs : List (Input T)} (h : (chain T).RunsTo (Admissible L) s₀ inputs s)
    {listing : Listing} (hget : s.listings.get n = some listing) :
    CalledSince s₀ inputs listing.seller (.createListing listing.price listing.expiresAt)
      (fun u => u.registrar.ownerToPrimaryName.get listing.seller = some n)
      fun x => x.listings.get n = some listing := by
  obtain ⟨w, call, hcall, hsince⟩ := calledSince_of_runsTo (L := L)
    (fun x : State T => x.listings.get) (P := fun table => table n = some listing)
    (K := fun w table => table n = some listing ∧ w = listing.seller)
    (C := fun call => call = .createListing listing.price listing.expiresAt)
    (J := fun _ u => u.registrar.ownerToPrimaryName.get listing.seller = some n)
    (fun _ _ _ _ _ => rfl)
    (fun u hu hlisted => by
      obtain ⟨root, balances, parentHash, hgenesis⟩ := hu
      have hnone := congrFun (congrArg Index.listing (genesis_index hgenesis)) n
      cases hlisted.symm.trans hnone)
    (fun u o call u' hu hadm hok hlisted => by
      obtain ⟨es, -, hdeals, hlistings⟩ := hu.deals hcf hadm hok
      rcases hdeals.listing_from hlistings hlisted with ⟨rfl, rfl, hpointer⟩ | hold
      · exact .inl ⟨_, rfl, rfl, hpointer, hlisted, rfl⟩
      · exact .inr ⟨hold, fun w hw => ⟨hlisted, hw.2⟩⟩)
    h hget
  obtain rfl := hcall
  obtain rfl := hsince.last.2
  exact hsince.mono fun x hx => hx.1

/-- **A sale keeps to the seller's own listing.** Whatever run led to a purchase that succeeds, it
is under a listing that the seller made on that run by `create_listing`, with that price and end,
when the name was theirs to list; the listing has stood ever since and the seller owns the name.
The balances after the purchase are those before it with the listed price moved from the buyer to
the seller and the protocol fee taken from the seller (`Settled`), and the listing is used up. -/
theorem sale_under_own_listing (hcf : CollisionFree T.keccak256 T.baseNode L) {s₀ : State T}
    {inputs : List (Input T)} (h : (chain T).RunsTo (Admissible L) s₀ inputs s) {name : Bytes}
    {recipient : Option AccountId} (hL : toAsciiLowercase name ∈ L)
    (hok : dispatch s o (.buyName name recipient) = .ok s') :
    ∃ (buyer : AccountId) (n : DomainHash) (listing : Listing),
      o = .signed buyer ∧ Marketplace.listedNode T name = .ok n ∧
      CalledSince s₀ inputs listing.seller (.createListing listing.price listing.expiresAt)
        (fun u => u.registrar.ownerToPrimaryName.get listing.seller = some n)
        (fun x => x.listings.get n = some listing) ∧
      (view s).owner n = some listing.seller ∧ s.now < listing.expiresAt ∧
      Settled T s.balances buyer listing s'.balances ∧ s'.listings.get n = none := by
  obtain ⟨buyer, n, listing, hbuyer, hn, hlisting, -, hpaid⟩ := buyName_settled hok
  have hc := Reachable.consistent hcf h.reach
  obtain ⟨howner, hopen⟩ := buyName_seller hcf hc hL hn hlisting hok
  exact ⟨buyer, n, listing, hbuyer, hn, listing_made hcf h hlisting, howner, hopen, hpaid,
    buyName_unlists hn hok⟩

/-- Account 2 registers `alice` and lists it. -/
def Devnet.onSaleInputs : List (Input Devnet.config) :=
  [ .extrinsic (.signed (account 2)) (.register alice (.id (account 2)) none),
    .extrinsic (.signed (account 2)) (.createListing 5000 1000000) ]

/-- Account 2 has registered `alice` and listed it. -/
def Devnet.onSale : State Devnet.config := after onSaleInputs

theorem Devnet.onSale_run :
    (chain config).RunsTo (Admissible labels) start onSaleInputs onSale :=
  runsTo_after (by decide +kernel)

open Devnet in
/-- Account 1 buys under the listing that account 2 made. -/
theorem sale_under_own_listing_of_alice :
    CalledSince start onSaleInputs (account 2) (.createListing 5000 1000000)
      (fun u => u.registrar.ownerToPrimaryName.get (account 2) = some (node alice))
      fun x => x.listings.get (node alice) = some ⟨account 2, 5000, 1000000⟩ := by
  have hok : (dispatch onSale (.signed (account 1)) (.buyName alice none)).isOk = true := by
    decide +kernel
  have hL : toAsciiLowercase alice ∈ labels := by decide +kernel
  have hnode : Marketplace.listedNode config alice = .ok (node alice) := by decide +kernel
  have hlisting : onSale.listings.get (node alice) = some ⟨account 2, 5000, 1000000⟩ := by
    decide +kernel
  obtain ⟨buyer, n, listing, -, hn, hmade, -⟩ :=
    sale_under_own_listing collisionFree onSale_run hL (eq_ok_commit hok onSale)
  obtain rfl : node alice = n := Except.ok.inj (hnode.symm.trans hn)
  obtain rfl := Option.some.inj (hmade.last.symm.trans hlisting)
  exact hmade

/-! ## The money that leaves circulation -/

/-- The input is an extrinsic. Between two blocks there is nothing else. -/
def Input.isExtrinsic : Input T → Bool
  | .extrinsic _ _ => true
  | .newBlock _ _ _ _ => false

section Issuance

variable {funds : T.Ledger → Funds AccountId} (hlaw : T.currency.Lawful funds)

include hlaw

/-- The fees that a successful call reports are what it takes out of circulation. -/
theorem callEvents_burned (hok : dispatch s o call = .ok s') (h : callEvents s o call = .ok es) :
    (funds s'.balances).issuance + burned es = (funds s.balances).issuance := by
  have hfree : call.isFree = true → burned es = 0 →
      (funds s'.balances).issuance + burned es = (funds s.balances).issuance := by
    intro hcall hzero
    rw [free_balances hcall hok, hzero, Nat.add_zero]
  by_cases hplain : call.isPlain = true
  · refine hfree ?_ (burned_plain (callEvents_plain hplain h))
    cases call <;> first | rfl | cases hplain
  cases call with
  | register name owner rejectOffer =>
    obtain ⟨-, ⟨fee, hfee, hburned⟩, -⟩ := registerEvents_report h
    obtain ⟨who, fee', -, hfee', hcharged⟩ := register_charged hok
    obtain rfl : fee = fee' := Option.some.inj (hfee.symm.trans hfee')
    rw [hburned]
    exact (hcharged.burns hlaw).issuance
  | renew =>
    simp only [callEvents, renewEvents, bind_eq_ok, okOr_eq_ok, pure_eq_ok] at h
    obtain ⟨who, hwho, n, hn, info, hinfo, fee, hfee, expire, -, rfl⟩ := h
    obtain ⟨who', n', info', fee', ho, hn', hinfo', hfee', hcharged⟩ := renew_charged hok
    obtain rfl := ensureSigned_eq_ok hwho
    obtain rfl : who = who' := Origin.signed.inj ho
    obtain rfl : n = n' := Option.some.inj ((okOr_eq_ok.mp hn).symm.trans hn')
    obtain rfl : info = info' := Option.some.inj (hinfo.symm.trans hinfo')
    obtain rfl : fee = fee' := Option.some.inj (hfee.symm.trans hfee')
    exact (hcharged.burns hlaw).issuance
  | acceptOfferedName name =>
    simp only [callEvents, acceptOfferedNameEvents, bind_eq_ok, pure_eq_ok] at h
    obtain ⟨who, -, n, -, rfl⟩ := h
    exact hfree rfl rfl
  | createListing price expiresAt =>
    simp only [callEvents, Marketplace.createListingEvents, bind_eq_ok, pure_eq_ok] at h
    obtain ⟨who, -, n, -, rfl⟩ := h
    exact hfree rfl rfl
  | cancelListing =>
    simp only [callEvents, Marketplace.cancelListingEvents, bind_eq_ok, pure_eq_ok] at h
    obtain ⟨who, -, n, -, rfl⟩ := h
    exact hfree rfl rfl
  | buyName name recipient =>
    simp only [callEvents, Marketplace.buyNameEvents, bind_eq_ok, okOr_eq_ok] at h
    obtain ⟨buyer, -, n, hn, listing, hlisting, h⟩ := h
    obtain ⟨buyer', n', listing', -, hn', hlisting', hsells⟩ := buyName_sells hlaw hok
    obtain rfl : n = n' := Except.ok.inj (hn.symm.trans hn')
    obtain rfl : listing = listing' := Option.some.inj (hlisting.symm.trans hlisting')
    have hburned : burned es = (Marketplace.protocolFee T listing.price).toNat := by
      cases recipient with
      | none =>
        cases h
        rw [burned_append, burned_plain (plain_transferEvents s buyer n)]
        exact Nat.zero_add _
      | some recip =>
        cases h
        rw [burned_append, burned_plain (plain_transferEvents s recip n)]
        simp [burned, RuntimeEvent.fee]
    rw [hburned]
    exact hsells.issuance
  | _ => exact absurd rfl hplain

/-- **The fees that the events name are the money that leaves circulation.** Along every run of
extrinsics the issuance falls by the fees that the log gained. -/
theorem issuance_replays (hcf : CollisionFree T.keccak256 T.baseNode L)
    {q q' : State T × List (RuntimeEvent T)} {tr : List (State T × List (RuntimeEvent T))}
    (hq : (journal T).Reach (fun q i => Admissible L q.1 i) q)
    (h : (journal T).Path (fun q i => Admissible L q.1 i ∧ i.isExtrinsic = true) q tr q') :
    (funds q'.1.balances).issuance + burned q'.2
      = (funds q.1.balances).issuance + burned q.2 := by
  induction h with
  | refl => rfl
  | @step tr t i hpath hg ih =>
    obtain ⟨hadm, hextrinsic⟩ := hg
    have hreach : Reachable T L t.1 :=
      Machine.journaling_fst (Machine.Path.reach hq (hpath.mono fun _ _ hx => hx.1))
    cases i with
    | newBlock now number hash ledger => cases hextrinsic
    | extrinsic o call =>
      show (funds (commit t.1 (dispatch t.1 o call)).balances).issuance
        + burned (t.2 ++ deposited t.1 o call) = _
      rw [← ih, burned_append]
      unfold deposited
      cases hres : dispatch t.1 o call with
      | error err => rfl
      | ok s' =>
        obtain ⟨es, hevents, -, -⟩ := hreach.deals hcf hadm hres
        have hstep := callEvents_burned hlaw hres hevents
        rw [commit_ok, hevents]
        show _ + (_ + burned es) = _
        omega

end Issuance

/-- Account 1 registers `alice`. -/
def Devnet.registration : Input Devnet.purseConfig :=
  .extrinsic (.signed (account 1)) (.register alice (.id (account 1)) none)

/-- The chain over the purse, after the registration. -/
def Devnet.charged : State Devnet.purseConfig × List (RuntimeEvent Devnet.purseConfig) :=
  (journal Devnet.purseConfig).step (purseStart, []) registration

theorem Devnet.purseStart_init : (chain purseConfig).init purseStart :=
  ⟨account 0, _, digest 0, eq_ok_get _⟩

open Devnet in
/-- The fee of `alice` is in the log and out of circulation. -/
theorem issuance_replays_registration :
    burned charged.2 = 10000000000000 ∧
      Funds.issuance charged.1.balances + 10000000000000
        = Funds.issuance purseStart.balances := by
  have hlabels : ∀ l ∈ [toAsciiLowercase alice], l ∈ labels := by decide +kernel
  have hadm : Admissible labels purseStart registration := hlabels
  have hstart : (journal purseConfig).Reach (fun q i => Admissible labels q.1 i)
      (purseStart, []) := .init ⟨purseStart_init, rfl⟩
  have hpath : (journal purseConfig).Path
      (fun q i => Admissible labels q.1 i ∧ i.isExtrinsic = true) (purseStart, [])
      [(purseStart, []), charged] charged := Machine.Path.single ⟨hadm, rfl⟩
  have hburned : burned charged.2 = 10000000000000 := by decide +kernel
  have hissuance := issuance_replays (T := purseConfig) purse_lawful collisionFree hstart hpath
  have hempty : burned ([] : List (RuntimeEvent purseConfig)) = 0 := rfl
  simp only [hburned, hempty, Nat.add_zero, id] at hissuance
  exact ⟨hburned, hissuance⟩

end PnsPallets
