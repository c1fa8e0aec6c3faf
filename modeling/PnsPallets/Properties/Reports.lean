import PnsPallets.Properties.EventLog

/-!
# What the events report

Three readings of the event log, and what each call reports in them: what happens to the listings
(`marketOf`), the fees that are burned (`burned`), and what happens to the pending gifts
(`giftsOf`). Most calls report nothing of the kind (`callEvents_plain`).
-/

namespace PnsPallets

open Frame Registry Registrar Zones

variable {T : Config} {s s' : State T} {o : Origin} {call : Call T}
  {es : List (RuntimeEvent T)} {e : RuntimeEvent T}

/-! ## Listings -/

/-- The name whose listing the event is about. -/
def MarketplaceEvent.node : MarketplaceEvent → DomainHash
  | .listed node _ _ _ | .delisted node _ | .sold node _ _ _ _
  | .nameBoughtForRecipient node _ _ _ _ _ => node

/-- The listing that the event opens; the other events close one. -/
def MarketplaceEvent.listing : MarketplaceEvent → Option Listing
  | .listed _ seller price expiresAt => some ⟨seller, price, expiresAt⟩
  | .delisted _ _ | .sold _ _ _ _ _ | .nameBoughtForRecipient _ _ _ _ _ _ => none

/-- What the event does to the table of listings. -/
def MarketplaceEvent.relist (table : DomainHash → Option Listing) (event : MarketplaceEvent) :
    DomainHash → Option Listing :=
  Function.update table event.node event.listing

/-- The event opens a listing of `n`. -/
def MarketplaceEvent.opens (n : DomainHash) (event : MarketplaceEvent) : Bool :=
  event.node = n && event.listing.isSome

/-- The event closes a listing of `n`. -/
def MarketplaceEvent.closes (n : DomainHash) (event : MarketplaceEvent) : Bool :=
  event.node = n && event.listing.isNone

/-- The event of the marketplace, if it is one. -/
def RuntimeEvent.market : RuntimeEvent T → Option MarketplaceEvent
  | .marketplace event => some event
  | _ => none

/-- The events of the marketplace. -/
def marketOf (es : List (RuntimeEvent T)) : List MarketplaceEvent :=
  es.filterMap RuntimeEvent.market

theorem marketOf_append (es es' : List (RuntimeEvent T)) :
    marketOf (es ++ es') = marketOf es ++ marketOf es' :=
  List.filterMap_append

/-- The index keeps its listings by the events of the marketplace alone. -/
theorem Index.apply_listing (ix : Index) (e : RuntimeEvent T) :
    (ix.apply e).listing = e.market.elim ix.listing (MarketplaceEvent.relist ix.listing) := by
  cases e with
  | registrar event =>
    cases event with
    | subnameOffered parent subnode label target =>
      unfold Index.apply
      dsimp only
      split <;> rfl
    | offeredNameRejected node rejector =>
      unfold Index.apply
      dsimp only
      split <;> rfl
    | _ => rfl
  | registry event | resolvers event | marketplace event | priceOracle event => cases event <;> rfl

theorem foldl_listing (es : List (RuntimeEvent T)) (ix : Index) :
    (es.foldl Index.apply ix).listing
      = (marketOf es).foldl MarketplaceEvent.relist ix.listing := by
  induction es generalizing ix with
  | nil => rfl
  | cons e es ih =>
    rw [List.foldl_cons, ih, Index.apply_listing]
    cases hm : e.market with
    | none =>
      rw [marketOf, marketOf, List.filterMap_cons_none hm]
      rfl
    | some event =>
      rw [marketOf, marketOf, List.filterMap_cons_some hm]
      rfl

/-! ## Fees -/

/-- The fee that the event says was burned. -/
def RuntimeEvent.fee : RuntimeEvent T → ℕ
  | .registrar (.nameRegistered _ _ _ _ fee) => fee.toNat
  | .registrar (.nameRenewed _ _ _ fee) => fee.toNat
  | .marketplace (.sold _ _ _ _ fee) => fee.toNat
  | .marketplace (.nameBoughtForRecipient _ _ _ _ _ fee) => fee.toNat
  | _ => 0

/-- The fees of the events. -/
def burned (es : List (RuntimeEvent T)) : ℕ := (es.map RuntimeEvent.fee).sum

theorem burned_append (es es' : List (RuntimeEvent T)) :
    burned (es ++ es') = burned es + burned es' := by
  simp [burned]

/-! ## Gifts -/

/-- The name whose gift the event is about, and the gift that is pending after it. -/
def RuntimeEvent.gift : RuntimeEvent T → Option (DomainHash × Option OfferedNameRecord)
  | .registrar (.nameBoughtForRecipient node buyer recipient) =>
    some (node, some ⟨buyer, recipient⟩)
  | .registrar (.offeredNameAccepted node _) => some (node, none)
  | .registrar (.offeredNameRejected node _) => some (node, none)
  | _ => none

/-- What the events do to the pending gifts. -/
def giftsOf (es : List (RuntimeEvent T)) : List (DomainHash × Option OfferedNameRecord) :=
  es.filterMap RuntimeEvent.gift

theorem giftsOf_append (es es' : List (RuntimeEvent T)) :
    giftsOf (es ++ es') = giftsOf es ++ giftsOf es' :=
  List.filterMap_append

/-- Enter one of them in the table. -/
def regift (table : DomainHash → Option OfferedNameRecord)
    (change : DomainHash × Option OfferedNameRecord) : DomainHash → Option OfferedNameRecord :=
  Function.update table change.1 change.2

theorem Index.apply_gift (ix : Index) (e : RuntimeEvent T) :
    (ix.apply e).gift = e.gift.elim ix.gift (regift ix.gift) := by
  cases e with
  | registrar event =>
    cases event with
    | subnameOffered parent subnode label target =>
      unfold Index.apply
      dsimp only
      split <;> rfl
    | _ => rfl
  | registry event | resolvers event | marketplace event | priceOracle event => cases event <;> rfl

theorem foldl_gift (es : List (RuntimeEvent T)) (ix : Index) :
    (es.foldl Index.apply ix).gift = (giftsOf es).foldl regift ix.gift := by
  induction es generalizing ix with
  | nil => rfl
  | cons e es ih =>
    rw [List.foldl_cons, ih, Index.apply_gift]
    cases hg : e.gift with
    | none =>
      rw [giftsOf, giftsOf, List.filterMap_cons_none hg]
      rfl
    | some change =>
      rw [giftsOf, giftsOf, List.filterMap_cons_some hg]
      rfl

/-! ## What each call reports -/

/-- The event is about no listing, no fee and no gift. -/
structure RuntimeEvent.Plain (e : RuntimeEvent T) : Prop where
  market : e.market = none
  fee : e.fee = 0
  gift : e.gift = none

theorem marketOf_plain (h : ∀ e ∈ es, e.Plain) : marketOf es = [] :=
  List.filterMap_eq_nil_iff.mpr fun e he => (h e he).market

theorem giftsOf_plain (h : ∀ e ∈ es, e.Plain) : giftsOf es = [] :=
  List.filterMap_eq_nil_iff.mpr fun e he => (h e he).gift

theorem burned_plain (h : ∀ e ∈ es, e.Plain) : burned es = 0 := by
  induction es with
  | nil => rfl
  | cons e es ih =>
    have hrest := ih fun e' he' => h e' (List.mem_cons_of_mem _ he')
    simp only [burned, List.map_cons, List.sum_cons, (h e List.mem_cons_self).fee, Nat.zero_add]
    exact hrest

/-- The calls that list nothing, sell nothing, charge nothing and answer no gift. -/
def Call.isPlain : Call T → Bool
  | .register _ _ _ | .renew | .acceptOfferedName _ | .createListing _ _ | .cancelListing
  | .buyName _ _ => false
  | _ => true

/-- The event of the registrar names no fee and no gift. -/
def RegistrarEvent.isPlain : RegistrarEvent → Bool
  | .nameRegistered _ _ _ _ _ | .nameRenewed _ _ _ _ | .nameBoughtForRecipient _ _ _
  | .offeredNameAccepted _ _ | .offeredNameRejected _ _ => false
  | _ => true

theorem plain_registrar {event : RegistrarEvent} (h : event.isPlain = true) :
    (.registrar event : RuntimeEvent T).Plain := by
  refine ⟨rfl, ?_, ?_⟩ <;> cases event <;> first | rfl | cases h

theorem plain_registry (event : RegistryEvent) : (.registry event : RuntimeEvent T).Plain :=
  ⟨rfl, rfl, rfl⟩

theorem plain_resolvers (event : ResolversEvent T) : (RuntimeEvent.resolvers event).Plain :=
  ⟨rfl, rfl, rfl⟩

theorem plain_priceOracle (event : PriceOracleEvent) :
    (.priceOracle event : RuntimeEvent T).Plain :=
  ⟨rfl, rfl, rfl⟩

theorem plain_single (h : e.Plain) : ∀ e' ∈ [e], e'.Plain := by
  intro e' he
  rwa [List.mem_singleton.mp he]

theorem plain_burnEvents (s : State T) (a : AccountId) (n : DomainHash) :
    ∀ e ∈ burnEvents s a n, e.Plain := by
  unfold burnEvents
  split
  · exact plain_single (plain_registry _)
  · simp

theorem plain_transferEvents (s : State T) (a : AccountId) (n : DomainHash) :
    ∀ e ∈ Registry.transferEvents s a n, e.Plain := by
  unfold Registry.transferEvents
  split
  · exact plain_single (plain_registry _)
  · simp

theorem callEvents_plain (hcall : call.isPlain = true) (h : callEvents s o call = .ok es) :
    ∀ e ∈ es, e.Plain := by
  cases call with
  | addReserved name =>
    simp only [callEvents, addReservedEvents, bind_eq_ok, pure_eq_ok] at h
    obtain ⟨-, -, rfl⟩ := h
    exact plain_single (plain_registrar rfl)
  | removeReserved name =>
    simp only [callEvents, removeReservedEvents, bind_eq_ok, pure_eq_ok] at h
    obtain ⟨-, -, rfl⟩ := h
    exact plain_single (plain_registrar rfl)
  | transfer dest =>
    simp only [callEvents, Registrar.transferEvents, bind_eq_ok, pure_eq_ok] at h
    obtain ⟨-, -, dest, -, n, -, rfl⟩ := h
    exact plain_transferEvents s dest n
  | releaseName =>
    simp only [callEvents, releaseNameEvents, bind_eq_ok, pure_eq_ok] at h
    obtain ⟨who, -, n, -, rfl⟩ := h
    exact plain_burnEvents s who n
  | offerSubdomain label target =>
    simp only [callEvents, offerSubdomainEvents, bind_eq_ok, pure_eq_ok] at h
    obtain ⟨-, -, -, -, -, -, -, -, rfl⟩ := h
    exact plain_single (plain_registrar rfl)
  | acceptSubdomain parent label =>
    simp only [callEvents, acceptSubdomainEvents, bind_eq_ok, pure_eq_ok] at h
    obtain ⟨-, -, -, -, -, -, rfl⟩ := h
    exact plain_single (plain_registrar rfl)
  | rejectSubdomain parent label =>
    simp only [callEvents, rejectSubdomainEvents, bind_eq_ok, pure_eq_ok] at h
    obtain ⟨-, -, -, -, -, -, rfl⟩ := h
    exact plain_single (plain_registrar rfl)
  | revokeSubdomain label =>
    simp only [callEvents, revokeSubdomainEvents, bind_eq_ok, pure_eq_ok] at h
    obtain ⟨-, -, -, -, -, -, rfl⟩ := h
    exact plain_single (plain_registrar rfl)
  | releaseSubdomain parent label =>
    simp only [callEvents, releaseSubdomainEvents, bind_eq_ok, pure_eq_ok] at h
    obtain ⟨-, -, -, -, -, -, rfl⟩ := h
    exact plain_single (plain_registrar rfl)
  | burn name =>
    simp only [callEvents, burnCallEvents, bind_eq_ok, pure_eq_ok] at h
    obtain ⟨who, -, n, -, rfl⟩ := h
    exact plain_burnEvents s who n
  | setOfficial official =>
    cases h
    simp
  | setRecord name recordType content =>
    simp only [callEvents, Resolvers.setRecordEvents, bind_eq_ok, pure_eq_ok] at h
    obtain ⟨-, -, rfl⟩ := h
    exact plain_single (plain_resolvers _)
  | setText name kind content =>
    simp only [callEvents, Resolvers.setTextEvents, bind_eq_ok, pure_eq_ok] at h
    obtain ⟨-, -, rfl⟩ := h
    exact plain_single (plain_resolvers _)
  | setExchangeRate rate =>
    simp only [callEvents, PriceOracle.setExchangeRateEvents, bind_eq_ok, pure_eq_ok] at h
    obtain ⟨-, -, rfl⟩ := h
    exact plain_single (plain_priceOracle _)
  | setBasePrice prices =>
    cases h
    exact plain_single (plain_priceOracle _)
  | setRentPrice prices =>
    cases h
    exact plain_single (plain_priceOracle _)
  | _ => cases hcall

/-- What `register` reports of an offer that is rejected with it: a gift is gone. -/
theorem rejectEvents_report {who : AccountId} {rejectOffer : Option Bytes}
    (h : rejectEvents s who rejectOffer = .ok es) :
    marketOf es = [] ∧ burned es = 0 ∧
      (rejectOffer = none ∧ giftsOf es = [] ∨ ∃ rejected r, rejectOffer = some rejected ∧
        parseNameToNode T.keccak256 rejected T.baseNode = some r ∧ giftsOf es = [(r, none)]) := by
  cases rejectOffer with
  | none =>
    cases h
    exact ⟨rfl, rfl, .inl ⟨rfl, rfl⟩⟩
  | some rejected =>
    simp only [rejectEvents, bind_eq_ok, okOr_eq_ok] at h
    obtain ⟨r, hr, h⟩ := h
    split at h
    · cases h
      have hburn := plain_burnEvents s who r
      rw [marketOf_append, burned_append, giftsOf_append, marketOf_plain hburn, burned_plain hburn,
        giftsOf_plain hburn]
      exact ⟨rfl, rfl, .inr ⟨rejected, r, rfl, hr, rfl⟩⟩
    · cases h
      exact ⟨rfl, rfl, .inr ⟨rejected, r, rfl, hr, rfl⟩⟩

/-- `register` reports the fee and what it rejects, and nothing of the marketplace. -/
theorem registerEvents_report {name : Bytes} {owner : MultiAddress} {rejectOffer : Option Bytes}
    (h : registerEvents s o name owner rejectOffer = .ok es) :
    marketOf es = [] ∧ (∃ fee,
      PriceOracle.registrationFee s.priceOracle name.length = some fee ∧ burned es = fee.toNat) ∧
    ∃ who rejected, o = .signed who ∧ rejectEvents s who rejectOffer = .ok rejected ∧
      giftsOf es = giftsOf rejected := by
  simp only [registerEvents, bind_eq_ok, okOr_eq_ok, pure_eq_ok] at h
  obtain ⟨who, hwho, dest, -, rejected, hrejected, label, hlabel, expire, -, fee, hfee, rfl⟩ := h
  obtain ⟨hmarket, hburned, -⟩ := rejectEvents_report hrejected
  have hlen : label.2 = name.length := by rw [(newWithLen_eq_some.mp hlabel).2]
  refine ⟨?_, ⟨fee, hlen ▸ hfee, ?_⟩, who, rejected, ensureSigned_eq_ok hwho, hrejected, ?_⟩
  · rw [marketOf_append, marketOf_append, hmarket]
    rfl
  · rw [burned_append, burned_append, hburned]
    simp [burned, mintEvents, RuntimeEvent.fee]
  · rw [giftsOf_append, giftsOf_append]
    exact (List.append_nil _).trans (List.append_nil _)

end PnsPallets
