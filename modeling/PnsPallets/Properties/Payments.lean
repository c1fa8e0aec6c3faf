import PnsPallets.Devnet
import PnsPallets.Frame.Funds
import PnsPallets.Names.Grammar
import PnsPallets.Refinement
import PnsPallets.Registry.Tables

/-!
# Where the money goes

Three extrinsics touch balances: `register` and `renew` burn the registration fee
of the caller, `buy_name` pays the seller and burns the protocol fee of the
proceeds. All others leave balances alone, and so does every call that fails
(`money_conserved`).

The balances pallet is a parameter; what is assumed of it is `Currency.Lawful`.
Nothing is assumed of the state: the frames below hold for any storage, consistent
or not.
-/

namespace PnsPallets

open Frame Registry Registrar

/-- The currency behaves as the balances pallet where the payer is kept alive, which is all that
the pallets ask for: a transfer moves the amount, and dropping the imbalance of a withdrawal burns
what was withdrawn. -/
structure Currency.Lawful {Ledger : Type} (c : Currency Ledger)
    (funds : Ledger → Funds AccountId) : Prop where
  transfer : ∀ l a b v l', c.transfer l a b v .keepAlive = .ok l' → a ≠ b →
    (funds l).Moves (funds l') a b v.toNat
  burn : ∀ l a v w, c.withdraw l a v .keepAlive = .ok w →
    (funds l).Burns (funds (c.dropImbalance w.1 w.2)) a v.toNat

variable {T : Config} {s s' : State T} {a b who : AccountId} {n p c : DomainHash}
  {o : Origin} {call : Call T}

/-! ## Frames -/

/-- What payments read and write. -/
def money (s : State T) : T.Ledger × PriceOracleStorage := (s.balances, s.priceOracle)

theorem doBurn_money (h : doBurn s a n = .ok s') : money s' = money s := by
  obtain ⟨infos, heq⟩ := doBurn_frame h
  exact (congrArg money heq :)

theorem doTransfer_money (h : doTransfer s a b n = .ok s') : money s' = money s :=
  (congrArg money (doTransfer_frame h) :)

theorem rejectPendingOffer_money {rejectOffer : Option Bytes}
    (h : rejectPendingOffer s who rejectOffer = .ok s') : money s' = money s := by
  obtain ⟨gifts, infos, heq⟩ := rejectPendingOffer_frame h
  exact (congrArg money heq :)

theorem transferName_money (h : transferName s a b n = .ok s') : money s' = money s := by
  obtain ⟨primary, primary', s₁, -, -, hmove, -, rfl⟩ := transferName_eq_ok h
  exact (doTransfer_money hmove :)

theorem offerBoughtName_money {buyer : AccountId}
    (h : offerBoughtName s a buyer b n = .ok s') : money s' = money s := by
  obtain ⟨primary, s₁, -, -, hmove, -, rfl⟩ := offerBoughtName_eq_ok h
  exact (doTransfer_money hmove :)

/-- Delivery follows payment, and moves no money. -/
theorem deliver_money {buyer : AccountId} {listing : Listing} {recipient : Option AccountId}
    (h : Marketplace.deliver s buyer listing n recipient = .ok s') : money s' = money s := by
  rcases deliver_cases h with ⟨recip, -, hoffer⟩ | ⟨-, s₁, v₁, v₂, htransfer, -, -, rfl⟩
  · exact offerBoughtName_money hoffer
  · exact (transferName_money htransfer :)

/-- The calls that take no payment. -/
def Call.isFree : Call T → Bool
  | .register _ _ _ | .renew | .buyName _ _ => false
  | .addReserved _ | .removeReserved _ | .transfer _ | .releaseName | .offerSubdomain _ _
  | .acceptSubdomain _ _ | .rejectSubdomain _ _ | .revokeSubdomain _ | .releaseSubdomain _ _
  | .acceptOfferedName _ | .burn _ | .setOfficial _ | .setRecord _ _ _ | .setText _ _ _
  | .createListing _ _ | .cancelListing | .setExchangeRate _ | .setBasePrice _
  | .setRentPrice _ => true

/-- Only `register`, `renew` and `buy_name` charge anybody. -/
theorem free_balances (hcall : call.isFree = true) (h : dispatch s o call = .ok s') :
    s'.balances = s.balances := by
  cases call with
  | register _ _ _ | renew | buyName _ _ => cases hcall
  | addReserved name =>
    obtain ⟨n, -, rfl⟩ := addReserved_eq_ok h
    rfl
  | removeReserved name =>
    obtain ⟨n, -, rfl⟩ := removeReserved_eq_ok h
    rfl
  | transfer dest =>
    obtain ⟨who, dest, n, primary, s₁, -, -, -, -, -, -, hmove, rfl⟩ := registrarTransfer_eq_ok h
    exact (congrArg Prod.fst (doTransfer_money hmove) :)
  | releaseName =>
    obtain ⟨who, n, -, -, hburn⟩ := releaseName_eq_ok h
    exact (congrArg Prod.fst (doBurn_money hburn) :)
  | offerSubdomain label target =>
    obtain ⟨who, dest, p, info, c, stored, -, -, -, -, -, -, -, hoffer⟩ := offerSubdomain_eq_ok h
    obtain ⟨-, -, token, -, -, rfl⟩ := offerSubname_eq hoffer
    rfl
  | acceptSubdomain parent label =>
    obtain ⟨who, p, c, info, s₁, q, v, -, -, -, -, -, haccept, -, rfl⟩ := acceptSubdomain_eq_ok h
    obtain ⟨-, -, d, -, -, -, rfl⟩ := acceptSubnameOffer_eq haccept
    rfl
  | rejectSubdomain parent label =>
    obtain ⟨who, p, c, -, -, -, hreject⟩ := rejectSubdomain_eq_ok h
    obtain ⟨d, -, -, -, rfl⟩ := rejectSubnameOffer_eq hreject
    rfl
  | revokeSubdomain label =>
    obtain ⟨who, p, c, -, -, -, hrevoke⟩ := revokeSubdomain_eq_ok h
    exact (congrArg State.balances (revokeSubname_frame hrevoke) :)
  | releaseSubdomain parent label =>
    obtain ⟨who, p, c, q, -, -, -, hrelease⟩ := releaseSubdomain_eq_ok h
    exact (congrArg State.balances (releaseSubname_frame hrelease) :)
  | acceptOfferedName name =>
    obtain ⟨who, n, offer, info, primary, v₁, v₂, -, -, -, -, -, -, -, -, -, -, rfl⟩ :=
      acceptOfferedName_eq_ok h
    rfl
  | burn name =>
    obtain ⟨who, n, -, -, hburn⟩ := burn_eq_ok h
    exact congrArg Prod.fst (doBurn_money hburn)
  | setOfficial official =>
    obtain ⟨nft, rfl⟩ := setOfficial_eq_ok h
    rfl
  | setRecord name recordType content =>
    obtain ⟨who, n, -, -, -, -, -, rfl⟩ := setRecord_eq_ok h
    rfl
  | setText name kind content =>
    obtain ⟨who, n, -, -, -, rfl⟩ := setText_eq_ok h
    rfl
  | createListing price expiresAt =>
    obtain ⟨who, n, -, -, -, -, rfl⟩ := createListing_eq_ok h
    rfl
  | cancelListing =>
    obtain ⟨who, n, -, -, -, rfl⟩ := cancelListing_eq_ok h
    rfl
  | setExchangeRate rate =>
    obtain ⟨manager, -, rfl⟩ := setExchangeRate_eq_ok h
    rfl
  | setBasePrice prices => rw [setBasePrice_eq_ok h]
  | setRentPrice prices => rw [setRentPrice_eq_ok h]

/-! ## Fees of registrations -/

/-- A fee is withdrawn from an account and burned. -/
def Charged (s : State T) (who : AccountId) (fee : Balance) (s' : State T) : Prop :=
  ∃ w, T.currency.withdraw s.balances who fee .keepAlive = .ok w ∧
    s'.balances = T.currency.dropImbalance w.1 w.2

theorem burnFee_charged {fee : Balance} (h : burnFee s who fee = .ok s') :
    Charged s who fee s' := by
  unfold burnFee at h
  simp only [bind_eq_ok, ofCurrency_eq_ok, pure_eq_ok] at h
  obtain ⟨w, hw, rfl⟩ := h
  exact ⟨w, hw, rfl⟩

theorem registerPayments_charged {fee : Balance} {expire : Moment} {len : Nat}
    {prev : Option AccountId} (h : registerPayments who n fee expire len s prev = .ok s') :
    Charged s who fee s' := by
  unfold registerPayments at h
  simp only [bind_eq_ok, pure_eq_ok] at h
  obtain ⟨s₁, hfee, rfl⟩ := h
  obtain ⟨primary, heq, -⟩ := freePreviousOwner_eq s n prev
  have hcharged := burnFee_charged hfee
  rw [heq] at hcharged
  exact hcharged

/-- The caller of `register` is charged the fee of the label. -/
theorem register_charged {name : Bytes} {owner : MultiAddress} {rejectOffer : Option Bytes}
    (h : Registrar.register s o name owner rejectOffer = .ok s') :
    ∃ who fee, o = .signed who ∧
      PriceOracle.registrationFee s.priceOracle name.length = some fee ∧
      Charged s who fee s' := by
  obtain ⟨who, dest, s₁, rfl, -, hrej, h⟩ := register_eq_ok h
  obtain ⟨n, fee, expire, primary, s₂, v₁, v₂, hr, rfl⟩ := registerName_eq_ok h
  obtain ⟨official, -, hmint⟩ := hr.mint
  obtain ⟨s₃, hpay, hfinish⟩ := mintSubname_eq_ok hmint
  have hmoney := rejectPendingOffer_money hrej
  have hprice := hr.price
  rw [show s₁.priceOracle = s.priceOracle from congrArg Prod.snd hmoney] at hprice
  obtain ⟨w, hw, hbalances⟩ := registerPayments_charged hpay
  have hw' : T.currency.withdraw s₁.balances who fee .keepAlive = .ok w := hw
  rw [show s₁.balances = s.balances from congrArg Prod.fst hmoney] at hw'
  have hkept : s₂.balances = s₃.balances := (congrArg State.balances (mintFinish_frame hfinish) :)
  exact ⟨who, fee, rfl, hprice, w, hw', hkept.trans hbalances⟩

/-- The caller of `renew` is charged the fee of the length on record. -/
theorem renew_charged (h : renew s o = .ok s') :
    ∃ who n info fee, o = .signed who ∧ s.registrar.ownerToPrimaryName.get who = some n ∧
      s.registrar.registrarInfos.get n = some info ∧
      PriceOracle.registrationFee s.priceOracle info.labelLen.toNat = some fee ∧
      Charged s who fee s' := by
  obtain ⟨who, n, info, fee, balances, expire, rfl, hn, hinfo, -, hfee, hburn, -, rfl⟩ :=
    renew_eq_ok h
  exact ⟨who, n, info, fee, rfl, hn, hinfo, hfee, (burnFee_charged hburn :)⟩

/-- The balances after a sale are those of its payment. -/
theorem buyName_settled {name : Bytes} {recipient : Option AccountId}
    (h : Marketplace.buyName s o name recipient = .ok s') :
    ∃ buyer n listing, o = .signed buyer ∧ Marketplace.listedNode T name = .ok n ∧
      s.listings.get n = some listing ∧ buyer ≠ listing.seller ∧
      Settled T s.balances buyer listing s'.balances := by
  obtain ⟨buyer, n, listing, balances, ho, hn, hlisting, hne, -, -, hsettled, hdeliver⟩ :=
    buyName_eq_ok h
  have hkept : s'.balances = balances := congrArg Prod.fst (deliver_money hdeliver)
  exact ⟨buyer, n, listing, ho, hn, hlisting, hne, hkept ▸ hsettled⟩

section Fees

variable {funds : T.Ledger → Funds AccountId} (hlaw : T.currency.Lawful funds)

include hlaw

theorem Charged.burns {fee : Balance} (h : Charged s who fee s') :
    (funds s.balances).Burns (funds s'.balances) who fee.toNat := by
  obtain ⟨w, hw, hbalances⟩ := h
  rw [hbalances]
  exact hlaw.burn _ _ _ _ hw

/-- A sale pays the seller, who burns the protocol fee. -/
theorem buyName_sells {name : Bytes} {recipient : Option AccountId}
    (h : Marketplace.buyName s o name recipient = .ok s') :
    ∃ buyer n listing, o = .signed buyer ∧ Marketplace.listedNode T name = .ok n ∧
      s.listings.get n = some listing ∧
      (funds s.balances).Sells (funds s'.balances) buyer listing.seller listing.price.toNat
        (Marketplace.protocolFee T listing.price).toNat := by
  obtain ⟨buyer, n, listing, rfl, hn, hlisting, hne, paid, withdrawn, hpaid, hfee, hbalances⟩ :=
    buyName_settled h
  refine ⟨buyer, n, listing, rfl, hn, hlisting, ?_⟩
  rw [hbalances]
  exact (hlaw.transfer _ _ _ _ _ hpaid hne).burns hne (hlaw.burn _ _ _ _ hfee)

end Fees

/-! ## The protocol fee -/

/-- The fee in numbers: the product saturates before it is divided. -/
theorem protocolFee_toNat (T : Config) (price : Balance) :
    (Marketplace.protocolFee T price).toNat
      = min (price.toNat * T.protocolFeeBps.toNat) (2 ^ 128 - 1) / 10000 := by
  have hbps : (BitVec.ofNat 128 T.protocolFeeBps.toNat).toNat = T.protocolFeeBps.toNat := by
    rw [BitVec.toNat_ofNat]
    exact Nat.mod_eq_of_lt (T.protocolFeeBps.toNat_lt.trans (by decide))
  unfold Marketplace.protocolFee saturatingMul128
  rw [BitVec.toNat_udiv, hbps]
  split
  · next hfit =>
    rw [BitVec.toNat_mul, hbps, Nat.mod_eq_of_lt hfit, Nat.min_eq_left (by omega)]
    rfl
  · next hfit =>
    rw [BitVec.toNat_allOnes, Nat.min_eq_right (by omega)]
    rfl

theorem protocolFee_le (hbps : T.protocolFeeBps.toNat ≤ 10000) (price : Balance) :
    (Marketplace.protocolFee T price).toNat ≤ price.toNat := by
  rw [protocolFee_toNat]
  refine Nat.div_le_of_le_mul ?_
  calc min (price.toNat * T.protocolFeeBps.toNat) (2 ^ 128 - 1)
      ≤ price.toNat * T.protocolFeeBps.toNat := Nat.min_le_left _ _
    _ ≤ price.toNat * 10000 := Nat.mul_le_mul_left _ hbps
    _ = 10000 * price.toNat := Nat.mul_comm _ _

theorem protocolFee_mono {price price' : Balance} (h : price.toNat ≤ price'.toNat) :
    (Marketplace.protocolFee T price).toNat ≤ (Marketplace.protocolFee T price').toNat := by
  rw [protocolFee_toNat, protocolFee_toNat]
  have hmul := Nat.mul_le_mul_right T.protocolFeeBps.toNat h
  exact Nat.div_le_div_right (by omega)

/-! ## All extrinsics -/

/-- Where the money of a successful call goes. -/
def Settles (funds : T.Ledger → Funds AccountId) (s : State T) (o : Origin) (s' : State T) :
    Call T → Prop
  | .register name _ _ => ∃ who fee, o = .signed who ∧
      PriceOracle.registrationFee s.priceOracle name.length = some fee ∧
      (funds s.balances).Burns (funds s'.balances) who fee.toNat
  | .renew => ∃ who n info fee, o = .signed who ∧
      s.registrar.ownerToPrimaryName.get who = some n ∧
      s.registrar.registrarInfos.get n = some info ∧
      PriceOracle.registrationFee s.priceOracle info.labelLen.toNat = some fee ∧
      (funds s.balances).Burns (funds s'.balances) who fee.toNat
  | .buyName name _ => ∃ buyer n listing, o = .signed buyer ∧
      Marketplace.listedNode T name = .ok n ∧ s.listings.get n = some listing ∧
      (funds s.balances).Sells (funds s'.balances) buyer listing.seller listing.price.toNat
        (Marketplace.protocolFee T listing.price).toNat
  | _ => s'.balances = s.balances

/-- What each call does to the balances. -/
theorem settles_of_dispatch {funds : T.Ledger → Funds AccountId}
    (hlaw : T.currency.Lawful funds) (h : dispatch s o call = .ok s') :
    Settles funds s o s' call := by
  cases call with
  | register name owner rejectOffer =>
    obtain ⟨who, fee, ho, hfee, hcharged⟩ := register_charged h
    exact ⟨who, fee, ho, hfee, hcharged.burns hlaw⟩
  | renew =>
    obtain ⟨who, n, info, fee, ho, hn, hinfo, hfee, hcharged⟩ := renew_charged h
    exact ⟨who, n, info, fee, ho, hn, hinfo, hfee, hcharged.burns hlaw⟩
  | buyName name recipient => exact buyName_sells hlaw h
  | _ => exact free_balances rfl h

/-- A failing call changes no balance; a registration or renewal burns the fee of the
caller and nothing else; a sale takes the price from the buyer, gives it to the
seller less the fee, and burns the fee; and every other call leaves balances and
issuance alone. The fee is between zero and the price, grows with the price, and is
the rounded share of it unless the product saturates. -/
theorem money_conserved {keccak256 : Bytes → H256} {Ledger : Type}
    {currency : Currency Ledger} (hT : T = runtimeConfig keccak256 Ledger currency)
    {funds : T.Ledger → Funds AccountId} (hlaw : T.currency.Lawful funds) (s : State T)
    (o : Origin) (call : Call T) :
    (∀ e, dispatch s o call = .error e →
      (apply s (.extrinsic o call)).balances = s.balances) ∧
    (∀ s', dispatch s o call = .ok s' → Settles funds s o s' call) ∧
    (∀ price, (Marketplace.protocolFee T price).toNat ≤ price.toNat) ∧
    (∀ price price' : Balance, price.toNat ≤ price'.toNat →
      (Marketplace.protocolFee T price).toNat ≤ (Marketplace.protocolFee T price').toNat) ∧
    ∀ price : Balance, price.toNat * T.protocolFeeBps.toNat < 2 ^ 128 →
      (Marketplace.protocolFee T price).toNat
        = price.toNat * T.protocolFeeBps.toNat / 10000 := by
  have hbps : T.protocolFeeBps.toNat ≤ 10000 := by
    rw [hT]
    exact (by decide : 200 ≤ 10000)
  refine ⟨fun e he => ?_, fun s' hs' => settles_of_dispatch hlaw hs', protocolFee_le hbps,
    fun _ _ => protocolFee_mono, fun price hfit => ?_⟩
  · show (commit s (dispatch s o call)).balances = s.balances
    rw [he]
    rfl
  · rw [protocolFee_toNat, Nat.min_eq_left (by omega)]

namespace Devnet

/-- A currency that keeps its funds as they are. -/
def purse : Currency (Funds AccountId) where
  transfer f source dest value _ :=
    if source = dest then .ok f
    else if f.free source < value.toNat then .error 2
    else .ok { f with
      free := Function.update (Function.update f.free source (f.free source - value.toNat)) dest
        (f.free dest + value.toNat) }
  withdraw f who value _ :=
    if f.free who < value.toNat ∨ f.issuance < value.toNat then .error 2
    else .ok
      ({ f with free := Function.update f.free who (f.free who - value.toNat) }, value)
  dropImbalance f imbalance := { f with issuance := f.issuance - imbalance.toNat }

theorem purse_lawful : purse.Lawful id where
  transfer f a b v f' h hab := by
    simp only [purse, if_neg hab] at h
    split at h
    · cases h
    · next hle =>
      cases h
      constructor
      · simp only [id, Function.update_of_ne hab, Function.update_self]
        omega
      · simp
      · intro x hxa hxb
        simp [hxa, hxb]
      · rfl
  burn f a v w h := by
    simp only [purse] at h
    split at h
    · cases h
    · next hle =>
      cases h
      rw [not_or, Nat.not_lt, Nat.not_lt] at hle
      constructor
      · simp only [purse, id, Function.update_self]
        omega
      · intro x hx
        simp [purse, hx]
      · simp only [purse, id]
        omega

/-- The runtime over this currency. -/
def purseConfig : Config := runtimeConfig keccak256 (Funds AccountId) purse

/-- Its genesis, with account 1 endowed. -/
def purseStart : State purseConfig :=
  (genesis purseConfig (account 0)
    { free := fun x => if x = account 1 then endowment.toNat else 0
      issuance := endowment.toNat } (digest 0)).toOption.get (by decide +kernel)

end Devnet

open Devnet in
/-- Account 1 burns ten units for `alice`. -/
theorem money_conserved_registration :
    ∃ s', dispatch purseStart (.signed (account 1)) (.register alice (.id (account 1)) none)
        = .ok s' ∧
      Funds.free s'.balances (account 1) + 10000000000000
        = Funds.free purseStart.balances (account 1) := by
  obtain ⟨s', hok⟩ : ∃ s', dispatch purseStart (.signed (account 1))
      (.register alice (.id (account 1)) none) = .ok s' :=
    ⟨_, eq_ok_commit (by decide +kernel) purseStart⟩
  obtain ⟨who, fee, hwho, hfee, hburns⟩ :=
    (money_conserved (T := purseConfig) rfl purse_lawful purseStart _ _).2.1 _ hok
  have htable : PriceOracle.registrationFee purseStart.priceOracle alice.length
      = some 10000000000000 := by decide +kernel
  cases hwho
  have hfee : fee.toNat = 10000000000000 := by
    rw [Option.some.inj (hfee.symm.trans htable)]
    decide +kernel
  have hpayer := hburns.payer
  rw [hfee] at hpayer
  exact ⟨s', hok, hpayer⟩

end PnsPallets
