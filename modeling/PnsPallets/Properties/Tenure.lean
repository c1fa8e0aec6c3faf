import PnsPallets.Properties.DnsAnswers
import PnsPallets.Properties.Gifts
import PnsPallets.Properties.Sales

/-!
# A name that is left alone

What an owner can rely on. As long as the name is not past its grace period and not for sale, and
the owner does nothing with it but renew it, whatever all other accounts do, in any order and over
any number of blocks, leaves the name with its owner, and its records and texts as they are
(`name_left_alone`). So a record, once stored, is what the DNS server answers with
(`record_served`).

The argument: a change of the name needs somebody entitled to it (`entitled_of_change`), and the
ways to become entitled without the owner are a listing of theirs, a gift of the name under such a
listing, and a lapse.
-/

namespace PnsPallets

open Frame Registry Registrar Zones

variable {T : Config} {L : Set Bytes} {s s' : State T} {o : Origin} {call : Call T}
  {a : AccountId} {n : DomainHash} {i : Input T}

/-- The owner does nothing but renew. -/
def Input.Idle (a : AccountId) : Input T → Prop
  | .extrinsic o call => o = .signed a → call = .renew
  | .newBlock _ _ _ _ => True

/-- `a` owns the name, and it is neither for sale nor given away. -/
structure Tenure (a : AccountId) (n : DomainHash) (s : State T) : Prop where
  owned : s.nft.ownerOf n = some a
  unlisted : ∀ listing, s.listings.get n = some listing → listing.seller ≠ a
  ungifted : pendingGift s n = none

/-- The inputs that leave the name alone: it has not lapsed, and the owner does nothing but
renew. -/
def LeftAlone (L : Set Bytes) (a : AccountId) (n : DomainHash) (s : State T) (i : Input T) : Prop :=
  Admissible L s i ∧ ¬ Lapsed s n ∧ i.Idle a

/-! ## Steps -/

theorem same_refl (m : DomainHash) (z : NameZone) : Zone.Same m z z :=
  ⟨rfl, rfl, fun _ => rfl, rfl, rfl⟩

/-- A top-level name is no subname. -/
theorem Reachable.not_delegated (hcf : CollisionFree T.keccak256 T.baseNode L)
    (h : Reachable T L s) (htop : TopLevel T L n) : s.registry.subnameRecords.get n = none := by
  cases hd : s.registry.subnameRecords.get n with
  | none => rfl
  | some d => exact absurd htop (((h.consistent hcf).indexed.named n d hd).not_topLevel hcf)

theorem renew_zone (hcf : CollisionFree T.keccak256 T.baseNode L) (h : Reachable T L s)
    (hok : dispatch s o .renew = .ok s') : zone s' = zone s := by
  have hadm : Admissible L s (.extrinsic o .renew) := by simp [Admissible, Call.labels]
  obtain ⟨es, hmakes, hleads⟩ := h.makes hcf hadm hok
  cases hmakes with
  | silent => exact hleads.2.symm

/-- Nobody else can do anything to the name. -/
theorem Tenure.same (hcf : CollisionFree T.keccak256 T.baseNode L) (h : Reachable T L s)
    (hne : n ≠ T.baseNode) (ht : Tenure a n s) (hL : ∀ l ∈ call.labels, l ∈ L)
    (hlive : ¬ Lapsed s n) (hidle : (Input.extrinsic o call).Idle a)
    (hok : dispatch s o call = .ok s') : Zone.Same n (zone s) (zone s') := by
  by_contra hchange
  have htop := (h.consistent hcf).hierarchy.top n (by rw [ht.owned]; rfl) hne
  have hplain := h.not_delegated hcf htop
  have hplain' := (h.extrinsic hok hL).not_delegated hcf htop
  -- the name itself is meant wherever a call reaches it
  have hself : ∀ {p : DomainHash}, Under s p n → n = p := by
    rintro p (heq | ⟨d, hd, -⟩)
    · exact heq
    · cases hplain.symm.trans hd
  obtain ⟨w, rfl, hentitled⟩ := entitled_of_change hcf h hL hok hchange
  have hown : w ≠ a := by
    rintro rfl
    obtain rfl := hidle rfl
    exact hchange (renew_zone hcf h hok ▸ same_refl n _)
  cases hentitled with
  | owner howner hunder =>
    obtain rfl := hself hunder
    exact hown (Option.some.inj (howner.symm.trans ht.owned))
  | target hd htarget => cases hplain.symm.trans hd
  | parent hd hparent =>
    rcases hd with hd | hd
    · cases hplain.symm.trans hd
    · cases hplain'.symm.trans hd
  | gift hoffer => cases ht.ungifted.symm.trans hoffer
  | registers hp hlapsed hunder =>
    obtain rfl := hself hunder
    exact hlive hlapsed
  | buys hp hlisting hseller hunder =>
    obtain rfl := hself hunder
    exact ht.unlisted _ hlisting (Option.some.inj (hseller.symm.trans ht.owned))

/-- Nobody else puts the name up for sale. -/
theorem Tenure.still_unlisted (hcf : CollisionFree T.keccak256 T.baseNode L) (h : Reachable T L s)
    (ht : Tenure a n s) (hL : ∀ l ∈ call.labels, l ∈ L)
    (hidle : (Input.extrinsic o call).Idle a) (hok : dispatch s o call = .ok s') :
    ∀ listing, s'.listings.get n = some listing → listing.seller ≠ a := by
  rintro listing hget rfl
  obtain ⟨es, -, hdeals, hlistings⟩ := h.deals hcf hL hok
  rcases hdeals.listing_from hlistings hget with ⟨rfl, rfl, -⟩ | hold
  · cases hidle rfl
  · exact ht.unlisted listing hold rfl

/-- The name is not bought for anybody. -/
theorem Tenure.still_ungifted (hcf : CollisionFree T.keccak256 T.baseNode L) (h : Reachable T L s)
    (ht : Tenure a n s) (hL : ∀ l ∈ call.labels, l ∈ L) (hok : dispatch s o call = .ok s') :
    pendingGift s' n = none := by
  obtain ⟨gs, hgives, hafter⟩ := h.gives hcf hL hok
  cases hgift : pendingGift s' n with
  | none => rfl
  | some g =>
    rcases hgives.made ((congrFun hafter n).symm.trans hgift) with
      ⟨name, -, -, -, -, listing, hlisting, hseller⟩ | hold
    · have hown : s.nft.ownerOf n = some listing.seller := hseller
      exact absurd (Option.some.inj (hown.symm.trans ht.owned)) (ht.unlisted listing hlisting)
    · cases ht.ungifted.symm.trans hold

/-- One input leaves the name as it is. -/
theorem Tenure.step (hcf : CollisionFree T.keccak256 T.baseNode L) (h : Reachable T L s)
    (hne : n ≠ T.baseNode) (ht : Tenure a n s) (halone : LeftAlone L a n s i) :
    Tenure a n (apply s i) ∧ Zone.Same n (zone s) (zone (apply s i)) := by
  obtain ⟨hadm, hlive, hidle⟩ := halone
  cases i with
  | newBlock now number hash ledger =>
    exact ⟨⟨ht.owned, ht.unlisted, ht.ungifted⟩, same_refl n _⟩
  | extrinsic o call =>
    rcases commit_cases s (dispatch s o call) with hsame | hok
    · have hsame : apply s (.extrinsic o call) = s := hsame
      rw [hsame]
      exact ⟨ht, same_refl n _⟩
    · have hzone := ht.same hcf h hne hadm hlive hidle hok
      have hown : (zone s).owner n = some a := view_owner_eq_some.mpr ⟨hne, ht.owned⟩
      exact ⟨⟨(view_owner_eq_some.mp (hzone.owner.trans hown)).2,
        ht.still_unlisted hcf h hadm hidle hok, ht.still_ungifted hcf h hadm hok⟩, hzone⟩

/-! ## Runs -/

/-- Along a run that leaves the name alone, it stays as it is. -/
theorem Tenure.run (hcf : CollisionFree T.keccak256 T.baseNode L) (h : Reachable T L s)
    (hne : n ≠ T.baseNode) (ht : Tenure a n s) {tr : List (State T)} {t : State T}
    (hpath : (chain T).Path (LeftAlone L a n) s tr t) :
    ∀ x ∈ tr, Tenure a n x ∧ Zone.Same n (zone s) (zone x) := by
  have hall := hpath.invariant
    (I := fun x => Reachable T L x ∧ Tenure a n x ∧ Zone.Same n (zone s) (zone x))
    ⟨h, ht, same_refl n _⟩ fun u i halone ⟨hu, htu, hzone⟩ => by
      obtain ⟨htu', hzone'⟩ := htu.step hcf hu hne halone
      exact ⟨hu.step halone.1, htu', hzone.trans hzone'⟩
  exact fun x hx => (hall x hx).2

/-- **A name that is left alone stays as it is.** Let `a` own the name, without a listing of
theirs and without a pending gift of it. On every run on which the name does not lapse and `a`
does nothing but renew it, whatever the others do, it is still theirs, and all its records and
texts are what they were. -/
theorem name_left_alone (hcf : CollisionFree T.keccak256 T.baseNode L) (h : Reachable T L s)
    (hne : n ≠ T.baseNode) (ht : Tenure a n s) {tr : List (State T)} {t : State T}
    (hpath : (chain T).Path (LeftAlone L a n) s tr t) :
    ∀ x ∈ tr, Tenure a n x ∧
      (∀ k, Resolvers.recordOf x.resolvers n k = Resolvers.recordOf s.resolvers n k) ∧
      ∀ k, Resolvers.textOf x.resolvers n k = Resolvers.textOf s.resolvers n k := by
  intro x hx
  obtain ⟨htx, hzone⟩ := ht.run hcf h hne hpath x hx
  exact ⟨htx, fun k => congrFun hzone.record k, fun k => congrFun hzone.text k⟩

/-- Account 2 registers `bob`. -/
def Devnet.bobInput : Input Devnet.config :=
  .extrinsic (.signed (account 2)) (.register bob (.id (account 2)) none)

open Devnet in
theorem Devnet.bobInput_leftAlone {s : State config}
    (hown : s.nft.ownerOf (node alice) = some (account 1))
    (hterm : ∀ info ∈ s.registrar.registrarInfos.get (node alice), ¬ s.now > graceEnd config info) :
    LeftAlone labels (account 1) (node alice) s bobInput := by
  have hlabels : ∀ l ∈ [toAsciiLowercase bob], l ∈ labels := by decide +kernel
  refine ⟨hlabels, ?_, fun hsame => absurd hsame (by decide)⟩
  rintro (hnone | ⟨info, hinfo, hlt⟩)
  · cases hown.symm.trans hnone
  · exact hterm info hinfo hlt

theorem Tenure.of_unlisted (hown : s.nft.ownerOf n = some a) (hlisting : s.listings.get n = none)
    (hgift : pendingGift s n = none) : Tenure a n s where
  owned := hown
  unlisted listing hget := absurd (hlisting.symm.trans hget) (by simp)
  ungifted := hgift

open Devnet in
/-- The address of `alice` stands after account 2 has registered `bob`. -/
theorem name_left_alone_beside_bob :
    Resolvers.recordOf (apply furnished bobInput).resolvers (node alice) .A
      = some [192, 0, 2, 1] := by
  have hown : furnished.nft.ownerOf (node alice) = some (account 1) := by decide +kernel
  have hrecord : Resolvers.recordOf furnished.resolvers (node alice) .A = some [192, 0, 2, 1] := by
    decide +kernel
  have htenure : Tenure (account 1) (node alice) furnished :=
    .of_unlisted hown (by decide +kernel) (by decide +kernel)
  have hpath := path_step .refl (bobInput_leftAlone hown (by decide +kernel))
  obtain ⟨-, hkept, -⟩ := name_left_alone collisionFree furnished_reachable (by decide +kernel)
    htenure hpath _ hpath.last_mem
  exact (hkept .A).trans hrecord

/-! ## From the owner to the resolver -/

/-- The record is stored. -/
theorem setRecord_stores {name : Bytes} {k : RecordType} {content : Content T}
    (hn : parseNameToNode T.keccak256 name T.baseNode = some n)
    (hok : dispatch s (.signed a) (.setRecord name k content) = .ok s') :
    k ≠ .SS58 ∧ k ≠ .ORIGIN ∧
      s' = { s with resolvers.records := s.resolvers.records.insert (n, k) content } := by
  obtain ⟨w, m, -, hss58, horigin, hm, -, rfl⟩ := setRecord_eq_ok hok
  obtain rfl : n = m := Option.some.inj (hn.symm.trans hm)
  exact ⟨hss58, horigin, rfl⟩

/-- **What is stored is served.** Let the owner store a record of a type that is looked up, and
leave the name alone from then on. Then, in every state to come, the DNS server answers a query
for that type, under any spelling of the name, with what the record decodes to, and with nothing
else. -/
theorem record_served (hcf : CollisionFree T.keccak256 T.baseNode L) (h : Reachable T L s)
    (ht : Tenure a n s) {name : Bytes} {k : RecordType} {content : Content T}
    (hn : parseNameToNode T.keccak256 name T.baseNode = some n)
    (hL : ∀ l ∈ nameLabels name, l ∈ L)
    (hok : dispatch s (.signed a) (.setRecord name k content) = .ok s')
    {tr : List (State T)} {t : State T} (hpath : (chain T).Path (LeftAlone L a n) s' tr t)
    {lib : DnsLibrary} {authority : BlockChainAuthority T lib}
    (ht' : authority.client.bestState = some t) {query : lib.DnsName} {label : Bytes}
    (hquery : authority.Below query label)
    (hlabel : parseNameToNode T.keccak256 label T.baseNode = some n)
    {q : WireType lib.Variant} (hq : q.intoCodec = .ok k) (hsoa : q ≠ .known .SOA)
    (hlooked : k ∉ Resolvers.blocked) (hcontent : content.val ≠ []) (r : DnsRecord lib) :
    authority.Answers query q r ↔
      ∃ d, Decodes lib k content.val d ∧ r = .fromRdata query 300 d := by
  have hne := parsed_ne_base hcf hL hn
  obtain ⟨-, -, hstored⟩ := setRecord_stores hn hok
  have htenure : Tenure a n s' := by
    subst hstored
    exact ⟨ht.owned, ht.unlisted, ht.ungifted⟩
  have hkept := (htenure.run hcf (h.extrinsic hok hL) hne hpath t hpath.last_mem).2
  have hrecord : Resolvers.recordOf t.resolvers n k = some content.val := by
    refine (congrFun hkept.record k).trans ?_
    show Resolvers.recordOf s'.resolvers n k = some content.val
    rw [hstored, Resolvers.recordOf_insert]
    simp
  have hread : Resolvers.contentOf t.resolvers (nodeOfName T label) k = content.val := by
    unfold nodeOfName
    rw [hlabel]
    exact congrArg (Option.getD · []) hrecord
  have hany : q ≠ .known .ANY := by
    rintro rfl
    cases hq
    exact hlooked (by decide)
  rw [answers_of_type ht' hquery hq hany hsoa, hread]
  simp [hlooked, hcontent]

/-- Account 1 has registered `alice` and stored an address. -/
def Devnet.addressed : State Devnet.config :=
  apply afterRegistration
    (.extrinsic (.signed (account 1)) (.setRecord alice .A address))

open Devnet in
/-- The address of `alice` is served after account 2 has registered `bob`. -/
theorem record_served_for_alice :
    (dnsServer (apply addressed bobInput)).Answers (dnsName alice) (.known .A)
      (.fromRdata (dnsName alice) 300 (.A ⟨[192, 0, 2, 1], rfl⟩)) := by
  have hok : (dispatch afterRegistration (.signed (account 1))
      (.setRecord alice .A address)).isOk = true := by decide +kernel
  have htenure : Tenure (account 1) (node alice) afterRegistration :=
    .of_unlisted (by decide +kernel) (by decide +kernel) (by decide +kernel)
  have hown : addressed.nft.ownerOf (node alice) = some (account 1) := by decide +kernel
  have hpath := path_step .refl (bobInput_leftAlone hown (by decide +kernel))
  have hdecodes : Decodes dnsLibrary .A [192, 0, 2, 1] (.A ⟨[192, 0, 2, 1], rfl⟩) :=
    ⟨⟨[192, 0, 2, 1], rfl⟩, by decide +kernel, rfl⟩
  have hnode : parseNameToNode config.keccak256 alice config.baseNode = some (node alice) := by
    decide +kernel
  exact (record_served collisionFree
    afterRegistration_reachable htenure hnode (by decide +kernel)
    (eq_ok_commit hok afterRegistration) hpath rfl (dnsName_below _ alice) hnode rfl (by decide)
    (by decide) (by decide) _).mpr ⟨_, hdecodes, rfl⟩

end PnsPallets
