import PnsPallets.Devnet
import PnsPallets.Reachability

/-!
# The life of a subname

A subname is offered by the account that answers to its parent, and accepted or
rejected by its target; it ends when either gives it up, or with the parent.
`Moved` lists these moves with who signs them, and `subname_life_cycle` says that
no input moves a record in any other way. The record moved is that of the node that
the labels in the arguments name, and the parent the calls find from them is the one
in the record, so the expiry that `accept_subdomain` checks is that of the record's
own parent.
-/

namespace PnsPallets

open Frame Registry Registrar Zones

variable {T : Config} {L : Set Bytes} {s s' : State T} {o : Origin} {call : Call T}
  {c p : DomainHash}

/-! ## The moves -/

/-- The extrinsics that end a name in the hands of its owner: a hand-over, a
re-registration, or a burn. -/
inductive EndsName (s : State T) (p : DomainHash) : Origin → Call T → Prop where
  | register {who : AccountId} {name : Bytes} {owner : MultiAddress}
      {rejectOffer : Option Bytes} :
      topLevelNode T name = .ok p → EndsName s p (.signed who) (.register name owner rejectOffer)
  | transfer {who : AccountId} {dest : MultiAddress} :
      s.registrar.ownerToPrimaryName.get who = some p →
      EndsName s p (.signed who) (.transfer dest)
  | buyName {buyer : AccountId} {name : Bytes} {recipient : Option AccountId} :
      Marketplace.listedNode T name = .ok p →
      EndsName s p (.signed buyer) (.buyName name recipient)
  | releaseName {who : AccountId} : s.registrar.ownerToPrimaryName.get who = some p →
      EndsName s p (.signed who) .releaseName
  | burn {who : AccountId} {name : Bytes} :
      parseNameToNode T.keccak256 name T.baseNode = some p →
      EndsName s p (.signed who) (.burn name)
  | rejectGift {who : AccountId} {name rejected : Bytes} {owner : MultiAddress}
      {offer : OfferedNameRecord} :
      parseNameToNode T.keccak256 rejected T.baseNode = some p →
      s.registrar.offeredNames.get p = some offer → offer.recipient = who →
      EndsName s p (.signed who) (.register name owner (some rejected))

/-- What an input can do to the record of the subname `c`. -/
inductive Moved (s : State T) (c : DomainHash) : Input T → Option SubnameRecord → Prop where
  | unchanged {i : Input T} : Moved s c i (s.registry.subnameRecords.get c)
  | offered {who : AccountId} {label : Bytes} {d : SubnameRecord} {info : RegistrarInfo} :
      s.registry.subnameRecords.get c = none → d.state = .offered →
      childNode T d.parent label = .ok c → d.label.val = label →
      s.registrar.ownerToPrimaryName.get who = some d.parent →
      s.registrar.registrarInfos.get d.parent = some info → s.now < info.expire →
      Moved s c (.extrinsic (.signed who) (.offerSubdomain label (.id d.target))) (some d)
  | accepted {parent label : Bytes} {d : SubnameRecord} {info : RegistrarInfo} :
      s.registry.subnameRecords.get c = some d → d.state = .offered →
      topLevelNode T parent = .ok d.parent → childNode T d.parent label = .ok c →
      s.registrar.registrarInfos.get d.parent = some info → s.now < info.expire →
      Moved s c (.extrinsic (.signed d.target) (.acceptSubdomain parent label))
        (some { d with state := .active })
  | rejected {parent label : Bytes} {d : SubnameRecord} :
      s.registry.subnameRecords.get c = some d → d.state = .offered →
      topLevelNode T parent = .ok d.parent → childNode T d.parent label = .ok c →
      Moved s c (.extrinsic (.signed d.target) (.rejectSubdomain parent label))
        (some { d with state := .rejected })
  | revoked {who : AccountId} {label : Bytes} {d : SubnameRecord} :
      s.registry.subnameRecords.get c = some d → childNode T d.parent label = .ok c →
      s.registrar.ownerToPrimaryName.get who = some d.parent →
      Moved s c (.extrinsic (.signed who) (.revokeSubdomain label)) none
  | released {parent label : Bytes} {d : SubnameRecord} :
      s.registry.subnameRecords.get c = some d → d.state = .active →
      topLevelNode T parent = .ok d.parent → childNode T d.parent label = .ok c →
      Moved s c (.extrinsic (.signed d.target) (.releaseSubdomain parent label)) none
  | declined {name rejected : Bytes} {owner : MultiAddress} {d : SubnameRecord} :
      s.registry.subnameRecords.get c = some d → d.state = .offered →
      parseNameToNode T.keccak256 rejected T.baseNode = some c →
      Moved s c (.extrinsic (.signed d.target) (.register name owner (some rejected))) none
  | parentEnded {o : Origin} {call : Call T} {d : SubnameRecord} :
      s.registry.subnameRecords.get c = some d → EndsName s d.parent o call →
      Moved s c (.extrinsic o call) none

/-! ## From edits to moves -/

theorem zone_delegation_inj_some {d : SubnameRecord}
    (h : (zone s).delegation c = some d.delegation) :
    s.registry.subnameRecords.get c = some d := by
  obtain ⟨r, hr, heq⟩ := zone_delegation_eq_some.mp h
  rw [hr, SubnameRecord.delegation_injective heq]

theorem Moved.of_same {i : Input T} (h : (zone s').delegation c = (zone s).delegation c) :
    Moved s c i (s'.registry.subnameRecords.get c) := by
  rw [zone_delegation_inj h]
  exact .unchanged

theorem Moved.of_ended {d : Delegation AccountId DomainHash (BoundedVec 63)}
    (hd : (zone s).delegation c = some d) (h : (zone s').delegation c = none)
    (hends : EndsName s d.parent o call) :
    Moved s c (.extrinsic o call) (s'.registry.subnameRecords.get c) := by
  obtain ⟨r, hr, rfl⟩ := zone_delegation_eq_some.mp hd
  rw [zone_delegation_eq_none.mp h]
  exact .parentEnded hr hends

/-- The edits of extrinsics that end a name move the subnames below it only. -/
theorem Moved.of_taken {e : NameEdit} (hleads : Leads (zone s) [e] (zone s'))
    (htakes : e.takes = true) (hends : EndsName s e.node o call) (c : DomainHash) :
    Moved s c (.extrinsic o call) (s'.registry.subnameRecords.get c) := by
  have hmoves := hleads.moves c
  generalize hx : (zone s').delegation c = x at hmoves
  cases hmoves with
  | stays => exact .of_same hx
  | cleared hd _ hp => exact .of_ended hd hx (hp ▸ hends)
  | _ => cases htakes

/-- An edit that is not about subnames leaves the record alone. -/
theorem Moved.of_plain {e : NameEdit} {i : Input T} (hleads : Leads (zone s) [e] (zone s'))
    (hplain : (e.apply (zone s)).delegation = (zone s).delegation) (c : DomainHash) :
    Moved s c i (s'.registry.subnameRecords.get c) :=
  .of_same (by rw [hleads.of_single.2, hplain])

/-- A registration ends what its caller rejects, and the name it issues anew. -/
theorem Moved.of_register {who dest : AccountId} {name : Bytes} {rejectOffer : Option Bytes}
    {n : DomainHash} {retracted : List NameEdit} {t : RecordType → Option Bytes}
    (hn : topLevelNode T name = .ok n) (hret : Retracts s who rejectOffer retracted)
    (hleads : Leads (zone s) (retracted ++ [.issue n dest t]) (zone s')) (c : DomainHash) :
    Moved s c (.extrinsic (.signed who) (.register name (.id dest) rejectOffer))
      (s'.registry.subnameRecords.get c) := by
  obtain ⟨z, hfirst, hen, heq⟩ := hleads.of_concat
  have hissue : (Edit.issue n dest t : NameEdit).Moves z c ((zone s').delegation c) :=
    heq ▸ Edit.moves hen c
  generalize hx : (zone s').delegation c = x at hissue
  -- what was withdrawn or cleared first is not there to be cleared again
  have hgone : z.delegation c = none → (zone s').delegation c = none := by
    intro hnone
    cases hissue with
    | stays => exact hx.trans hnone
    | cleared => exact hx
  have hkept : z.delegation c = (zone s).delegation c →
      Moved s c (.extrinsic (.signed who) (.register name (.id dest) rejectOffer))
        (s'.registry.subnameRecords.get c) := by
    intro hsame
    cases hissue with
    | stays => exact .of_same (hx.trans hsame)
    | cleared hd _ hp => exact .of_ended (hsame ▸ hd) hx (hp ▸ .register hn)
  cases hret with
  | none => exact hkept (congrArg (Zone.delegation · c) hfirst.2.symm)
  | @gift rejected r offer hparse hoffer hrecip =>
    have hburn := hfirst.moves c
    generalize hy : z.delegation c = y at hburn
    cases hburn with
    | stays => exact hkept hy
    | cleared hd _ hp =>
      exact .of_ended hd (hgone hy) (hp ▸ .rejectGift hparse hoffer hrecip)
  | @offer rejected r d hparse hd hstate htarget =>
    have hdrop := hfirst.moves c
    generalize hy : z.delegation c = y at hdrop
    cases hdrop with
    | stays => exact hkept hy
    | withdrawn =>
      rw [zone_delegation_eq_none.mp (hgone hy), ← htarget]
      exact .declined hd hstate hparse
    | cleared _ htakes => cases htakes

/-- A successful extrinsic moves the record of a subname in one of the listed ways. -/
theorem moved_of_dispatch (hcf : CollisionFree T.keccak256 T.baseNode L)
    (hc : Consistent T L s) (hL : ∀ l ∈ call.labels, l ∈ L) (hok : dispatch s o call = .ok s')
    (c : DomainHash) : Moved s c (.extrinsic o call) (s'.registry.subnameRecords.get c) := by
  obtain ⟨es, hmakes, hleads⟩ := dispatch_edits hcf hc hL hok
  cases hmakes with
  | register hn hret => exact .of_register hn hret hleads c
  | silent =>
    obtain ⟨-, heq⟩ := hleads
    exact .of_same (congrArg (Zone.delegation · c) heq.symm)
  | transfer hptr => exact .of_taken hleads rfl (.transfer hptr) c
  | buyName hn => exact .of_taken hleads rfl (.buyName hn) c
  | releaseName hptr => exact .of_taken hleads rfl (.releaseName hptr) c
  | burn hn => exact .of_taken hleads rfl (.burn hn) c
  | acceptOfferedName | setRecord | setText => exact .of_plain hleads rfl c
  | @offerSubdomain who target label stored p c' info hptr hinfo hlt hchild hstored =>
    have hmoves := hleads.moves c
    generalize hx : (zone s').delegation c = x at hmoves
    cases hmoves with
    | stays => exact .of_same hx
    | offered hnone =>
      rw [zone_delegation_inj_some (d := ⟨p, stored, target, .offered⟩) hx]
      exact Moved.offered (d := ⟨p, stored, target, .offered⟩)
        (zone_delegation_eq_none.mp hnone) rfl hchild (BoundedVec.tryFrom_eq_some hstored) hptr
        hinfo hlt
    | cleared _ htakes => cases htakes
  | @acceptSubdomain who parent label c' d info hp hchild hd hinfo hlt =>
    have hmoves := hleads.moves c
    generalize hx : (zone s').delegation c = x at hmoves
    cases hmoves with
    | stays => exact .of_same hx
    | @accepted d' t hd' hs =>
      obtain ⟨r, hr, rfl⟩ := zone_delegation_eq_some.mp hd'
      obtain rfl : r = d := Option.some.inj (hr.symm.trans hd)
      rw [zone_delegation_inj_some (d := { r with state := .active }) hx]
      exact .accepted hr (SubnameState.stage_injective (y := .offered) hs) hp hchild hinfo hlt
    | cleared _ htakes => cases htakes
  | @rejectSubdomain who parent label c' d hp hchild hd =>
    have hmoves := hleads.moves c
    generalize hx : (zone s').delegation c = x at hmoves
    cases hmoves with
    | stays => exact .of_same hx
    | @rejected d' hd' hs =>
      obtain ⟨r, hr, rfl⟩ := zone_delegation_eq_some.mp hd'
      obtain rfl : r = d := Option.some.inj (hr.symm.trans hd)
      rw [zone_delegation_inj_some (d := { r with state := .rejected }) hx]
      exact .rejected hr (SubnameState.stage_injective (y := .offered) hs) hp hchild
    | cleared _ htakes => cases htakes
  | revokeSubdomain hptr hchild hd =>
    have hmoves := hleads.moves c
    generalize hx : (zone s').delegation c = x at hmoves
    cases hmoves with
    | stays => exact .of_same hx
    | withdrawn =>
      rw [zone_delegation_eq_none.mp hx]
      exact .revoked hd hchild hptr
    | cleared _ htakes => cases htakes
  | releaseSubdomain hp hchild hd hstate htarget =>
    have hmoves := hleads.moves c
    generalize hx : (zone s').delegation c = x at hmoves
    cases hmoves with
    | stays => exact .of_same hx
    | withdrawn =>
      rw [zone_delegation_eq_none.mp hx, ← htarget]
      exact .released hd hstate hp hchild
    | cleared _ htakes => cases htakes

/-! ## Over a run -/

/-- The records are of the same offer. -/
structure SameOffer (d d' : SubnameRecord) : Prop where
  parent : d'.parent = d.parent
  label : d'.label = d.label
  target : d'.target = d.target

/-- A record that is there before and after an input is of the same offer. -/
theorem Moved.sameOffer {i : Input T} {d d' : SubnameRecord} (h : Moved s c i (some d'))
    (hd : s.registry.subnameRecords.get c = some d) : SameOffer d d' := by
  generalize hx : some d' = x at h
  cases h with
  | unchanged =>
    obtain rfl : d' = d := Option.some.inj (hx.trans hd)
    exact ⟨rfl, rfl, rfl⟩
  | offered hnone =>
    rw [hnone] at hd
    cases hd
  | @accepted parent label r info hr =>
    obtain rfl : r = d := Option.some.inj (hr.symm.trans hd)
    cases hx
    exact ⟨rfl, rfl, rfl⟩
  | @rejected parent label r hr =>
    obtain rfl : r = d := Option.some.inj (hr.symm.trans hd)
    cases hx
    exact ⟨rfl, rfl, rfl⟩
  | _ => cases hx

/-- In every reachable state each admissible input moves the record of a subname in one
of the listed ways; over a run in which the record stays, so do its parent, label and
target. -/
theorem subname_life_cycle (hcf : CollisionFree T.keccak256 T.baseNode L)
    (h : Reachable T L s) (c : DomainHash) :
    (∀ i, Admissible L s i → Moved s c i ((apply s i).registry.subnameRecords.get c)) ∧
    ∀ tr t d d', (chain T).Path (Admissible L) s tr t →
      (∀ u ∈ tr, (u.registry.subnameRecords.get c).isSome = true) →
      s.registry.subnameRecords.get c = some d → t.registry.subnameRecords.get c = some d' →
      SameOffer d d' := by
  have hstep : ∀ {u : State T} {i : Input T}, Reachable T L u → Admissible L u i →
      Moved u c i ((apply u i).registry.subnameRecords.get c) := by
    rintro u (⟨o, call⟩ | ⟨now, number, hash, ledger⟩) hu hadm
    · show Moved u c _ ((commit u (dispatch u o call)).registry.subnameRecords.get c)
      rcases commit_cases u (dispatch u o call) with hfail | hok
      · rw [hfail]
        exact .unchanged
      · exact moved_of_dispatch hcf (hu.consistent hcf) hadm hok c
    · exact .unchanged
  refine ⟨fun i hadm => hstep h hadm, ?_⟩
  intro tr t d d' hpath hpresent hd hd'
  induction hpath generalizing d' with
  | refl =>
    obtain rfl : d = d' := Option.some.inj (hd.symm.trans hd')
    exact ⟨rfl, rfl, rfl⟩
  | @step tr t i hpath hadm ih =>
    obtain ⟨d₁, hd₁⟩ := Option.isSome_iff_exists.mp
      (hpresent t (List.mem_append_left _ hpath.last_mem))
    have hfirst := ih d₁ (fun u hu => hpresent u (List.mem_append_left _ hu)) hd₁
    have hmoved := hstep (hpath.reach h) hadm
    rw [show (apply t i).registry.subnameRecords.get c = some d' from hd'] at hmoved
    have hlast := hmoved.sameOffer hd₁
    exact ⟨hlast.parent.trans hfirst.parent, hlast.label.trans hfirst.label,
      hlast.target.trans hfirst.target⟩

open Devnet in
/-- Account 1 revokes `bob.alice`, which account 2 holds. -/
theorem subname_life_cycle_revoked :
    Moved afterDelegation ((Name.sub alice bob).node config.keccak256 config.baseNode)
      (.extrinsic (.signed (account 1)) (.revokeSubdomain bob)) none := by
  have hmoved := (subname_life_cycle collisionFree afterDelegation_reachable
    ((Name.sub alice bob).node config.keccak256 config.baseNode)).1
    (.extrinsic (.signed (account 1)) (.revokeSubdomain bob)) (by decide +kernel)
  have hnone : (apply afterDelegation (.extrinsic (.signed (account 1))
      (.revokeSubdomain bob))).registry.subnameRecords.get
        ((Name.sub alice bob).node config.keccak256 config.baseNode) = none := by
    decide +kernel
  rwa [hnone] at hmoved

end PnsPallets
