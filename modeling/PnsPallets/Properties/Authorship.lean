import PnsPallets.Properties.Clients
import PnsPallets.Properties.HandOver
import PnsPallets.Properties.Ownership
import PnsPallets.Properties.Registering
import PnsPallets.Zones.Authors

/-!
# Who wrote what is stored

Three results about the data under a node, over whole runs:

- a record that the chain does not write itself was stored by the account that owns the
  name now, and has been there ever since, with the name in the same hands
  (`record_written_by_owner`);
- a text was stored by an owner of the name, but maybe not by the present one: it stays
  through every transfer and sale (`text_written_by_an_owner`);
- an extrinsic changes what is stored about a node only if its signer has a hand in it
  (`zone_changes_entitled`).
-/

namespace PnsPallets

open Frame Registry Registrar Zones Holdings

variable {T : Config} {L : Set Bytes} {s s' : State T} {o : Origin} {call : Call T}
  {w : AccountId} {n m : DomainHash}

/-! ## Calls and what has held since -/

/-- On the run from `s₀` on the inputs, `w` made the call with success, in a state with `J`, and
`I` has held in every state since. -/
def CalledSince (s₀ : State T) (inputs : List (Input T)) (w : AccountId) (call : Call T)
    (J I : State T → Prop) : Prop :=
  (chain T).Since (fun u i => i = .extrinsic (.signed w) call ∧ J u ∧
    (dispatch u (.signed w) call).isOk = true) I s₀ inputs

/-- Provenance rule, for what is read off the part `part` of the state: what genesis does not
have, and every call either establishes or keeps, was established by a call of the run, and `K`
has held since. -/
theorem calledSince_of_runsTo {γ : Type} (part : State T → γ) {P : γ → Prop}
    {K : AccountId → γ → Prop} {C : Call T → Prop} {J : AccountId → State T → Prop}
    (hblock : ∀ s now number hash ledger,
      part (apply s (.newBlock now number hash ledger)) = part s)
    (hinit : ∀ s, (chain T).init s → ¬ P (part s))
    (hcall : ∀ s o call s', Reachable T L s → Admissible L s (.extrinsic o call) →
      dispatch s o call = .ok s' → P (part s') →
      (∃ w, o = .signed w ∧ C call ∧ J w s ∧ K w (part s')) ∨
        P (part s) ∧ ∀ w, K w (part s) → K w (part s'))
    {s₀ : State T} {inputs : List (Input T)}
    (h : (chain T).RunsTo (Admissible L) s₀ inputs s) (hP : P (part s)) :
    ∃ w call, C call ∧ CalledSince s₀ inputs w call (J w) fun x => K w (part x) := by
  -- the index of the rule: who called, and what
  have hprov := Machine.RunsTo.since (P := fun x => P (part x))
    (E := fun (x : { x : AccountId × Call T // C x.2 }) u i =>
      i = .extrinsic (.signed x.1.1) x.1.2 ∧ J x.1.1 u ∧
        (dispatch u (.signed x.1.1) x.1.2).isOk = true)
    (I := fun x u => K x.1.1 (part u)) hinit ?_ h hP
  · obtain ⟨⟨⟨w, call⟩, hC⟩, hsince⟩ := hprov
    exact ⟨w, call, hC, hsince⟩
  intro u i hu hadm hPu
  -- the step leaves the part alone, or is a successful call
  have hkeep : part (apply u i) = part u → P (part u) ∧
      ∀ x : { x : AccountId × Call T // C x.2 }, K x.1.1 (part u) → K x.1.1 (part (apply u i)) :=
    fun hsame => ⟨hsame ▸ hPu, fun _ hK => hsame.symm ▸ hK⟩
  cases i with
  | newBlock now number hash ledger => exact .inr (hkeep (hblock u now number hash ledger))
  | extrinsic o call =>
    rcases commit_cases u (dispatch u o call) with hsame | hok
    · exact .inr (hkeep (congrArg part hsame))
    · rcases hcall u o call _ hu hadm hok hPu with ⟨w, rfl, hC, hJ, hK⟩ | ⟨hold, hstep⟩
      · exact .inl ⟨⟨(w, call), hC⟩, ⟨rfl, hJ, isOk_iff.mpr ⟨_, hok⟩⟩, hK⟩
      · exact .inr ⟨hold, fun x => hstep x.1.1⟩

/-- A zone is blank at genesis. -/
theorem zone_init (h : (chain T).init s) : (zone s).Blank := by
  obtain ⟨root, balances, parentHash, hs⟩ := h
  exact genesis_blank hs

/-! ## What the calls store -/

/-- A successful call of the zone with its edits, from a reachable state. -/
theorem Reachable.makes (hcf : CollisionFree T.keccak256 T.baseNode L) (h : Reachable T L s)
    (hadm : Admissible L s (.extrinsic o call)) (hok : dispatch s o call = .ok s') :
    ∃ es, Makes s o call es ∧ Leads (zone s) es (zone s') :=
  dispatch_edits hcf (h.consistent hcf) hadm hok

/-- With a call the chain writes its two kinds of records only. -/
theorem Makes.leaves {es : List NameEdit} {k : RecordType} (hss58 : k ≠ .SS58)
    (horigin : k ≠ .ORIGIN) (h : Makes s o call es) : ∀ e ∈ es, e.Leaves k := by
  have hanchors : ∀ (x : AccountId) (origin : H256), Resolvers.anchors x origin k = none := by
    intro x origin
    cases k <;> first | rfl | contradiction
  have hss58 : ∀ x : AccountId, Resolvers.ss58 x k = none := by
    intro x
    cases k <;> first | rfl | contradiction
  cases h with
  | register _ hr =>
    cases hr <;> simp [Edit.Leaves, Edit.table, hanchors]
  | _ => simp [Edit.Leaves, Edit.table, hanchors, hss58]

/-- A record is stored by `set_record` alone. -/
theorem Makes.setRecord_mem {es : List NameEdit} {k : RecordType} {v : Bytes}
    (h : Makes s o call es) (hmem : .setRecord n k v ∈ es) :
    ∃ w name content, o = .signed w ∧ call = .setRecord name k content ∧
      parseNameToNode T.keccak256 name T.baseNode = some n ∧ content.val = v ∧
      es = [.setRecord n k v] := by
  cases h with
  | register _ hr => cases hr <;> simp at hmem
  | @setRecord w name kind content m hm hss58 horigin =>
    obtain ⟨rfl, rfl, rfl⟩ : n = m ∧ k = kind ∧ v = content.val := by simpa using hmem
    exact ⟨w, name, content, rfl, rfl, hm, rfl, rfl⟩
  | _ => simp at hmem

/-- A text is stored by `set_text` alone. -/
theorem Makes.setText_mem {es : List NameEdit} {k : TextKind} {v : Bytes}
    (h : Makes s o call es) (hmem : .setText n k v ∈ es) :
    ∃ w name content, o = .signed w ∧ call = .setText name k content ∧
      parseNameToNode T.keccak256 name T.baseNode = some n ∧ content.val = v ∧
      es = [.setText n k v] := by
  cases h with
  | register _ hr => cases hr <;> simp at hmem
  | @setText w name kind content m hm =>
    obtain ⟨rfl, rfl, rfl⟩ : n = m ∧ k = kind ∧ v = content.val := by simpa using hmem
    exact ⟨w, name, content, rfl, rfl, hm, rfl, rfl⟩
  | _ => simp at hmem

/-- An account that stores a record owns the name. -/
theorem setRecord_owner {name : Bytes} {k : RecordType} {content : Content T}
    (hn : parseNameToNode T.keccak256 name T.baseNode = some n) (hss58 : k ≠ .SS58)
    (horigin : k ≠ .ORIGIN) (hok : dispatch s (.signed w) (.setRecord name k content) = .ok s') :
    s.nft.ownerOf n = some w :=
  checkNodeUseable_owner
    ((setRecord_isOk hn hss58 horigin content).mp (isOk_iff.mpr ⟨s', hok⟩))

theorem setText_owner {name : Bytes} {k : TextKind} {content : Content T}
    (hn : parseNameToNode T.keccak256 name T.baseNode = some n)
    (hok : dispatch s (.signed w) (.setText name k content) = .ok s') :
    s.nft.ownerOf n = some w :=
  checkNodeUseable_owner ((setText_isOk hn k content).mp (isOk_iff.mpr ⟨s', hok⟩))

/-! ## Provenance -/

/-- **A record is the present owner's own.** On every run from genesis that ends with a record of
a kind that the chain does not write itself, the record was stored, by a call of that run, by the
account that owns the name now, and since that call the name has been theirs and the record has
stood: no transfer, sale or new registration lies between. -/
theorem record_written_by_owner (hcf : CollisionFree T.keccak256 T.baseNode L)
    {s₀ : State T} {inputs : List (Input T)}
    (h : (chain T).RunsTo (Admissible L) s₀ inputs s) {k : RecordType} (hss58 : k ≠ .SS58)
    (horigin : k ≠ .ORIGIN) {v : Bytes} (hv : Resolvers.recordOf s.resolvers n k = some v) :
    ∃ w name content, parseNameToNode T.keccak256 name T.baseNode = some n ∧ content.val = v ∧
      CalledSince s₀ inputs w (.setRecord name k content) (fun u => u.nft.ownerOf n = some w)
        fun x => x.nft.ownerOf n = some w ∧ Resolvers.recordOf x.resolvers n k = some v := by
  have hprov := calledSince_of_runsTo (L := L) zone (P := fun z => z.record n k = some v)
    (K := fun w z => z.owner n = some w ∧ z.record n k = some v)
    (C := fun call => ∃ name content, call = .setRecord name k content ∧
      parseNameToNode T.keccak256 name T.baseNode = some n ∧ content.val = v)
    (J := fun w u => u.nft.ownerOf n = some w) (fun _ _ _ _ _ => rfl)
    (fun s hs => by simp [(zone_init hs).record]) ?_ h hv
  · obtain ⟨w, -, ⟨name, content, rfl, hn, rfl⟩, hsince⟩ := hprov
    refine ⟨w, name, content, hn, rfl, hsince.mono fun x hx => ⟨?_, hx.2⟩⟩
    exact (view_owner_eq_some.mp hx.1).2
  · intro s o call s' hs hadm hok hv'
    obtain ⟨es, hmakes, hleads⟩ := hs.makes hcf hadm hok
    rcases hleads.record_author (hs.upkept hcf).rooted (hmakes.leaves hss58 horigin) hv' with
      hmem | ⟨hold, hsame⟩
    · obtain ⟨w, name, content, rfl, rfl, hn, hval, rfl⟩ := hmakes.setRecord_mem hmem
      have hown := setRecord_owner hn hss58 horigin hok
      -- storing a record changes no owner
      have hstay : (zone s').owner n = (zone s).owner n := by rw [hleads.of_single.2]; rfl
      have hne := parsed_ne_base hcf hadm hn
      refine Or.inl ⟨w, rfl, ⟨name, content, rfl, hn, hval⟩, hown, ?_, hv'⟩
      exact hstay.trans (view_owner_eq_some.mpr ⟨hne, hown⟩)
    · exact Or.inr ⟨hold, fun w hK => ⟨hsame.trans hK.1, hv'⟩⟩

/-- An address, as the content of a record. -/
def Devnet.address : Content Devnet.config := ⟨[192, 0, 2, 1], by decide⟩

open Devnet in
/-- Account 1 registers `alice` and stores an address and a home page. -/
def Devnet.furnishing : List (Input config) :=
  [ .extrinsic (.signed (account 1)) (.register alice (.id (account 1)) none),
    .extrinsic (.signed (account 1)) (.setRecord alice .A address),
    .extrinsic (.signed (account 1)) (.setText alice .Url ⟨[104, 105], by decide⟩) ]

/-- Account 1 has registered `alice`, with an address and a home page. -/
def Devnet.furnished : State Devnet.config := Devnet.after Devnet.furnishing

open Devnet in
theorem Devnet.furnished_run :
    (chain config).RunsTo (Admissible labels) start furnishing furnished :=
  runsTo_after (by decide +kernel)

open Devnet in
theorem Devnet.furnished_reachable : Reachable config labels furnished :=
  furnished_run.reach

open Devnet in
/-- The address of `alice` is the work of its owner. -/
theorem record_written_by_owner_of_alice :
    ∃ w name content, parseNameToNode config.keccak256 name config.baseNode = some (node alice) ∧
      content.val = [192, 0, 2, 1] ∧
      CalledSince start furnishing w (.setRecord name .A content)
        (fun u => u.nft.ownerOf (node alice) = some w)
        fun x => x.nft.ownerOf (node alice) = some w ∧
          Resolvers.recordOf x.resolvers (node alice) .A = some [192, 0, 2, 1] :=
  record_written_by_owner collisionFree furnished_run (by decide) (by decide)
    (by decide +kernel)

/-- **A text is some owner's own.** On every run from genesis that ends with a text under the
name, it was stored, by a call of that run, by an account that owned the name at the time, and
since then the name has always had an owner and the text has stood. -/
theorem text_written_by_an_owner (hcf : CollisionFree T.keccak256 T.baseNode L)
    {s₀ : State T} {inputs : List (Input T)}
    (h : (chain T).RunsTo (Admissible L) s₀ inputs s) {k : TextKind} {v : Bytes}
    (hv : Resolvers.textOf s.resolvers n k = some v) :
    ∃ w name content, parseNameToNode T.keccak256 name T.baseNode = some n ∧ content.val = v ∧
      CalledSince s₀ inputs w (.setText name k content) (fun u => u.nft.ownerOf n = some w)
        fun x => (x.nft.ownerOf n).isSome = true ∧
          Resolvers.textOf x.resolvers n k = some v := by
  have hprov := calledSince_of_runsTo (L := L) zone (P := fun z => z.text n k = some v)
    (K := fun _ z => (z.owner n).isSome = true ∧ z.text n k = some v)
    (C := fun call => ∃ name content, call = .setText name k content ∧
      parseNameToNode T.keccak256 name T.baseNode = some n ∧ content.val = v)
    (J := fun w u => u.nft.ownerOf n = some w) (fun _ _ _ _ _ => rfl)
    (fun s hs => by simp [(zone_init hs).text]) ?_ h hv
  · obtain ⟨w, -, ⟨name, content, rfl, hn, rfl⟩, hsince⟩ := hprov
    refine ⟨w, name, content, hn, rfl, hsince.mono fun x hx => ⟨?_, hx.2⟩⟩
    obtain ⟨a, ha⟩ := Option.isSome_iff_exists.mp hx.1
    rw [(view_owner_eq_some.mp ha).2]
    rfl
  · intro s o call s' hs hadm hok hv'
    obtain ⟨es, hmakes, hleads⟩ := hs.makes hcf hadm hok
    rcases hleads.text_author (hs.upkept hcf).rooted hv' with hmem | ⟨hold, hsame⟩
    · obtain ⟨w, name, content, rfl, rfl, hn, hval, rfl⟩ := hmakes.setText_mem hmem
      have hown := setText_owner hn hok
      have hstay : (zone s').owner n = (zone s).owner n := by rw [hleads.of_single.2]; rfl
      have hne := parsed_ne_base hcf hadm hn
      refine Or.inl ⟨w, rfl, ⟨name, content, rfl, hn, hval⟩, hown, ?_, hv'⟩
      rw [hstay, show (zone s).owner n = some w from view_owner_eq_some.mpr ⟨hne, hown⟩]
      rfl
    · exact Or.inr ⟨hold, fun w hK => ⟨hsame hK.1, hv'⟩⟩

open Devnet in
/-- The home page of `alice` is the work of an owner. -/
theorem text_written_by_an_owner_of_alice :
    ∃ w name content, parseNameToNode config.keccak256 name config.baseNode = some (node alice) ∧
      content.val = [104, 105] ∧
      CalledSince start furnishing w (.setText name .Url content)
        (fun u => u.nft.ownerOf (node alice) = some w)
        fun x => (x.nft.ownerOf (node alice)).isSome = true ∧
          Resolvers.textOf x.resolvers (node alice) .Url = some [104, 105] :=
  text_written_by_an_owner collisionFree furnished_run (by decide +kernel)

/-- The call is `register`. -/
def Call.isRegister : Call T → Bool
  | .register _ _ _ => true
  | _ => false

/-- **What a new owner finds.** A registration leaves no text under the name; a transfer and a
sale leave all texts of the former owner. -/
theorem texts_at_hand_over (hcf : CollisionFree T.keccak256 T.baseNode L) (h : Reachable T L s)
    (hL : ∀ l ∈ call.labels, l ∈ L) (hok : dispatch s o call = .ok s') (hne : n ≠ T.baseNode)
    {a : AccountId} (hnew : s'.nft.ownerOf n = some a) (hold : s.nft.ownerOf n ≠ some a)
    (k : TextKind) :
    Resolvers.textOf s'.resolvers n k =
      if call.isRegister then none else Resolvers.textOf s.resolvers n k := by
  have hkept := h.upkept hcf
  obtain ⟨es, hmakes, hleads⟩ := h.makes hcf hL hok
  have hnew' : (zone s').owner n = some a := view_owner_eq_some.mpr ⟨hne, hnew⟩
  have hold' : (zone s).owner n ≠ some a := fun hz => hold (view_owner_eq_some.mp hz).2
  show (zone s').text n k = _
  cases hmakes with
  | @register _ dest name rejectOffer _ _ hn hret =>
    obtain ⟨z, hfirst, hen, heq⟩ := hleads.of_concat
    have hbefore : Before s (.register name (.id dest) rejectOffer) z :=
      .of_retracts hkept.rooted hret hfirst
    rw [heq] at hnew' ⊢
    rcases Edit.owner_cases hnew' with hz | ⟨t, hg⟩
    · exact absurd (hbefore.owner n a hz) hold'
    · cases hg
      simp only [Edit.apply, Function.update_self, Call.isRegister, if_true]
      split
      · next hnone =>
        have hbare := hbefore.rooted n hnone (Zone.not_active_of_none hen.1)
        simp [Zone.clear, hbare.2 k]
      · rfl
  | silent =>
    have heq : zone s = zone s' := hleads.2
    exact absurd (heq ▸ hnew') hold'
  | transfer | buyName =>
    obtain ⟨hen, heq⟩ := hleads.of_single
    rw [heq] at hnew' ⊢
    rcases Edit.owner_cases hnew' with hz | ⟨t, hg⟩
    · exact absurd hz hold'
    · cases hg
      -- the name itself is no subname, so clearing below it spares it
      have hb : (zone s).below n n = false :=
        hkept.apart.not_below (Option.isSome_iff_exists.mpr ⟨_, hen.1⟩) n
      simp [Edit.apply, Zone.clear, hb, Call.isRegister]
      rfl
  | _ =>
    obtain ⟨hen, heq⟩ := hleads.of_single
    rw [heq] at hnew'
    rcases Edit.owner_cases hnew' with hz | ⟨t, hg⟩
    · exact absurd hz hold'
    · cases hg

open Devnet in
/-- Account 3 gets `alice` by a transfer, and the home page of account 1 with it. -/
theorem texts_at_hand_over_of_alice :
    ∃ s', dispatch furnished (.signed (account 1)) (.transfer (.id (account 3))) = .ok s' ∧
      s'.nft.ownerOf (node alice) = some (account 3) ∧
      Resolvers.textOf s'.resolvers (node alice) .Url = some [104, 105] := by
  have hok := eq_ok_get
    (r := dispatch furnished (.signed (account 1)) (.transfer (.id (account 3))))
    (by decide +kernel)
  have htexts := texts_at_hand_over (n := node alice) (a := account 3) collisionFree
    furnished_reachable (by decide) hok (by decide +kernel) (by decide +kernel)
    (by decide +kernel) .Url
  exact ⟨_, hok, by decide +kernel, htexts.trans (by decide +kernel)⟩

/-! ## Who may change what is stored -/

/-- What makes the call of `w` one that may touch the node `m`. -/
inductive Entitled (s s' : State T) (w : AccountId) (m : DomainHash) : Call T → Prop where
  /-- `w` owns the name. -/
  | owner {call : Call T} {n : DomainHash} : s.nft.ownerOf n = some w → Under s n m →
      Entitled s s' w m call
  /-- `w` is the one the subname was offered to. -/
  | target {call : Call T} {d : SubnameRecord} : s.registry.subnameRecords.get m = some d →
      d.target = w → Entitled s s' w m call
  /-- The subname is, or is now, below the primary name of `w`. -/
  | parent {call : Call T} {d : SubnameRecord} :
      s.registry.subnameRecords.get m = some d ∨ s'.registry.subnameRecords.get m = some d →
      s.registrar.ownerToPrimaryName.get w = some d.parent → Entitled s s' w m call
  /-- The name was given to `w`, and is accepted. -/
  | gift {name : Bytes} {offer : OfferedNameRecord} :
      s.registrar.offeredNames.get m = some offer → offer.recipient = w →
      Entitled s s' w m (.acceptOfferedName name)
  /-- The name is nobody's any more, and is registered. -/
  | registers {name : Bytes} {address : MultiAddress} {rejectOffer : Option Bytes}
      {n : DomainHash} : topLevelNode T name = .ok n → Lapsed s n → Under s n m →
      Entitled s s' w m (.register name address rejectOffer)
  /-- The name is for sale, and is bought. -/
  | buys {name : Bytes} {recipient : Option AccountId} {n : DomainHash} {listing : Listing} :
      Marketplace.listedNode T name = .ok n → s.listings.get n = some listing →
      s.nft.ownerOf n = some listing.seller → Under s n m →
      Entitled s s' w m (.buyName name recipient)

/-- The edits of names need an owner. -/
theorem enabled_owner {a : AccountId} (hen : (zone s).owner n = some a) :
    s.nft.ownerOf n = some a :=
  (view_owner_eq_some.mp hen).2

/-- A registered name was free or lapsed, unless the caller gave it up with the same call. -/
theorem register_lapsed (hcf : CollisionFree T.keccak256 T.baseNode L) (h : Reachable T L s)
    {name : Bytes} {address : MultiAddress} {rejectOffer : Option Bytes}
    (hL : ∀ l ∈ (Call.register name address rejectOffer : Call T).labels, l ∈ L)
    (hok : dispatch s (.signed w) (.register name address rejectOffer) = .ok s')
    (hn : topLevelNode T name = .ok n) : Lapsed s n ∨ s.nft.ownerOf n = some w := by
  have hc := h.consistent hcf
  obtain ⟨ops, hperf, hruns⟩ := (dispatch_sound hcf hc hL hok).performs
  cases hperf with
  | @register _ dest _ _ n' e D rejected hn' hrej =>
    obtain rfl : n = n' := Except.ok.inj (hn.symm.trans hn')
    obtain ⟨h₁, hfirst, hen, -⟩ := hruns.of_concat
    have hne := (topLevelNode_topLevel hn (hL _ List.mem_cons_self)).ne_base hcf
    cases hown : s.nft.ownerOf n with
    | none => exact Or.inl (Or.inl hown)
    | some a =>
      by_cases ha : a = w
      · exact Or.inr (by rw [ha])
      · refine Or.inl (Or.inr ?_)
        obtain ⟨info, hinfo⟩ := Option.isSome_iff_exists.mp
          ((hc.hierarchy.info n).mpr ⟨hne, by rw [hown]; rfl⟩)
        refine ⟨info, hinfo, ?_⟩
        by_contra hlive
        -- a live name of somebody else would have stood in the way
        obtain ⟨hown₁, hlive₁⟩ := rejects_owner_kept hrej hfirst ha
          (view_owner_eq_some.mpr ⟨hne, hown⟩)
          (view_live.mpr (stillValid_iff.mpr ⟨info, hinfo, UInt64.not_lt.mp hlive⟩))
        rcases hen.2.1 with hnone | hdead
        · rw [hown₁] at hnone
          cases hnone
        · exact hdead hlive₁
  | quiet hq => cases hq

/-- A gift is accepted by the account that it is for. -/
theorem acceptOfferedName_gift (hcf : CollisionFree T.keccak256 T.baseNode L)
    (h : Reachable T L s) {name : Bytes}
    (hL : ∀ l ∈ (Call.acceptOfferedName name : Call T).labels, l ∈ L)
    (hok : dispatch s (.signed w) (.acceptOfferedName name) = .ok s')
    (hn : topLevelNode T name = .ok n) :
    ∃ offer, s.registrar.offeredNames.get n = some offer ∧ offer.recipient = w := by
  obtain ⟨ops, hperf, hruns⟩ := (dispatch_sound hcf (h.consistent hcf) hL hok).performs
  cases hperf with
  | acceptOfferedName hn' =>
    cases hn.symm.trans hn'
    exact view_gift_eq_some.mp hruns.of_single.1.1
  | quiet hq => cases hq

/-- A change is made by somebody with a right to it: by the edits of the call. -/
theorem entitled_of_change (hcf : CollisionFree T.keccak256 T.baseNode L)
    (h : Reachable T L s) (hL : ∀ l ∈ call.labels, l ∈ L) (hok : dispatch s o call = .ok s')
    (hchange : ¬ Zone.Same m (zone s) (zone s')) :
    ∃ w, o = .signed w ∧ Entitled s s' w m call := by
  obtain ⟨es, hmakes, hleads⟩ := h.makes hcf hL hok
  -- all calls but `register` make one edit, on the node its checks are about
  have hunder : ∀ {e : NameEdit}, Leads (zone s) [e] (zone s') →
      e.Enabled (zone s) ∧ Under s e.node m := fun hl =>
    ⟨hl.of_single.1, under_iff.mpr (Edit.node_or_below (hl.of_single.2 ▸ hchange))⟩
  have hself : ∀ {e : NameEdit}, e.takes = false → Leads (zone s) [e] (zone s') →
      e.Enabled (zone s) ∧ m = e.node := fun ht hl =>
    ⟨hl.of_single.1, Edit.node_of_spare ht (hl.of_single.2 ▸ hchange)⟩
  cases hmakes with
  | @register who dest name rejectOffer n retracted hn hret =>
    refine ⟨who, rfl, ?_⟩
    obtain ⟨z, hfirst, hen, heq⟩ := hleads.of_concat
    by_cases hz : Zone.Same m (zone s) z
    · -- the offer given up is not about `m`, so the registration is
      have hissue : ¬ Zone.Same m z _ := fun hlast => hchange (heq ▸ hz.trans hlast)
      have hunder : Under s n m := by
        refine under_iff.mpr ((Edit.node_or_below hissue).imp id fun hb => ?_)
        rwa [Zone.below, hz.delegation] at hb
      rcases register_lapsed hcf h hL hok hn with hlapsed | hown
      · exact .registers hn hlapsed hunder
      · exact .owner hown hunder
    · cases hret with
      | none =>
        obtain ⟨-, rfl⟩ := hfirst
        exact absurd ⟨rfl, rfl, fun _ => rfl, rfl, rfl⟩ hz
      | gift =>
        obtain ⟨hen', rfl⟩ := hfirst.of_single
        exact .owner (enabled_owner hen') (under_iff.mpr (Edit.node_or_below hz))
      | @offer _ r _ _ hd _ htarget =>
        obtain ⟨-, rfl⟩ := hfirst.of_single
        have hm : m = r := Edit.node_of_spare (e := .withdraw r) rfl hz
        exact .target (hm ▸ hd) htarget
  | silent =>
    have heq : zone s = zone s' := hleads.2
    exact absurd (heq ▸ ⟨rfl, rfl, fun _ => rfl, rfl, rfl⟩) hchange
  | transfer | releaseName | burn =>
    obtain ⟨hen, hm⟩ := hunder hleads
    first
      | exact ⟨_, rfl, .owner (enabled_owner hen.1) hm⟩
      | exact ⟨_, rfl, .owner (enabled_owner hen) hm⟩
  | buyName hn hlisting =>
    obtain ⟨hen, hm⟩ := hunder hleads
    exact ⟨_, rfl, .buys hn hlisting (enabled_owner hen.1) hm⟩
  | acceptOfferedName hn =>
    obtain ⟨-, rfl⟩ := hself rfl hleads
    obtain ⟨offer, hoffer, hrecipient⟩ := acceptOfferedName_gift hcf h hL hok hn
    exact ⟨_, rfl, .gift hoffer hrecipient⟩
  | offerSubdomain hp =>
    obtain ⟨-, rfl⟩ := hself rfl hleads
    obtain ⟨d, hd, hdel⟩ := zone_delegation_eq_some.mp
      ((congrArg (fun z => Zone.delegation z _) hleads.of_single.2).trans
        (Function.update_self _ _ _))
    have hparent : d.parent = _ := congrArg Delegation.parent hdel
    exact ⟨_, rfl, .parent (Or.inr hd) (hparent ▸ hp)⟩
  | acceptSubdomain =>
    obtain ⟨⟨⟨_, hd, -, htarget⟩, -⟩, rfl⟩ := hself rfl hleads
    obtain ⟨d, hrec, rfl⟩ := zone_delegation_eq_some.mp hd
    exact ⟨_, rfl, .target hrec htarget⟩
  | rejectSubdomain =>
    obtain ⟨⟨_, hd, -, htarget⟩, rfl⟩ := hself rfl hleads
    obtain ⟨d, hrec, rfl⟩ := zone_delegation_eq_some.mp hd
    exact ⟨_, rfl, .target hrec htarget⟩
  | revokeSubdomain hp _ hd =>
    obtain ⟨-, rfl⟩ := hself rfl hleads
    exact ⟨_, rfl, .parent (Or.inl hd) hp⟩
  | releaseSubdomain _ _ hd _ htarget =>
    obtain ⟨-, rfl⟩ := hself rfl hleads
    exact ⟨_, rfl, .target hd htarget⟩
  | setRecord hn hss58 horigin =>
    obtain ⟨-, rfl⟩ := hself rfl hleads
    exact ⟨_, rfl, .owner (setRecord_owner hn hss58 horigin hok) (Or.inl rfl)⟩
  | setText hn =>
    obtain ⟨-, rfl⟩ := hself rfl hleads
    exact ⟨_, rfl, .owner (setText_owner hn hok) (Or.inl rfl)⟩

/-- **Nothing changes without a right to it.** If a successful extrinsic changes anything that
the zone says of a node — its owner, its delegation, who holds it, its records, its texts — then
it is signed, and the signer owns the name, was offered the subname, has the name above it as
primary name, was given the name and accepts it, registers a lapsed name, or buys a name under
a listing of its owner. -/
theorem zone_changes_entitled (hcf : CollisionFree T.keccak256 T.baseNode L)
    (h : Reachable T L s) (hL : ∀ l ∈ call.labels, l ∈ L) (hok : dispatch s o call = .ok s')
    (hchange : ¬ Zone.Same m (zone s) (zone s')) :
    ∃ w, o = .signed w ∧ Entitled s s' w m call :=
  entitled_of_change hcf h hL hok hchange

open Devnet in
/-- The new owner of `alice` after a transfer is entered by somebody entitled. -/
theorem zone_changes_entitled_by_transfer :
    ∃ s' w, dispatch furnished (.signed (account 1)) (.transfer (.id (account 3))) = .ok s' ∧
      Origin.signed (account 1) = .signed w ∧
      Entitled furnished s' w (node alice) (.transfer (.id (account 3))) := by
  have hok := eq_ok_get
    (r := dispatch furnished (.signed (account 1)) (.transfer (.id (account 3))))
    (by decide +kernel)
  obtain ⟨w, hw, hentitled⟩ := zone_changes_entitled (m := node alice) collisionFree
    furnished_reachable (by decide) hok fun hsame => absurd hsame.owner (by decide +kernel)
  exact ⟨_, w, hok, hw, hentitled⟩

end PnsPallets
