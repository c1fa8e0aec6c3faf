import PnsPallets.PnsRpc.Node
import PnsPallets.Properties.Gifts
import PnsPallets.Properties.Clients
import PnsPallets.Properties.RecordCodes
import PnsPallets.Properties.Terms

/-!
# What clients read

- Every reply of the node's endpoints is the reply that one atomic read of the best block would
  have given at some moment between the arrival of the request and the reply, or says that the
  state could not be read (`reply_linearizes`): a reply never mixes two blocks, and the block it is
  stamped with is the block it was read from.
- In every reachable state the endpoints for names agree with each other and with the registry
  (`names_read_exactly`).
-/

namespace PnsPallets

open Frame Registry Registrar

variable {T : Config}

namespace PnsRpc

variable {H : Hickory} {valid : Block T → Prop} {client : NodeClient T}
  {t₀ t : Threads (NodeClient T) Point} {tr : List (Threads (NodeClient T) Point)} {j : ℕ}
  {request : Request} {reply : Reply}

/-! ## The client -/

/-- Blocks have different hashes, all are valid, and the best block is one of them. -/
structure NodeClient.Sane (valid : Block T → Prop) (client : NodeClient T) : Prop where
  distinct : client.blocks.Pairwise fun b b' => b.hash ≠ b'.hash
  valid : ∀ b ∈ client.blocks, valid b
  best : ∃ b ∈ client.blocks, client.info = b.info

theorem find_of_mem {blocks : List (Block T)} {b : Block T}
    (hdistinct : blocks.Pairwise fun b b' => b.hash ≠ b'.hash) (hb : b ∈ blocks) :
    (blocks.find? fun b' => b'.hash = b.hash) = some b := by
  induction blocks with
  | nil => cases hb
  | cons b' blocks ih =>
    obtain ⟨hhead, htail⟩ := List.pairwise_cons.mp hdistinct
    rcases List.mem_cons.mp hb with rfl | hb
    · simp
    · rw [List.find?_cons_of_neg (by simpa using hhead b hb)]
      exact ih htail hb

/-- A state that is read at the hash of a block is the state of the block. -/
theorem NodeClient.Sane.stateAt (h : client.Sane valid) {b : Block T} (hb : b ∈ client.blocks) :
    client.stateAt b.hash = none ∨ client.stateAt b.hash = some b.state := by
  unfold NodeClient.stateAt
  split
  · exact .inl rfl
  · rw [find_of_mem h.distinct hb]
    exact .inr rfl

theorem NodeClient.Sane.after (h : client.Sane valid) {event : ChainEvent T}
    (hevent : ∀ b, event = .importBlock b → valid b) :
    (client.after event).Sane valid ∧ ∀ b ∈ client.blocks, b ∈ (client.after event).blocks := by
  cases event with
  | importBlock b =>
    unfold NodeClient.after
    dsimp only
    split
    · exact ⟨h, fun _ hb => hb⟩
    · next hnew =>
      refine ⟨⟨?_, ?_, ?_⟩, fun b' hb' => List.mem_append_left _ hb'⟩
      · rw [List.pairwise_append]
        refine ⟨h.distinct, List.pairwise_singleton _ _, fun b₁ hb₁ b₂ hb₂ heq => hnew ?_⟩
        obtain rfl := List.mem_singleton.mp hb₂
        exact List.any_eq_true.mpr ⟨b₁, hb₁, decide_eq_true heq⟩
      · intro b' hb'
        rcases List.mem_append.mp hb' with hb' | hb'
        · exact h.valid b' hb'
        · obtain rfl := List.mem_singleton.mp hb'
          exact hevent b' rfl
      · obtain ⟨b', hb', hbest⟩ := h.best
        exact ⟨b', List.mem_append_left _ hb', hbest⟩
  | setBest hash =>
    unfold NodeClient.after
    dsimp only
    split
    · exact ⟨h, fun _ hb => hb⟩
    · next b hfind =>
      exact ⟨⟨h.distinct, h.valid, b, List.mem_of_find?_eq_some hfind, rfl⟩, fun _ hb => hb⟩
  | prune hash => exact ⟨⟨h.distinct, h.valid, h.best⟩, fun _ hb => hb⟩

/-! ## Replies -/

/-- No action of an endpoint changes the client. -/
theorem act_shared (i : ℕ) (c : Unit) (client : NodeClient T) (p : Point) :
    ((nodeProgram T H valid).act i c client p).1 = client := by
  cases p <;> rfl

theorem sane_of_reach (h : (nodeProgram T H valid).machine.Reach (Imports valid) t) :
    t.shared.Sane valid := by
  refine (Program.local_rule (I := fun _ client => client.Sane valid)
    (J := fun _ _ _ => True) ?_ ?_ ?_ ?_ h).1
  · rintro client ⟨b, hb, hblocks, hbest⟩
    refine ⟨?_, ?_, b, ?_, hbest⟩ <;> simp [hblocks, hb]
  · exact fun _ _ _ hsane => ⟨hsane, trivial⟩
  · intro n i c client p hsane _ _
    rw [act_shared]
    exact ⟨hsane, trivial, fun _ _ _ _ => trivial⟩
  · intro t e hg hsane
    exact ⟨(hsane.after fun b hb => hg b (by rw [hb])).1, fun _ _ _ => trivial⟩

/-- The reply is that of a read of the block, or that its state is not there. -/
def ReadFrom (H : Hickory) (request : Request) (b : Block T) (reply : Reply) : Prop :=
  reply = request.respond H b.info (some b.state) ∨
    reply = request.respond H b.info (none : Option (State T))

/-- The block was the best one, and valid, in a state of the run. -/
def WasBest (valid : Block T → Prop) (tr : List (Threads (NodeClient T) Point)) (b : Block T) :
    Prop :=
  valid b ∧ ∃ x ∈ tr, b ∈ x.shared.blocks ∧ x.shared.info = b.info

theorem WasBest.mono {tr' : List (Threads (NodeClient T) Point)} {b : Block T}
    (h : WasBest valid tr b) (hsub : ∀ x ∈ tr, x ∈ tr') : WasBest valid tr' b := by
  obtain ⟨hvalid, x, hx, hbest⟩ := h
  exact ⟨hvalid, x, hsub x hx, hbest⟩

/-- How far a request has come that arrived at the start of the run. -/
def Progress (H : Hickory) (valid : Block T → Prop) (request : Request)
    (tr : List (Threads (NodeClient T) Point)) (client : NodeClient T) : Point → Prop
  | .arrived request' => request' = request
  | .chosen request' chain => request' = request ∧
    ∃ b, WasBest valid tr b ∧ b ∈ client.blocks ∧ chain = b.info
  | .replied request' reply => request' = request ∧
    ∃ b, WasBest valid tr b ∧ ReadFrom H request b reply

theorem Progress.mono {tr' : List (Threads (NodeClient T) Point)} {client' : NodeClient T}
    {p : Point} (h : Progress H valid request tr client p) (htr : ∀ x ∈ tr, x ∈ tr')
    (hblocks : ∀ b ∈ client.blocks, b ∈ client'.blocks) :
    Progress H valid request tr' client' p := by
  cases p with
  | arrived request' => exact h
  | chosen request' chain =>
    obtain ⟨heq, b, hbest, hb, hchain⟩ := h
    exact ⟨heq, b, hbest.mono htr, hblocks b hb, hchain⟩
  | replied request' reply =>
    obtain ⟨heq, b, hbest, hread⟩ := h
    exact ⟨heq, b, hbest.mono htr, hread⟩

/-- An action of the request itself. -/
theorem Progress.act {p : Point} (h : Progress H valid request tr client p)
    (hsane : client.Sane valid) {x : Threads (NodeClient T) Point} (hx : x ∈ tr)
    (hshared : x.shared = client) (i : ℕ) (c : Unit) :
    Progress H valid request tr client ((nodeProgram T H valid).act i c client p).2 := by
  cases p with
  | arrived request' =>
    obtain ⟨b, hb, hbest⟩ := hsane.best
    exact ⟨h, b, ⟨hsane.valid b hb, x, hx, by rwa [hshared], by rwa [hshared]⟩, hb, hbest⟩
  | chosen request' chain =>
    obtain ⟨rfl, b, hbest, hb, rfl⟩ := h
    refine ⟨rfl, b, hbest, ?_⟩
    show ReadFrom H request' b (request'.respond H b.info (client.stateAt b.hash))
    rcases hsane.stateAt hb with hnone | hsome
    · rw [hnone]
      exact .inr rfl
    · rw [hsome]
      exact .inl rfl
  | replied request' reply => exact h

theorem progress_of_path
    (h₀ : (nodeProgram T H valid).machine.Reach (Imports valid) t₀)
    (harrived : t₀.threads[j]? = some (.arrived request))
    (hpath : (nodeProgram T H valid).machine.Path (Imports valid) t₀ tr t) :
    ∃ p, t.threads[j]? = some p ∧ Progress H valid request tr t.shared p := by
  induction hpath with
  | refl => exact ⟨_, harrived, rfl⟩
  | @step tr t m hpath hg ih =>
    obtain ⟨p, hp, hprogress⟩ := ih
    have hsane := sane_of_reach (hpath.reach h₀)
    have hold : ∀ x ∈ tr, x ∈ tr ++ [(nodeProgram T H valid).step t m] :=
      fun x hx => List.mem_append_left _ hx
    show ∃ p, ((nodeProgram T H valid).step t m).threads[j]? = some p ∧
      Progress H valid request (tr ++ [(nodeProgram T H valid).step t m])
        ((nodeProgram T H valid).step t m).shared p
    cases m with
    | spawn request' =>
      refine ⟨p, ?_, hprogress.mono hold fun _ hb => hb⟩
      exact List.getElem?_append_left (List.getElem?_eq_some_iff.mp hp).1 ▸ hp
    | act i c =>
      cases hi : t.threads[i]? with
      | none =>
        rw [Program.step_act_none hi] at hold ⊢
        exact ⟨p, hp, hprogress.mono hold fun _ hb => hb⟩
      | some q =>
        have hshared : ((nodeProgram T H valid).act i c t.shared q).1 = t.shared :=
          act_shared i c t.shared q
        rw [Program.step_act hi] at hold ⊢
        by_cases hij : i = j
        · subst hij
          obtain rfl : p = q := Option.some.inj (hp.symm.trans hi)
          refine ⟨_, List.getElem?_set_self (List.getElem?_eq_some_iff.mp hp).1, ?_⟩
          refine (hprogress.act hsane hpath.last_mem rfl i c).mono hold fun b hb => ?_
          rwa [hshared]
        · refine ⟨p, ?_, hprogress.mono hold fun b hb => by rwa [hshared]⟩
          exact (List.getElem?_set_ne hij).trans hp
    | env e =>
      have hafter := hsane.after fun b (hb : e = .importBlock b) => hg b (congrArg Move.env hb)
      exact ⟨p, hp, hprogress.mono hold hafter.2⟩

/-- **Replies are atomic reads.** Whatever the chain and the other requests do meanwhile, the reply
to a request is the one that the best block of some moment between its arrival and the reply gives,
with the hash and the number of that very block, or the reply of an endpoint that cannot read the
state of that block. -/
theorem reply_linearizes (h₀ : (nodeProgram T H valid).machine.Reach (Imports valid) t₀)
    (harrived : t₀.threads[j]? = some (.arrived request))
    (hpath : (nodeProgram T H valid).machine.Path (Imports valid) t₀ tr t) {request' : Request}
    (hreplied : t.threads[j]? = some (.replied request' reply)) :
    request' = request ∧ ∃ x ∈ tr, ∃ b ∈ x.shared.blocks, valid b ∧ x.shared.info = b.info ∧
      ReadFrom H request b reply := by
  obtain ⟨p, hp, hprogress⟩ := progress_of_path h₀ harrived hpath
  obtain rfl := Option.some.inj (hreplied.symm.trans hp)
  obtain ⟨rfl, b, ⟨hvalid, x, hx, hb, hbest⟩, hread⟩ := hprogress
  exact ⟨rfl, x, hx, b, hb, hvalid, hbest, hread⟩

open Devnet in
/-- The block in which account 1 has registered `alice`. -/
def firstBlock : Block config := ⟨digest 1, 1, afterRegistration⟩

open Devnet in
/-- A block on top of it, in which account 2 has bought `alice` for account 3. -/
def secondBlock : Block config := ⟨digest 2, 2, afterGift⟩

open Devnet in
/-- A node whose blocks have reachable states. -/
def devnetNode : Program (NodeClient config) Point Request Unit (ChainEvent config) :=
  nodeProgram config hickory fun b => Reachable config labels b.state

open Devnet in
/-- A request for `alice` has arrived, and the first block is the best one. -/
def asked : Threads (NodeClient config) Point :=
  devnetNode.machine.run ⟨⟨[firstBlock], fun _ => false, firstBlock.info⟩, []⟩
    [.spawn (.getInfo (node alice))]

open Devnet in
/-- The request takes the best block; then the second block becomes the best one, and only then is
the request answered. -/
def overtaken : List (Move Request Unit (ChainEvent config)) :=
  [.act 0 (), .env (.importBlock secondBlock), .env (.setBest (digest 2)), .act 0 ()]

theorem imports_quiet {m : Move Request Unit (ChainEvent T)}
    (h : ∀ b, m ≠ .env (.importBlock b)) : Imports valid t m := fun b hb => absurd hb (h b)

open Devnet in
theorem asked_reach :
    devnetNode.machine.Reach (Imports fun b => Reachable config labels b.state) asked := by
  refine .step (.init ⟨⟨firstBlock, ?_, rfl, rfl⟩, rfl⟩) (imports_quiet (by simp))
  dsimp only [firstBlock]
  exact afterRegistration_reachable

open Devnet in
theorem reply_linearizes_overtaken :
    ∃ reply, (devnetNode.machine.run asked overtaken).threads[0]? =
        some (.replied (.getInfo (node alice)) reply) ∧
      ∃ b : Block config, Reachable config labels b.state ∧
        ReadFrom hickory (.getInfo (node alice)) b reply := by
  have halong : devnetNode.machine.Along (Imports fun b => Reachable config labels b.state)
      asked overtaken := by
    refine ⟨imports_quiet (by simp), ?_, imports_quiet (by simp), imports_quiet (by simp), trivial⟩
    rintro b hb
    cases hb
    dsimp only [secondBlock]
    exact afterGift_reachable
  obtain ⟨tr, hpath⟩ := Machine.Path.run .refl halong
  have hreplied : ∃ reply, (devnetNode.machine.run asked overtaken).threads[0]? =
      some (.replied (.getInfo (node alice)) reply) := ⟨_, rfl⟩
  obtain ⟨reply, hreplied⟩ := hreplied
  obtain ⟨-, x, -, b, -, hvalid, -, hread⟩ := reply_linearizes asked_reach rfl hpath hreplied
  exact ⟨reply, hreplied, b, hvalid, hread⟩

end PnsRpc

/-! ## The endpoints and the registry -/

variable {L : Set Bytes} {s : State T} {n : DomainHash}

/-- The record of a name that is in term, of `a`, and no pending gift. -/
def recordFor (s : State T) (n : DomainHash) (info : RegistrarInfo) (a : AccountId) :
    NameRecord where
  owner := a
  expire := info.expire
  capacity := info.capacity
  registerFee := info.registerFee
  forSale := s.listings.containsKey n
  lastBlock := info.lastBlock
  readBlockNumber := 0
  readBlockHash := H256.zero

theorem resolveName_eq_ite (s : State T) (name : Bytes) :
    resolveName s name = if IsLabel name then getInfo s (registeredNode T name) else none := by
  unfold resolveName
  split
  · next hlabel =>
    have hnew : Label.newWithLen T.keccak256 name = some _ := newWithLen_eq_some.mpr ⟨hlabel, rfl⟩
    rw [hnew, registeredNode, ← label_encodeWithNode_top (label_newWithLen_node hnew)]
    rfl
  · next hlabel =>
    cases hnew : Label.newWithLen T.keccak256 name with
    | none => rfl
    | some l => exact absurd (newWithLen_eq_some.mp hnew).1 hlabel

theorem getInfo_eq_ite {info : RegistrarInfo} {a : AccountId}
    (hinfo : s.registrar.registrarInfos.get n = some info) (hown : s.nft.ownerOf n = some a) :
    getInfo s n =
      if pendingGift s n = none ∧ s.now < info.expire then some (recordFor s n info a)
      else none := by
  obtain ⟨token, htoken, rfl⟩ := ownerOf_eq_some.mp hown
  unfold getInfo nameRecord pendingGift
  cases hoffer : s.registrar.offeredNames.get n with
  | some offer => simp [hoffer]
  | none =>
    by_cases hterm : s.now < info.expire
    · simp [hoffer, hinfo, htoken, hterm, UInt64.not_le.mpr hterm, recordFor]
    · simp [hoffer, hinfo, hterm, UInt64.not_lt.mp hterm]

theorem getInfo_info {r : NameRecord} (h : getInfo s n = some r) :
    ∃ info, s.registrar.registrarInfos.get n = some info := by
  unfold getInfo nameRecord at h
  cases hinfo : s.registrar.registrarInfos.get n with
  | none => simp [hinfo] at h
  | some info => exact ⟨info, rfl⟩

/-- The node is that of a valid label. -/
def Labelled (T : Config) (n : DomainHash) : Prop :=
  ∃ name, IsLabel name ∧ registeredNode T name = n

theorem Enrols.keeps_labelled {o : Origin} {call : Call T}
    {es : List (Rolls.Event DomainHash RegistrarInfo)} (h : Enrols s o call es) :
    ∀ e ∈ es, e.Keeps fun m (_ : RegistrarInfo) => Labelled T m := by
  cases h with
  | @register who dest name _ _ _ _ hn hlabel _ _ =>
    intro e he
    rcases List.mem_append.mp he with he | he
    · exact strikes_keeps e he
    · obtain rfl := List.mem_singleton.mp he
      exact fun _ _ => ⟨name, hlabel, (topLevelNode_eq hn).symm⟩
  | renew _ _ =>
    intro e he
    obtain rfl := List.mem_singleton.mp he
    exact fun _ hinfo => hinfo
  | other _ => exact strikes_keeps

theorem Reachable.labelled (hcf : CollisionFree T.keccak256 T.baseNode L) (h : Reachable T L s) :
    ∀ n info, s.registrar.registrarInfos.get n = some info → Labelled T n := by
  refine (ReachableBy.invariant (I := fun s : State T => ∀ n info,
    s.registrar.registrarInfos.get n = some info → Labelled T n) hcf ?_ ?_ ?_ h.by).2
  · intro root balances parentHash s hs n info hinfo
    simp [genesis_registrarInfos hs] at hinfo
  · exact fun _ _ _ _ _ _ hinv => hinv
  · intro s o call s' hc hadm _ hok _ hinv
    obtain ⟨es, hes, hleads⟩ := dispatch_enrols hcf hc hadm hok
    exact hleads.all hes.keeps_labelled hinv

/-- **The endpoints for names agree.** `all` lists every name once, and lists exactly the names
that are owned. Each of them has a label; its record is there if it is in term and no gift of it is
pending, and is then that of its owner. No other node has a record, and a lookup by text is one by
the node of the text, over JSON-RPC as over HTTP. -/
theorem names_read_exactly (hcf : CollisionFree T.keccak256 T.baseNode L) (h : Reachable T L s) :
    ((allNames s).map Prod.fst).Nodup ∧
    (∀ n, (∃ info, (n, info) ∈ allNames s) ↔
      n ≠ T.baseNode ∧ (s.nft.ownerOf n).isSome = true) ∧
    (∀ n info, (n, info) ∈ allNames s →
      ∃ a name, s.nft.ownerOf n = some a ∧ IsLabel name ∧ registeredNode T name = n ∧
        getInfo s n =
          if pendingGift s n = none ∧ s.now < info.expire then some (recordFor s n info a)
          else none) ∧
    (∀ n r, getInfo s n = some r → ∃ info, (n, info) ∈ allNames s) ∧
    ∀ name, resolveName s name =
        (if IsLabel name then getInfo s (registeredNode T name) else none) ∧
      PnsRpc.httpGetInfoFromName (some s) name = resolveName s name := by
  have hlisted : ∀ n, (∃ info, (n, info) ∈ allNames s) ↔
      n ≠ T.baseNode ∧ (s.nft.ownerOf n).isSome = true := by
    intro n
    rw [← (h.consistent hcf).hierarchy.info n, Option.isSome_iff_exists]
    exact exists_congr fun info => StorageMap.mem_toList
  refine ⟨StorageMap.nodup_keys _, hlisted, ?_, ?_, fun name => ⟨resolveName_eq_ite s name, rfl⟩⟩
  · intro n info hmem
    obtain ⟨a, hown⟩ := Option.isSome_iff_exists.mp ((hlisted n).mp ⟨info, hmem⟩).2
    have hinfo := StorageMap.mem_toList.mp hmem
    obtain ⟨name, hlabel, hnode⟩ := h.labelled hcf n info hinfo
    exact ⟨a, name, hown, hlabel, hnode, getInfo_eq_ite hinfo hown⟩
  · intro n r hr
    obtain ⟨info, hinfo⟩ := getInfo_info hr
    exact ⟨info, StorageMap.mem_toList.mpr hinfo⟩

open Devnet in
/-- While its gift is pending, `alice` is owned and listed, and has no record. -/
theorem names_read_exactly_gift :
    (∃ info, (node alice, info) ∈ allNames afterGift) ∧ getInfo afterGift (node alice) = none := by
  obtain ⟨-, hlisted, hrecord, -, -⟩ := names_read_exactly collisionFree afterGift_reachable
  obtain ⟨info, hmem⟩ := (hlisted (node alice)).mpr (by decide +kernel)
  have hgift : ¬ pendingGift afterGift (node alice) = none := by decide +kernel
  obtain ⟨_, _, -, -, -, hget⟩ := hrecord _ info hmem
  exact ⟨⟨info, hmem⟩, hget.trans (if_neg fun h => hgift h.1)⟩

end PnsPallets
