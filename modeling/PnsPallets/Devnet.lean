import PnsPallets.Runtime

/-!
# A development chain

A concrete instance of the runtime's configuration, on which runs can be
evaluated: the balances pallet reduced to free balances with the existential
deposit, and `keccak_256` by its values on the inputs that runs over the labels
`alice` and `bob` hash, the reserved names of the preset included.
-/

namespace PnsPallets.Devnet

open Frame

/-! ## Hashes -/

/-- The 32 bytes of a digest, most significant first. -/
def digest (d : Nat) : H256 :=
  ⟨(List.range 32).map fun i => UInt8.ofNat (d >>> (8 * (31 - i))), by simp⟩

/-- An input as a number: its bytes, most significant first, after a leading one. -/
def inputKey (input : Bytes) : Nat := input.foldl (fun k b => 256 * k + b.toNat) 1

/-- The input that is a namehash followed by a label's hash. -/
def nodeKey (parent label : Nat) : Nat := 2 ^ 512 + 2 ^ 256 * parent + label

/-- Labels, their keccak-256, and the namehash of the label below the base node. -/
def labelDigests : List (Nat × Nat × Nat) :=
  [
    -- polkadot
    (0x01706f6c6b61646f74,
      0x517b5bf0c61716598329be434bf08fa58c2951a22b24c78ee532e591d35ca4f3,
      0xcd9319cbaa4e9d9342a31b0f7660fadd2c4ad859e8b1b531c335366a831c9eac),
    -- kusama
    (0x016b7573616d61,
      0x9be1a3b73ff105636c2c18c156f2348374c2a45799d7dfd8061268a24f6ede4a,
      0x48540d4e8df4a4953a60cb4e72b06c5d3aec86fe28f4db4bde60dc3740909de0),
    -- paseo
    (0x01706173656f,
      0xa69f1883edc07516c3849575a08be31fe8627ba7bb11494fc9a0fb8d227c2bb4,
      0x8e11af19f3308d67b27585e9b73163387899f2f3418f059d27aa85ba224cfe54),
    -- westend
    (0x0177657374656e64,
      0x28a2585fabf87f13a10d9c1dfe63ebfcbd98ddb8b5b27c912eae69f06925eae7,
      0x61073fc6526b442920a04bea9148c6c41c2c25b9754e25d2315cc632684b71c2),
    -- fellowship
    (0x0166656c6c6f7773686970,
      0xd476cb7ab588b78a1c0c578ce68e2e51cfa7968f31d9861f9a9f6e5402493fac,
      0x67a73983c7ffef5e92ac244ed4b90e8c8b89fc266e550f872fb39eefaa8a0a73),
    -- hub
    (0x01687562,
      0x29dd7663e474f6496a1fa0c332963944e9c2fbe771f5261348576450525e40d3,
      0xadb765146c62e98e113cf0941f3ce4ca85fab64681ff96e5228682841172872e),
    -- polkadothub
    (0x01706f6c6b61646f74687562,
      0x546ca67aa07823a878ea81e0921e2581f1912628088a5bdd87a361d91b0ad906,
      0xe15ce4e302fc7ea74a00ea9349761df4c40ed4f82d950e09d9d35dd8d9feff26),
    -- assethub
    (0x016173736574687562,
      0xc30766c1a0277f28221f609a19307435cc173f4b4ca75f6d93b5b29fa2fae9b7,
      0x25f8a6bf7aee4d3e753f477d10d75929cd3d23ea7497dee73120c466da4524eb),
    -- collectives
    (0x01636f6c6c65637469766573,
      0x86748106e1de00bcca43946ed156fe4222a3e219eac6fe1d98176948adb093ff,
      0x25e5e74761cecddbcf55d1479cc51c7cdaa0ef91598a4a6a50e0872b04027486),
    -- pusd
    (0x0170757364,
      0x1d88a980ff59fbf98a5d741cb9e5ac76bf360525b0afb7b6d571f5eb3f833964,
      0x86ed4892184edd5a40bfda497a7a91f1a5e364950064176b705fd43482bb3823),
    -- pop
    (0x01706f70,
      0x463e999eb3891010d7462a234a75f9ecdc655fa421188ecf1c8f7c556a8533f3,
      0xe256b8161ac3bd82752af3172bd4cdde649923d7bdd12e406d3ebda3e752d8d6),
    -- revive
    (0x01726576697665,
      0xbfc0e73c66a7a0133e264ff40def848fa522b6291f893ffe6e63d1892c8a61bb,
      0xaa81d9aa863a1693746b3cee3c7a8850c17cada6e0e72299578e18627c93626a),
    -- jam
    (0x016a616d,
      0xd0d903bfb0dc90040c8b64b233d1ae7a3dd254f07d992c3030d2725f9174bbab,
      0xcd092e9f06053fb61a52043e2627980a340f20f272528b3f2d98ab3f59ce24ca),
    -- people
    (0x0170656f706c65,
      0xf3cfb3785ad7116482df475ac62b131b1e8ba65b112ecf066cf38f292d620746,
      0x611e10287dc3f12e919d12492294f7e2243224bb3d501897567ecb8c6d234154),
    -- dap
    (0x01646170,
      0x87c3ef44f7a03977ef4b44de3fe910cab006ad0e8ac313c608331169ee2423ca,
      0x9bec120350958584e171d500bb7247752f9ae146f7a3cf3f94b0ed9c9f473cbf),
    -- alice
    (0x01616c696365,
      0x9c0257114eb9399a2985f8e75dad7600c5d89fe3824ffa99ec1c3eb8bf3b0501,
      0x08354b1272d88341cb6fa2cdd7741a7692cb7a71092ae986752d343b8967b226),
    -- bob
    (0x01626f62,
      0x38e47a7b719dce63662aeaf43440326f551b8a7ee198cee35cb5d517f2d296a2,
      0xf4f6aed25aaf0396f945e92590433d58020ecb3e8e6bb3b420712ebba5554aad)
  ]

/-- Namehash of a top-level name, keccak-256 of a label, and the namehash of the
label below the name. -/
def subnameDigests : List (Nat × Nat × Nat) :=
  [
    -- alice.alice
    (0x08354b1272d88341cb6fa2cdd7741a7692cb7a71092ae986752d343b8967b226,
      0x9c0257114eb9399a2985f8e75dad7600c5d89fe3824ffa99ec1c3eb8bf3b0501,
      0x2a6bd26ac154581bd373349ee344aa6ca949d9b3c7c417f8e956eb5befb6e6fc),
    -- bob.alice
    (0x08354b1272d88341cb6fa2cdd7741a7692cb7a71092ae986752d343b8967b226,
      0x38e47a7b719dce63662aeaf43440326f551b8a7ee198cee35cb5d517f2d296a2,
      0xff07d72c9891f857e600dd31907b0e2aefd8ac027337d9efb3403948f1dacb6e),
    -- alice.bob
    (0xf4f6aed25aaf0396f945e92590433d58020ecb3e8e6bb3b420712ebba5554aad,
      0x9c0257114eb9399a2985f8e75dad7600c5d89fe3824ffa99ec1c3eb8bf3b0501,
      0x405835f3f08c0e97fe32f3a5e494b3d52f62079e20161c8e997ed02a5b93acc0),
    -- bob.bob
    (0xf4f6aed25aaf0396f945e92590433d58020ecb3e8e6bb3b420712ebba5554aad,
      0x38e47a7b719dce63662aeaf43440326f551b8a7ee198cee35cb5d517f2d296a2,
      0x691bc38d4f6fcb296e3ea9d2984fa6a2605ec42c0b58875b08b7bab9130f682e)
  ]

/-- `dotBasenode` as a number. -/
def baseDigest : Nat :=
  0x3fce7d1364a893e213bc4212792b517ffc88f5b13b86c8ef9c8d390c3a1370ce

/-- Inputs and values of `keccak_256`. -/
def knownDigests : List (Nat × Nat) :=
  labelDigests.map (fun e => (e.1, e.2.1)) ++
    labelDigests.map (fun e => (nodeKey baseDigest e.2.1, e.2.2)) ++
    subnameDigests.map (fun e => (nodeKey e.1 e.2.1, e.2.2))

/-- `keccak_256` on the known inputs. -/
def keccak256 (input : Bytes) : H256 :=
  digest ((knownDigests.lookup (inputKey input)).getD 0)

/-! ## Balances -/

/-- Free balances and the total issuance. -/
structure Balances where
  free : StorageMap AccountId Balance
  totalIssuance : Balance

/-- `EXISTENTIAL_DEPOSIT` (runtime lib.rs:107). -/
def existentialDeposit : Balance := 1000000000

/-- The free balance of an account. -/
def Balances.freeOf (b : Balances) (who : AccountId) : Balance := (b.free.get who).getD 0

/-- Take `value` from an account; what is left must be the existential deposit or,
if the account may die, nothing. -/
def Balances.debit (b : Balances) (who : AccountId) (value : Balance)
    (requirement : ExistenceRequirement) : Except Nat Balances :=
  let free := b.freeOf who
  if free.toNat < value.toNat then .error 2
  else if existentialDeposit.toNat ≤ (free - value).toNat then
    .ok { b with free := b.free.insert who (free - value) }
  else if requirement = .allowDeath ∧ free = value then
    .ok { b with free := b.free.remove who }
  else .error 4

/-- Give `value` to an account; an account below the existential deposit cannot
exist. -/
def Balances.credit (b : Balances) (who : AccountId) (value : Balance) :
    Except Nat Balances :=
  let free := b.freeOf who
  if (free + value).toNat < existentialDeposit.toNat then .error 3
  else if 2 ^ 128 ≤ free.toNat + value.toNat then .error 5
  else .ok { b with free := b.free.insert who (free + value) }

/-- The balances pallet of the chain. -/
def currency : Currency Balances where
  transfer b source dest value requirement :=
    if source = dest ∨ value = 0 then .ok b
    else do
      let b ← b.debit source value requirement
      b.credit dest value
  withdraw b who value requirement :=
    if value = 0 then .ok (b, 0)
    else do
      let b ← b.debit who value requirement
      pure (b, value)
  dropImbalance b imbalance := { b with totalIssuance := b.totalIssuance - imbalance }

/-! ## The chain -/

/-- The runtime's configuration over these hosts. -/
def config : Config := runtimeConfig keccak256 Balances currency

/-- The account whose bytes are all `b`. -/
def account (b : UInt8) : AccountId := ⟨List.replicate 32 b, rfl⟩

/-- The endowment of the preset (genesis_config_presets.rs:41). -/
def endowment : Balance := 1152921504606846976

/-- Four endowed accounts. -/
def balances : Balances where
  free := [1, 2, 3, 4].foldl (fun m b => m.insert (account b) endowment) .empty
  totalIssuance := 4 * endowment

/-- The genesis state, with account 0 as sudo. -/
def start : State config :=
  (genesis config (account 0) balances (digest 0)).toOption.get (by decide +kernel)

/-- `alice`. -/
def alice : Bytes := [97, 108, 105, 99, 101]

/-- `bob`. -/
def bob : Bytes := [98, 111, 98]

/-- The labels of the runs on this chain. -/
def labels : Set Bytes := {l | l ∈ [alice, bob]}

/-- The node of a top-level name. -/
def node (label : Bytes) : DomainHash := (Name.top label).node keccak256 dotBasenode

/-- The state after some inputs from genesis. -/
def after (inputs : List (Input config)) : State config := (chain config).run start inputs

theorem after_singleton (i : Input config) : after [i] = apply start i := rfl

/-- The keccak values of the chain are collision-free. -/
theorem collisionFree : CollisionFree config.keccak256 config.baseNode labels :=
  collisionFree_of_nodup (by decide +kernel)

theorem start_init : (chain config).init start :=
  ⟨account 0, balances, digest 0, eq_ok_get _⟩

instance (l : Bytes) : Decidable (l ∈ labels) :=
  inferInstanceAs (Decidable (l ∈ [alice, bob]))

instance (s : State config) : (i : Input config) → Decidable (Admissible labels s i)
  | .extrinsic _ call => inferInstanceAs (Decidable (∀ l ∈ call.labels, l ∈ labels))
  | .newBlock now _ _ _ => inferInstanceAs (Decidable (s.now ≤ now))

theorem runsTo_after {inputs : List (Input config)}
    (h : (chain config).Along (Admissible labels) start inputs) :
    (chain config).RunsTo (Admissible labels) start inputs (after inputs) :=
  ⟨start_init, h, rfl⟩

theorem reachable_after {inputs : List (Input config)}
    (h : (chain config).Along (Admissible labels) start inputs) :
    Reachable config labels (after inputs) :=
  (runsTo_after h).reach

theorem reachableBy_after {P : State config → Input config → Prop}
    {inputs : List (Input config)}
    (h : (chain config).Along (Admissible labels) start inputs)
    (hP : (chain config).Along P start inputs) :
    ReachableBy config labels P (after inputs) :=
  Machine.Reach.run (.init start_init) (h.and hP)

/-! ## Runs -/

/-- Account 1 has registered `alice`. -/
def afterRegistration : State config := after
  [.extrinsic (.signed (account 1)) (.register alice (.id (account 1)) none)]

theorem afterRegistration_reachable : Reachable config labels afterRegistration :=
  reachable_after (by decide +kernel)

/-- Account 2 holds `bob.alice`, delegated by account 1. -/
def afterDelegation : State config := after
  [ .extrinsic (.signed (account 1)) (.register alice (.id (account 1)) none),
    .extrinsic (.signed (account 1)) (.offerSubdomain bob (.id (account 2))),
    .extrinsic (.signed (account 2)) (.acceptSubdomain alice bob) ]

theorem afterDelegation_reachable : Reachable config labels afterDelegation :=
  reachable_after (by decide +kernel)

/-- Account 2 buys `alice` from account 1 as a gift for account 3. -/
def presentInputs : List (Input config) :=
  [ .extrinsic (.signed (account 1)) (.register alice (.id (account 1)) none),
    .extrinsic (.signed (account 1)) (.createListing 5000 1000000),
    .extrinsic (.signed (account 2)) (.buyName alice (some (account 3))) ]

/-- Account 2 has bought `alice` from account 1 as a gift for account 3. -/
def afterGift : State config := after presentInputs

theorem afterGift_run : (chain config).RunsTo (Admissible labels) start presentInputs afterGift :=
  runsTo_after (by decide +kernel)

theorem afterGift_reachable : Reachable config labels afterGift :=
  afterGift_run.reach

/-- Account 2 registers and lists `alice`, and account 1 buys it. -/
def afterSale : State config := after
  [ .extrinsic (.signed (account 2)) (.register alice (.id (account 2)) none),
    .extrinsic (.signed (account 2)) (.createListing 5000 1000000),
    .extrinsic (.signed (account 1)) (.buyName alice none) ]

theorem afterSale_reachable : Reachable config labels afterSale :=
  reachable_after (by decide +kernel)

end PnsPallets.Devnet
