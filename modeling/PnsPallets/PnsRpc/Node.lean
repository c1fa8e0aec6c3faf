import PnsPallets.Frame.Threads
import PnsPallets.PnsRpc

/-!
# The endpoints of the node over a moving chain

The JSON-RPC endpoints of `node/src/pns_rpc.rs` and the HTTP ones of `pns-ddns/src/lib.rs`. Each
takes the best block from the client first, and then calls the runtime API at the hash of that
block; in between, blocks are imported, the best block moves, also to another fork, and the states
of old blocks are pruned.

- `Request.respond`: the reply to a request, from what `info()` said and the state that the runtime
  API then finds at that hash;
- `nodeProgram`: the requests as threads over the client, one action for each of the two accesses.
-/

namespace PnsPallets

open Frame

variable {T : Config}

/-- `PnsStorageApi::all` (apis.rs:318–320), `registrar::all` (registrar.rs:1038–1040). -/
def allNames (s : State T) : List (DomainHash × RegistrarInfo) :=
  s.registrar.registrarInfos.toList

/-- What is read of `sp_blockchain::Info`. -/
structure ChainInfo where
  bestHash : H256
  bestNumber : UInt32
deriving DecidableEq

/-- The record with the block it was read at (pns_rpc.rs:70–74 and 86–90). -/
def NameRecord.readAt (chain : ChainInfo) (r : NameRecord) : NameRecord :=
  { r with readBlockHash := chain.bestHash, readBlockNumber := chain.bestNumber }

/-- The listing with the block it was read at (pns_rpc.rs:119–123). -/
def ListingInfo.readAt (chain : ChainInfo) (r : ListingInfo) : ListingInfo :=
  { r with readBlockHash := chain.bestHash, readBlockNumber := chain.bestNumber }

namespace PnsRpc

/-! ## The endpoints -/

/-- A call of the runtime API, with its error as that of the endpoint. -/
def runtimeCall {β : Type} (api : Option (State T)) (call : State T → β) : Except ErrorObject β :=
  match api with
  | none => .error runtimeError
  | some s => .ok (call s)

/-- `pns_getInfo` (pns_rpc.rs:61–75). -/
def getInfo (chain : ChainInfo) (api : Option (State T)) (node : DomainHash) :
    Except ErrorObject (Option NameRecord) :=
  (runtimeCall api fun s => PnsPallets.getInfo s node).map (Option.map (NameRecord.readAt chain))

/-- `pns_resolveName` (pns_rpc.rs:77–91). -/
def resolveName (chain : ChainInfo) (api : Option (State T)) (name : Bytes) :
    Except ErrorObject (Option NameRecord) :=
  (runtimeCall api fun s => PnsPallets.resolveName s name).map
    (Option.map (NameRecord.readAt chain))

/-- `pns_getListing` (pns_rpc.rs:110–124). -/
def getListing (chain : ChainInfo) (api : Option (State T)) (name : Bytes) :
    Except ErrorObject (Option ListingInfo) :=
  (runtimeCall api fun s => PnsPallets.getListing s name).map
    (Option.map (ListingInfo.readAt chain))

/-- `pns_all` (pns_rpc.rs:144–152). -/
def all (api : Option (State T)) : Except ErrorObject (List (DomainHash × RegistrarInfo)) :=
  runtimeCall api allNames

/-- `pns_accountDashboard` (pns_rpc.rs:154–163). -/
def accountDashboard (api : Option (State T)) (account : AccountId) :
    Except ErrorObject AccountDashboard :=
  runtimeCall api fun s => PnsPallets.accountDashboard s account

/-- `GET /get_info/:id` (pns-ddns/src/lib.rs:141–155): an error is logged, and the reply is null. -/
def httpGetInfo (api : Option (State T)) (id : DomainHash) : Option NameRecord :=
  match api with
  | none => none
  | some s => PnsPallets.getInfo s id

/-- `GET /info/:name` (pns-ddns/src/lib.rs:157–177). -/
def httpGetInfoFromName (api : Option (State T)) (name : Bytes) : Option NameRecord := do
  let label ← Label.newWithLen T.keccak256 name
  httpGetInfo api (label.1.encodeWithNode T.keccak256 T.baseNode)

/-- `GET /all` (pns-ddns/src/lib.rs:179–190): an error is logged, and the reply is empty. -/
def httpAll (api : Option (State T)) : List (DomainHash × RegistrarInfo) :=
  match api with
  | none => []
  | some s => allNames s

/-! ## Requests -/

/-- A request to one of the endpoints. -/
inductive Request where
  | getInfo (node : DomainHash)
  | resolveName (name : Bytes)
  | lookup (node : DomainHash) (recordTypes : List UInt32)
  | getListing (name : Bytes)
  | lookupByName (name : Bytes) (recordTypes : List UInt32)
  | all
  | accountDashboard (account : AccountId)
  | httpGetInfo (id : DomainHash)
  | httpGetInfoFromName (name : Bytes)
  | httpAll

/-- What an endpoint replies. -/
inductive Reply where
  | record (result : Except ErrorObject (Option NameRecord))
  | records (result : Except Panic (Except ErrorObject (List (UInt32 × Bytes))))
  | listing (result : Except ErrorObject (Option ListingInfo))
  | names (result : Except ErrorObject (List (DomainHash × RegistrarInfo)))
  | dashboard (result : Except ErrorObject AccountDashboard)
  | httpRecord (result : Option NameRecord)
  | httpNames (result : List (DomainHash × RegistrarInfo))

/-- The reply to a request, from the best block that `info()` returned and the state that the
runtime API finds at its hash. -/
def Request.respond (H : Hickory) (chain : ChainInfo) (api : Option (State T)) : Request → Reply
  | .getInfo node => .record (PnsRpc.getInfo chain api node)
  | .resolveName name => .record (PnsRpc.resolveName chain api name)
  | .lookup node recordTypes =>
    .records (PnsRpc.lookup H ⟨chain.bestNumber.toUInt64, api⟩ node recordTypes)
  | .getListing name => .listing (PnsRpc.getListing chain api name)
  | .lookupByName name recordTypes =>
    .records (PnsRpc.lookupByName H ⟨chain.bestNumber.toUInt64, api⟩ name recordTypes)
  | .all => .names (PnsRpc.all api)
  | .accountDashboard account => .dashboard (PnsRpc.accountDashboard api account)
  | .httpGetInfo id => .httpRecord (PnsRpc.httpGetInfo api id)
  | .httpGetInfoFromName name => .httpRecord (PnsRpc.httpGetInfoFromName api name)
  | .httpAll => .httpNames (PnsRpc.httpAll api)

/-! ## The client -/

/-- An imported block with the state after it. -/
structure Block (T : Config) where
  hash : H256
  number : UInt32
  state : State T

/-- What `info()` says when the block is the best one. -/
def Block.info (b : Block T) : ChainInfo where
  bestHash := b.hash
  bestNumber := b.number

/-- The client: the blocks imported so far, the hashes whose states are pruned, and the best
block. -/
structure NodeClient (T : Config) where
  blocks : List (Block T)
  pruned : H256 → Bool
  info : ChainInfo

/-- The state that the runtime API reads at a hash. -/
def NodeClient.stateAt (client : NodeClient T) (hash : H256) : Option (State T) :=
  if client.pruned hash then none
  else (client.blocks.find? fun b => b.hash = hash).map Block.state

/-- What happens to the client while requests are served. -/
inductive ChainEvent (T : Config) where
  | importBlock (b : Block T)
  | setBest (hash : H256)
  | prune (hash : H256)

/-- The client after an event; a block that is known is not imported again, and only a known
block becomes the best one. -/
def NodeClient.after (client : NodeClient T) : ChainEvent T → NodeClient T
  | .importBlock b =>
    if client.blocks.any fun b' => b'.hash = b.hash then client
    else { client with blocks := client.blocks ++ [b] }
  | .setBest hash =>
    match client.blocks.find? fun b => b.hash = hash with
    | none => client
    | some b => { client with info := b.info }
  | .prune hash => { client with pruned := Function.update client.pruned hash true }

/-! ## Threads -/

/-- Where a request is. -/
inductive Point where
  | arrived (request : Request)
  | chosen (request : Request) (chain : ChainInfo)
  | replied (request : Request) (reply : Reply)

/-- The endpoints, serving requests while the chain moves: the first action reads `info()`, the
second calls the runtime API. The client starts with one block, of those that are `valid`. -/
def nodeProgram (T : Config) (H : Hickory) (valid : Block T → Prop) :
    Program (NodeClient T) Point Request Unit (ChainEvent T) where
  init client := ∃ b, valid b ∧ client.blocks = [b] ∧ client.info = b.info
  entry := .arrived
  act _ _ client
    | .arrived request => (client, .chosen request client.info)
    | .chosen request chain =>
      (client, .replied request (request.respond H chain (client.stateAt chain.bestHash)))
    | .replied request reply => (client, .replied request reply)
  env event client := client.after event

/-- The moves in which only valid blocks are imported. -/
def Imports (valid : Block T → Prop) (_ : Threads (NodeClient T) Point)
    (m : Move Request Unit (ChainEvent T)) : Prop :=
  ∀ b, m = .env (.importBlock b) → valid b

end PnsRpc

end PnsPallets
