import PnsPallets.Runtime

/-!
# Events

What the pallets deposit, beside the state they leave: one event type for each pallet as its
`Event` enum has it, one list of events for each function of the source that deposits any, and
`deposited`, what an extrinsic leaves in the block. The lists read the state before the call
and say what the call deposits if it succeeds, in the order of the source; a failing extrinsic
is rolled back with its events. Events of pallets outside the repository (balances, system)
are not in the lists.
-/

namespace PnsPallets

open Frame

variable {T : Config}

/-- `registrar::Event` (registrar.rs:180–239). -/
inductive RegistrarEvent where
  | nameRegistered (name : Bytes) (node : DomainHash) (owner : AccountId) (expire : Moment)
      (fee : Balance)
  | nameRenewed (node : DomainHash) (owner : AccountId) (expire : Moment) (fee : Balance)
  | subnameOffered (parent subnode : DomainHash) (label : Bytes) (target : AccountId)
  | subnameAccepted (subnode : DomainHash) (target : AccountId)
  | subnameRejected (subnode : DomainHash) (target : AccountId)
  | subnameRevoked (subnode parent : DomainHash)
  | subnameReleased (subnode parent : DomainHash)
  | nameReserved (node : DomainHash)
  | nameUnReserved (node : DomainHash)
  | nameBoughtForRecipient (node : DomainHash) (buyer recipient : AccountId)
  | offeredNameAccepted (node : DomainHash) (recipient : AccountId)
  | offeredNameRejected (node : DomainHash) (rejector : AccountId)
deriving DecidableEq

/-- `registry::Event` (registry.rs:125–148). -/
inductive RegistryEvent where
  | transferred (source dest : AccountId) (classId : ClassId) (tokenId : DomainHash)
  | tokenMinted (classId : ClassId) (tokenId node : DomainHash) (owner : AccountId)
  | tokenBurned (classId : ClassId) (tokenId node : DomainHash) (owner caller : AccountId)
deriving DecidableEq

/-- `resolvers::Event` (resolvers.rs:102–113). -/
inductive ResolversEvent (T : Config) where
  | textsChanged (node : DomainHash) (kind : TextKind) (content : Content T)
  | recordsChanged (node : DomainHash) (kind : RecordType) (content : Content T)
deriving DecidableEq

/-- `pns_marketplace::Event` (lib.rs:89–119). -/
inductive MarketplaceEvent where
  | listed (node : DomainHash) (seller : AccountId) (price : Balance) (expiresAt : Moment)
  | delisted (node : DomainHash) (seller : AccountId)
  | sold (node : DomainHash) (seller buyer : AccountId) (price fee : Balance)
  | nameBoughtForRecipient (node : DomainHash) (seller buyer recipient : AccountId)
      (price fee : Balance)
deriving DecidableEq

/-- `price_oracle::Event` (price_oracle.rs:108–118). -/
inductive PriceOracleEvent where
  | basePriceChanged (prices : Vector Balance 11)
  | rentPriceChanged (prices : Vector Balance 11)
  | exchangeRateChanged (who : AccountId) (rate : Balance)
deriving DecidableEq

/-- The runtime's events of the PNS pallets. -/
inductive RuntimeEvent (T : Config) where
  | registrar (event : RegistrarEvent)
  | registry (event : RegistryEvent)
  | resolvers (event : ResolversEvent T)
  | marketplace (event : MarketplaceEvent)
  | priceOracle (event : PriceOracleEvent)
deriving DecidableEq

/-! ## The registry -/

namespace Registry

/-- The events of `do_burn` (registry.rs:263–269). -/
def burnEvents (s : State T) (caller : AccountId) (token : DomainHash) : List (RuntimeEvent T) :=
  match s.nft.tokens.get (classZero, token) with
  | some info => [.registry (.tokenBurned classZero token token info.owner caller)]
  | none => []

/-- The events of `mint_subname` (registry.rs:365–370), for a new and for a lapsed name. -/
def mintEvents (T : Config) (node labelNode : DomainHash) (dest : AccountId) :
    List (RuntimeEvent T) :=
  [.registry (.tokenMinted classZero labelNode node dest)]

/-- The events of `do_transfer` (registry.rs:450–455). -/
def transferEvents (s : State T) (dest : AccountId) (token : DomainHash) :
    List (RuntimeEvent T) :=
  match s.nft.tokens.get (classZero, token) with
  | some info => [.registry (.transferred info.owner dest classZero token)]
  | none => []

end Registry

/-! ## The registrar -/

namespace Registrar

/-- `add_reserved` (registrar.rs:300). -/
def addReservedEvents (T : Config) (name : Bytes) : DispatchResult (List (RuntimeEvent T)) := do
  let node ← topLevelNode T name
  pure [.registrar (.nameReserved node)]

/-- `remove_reserved` (registrar.rs:316). -/
def removeReservedEvents (T : Config) (name : Bytes) :
    DispatchResult (List (RuntimeEvent T)) := do
  let node ← topLevelNode T name
  pure [.registrar (.nameUnReserved node)]

/-- The `reject_offer` phase of `register` (registrar.rs:349–360): both branches deposit the same
event of the registrar, the first after that of the burn. -/
def rejectEvents (s : State T) (caller : AccountId) :
    Option Bytes → DispatchResult (List (RuntimeEvent T))
  | none => .ok []
  | some rejectName => do
    let rejNode ← okOr (parseNameToNode T.keccak256 rejectName T.baseNode)
      (.registrar .parseLabelFailed)
    match s.registrar.offeredNames.get rejNode with
    | some _ =>
      pure (Registry.burnEvents s caller rejNode ++
        [.registrar (.offeredNameRejected rejNode caller)])
    | none => pure [.registrar (.offeredNameRejected rejNode caller)]

/-- `register` (registrar.rs:335–470). -/
def registerEvents (s : State T) (origin : Origin) (name : Bytes) (owner : MultiAddress)
    (rejectOffer : Option Bytes) : DispatchResult (List (RuntimeEvent T)) := do
  let caller ← ensureSigned origin
  let owner ← lookup owner
  let rejected ← rejectEvents s caller rejectOffer
  let label ← okOr (Label.newWithLen T.keccak256 name) (.registrar .parseLabelFailed)
  let expire ← okOr (Moment.checkedAdd s.now T.maxRegistrationDuration) .arithmeticOverflow
  let labelNode := label.1.encodeWithNode T.keccak256 T.baseNode
  let fee ← okOr (PriceOracle.registrationFee s.priceOracle label.2) .arithmeticOverflow
  pure (rejected ++ Registry.mintEvents T T.baseNode labelNode owner ++
    [.registrar (.nameRegistered name labelNode owner expire fee)])

/-- `renew` (registrar.rs:506–511). -/
def renewEvents (s : State T) (origin : Origin) : DispatchResult (List (RuntimeEvent T)) := do
  let caller ← ensureSigned origin
  let labelNode ← canonicalNameOf s caller
  let info ← okOr (s.registrar.registrarInfos.get labelNode) (.registrar .notExistOrOccupied)
  let price ← okOr (PriceOracle.registrationFee s.priceOracle info.labelLen.toNat)
    .arithmeticOverflow
  let expire ← okOr (Moment.checkedAdd s.now T.maxRegistrationDuration) .arithmeticOverflow
  pure [.registrar (.nameRenewed labelNode caller expire price)]

/-- `transfer` (registrar.rs:521–561) deposits nothing of its own. -/
def transferEvents (s : State T) (origin : Origin) (dest : MultiAddress) :
    DispatchResult (List (RuntimeEvent T)) := do
  let who ← ensureSigned origin
  let dest ← lookup dest
  let node ← canonicalNameOf s who
  pure (Registry.transferEvents s dest node)

/-- `release_name` (registrar.rs:572–584) deposits nothing of its own. -/
def releaseNameEvents (s : State T) (origin : Origin) :
    DispatchResult (List (RuntimeEvent T)) := do
  let caller ← ensureSigned origin
  let node ← canonicalNameOf s caller
  pure (Registry.burnEvents s caller node)

/-- `offer_subdomain` (registrar.rs:623–628): the label as it was written. -/
def offerSubdomainEvents (s : State T) (origin : Origin) (label : Bytes)
    (target : MultiAddress) : DispatchResult (List (RuntimeEvent T)) := do
  let caller ← ensureSigned origin
  let target ← lookup target
  let parentNode ← canonicalNameOf s caller
  let labelNode ← childNode T parentNode label
  pure [.registrar (.subnameOffered parentNode labelNode label target)]

/-- `accept_subdomain` (registrar.rs:665–668). -/
def acceptSubdomainEvents (T : Config) (origin : Origin) (parent label : Bytes) :
    DispatchResult (List (RuntimeEvent T)) := do
  let caller ← ensureSigned origin
  let parentNode ← topLevelNode T parent
  let labelNode ← childNode T parentNode label
  pure [.registrar (.subnameAccepted labelNode caller)]

/-- `reject_subdomain` (registrar.rs:697–700). -/
def rejectSubdomainEvents (T : Config) (origin : Origin) (parent label : Bytes) :
    DispatchResult (List (RuntimeEvent T)) := do
  let caller ← ensureSigned origin
  let parentNode ← topLevelNode T parent
  let labelNode ← childNode T parentNode label
  pure [.registrar (.subnameRejected labelNode caller)]

/-- `revoke_subdomain` (registrar.rs:727–730). -/
def revokeSubdomainEvents (s : State T) (origin : Origin) (label : Bytes) :
    DispatchResult (List (RuntimeEvent T)) := do
  let caller ← ensureSigned origin
  let parentNode ← canonicalNameOf s caller
  let labelNode ← childNode T parentNode label
  pure [.registrar (.subnameRevoked labelNode parentNode)]

/-- `release_subdomain` (registrar.rs:808–813): the parent of the record. -/
def releaseSubdomainEvents (s : State T) (parent label : Bytes) :
    DispatchResult (List (RuntimeEvent T)) := do
  let parentNode ← topLevelNode T parent
  let labelNode ← childNode T parentNode label
  let record ← okOr (s.registry.subnameRecords.get labelNode) (.registry .subnameNotFound)
  pure [.registrar (.subnameReleased labelNode record.parent)]

/-- `accept_offered_name` (registrar.rs:782). -/
def acceptOfferedNameEvents (T : Config) (origin : Origin) (name : Bytes) :
    DispatchResult (List (RuntimeEvent T)) := do
  let caller ← ensureSigned origin
  let node ← topLevelNode T name
  pure [.registrar (.offeredNameAccepted node caller)]

end Registrar

/-! ## The other pallets -/

/-- `registry::burn` deposits what `do_burn` does. -/
def Registry.burnCallEvents (s : State T) (origin : Origin) (name : Bytes) :
    DispatchResult (List (RuntimeEvent T)) := do
  let caller ← ensureSigned origin
  let node ← Registry.nameToNode T name
  pure (Registry.burnEvents s caller node)

/-- `resolvers::set_record` (resolvers.rs:224–228). -/
def Resolvers.setRecordEvents (name : Bytes) (recordType : RecordType) (content : Content T) :
    DispatchResult (List (RuntimeEvent T)) := do
  let node ← Resolvers.nameToNode T name
  pure [.resolvers (.recordsChanged node recordType content)]

/-- `resolvers::set_text` (resolvers.rs:252). -/
def Resolvers.setTextEvents (name : Bytes) (kind : TextKind) (content : Content T) :
    DispatchResult (List (RuntimeEvent T)) := do
  let node ← Resolvers.nameToNode T name
  pure [.resolvers (.textsChanged node kind content)]

namespace Marketplace

/-- `create_listing` (lib.rs:166). -/
def createListingEvents (s : State T) (origin : Origin) (price : Balance) (expiresAt : Moment) :
    DispatchResult (List (RuntimeEvent T)) := do
  let who ← ensureSigned origin
  let node ← canonicalNameOf s who
  pure [.marketplace (.listed node who price expiresAt)]

/-- `cancel_listing` (lib.rs:179). -/
def cancelListingEvents (s : State T) (origin : Origin) :
    DispatchResult (List (RuntimeEvent T)) := do
  let who ← ensureSigned origin
  let node ← canonicalNameOf s who
  pure [.marketplace (.delisted node who)]

/-- `buy_name` (lib.rs:194–265): a gift is reported by the registrar as well
(registrar.rs:1125–1129). -/
def buyNameEvents (s : State T) (origin : Origin) (name : Bytes) (recipient : Option AccountId) :
    DispatchResult (List (RuntimeEvent T)) := do
  let buyer ← ensureSigned origin
  let node ← listedNode T name
  let listing ← okOr (s.listings.get node) (.marketplace .notListed)
  let fee := protocolFee T listing.price
  match recipient with
  | some recip =>
    pure (Registry.transferEvents s recip node ++
      [ .registrar (.nameBoughtForRecipient node buyer recip),
        .marketplace
          (.nameBoughtForRecipient node listing.seller buyer recip listing.price fee) ])
  | none =>
    pure (Registry.transferEvents s buyer node ++
      [.marketplace (.sold node listing.seller buyer listing.price fee)])

end Marketplace

/-- `price_oracle::set_exchange_rate` (price_oracle.rs:135) names the manager. -/
def PriceOracle.setExchangeRateEvents (T : Config) (origin : Origin) (rate : Balance) :
    DispatchResult (List (RuntimeEvent T)) := do
  let who ← ensureManager origin
  pure [.priceOracle (.exchangeRateChanged who rate)]

/-! ## The runtime -/

/-- The events of an extrinsic that succeeds. `set_official` deposits none. -/
def callEvents (s : State T) (origin : Origin) : Call T → DispatchResult (List (RuntimeEvent T))
  | .addReserved name => Registrar.addReservedEvents T name
  | .removeReserved name => Registrar.removeReservedEvents T name
  | .register name owner rejectOffer => Registrar.registerEvents s origin name owner rejectOffer
  | .renew => Registrar.renewEvents s origin
  | .transfer dest => Registrar.transferEvents s origin dest
  | .releaseName => Registrar.releaseNameEvents s origin
  | .offerSubdomain label target => Registrar.offerSubdomainEvents s origin label target
  | .acceptSubdomain parent label => Registrar.acceptSubdomainEvents T origin parent label
  | .rejectSubdomain parent label => Registrar.rejectSubdomainEvents T origin parent label
  | .revokeSubdomain label => Registrar.revokeSubdomainEvents s origin label
  | .releaseSubdomain parent label => Registrar.releaseSubdomainEvents s parent label
  | .acceptOfferedName name => Registrar.acceptOfferedNameEvents T origin name
  | .burn name => Registry.burnCallEvents s origin name
  | .setOfficial _ => .ok []
  | .setRecord name recordType content => Resolvers.setRecordEvents name recordType content
  | .setText name kind content => Resolvers.setTextEvents name kind content
  | .createListing price expiresAt => Marketplace.createListingEvents s origin price expiresAt
  | .cancelListing => Marketplace.cancelListingEvents s origin
  | .buyName name recipient => Marketplace.buyNameEvents s origin name recipient
  | .setExchangeRate rate => PriceOracle.setExchangeRateEvents T origin rate
  | .setBasePrice prices => .ok [.priceOracle (.basePriceChanged prices)]
  | .setRentPrice prices => .ok [.priceOracle (.rentPriceChanged prices)]

/-- What an extrinsic leaves in the block. -/
def deposited (s : State T) (origin : Origin) (call : Call T) : List (RuntimeEvent T) :=
  match dispatch s origin call with
  | .ok _ => (callEvents s origin call).toOption.getD []
  | .error _ => []

/-- What an input leaves in the block. -/
def published (s : State T) : Input T → List (RuntimeEvent T)
  | .extrinsic origin call => deposited s origin call
  | .newBlock _ _ _ _ => []

end PnsPallets
