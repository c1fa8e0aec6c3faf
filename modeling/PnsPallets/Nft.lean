import PnsPallets.Frame.Dispatch
import PnsPallets.Storage

/-!
# The NFT pallet (pns-registrar/src/nft.rs)

Classes and tokens: the ownership ledger below the registry. The pallet checks
neither that a minted id is new nor that its index `TokensByOwner` agrees with
`Tokens`; that this holds on chain is due to its callers.
-/

namespace PnsPallets.Nft

open Frame

variable {T : Config}

/-- `nft::create_class` (nft.rs:198–224). -/
def createClass (nft : NftStorage T) (owner : AccountId) (metadata : Bytes) :
    DispatchResult (NftStorage T × ClassId) := do
  let bounded ← okOr (BoundedVec.tryFrom T.maxClassMetadata metadata)
    (.nft .maxMetadataExceeded)
  -- `checked_add` on the `u32` id counter
  ensure (nft.nextClassId.toNat + 1 < 2 ^ 32) (.nft .noAvailableClassId)
  let classId := nft.nextClassId
  pure ({ nft with
    nextClassId := classId + 1
    classes := nft.classes.insert classId
      { metadata := bounded, totalIssuance := 0, owner := owner } }, classId)

/-- `nft::transfer` (nft.rs:226–242). -/
def transfer (nft : NftStorage T) (source dest : AccountId)
    (token : ClassId × DomainHash) : DispatchResult (NftStorage T) := do
  let info ← okOr (nft.tokens.get token) (.nft .tokenNotFound)
  ensure (info.owner = source) (.nft .noPermission)
  if source = dest then
    pure nft
  else
    pure { nft with
      tokens := nft.tokens.insert token { info with owner := dest }
      tokensByOwner :=
        (nft.tokensByOwner.remove (source, token)).insert (dest, token) () }

/-- `nft::mint` (nft.rs:244–274). -/
def mint (nft : NftStorage T) (owner : AccountId) (token : ClassId × DomainHash)
    (metadata : Bytes) (data : Record) : DispatchResult (NftStorage T) := do
  let bounded ← okOr (BoundedVec.tryFrom T.maxTokenMetadata metadata)
    (.nft .maxMetadataExceeded)
  let info ← okOr (nft.classes.get token.1) (.nft .classNotFound)
  let total ← okOr (checkedAdd128 info.totalIssuance 1) .arithmeticOverflow
  pure { nft with
    classes := nft.classes.insert token.1 { info with totalIssuance := total }
    tokens := nft.tokens.insert token
      { metadata := bounded, owner := owner, data := data }
    tokensByOwner := nft.tokensByOwner.insert (owner, token) () }

/-- `nft::burn` (nft.rs:276–293). -/
def burn (nft : NftStorage T) (owner : AccountId) (token : ClassId × DomainHash) :
    DispatchResult (NftStorage T) := do
  let t ← okOr (nft.tokens.get token) (.nft .tokenNotFound)
  ensure (t.owner = owner) (.nft .noPermission)
  let info ← okOr (nft.classes.get token.1) (.nft .classNotFound)
  let total ← okOr (checkedSub128 info.totalIssuance 1) .arithmeticOverflow
  pure { nft with
    classes := nft.classes.insert token.1 { info with totalIssuance := total }
    tokens := nft.tokens.remove token
    tokensByOwner := nft.tokensByOwner.remove (owner, token) }

/-! ## What a successful operation did -/

theorem transfer_eq_ok {nft nft' : NftStorage T} {source dest : AccountId}
    {token : ClassId × DomainHash} (h : transfer nft source dest token = .ok nft') :
    ∃ info, nft.tokens.get token = some info ∧ info.owner = source ∧
      ((source = dest ∧ nft' = nft) ∨
        (source ≠ dest ∧ nft' = { nft with
          tokens := nft.tokens.insert token { info with owner := dest }
          tokensByOwner :=
            (nft.tokensByOwner.remove (source, token)).insert (dest, token) () })) := by
  unfold transfer at h
  simp only [bind_eq_ok, okOr_eq_ok, ensure_eq_ok] at h
  obtain ⟨info, hinfo, _, hown, h⟩ := h
  refine ⟨info, hinfo, hown, ?_⟩
  split at h
  · rw [pure_eq_ok] at h
    exact Or.inl ⟨‹_›, h.symm⟩
  · rw [pure_eq_ok] at h
    exact Or.inr ⟨‹_›, h.symm⟩

theorem mint_eq_ok {nft nft' : NftStorage T} {owner : AccountId}
    {token : ClassId × DomainHash} {metadata : Bytes} {data : Record}
    (h : mint nft owner token metadata data = .ok nft') :
    ∃ bounded info total, nft.classes.get token.1 = some info ∧
      checkedAdd128 info.totalIssuance 1 = some total ∧
      nft' = { nft with
        classes := nft.classes.insert token.1 { info with totalIssuance := total }
        tokens := nft.tokens.insert token
          { metadata := bounded, owner := owner, data := data }
        tokensByOwner := nft.tokensByOwner.insert (owner, token) () } := by
  unfold mint at h
  simp only [bind_eq_ok, okOr_eq_ok, pure_eq_ok] at h
  obtain ⟨bounded, -, info, hinfo, total, htotal, rfl⟩ := h
  exact ⟨bounded, info, total, hinfo, htotal, rfl⟩

theorem burn_eq_ok {nft nft' : NftStorage T} {owner : AccountId}
    {token : ClassId × DomainHash} (h : burn nft owner token = .ok nft') :
    ∃ t info total, nft.tokens.get token = some t ∧ t.owner = owner ∧
      nft.classes.get token.1 = some info ∧
      checkedSub128 info.totalIssuance 1 = some total ∧
      nft' = { nft with
        classes := nft.classes.insert token.1 { info with totalIssuance := total }
        tokens := nft.tokens.remove token
        tokensByOwner := nft.tokensByOwner.remove (owner, token) } := by
  unfold burn at h
  simp only [bind_eq_ok, okOr_eq_ok, ensure_eq_ok, pure_eq_ok] at h
  obtain ⟨t, ht, _, hown, info, hinfo, total, htotal, rfl⟩ := h
  exact ⟨t, info, total, ht, hown, hinfo, htotal, rfl⟩

end PnsPallets.Nft
