import PnsPallets.Ddns.Authority
import PnsPallets.Ddns.Caches

/-!
# The DNS server over the chain (`run_dns_server`, pns-ddns/src/dns_server.rs:614–720)

The handler is put in front of a catalog with one authority, the chain's. The catalog is
`hickory`'s: it asks the authority for the query of a request and makes a response of the
answer. What is needed of it is that NXDOMAIN comes from the authority.

The client reads the best block. Which block that is changes while requests are handled,
and not only forwards: the best block can move to another fork. So the world of the
handler is the client, and it may change to any client whose best state meets a condition.
-/

namespace PnsPallets

open Frame

variable {T : Config} {lib : DnsLibrary}

/-- `hickory_server::authority::Catalog` with one authority: the code of its response to a
request, by the lookups of the authority. -/
structure Catalog (lib : DnsLibrary) where
  respond : (lib.DnsName → WireType lib.Variant →
      Except Panic (Except LookupError (List (DnsRecord lib)))) →
    Request lib → Except Panic Rcode
  respond_nxDomain : ∀ lookup request, respond lookup request = .ok .nxDomain →
    ∃ query, request.queries.head? = some query ∧
      lookup query.name query.queryType = .ok (.error (.responseCode .nxDomain))

/-- The best state of the client, if it can be read, meets `P`. -/
def Client.Best (P : State T → Prop) (client : Client T) : Prop :=
  ∀ s, client.bestState = some s → P s

/-- The handler that `run_dns_server` makes of the authority, over clients whose best state
meets `P`. -/
def chainHandler (catalog : Catalog lib) (authority : BlockChainAuthority T lib)
    (P : State T → Prop) : InnerHandler lib (Client T) where
  start := Client.Best P
  changes _ := Client.Best P
  handle client := catalog.respond (BlockChainAuthority.lookup { authority with client := client })

/-- The text of a name below the apex. -/
def BlockChainAuthority.nameOf (authority : BlockChainAuthority T lib) (label : Bytes) : Bytes :=
  label ++ dot :: lib.display authority.origin

variable {catalog : Catalog lib} {authority : BlockChainAuthority T lib} {P : State T → Prop}
  {client : Client T} {request : Request lib} {label : Bytes}

/-- Without a state to read, nothing is said not to exist. -/
theorem lookup_ne_nxDomain {name : lib.DnsName} {q : WireType lib.Variant}
    (hname : authority.Below name label) (hs : authority.client.bestState = none) :
    authority.lookup name q ≠ .ok (.error (.responseCode .nxDomain)) := by
  intro hlookup
  rw [hname.lookup_eq, BlockChainAuthority.lookupLabel] at hlookup
  split at hlookup
  · cases hlookup
  · obtain ⟨filter, -, hfilter⟩ := bind_eq_ok.mp hlookup
    rw [hs] at hfilter
    cases hfilter

/-- NXDOMAIN for a name below the apex is the answer of the authority. -/
theorem chainHandler_nxDomain
    (hnx : (chainHandler catalog authority P).handle client request = .ok .nxDomain)
    (hname : request.queryName = authority.nameOf label) :
    ∃ query, request.queries.head? = some query ∧
      ({ authority with client := client } : BlockChainAuthority T lib).Below query.name label ∧
      ({ authority with client := client } : BlockChainAuthority T lib).lookup query.name
        query.queryType = .ok (.error (.responseCode .nxDomain)) := by
  obtain ⟨query, hhead, hlookup⟩ := catalog.respond_nxDomain _ _ hnx
  have hdisplay : lib.display query.name = authority.nameOf label := by
    rw [← hname, Request.queryName, hhead]
    rfl
  refine ⟨query, hhead, ⟨fun horigin => ?_, hdisplay⟩, hlookup⟩
  -- the apex is shorter than the names below it
  have hlength := congrArg List.length hdisplay
  rw [horigin, BlockChainAuthority.nameOf, List.length_append, List.length_cons] at hlength
  dsimp only at hlength
  omega

end PnsPallets
