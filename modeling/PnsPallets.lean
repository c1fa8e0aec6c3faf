import PnsPallets.Frame.StorageMap
import PnsPallets.Frame.Dispatch
import PnsPallets.Frame.Machine
import PnsPallets.Frame.Funds
import PnsPallets.Frame.Scale
import PnsPallets.Frame.Slice
import PnsPallets.Frame.Bloom
import PnsPallets.Frame.Threads
import PnsPallets.Frame.Cache
import PnsPallets.Frame.RateLimiter
import PnsPallets.Names
import PnsPallets.Names.Grammar
import PnsPallets.Storage
import PnsPallets.Ddns
import PnsPallets.Ddns.Records
import PnsPallets.Ddns.DoubleBloom
import PnsPallets.Nft
import PnsPallets.Resolvers
import PnsPallets.Registrar.Checks
import PnsPallets.Registry
import PnsPallets.PriceOracle
import PnsPallets.Registrar
import PnsPallets.Marketplace
import PnsPallets.Runtime
import PnsPallets.RuntimeApi
import PnsPallets.Ddns.Authority
import PnsPallets.PnsRpc
import PnsPallets.RedeemCode
import PnsPallets.Errors
import PnsPallets.Nft.Ledger
import PnsPallets.Registry.Delegations
import PnsPallets.Registry.Consistency
import PnsPallets.Registry.Tables
import PnsPallets.Registrar.Registration
import PnsPallets.Holdings.Operations
import PnsPallets.Holdings.Discipline
import PnsPallets.View
import PnsPallets.Calls
import PnsPallets.Zones.Edits
import PnsPallets.Zones.Upkeep
import PnsPallets.ZoneView
import PnsPallets.Refinement
import PnsPallets.Rolls
import PnsPallets.RollView
import PnsPallets.ZoneRefinement
import PnsPallets.Reachability
import PnsPallets.Devnet
import PnsPallets.InGrace
import PnsPallets.Properties.OnePerAccount
import PnsPallets.Properties.References
import PnsPallets.Properties.Ownership
import PnsPallets.Properties.Bookkeeping
import PnsPallets.Properties.Registering
import PnsPallets.Properties.ResolverData
import PnsPallets.Properties.HandOver
import PnsPallets.Properties.LifeCycle
import PnsPallets.Properties.FormerHolder
import PnsPallets.Properties.Expiry
import PnsPallets.Properties.Payments
import PnsPallets.Properties.Terms
import PnsPallets.Properties.Clients
import PnsPallets.Properties.Redeeming
import PnsPallets.Properties.Grace
import PnsPallets.Properties.RecordCodes
import PnsPallets.Properties.DnsAnswers
import PnsPallets.Ddns.Handler
import PnsPallets.Ddns.Accounting
import PnsPallets.Ddns.ResponseQueue
import PnsPallets.Ddns.Caches
import PnsPallets.Ddns.Server
import PnsPallets.Properties.DnsServer
import PnsPallets.Zones.Authors
import PnsPallets.Properties.Authorship
import PnsPallets.Frame.Journal
import PnsPallets.Zones.Forget
import PnsPallets.Events
import PnsPallets.Properties.EventLog
import PnsPallets.Properties.Reports
import PnsPallets.Properties.Sales
import PnsPallets.Properties.Gifts
import PnsPallets.Properties.Tenure
import PnsPallets.Properties.Vacancy
import PnsPallets.PnsRpc.Node
import PnsPallets.Properties.Reads
import PnsPallets.Properties.Availability
