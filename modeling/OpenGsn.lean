import OpenGsn.StakeManager.Solvency
import OpenGsn.Forwarder.RequestTypes
import OpenGsn.RelayHub.TransactionPacking
import OpenGsn.Forwarder.Recipient
import OpenGsn.TypedRequestData
import OpenGsn.RelayHub.Solvency
import OpenGsn.RelayHub.PaymasterSafety
import OpenGsn.RelayHub.LockWindow
import OpenGsn.Penalizer.CommitReveal
import OpenGsn.Penalizer.DataAndSignature
import OpenGsn.Penalizer.Decoding
import OpenGsn.Penalizer.RepeatedNonce
import OpenGsn.Relay.ArchiveSafety
import OpenGsn.Relay.AllocationSafety
import OpenGsn.Relay.AcceptanceBudget
import OpenGsn.Relay.ExplorerCache
import OpenGsn.Relay.PenalizerAudits
import OpenGsn.Relay.ScheduledPenalizations
import OpenGsn.Relay.EventProcessing
import OpenGsn.Relay.RegistrationSafety
import OpenGsn.Paymasters.HubDeposit
import OpenGsn.Relay.Blacklist
import OpenGsn.RelayHub.Escheatment
import OpenGsn.RelayHub.Workers
import OpenGsn.Registrar.RangeRead
import OpenGsn.Forwarder.GatewayForwarder
import OpenGsn.Paymasters.ProxyOwnership
import OpenGsn.Provider.AcceptedResponses
import OpenGsn.Provider.RelaySelection
import OpenGsn.Provider.RelayFailures
import OpenGsn.Provider.RelayReceipts
import OpenGsn.Relay.BoostFees
import OpenGsn.Relay.Replenishing
import OpenGsn.Paymasters.VerifyingPaymaster
import OpenGsn.Paymasters.TokenCharges
import OpenGsn.Paymasters.TokenConfig
import OpenGsn.Text.Utf8
import OpenGsn.Text.Hex
import OpenGsn.Registrar.RelayUrl
import OpenGsn.PaginatedEvents
import OpenGsn.Relay.DelayedEvents
import OpenGsn.Relay.Readiness
import OpenGsn.PageRanges
import OpenGsn.Statistics.StakeStatus
import OpenGsn.Paymasters.Hashcash
import OpenGsn.Relay.GasPriceFetcher
import OpenGsn.Relay.OwnerSetting
import OpenGsn.RelayHub.EventLog
import OpenGsn.Slashing.NoEscape
import OpenGsn.Slashing.HonestManagers
import OpenGsn.Slashing.HonestServer
import OpenGsn.Relay.RelayingSafety
import OpenGsn.Provider.SingleExecution
import OpenGsn.Paymasters.SponsoredCalls
import OpenGsn.Provider.HonestResponses
