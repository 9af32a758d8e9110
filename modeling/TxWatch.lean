import TxWatch.Soroban.Store
import TxWatch.Soroban.State
import TxWatch.Soroban.Contract
import TxWatch.Soroban.Atomicity
import TxWatch.Soroban.Coupling
import TxWatch.Soroban.Lockstep
import TxWatch.Soroban.Traps
import TxWatch.Soroban.Scan
import TxWatch.Soroban.Run
import TxWatch.Soroban.Replay
import TxWatch.Soroban.History
import TxWatch.Soroban.Cover
import TxWatch.Soroban.Guarantee
import TxWatch.Soroban.Feed
import TxWatch.Soroban.Redelivery
import TxWatch.Access.Grants
import TxWatch.Access.Council
import TxWatch.WatcherRegistry.Types
import TxWatch.WatcherRegistry.EntryPoints
import TxWatch.WatcherRegistry.System
import TxWatch.WatcherRegistry.Roster
import TxWatch.WatcherRegistry.Specs
import TxWatch.WatcherRegistry.Refinement
import TxWatch.WatcherRegistry.WatcherSet
import TxWatch.WatcherRegistry.BatchEnrolment
import TxWatch.WatcherRegistry.Expiries
import TxWatch.WatcherRegistry.WatcherInfo
import TxWatch.WatcherRegistry.Rotation
import TxWatch.WatcherRegistry.Admins
import TxWatch.WatcherRegistry.CircuitBreaker
import TxWatch.WatcherRegistry.EventReplay
import TxWatch.WatcherRegistry.Exactness
import TxWatch.WatcherRegistry.MassCalls
import TxWatch.WatcherRegistry.Retries
import TxWatch.Indexed.Table
import TxWatch.Indexed.Pages
import TxWatch.AlertRegistry.Types
import TxWatch.AlertRegistry.Helpers
import TxWatch.AlertRegistry.RuleGrammar
import TxWatch.AlertRegistry.EntryPoints
import TxWatch.AlertRegistry.System
import TxWatch.AlertRegistry.Registry
import TxWatch.AlertRegistry.Storage
import TxWatch.AlertRegistry.Specs
import TxWatch.AlertRegistry.Queries
import TxWatch.AlertRegistry.Refinement
import TxWatch.AlertRegistry.Changes
import TxWatch.AlertRegistry.Reachability
import TxWatch.AlertRegistry.IndexCoherence
import TxWatch.AlertRegistry.Authority
import TxWatch.AlertRegistry.Values
import TxWatch.AlertRegistry.CircuitBreaker
import TxWatch.AlertRegistry.UnauthorisedCalls
import TxWatch.AlertRegistry.OwnerLimit
import TxWatch.AlertRegistry.BatchRegistration
import TxWatch.AlertRegistry.FailureAtomicity
import TxWatch.AlertRegistry.LimitCheck
import TxWatch.AlertRegistry.Lifetimes
import TxWatch.AlertRegistry.Renewals
import TxWatch.AlertRegistry.TtlCoherence
import TxWatch.AlertRegistry.BulkRenewal
import TxWatch.AlertRegistry.IdLifecycle
import TxWatch.AlertRegistry.CounterExpiry
import TxWatch.AlertRegistry.Records
import TxWatch.AlertRegistry.ActiveFlag
import TxWatch.AlertRegistry.Deactivation
import TxWatch.AlertRegistry.WebhookHash
import TxWatch.AlertRegistry.WebhookRotation
import TxWatch.AlertRegistry.MutationEvents
import TxWatch.AlertRegistry.EventReplay
import TxWatch.AlertRegistry.Admins
import TxWatch.AlertRegistry.Readings
import TxWatch.AlertRegistry.Paging
import TxWatch.AlertRegistry.IncrementalSync
import TxWatch.AlertRegistry.WellFormed
import TxWatch.AlertRegistry.ReadViews
import TxWatch.AlertRegistry.LegacyAdmin
import TxWatch.AlertRegistry.OwnerSlots
import TxWatch.AlertRegistry.StorageKeys
import TxWatch.AlertRegistry.Retraction
import TxWatch.AlertRegistry.OverflowChecks
import TxWatch.AlertRegistry.Traps
import TxWatch.AlertRegistry.AuthFirst
import TxWatch.AlertRegistry.Independence
import TxWatch.AlertRegistry.Keepers
import TxWatch.AlertRegistry.Guarantees
import TxWatch.AlertRegistry.Tending
import TxWatch.AlertRegistry.Exactness
import TxWatch.AlertRegistry.SettingsReplay
import TxWatch.AlertRegistry.Retries
import TxWatch.AlertRegistry.Coalitions
import TxWatch.AlertRegistry.Departure
import TxWatch.AlertRegistry.LiveScan
import TxWatch.AlertRegistry.MassCalls
import TxWatch.AlertRegistry.RecordReplay
import TxWatch.AlertRegistry.Undo
import TxWatch.Gating.System
import TxWatch.Gating.Revocation
import TxWatch.Gating.Noninterference
import TxWatch.Gating.Paging
import TxWatch.Gating.Symmetry
import TxWatch.Gating.Coalitions
import TxWatch.EventListener.Listener
import TxWatch.EventListener.Following
