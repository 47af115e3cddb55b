import IDoris.EventLog.History
import IDoris.EventLog.Latest
import IDoris.Library.System
import IDoris.Library.Bounded
import IDoris.Library.Table
import IDoris.Ledger.Schema
import IDoris.Library.Transaction
import IDoris.Ledger.Period
import IDoris.Ledger.Operations
import IDoris.Ledger.Calls
import IDoris.Ledger.Writes
import IDoris.Ledger.Conservation
import IDoris.Ledger.Replay
import IDoris.Ledger.Rows
import IDoris.Ledger.Timed
import IDoris.Ledger.Overspend
import IDoris.Ledger.Late
import IDoris.Ledger.Zone
import IDoris.Library.Interaction
import IDoris.Library.Keyed
import IDoris.Supervisor.Capacity
import IDoris.Supervisor.CapacityUnits
import IDoris.Supervisor.Eviction
import IDoris.Supervisor.EvictionPlan
import IDoris.Supervisor.Fence
import IDoris.Supervisor.LoadFlow
import IDoris.Supervisor.Actor
import IDoris.Supervisor.FlowRules
import IDoris.Supervisor.Machine
import IDoris.Supervisor.Handlers
import IDoris.Supervisor.Stage
import IDoris.Supervisor.Books
import IDoris.Supervisor.Coherence
import IDoris.Supervisor.Discipline
import IDoris.Supervisor.Inflight
import IDoris.Supervisor.Fenced
import IDoris.Supervisor.Site
import IDoris.Proxy.Forward
import IDoris.Library.Recency
import IDoris.Proxy.Registry
import IDoris.Proxy.ReplayCache
import IDoris.Policy.Breaker
import IDoris.Policy.Probes
import IDoris.Omlx.Adapter
import IDoris.Omlx.Truthful
import IDoris.Policy.Book
import IDoris.Proxy.Gates
import IDoris.Proxy.Leaks
import IDoris.Supervisor.SharedLedger
import IDoris.Supervisor.CompareAndSwap
import IDoris.Supervisor.Refused
import IDoris.Library.Selection
import IDoris.Policy.Card
import IDoris.Policy.Decide
import IDoris.Policy.Sound
import IDoris.Policy.Tiebreak
import IDoris.Policy.Credentials
import IDoris.Ledger.BillingRange
import IDoris.Ledger.Quarantine
import IDoris.Ledger.NoTrace
import IDoris.Supervisor.Report
import IDoris.Supervisor.Poison
import IDoris.Supervisor.Evidence
import IDoris.Supervisor.History
import IDoris.Supervisor.Release
import IDoris.Supervisor.Unconfirmed
import IDoris.Proxy.Truncation
import IDoris.Proxy.Guarded
import IDoris.Proxy.FlightBytes
import IDoris.Proxy.Mandates
import IDoris.LocalRuntime.Freed
import IDoris.Subscription.Contained
import IDoris.Subscription.Drained
import IDoris.Subscription.Registered
import IDoris.Subscription.Service
import IDoris.Subscription.Steps
import IDoris.Inspect.DigitRuns
import IDoris.Inspect.Invisible
import IDoris.Inspect.Isolated
import IDoris.Inspect.Robust
import IDoris.Inspect.Encoded
import IDoris.Inspect.Legible
import IDoris.Inspect.Headers
import IDoris.Inspect.ContainsSeq
import IDoris.Ledger.Sums
import IDoris.Ledger.Views
import IDoris.Ledger.Lifetime
import IDoris.Redact.Restored
import IDoris.Redact.RoundTrip
import IDoris.Policy.Pairs
import IDoris.Policy.Streaks
import IDoris.Policy.Stable
import IDoris.Recommender.Optimal
import IDoris.Backfill.ExactlyOnce
import IDoris.Pricing.Quote
import IDoris.Dispatch.Select
import IDoris.Dispatch.GateFallback
import IDoris.Dispatch.Local
import IDoris.Capabilities.Consistent
import IDoris.Dispatch.Finalised
import IDoris.Server.Deadline
import IDoris.Dispatch.QuotedText
import IDoris.Redact.Memory
import IDoris.Library.Headers
import IDoris.VirtualKey.Store
import IDoris.VirtualKey.History
import IDoris.VirtualKey.Authority
import IDoris.Chat.Profile
import IDoris.Chat.Inspection
import IDoris.Chat.Scanned
import IDoris.Chat.Routing
import IDoris.Chat.Parameters
import IDoris.Chat.Completions
import IDoris.Chat.Confined
import IDoris.Chat.Guarantees
import IDoris.Chat.Routed
import IDoris.Proxy.Handover
import IDoris.Proxy.AtMostOnce
import IDoris.ProcessOwner.Signals
import IDoris.ProcessOwner.Machines
import IDoris.Dispatch.Charged
import IDoris.Chat.Hidden
