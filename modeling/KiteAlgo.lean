import KiteAlgo.Lib.Blocks
import KiteAlgo.Lib.Calls
import KiteAlgo.Lib.Dict
import KiteAlgo.Lib.Except
import KiteAlgo.Lib.Growth
import KiteAlgo.Lib.Interleaving
import KiteAlgo.Lib.Keyed
import KiteAlgo.Lib.Names
import KiteAlgo.Lib.Newest
import KiteAlgo.Lib.Recent
import KiteAlgo.Lib.Run
import KiteAlgo.Lib.Segments
import KiteAlgo.Lib.Sorting
import KiteAlgo.Lib.Table
import KiteAlgo.Lib.Utf8
import KiteAlgo.Value
import KiteAlgo.Time
import KiteAlgo.Time.Iso
import KiteAlgo.Models
import KiteAlgo.Registry
import KiteAlgo.Parser
import KiteAlgo.Parser.WellFormed
import KiteAlgo.Parser.Groups
import KiteAlgo.Parser.RoundTrip
import KiteAlgo.Compiler
import KiteAlgo.Compiler.Accepted
import KiteAlgo.Compiler.Canonical
import KiteAlgo.Compiler.Raises
import KiteAlgo.Compiler.Total
import KiteAlgo.Breadth
import KiteAlgo.Breadth.Aggregate
import KiteAlgo.Predicates
import KiteAlgo.Predicates.Frame
import KiteAlgo.Predicates.Isolation
import KiteAlgo.Predicates.Knowledge
import KiteAlgo.Predicates.Latch
import KiteAlgo.Predicates.Reach
import KiteAlgo.Predicates.Sequences
import KiteAlgo.Predicates.Transitions
import KiteAlgo.Engine
import KiteAlgo.Engine.Emission
import KiteAlgo.Planner
import KiteAlgo.Planner.Spec
import KiteAlgo.Planner.Coverage
import KiteAlgo.Planner.Chains
import KiteAlgo.FeatureEngine
import KiteAlgo.FeatureEngine.Windows
import KiteAlgo.Features
import KiteAlgo.Features.Warmup
import KiteAlgo.FeatureEngine.Compute
import KiteAlgo.FeatureEngine.Needs
import KiteAlgo.FeatureEngine.Readiness
import KiteAlgo.FeatureEngine.Sources
import KiteAlgo.FeatureEngine.Session
import KiteAlgo.Repository
import KiteAlgo.Ownership
import KiteAlgo.Checkpoints
import KiteAlgo.Screener
import KiteAlgo.Screener.Buckets
import KiteAlgo.Screener.Chronology
import KiteAlgo.Screener.Claims
import KiteAlgo.Screener.Dependencies
import KiteAlgo.Screener.Members
import KiteAlgo.Screener.Presence
import KiteAlgo.Screener.Transitions
import KiteAlgo.Bindings
import KiteAlgo.Bindings.Replacement
import KiteAlgo.Options
import KiteAlgo.Options.Exits
import KiteAlgo.Options.Rules
import KiteAlgo.Outbox
import KiteAlgo.Outbox.Safety
import KiteAlgo.Service
import KiteAlgo.Service.Spec
import KiteAlgo.Service.Lifecycle
import KiteAlgo.Service.Gaps
import KiteAlgo.Service.Gating
import KiteAlgo.Service.Fleet
import KiteAlgo.Service.Silence
import KiteAlgo.Service.Storm
import KiteAlgo.Service.SessionCap
import KiteAlgo.Service.Corrections
import KiteAlgo.Dispatch
import KiteAlgo.Quarantine
import KiteAlgo.ExternalSignals
import KiteAlgo.ExternalSignals.Ingestion
import KiteAlgo.ExternalSignals.Replay
import KiteAlgo.Subscriptions
import KiteAlgo.Subscriptions.Exact
import KiteAlgo.Candles
import KiteAlgo.Candles.Order
import KiteAlgo.Candles.Volume
import KiteAlgo.Candles.Persistence
import KiteAlgo.Candles.Chunks
import KiteAlgo.Candles.Ingestion
import KiteAlgo.Paper
import KiteAlgo.Paper.Store
import KiteAlgo.Paper.Service
import KiteAlgo.Paper.Effects
import KiteAlgo.Paper.Basket
import KiteAlgo.Paper.Moves
import KiteAlgo.Paper.Funds
import KiteAlgo.Paper.Lots
import KiteAlgo.Paper.Discipline
import KiteAlgo.Paper.AtMostOnce
import KiteAlgo.Paper.MarkToMarket
import KiteAlgo.Paper.RunState
import KiteAlgo.Paper.Exit
import KiteAlgo.Paper.OwnLots
import KiteAlgo.Paper.Outlook
import KiteAlgo.Paper.Records
import KiteAlgo.Paper.Books
import KiteAlgo.Paper.Closing
import KiteAlgo.LiveOrders
import KiteAlgo.LiveOrders.Projection
import KiteAlgo.LiveOrders.ExecutionLinks
import KiteAlgo.LiveOrders.TradeSync
import KiteAlgo.LiveOrders.TradeLinks
import KiteAlgo.LiveOrders.Positions
import KiteAlgo.LiveOrders.Idempotency
import KiteAlgo.LiveOrders.Throttler
import KiteAlgo.Baskets
import KiteAlgo.Baskets.Legs
import KiteAlgo.Baskets.Activity
import KiteAlgo.Baskets.Placement
import KiteAlgo.Brackets
import KiteAlgo.Brackets.Effects
import KiteAlgo.Brackets.Closed
import KiteAlgo.Brackets.Once
import KiteAlgo.Brackets.Retry
import KiteAlgo.Brackets.Sibling
import KiteAlgo.Shards
import KiteAlgo.Shards.Sync
import KiteAlgo.Shards.Stale
import KiteAlgo.Shards.Registry
import KiteAlgo.Shards.Allocator
import KiteAlgo.Shards.Service
import KiteAlgo.Shards.Interleaved
import KiteAlgo.Shards.Partition
import KiteAlgo.Shards.Marketwatch
import KiteAlgo.Workers
import KiteAlgo.Workers.Sessions
import KiteAlgo.Workers.RuntimeState
import KiteAlgo.Workers.Protection
import KiteAlgo.Workers.Intents
import KiteAlgo.Workers.LiveExit
import KiteAlgo.Journal
import KiteAlgo.Journal.Analytics
import KiteAlgo.Journal.Episodes
import KiteAlgo.Journal.Once
import KiteAlgo.Journal.Projector
import KiteAlgo.Journal.Charges
import KiteAlgo.Journal.SourceLinks
import KiteAlgo.Hosted
import KiteAlgo.Hosted.Ledger
import KiteAlgo.Hosted.Lifecycle
import KiteAlgo.Hosted.Fencing
import KiteAlgo.Hosted.Logs
import KiteAlgo.Algo
import KiteAlgo.Algo.Dedupe
import KiteAlgo.Algo.Kernel
import KiteAlgo.Algo.Patches
import KiteAlgo.Algo.Status
import KiteAlgo.Algo.Live
import KiteAlgo.Pairs
