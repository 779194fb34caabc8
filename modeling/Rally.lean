import Rally.Bench
import Rally.Command.Options
import Rally.Command.Run
import Rally.Component
import Rally.Files
import Rally.Keyed
import Rally.Limit
import Rally.Link
import Rally.Log.Filter
import Rally.Log.Level
import Rally.Log.Record
import Rally.Main
import Rally.Message
import Rally.Number.Binary64
import Rally.Number.Decimal
import Rally.Number.Integer
import Rally.Number.Shortest
import Rally.Player
import Rally.Player.Ping
import Rally.Player.Play
import Rally.Player.Pong
import Rally.Probe
import Rally.Probe.Script
import Rally.Proofs.Number.Decimals
import Rally.Proofs.Player.ArrivalTimes
import Rally.Proofs.Player.Buildable
import Rally.Proofs.Player.Circuit
import Rally.Proofs.Player.CircuitRuns
import Rally.Proofs.Player.Loops
import Rally.Proofs.Player.MessageRoutes
import Rally.Proofs.Player.OtherRanks
import Rally.Proofs.Player.Protocol
import Rally.Proofs.Player.Relays
import Rally.Proofs.Player.StateFromTexts
import Rally.Proofs.Pool.ComponentInvariants
import Rally.Proofs.Pool.Conservation
import Rally.Proofs.Pool.HistoryInvariants
import Rally.Proofs.Pool.LastVote
import Rally.Proofs.Pool.LegalRuns
import Rally.Proofs.Pool.Lifecycle
import Rally.Proofs.Pool.LimitedRuns
import Rally.Proofs.Pool.LinkCounters
import Rally.Proofs.Pool.MergedVisits
import Rally.Proofs.Pool.Partition
import Rally.Proofs.Pool.Routing
import Rally.Proofs.Pool.RunErrors
import Rally.Proofs.Pool.RunInvariants
import Rally.Proofs.Pool.TerminationReason
import Rally.Proofs.Pool.UnjoinedRuns
import Rally.Proofs.Pool.VoteLedger
import Rally.Proofs.Pool.WindowProgress
import Rally.Proofs.Pool.WindowedRuns
import Rally.Proofs.Queue.EntryOrder
import Rally.Proofs.Queue.HeapOrder
import Rally.Proofs.Queue.WaitingList
import Rally.Proofs.Simulation.Limits
import Rally.Proofs.Simulation.Placement
import Rally.Proofs.Simulation.PortBindings
import Rally.Proofs.Simulation.VoteAccounting
import Rally.Proofs.Threads.BetweenBarriers
import Rally.Proofs.Threads.Convergence
import Rally.Proofs.Threads.EventTimes
import Rally.Proofs.Threads.Exchange
import Rally.Proofs.Threads.Fifo
import Rally.Proofs.Threads.HookResponses
import Rally.Proofs.Threads.Interleaving
import Rally.Proofs.Threads.Launch
import Rally.Proofs.Threads.LinkDirections
import Rally.Proofs.Threads.Lockstep
import Rally.Proofs.Threads.MessageOrder
import Rally.Proofs.Threads.Parcels
import Rally.Proofs.Threads.RankClock
import Rally.Proofs.Threads.RankDeeds
import Rally.Proofs.Threads.RankSteps
import Rally.Proofs.Threads.Refinement
import Rally.Proofs.Threads.RoundRobin
import Rally.Proofs.Threads.Schedule
import Rally.Proofs.Threads.StatusReads
import Rally.Proofs.Threads.StepCases
import Rally.Proofs.Threads.StepFailures
import Rally.Proofs.Threads.System
import Rally.Proofs.Threads.WindowBounds
import Rally.Proofs.Threads.WindowDeeds
import Rally.Proofs.Threads.WindowRemainders
import Rally.Proofs.Time.Arithmetic
import Rally.Proofs.Time.Order
import Rally.Proofs.Topology.Endpoints
import Rally.Proofs.Topology.Omission
import Rally.Proofs.Topology.ParameterTexts
import Rally.Proofs.Topology.Recovery
import Rally.Proofs.Topology.RoundTrip
import Rally.Proofs.Topology.Validity
import Rally.Proofs.Topology.Wiring
import Rally.Proofs.Yaml.Fields
import Rally.Proofs.Yaml.Meaning
import Rally.Proofs.Yaml.NodeValues
import Rally.Proofs.Yaml.Numerals
import Rally.Proofs.Yaml.Omission
import Rally.Proofs.Yaml.Recovery
import Rally.Proofs.Yaml.Restoring
import Rally.Queue.EventSet
import Rally.Queue.Fifo
import Rally.Queue.Heap
import Rally.Simulation.Build
import Rally.Simulation.Rank
import Rally.Simulation.Report
import Rally.Simulation.Run
import Rally.Simulation.Window
import Rally.Text.Blank
import Rally.Text.Printable
import Rally.Text.Quoted
import Rally.Text.Split
import Rally.Time.Duration
import Rally.Time.Instant
import Rally.Time.Seconds
import Rally.Topology.ConfigError
import Rally.Topology.Definition
import Rally.Topology.Endpoint
import Rally.Topology.Parameters
import Rally.Topology.Readymade
import Rally.Topology.Registry
import Rally.Topology.Resolution
import Rally.Topology.Schema
import Rally.Vote
import Rally.Yaml.Cursor
import Rally.Yaml.Lexer
import Rally.Yaml.Node
import Rally.Yaml.Printer
import Rally.Yaml.Reading
import Rally.Yaml.Scalar
import Rally.Yaml.ScalarText
import Rally.Yaml.Token
import Rally.Yaml.Value
