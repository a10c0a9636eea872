import MiniDrop.Library.Runs
import MiniDrop.Library.Folds
import MiniDrop.Library.Text
import MiniDrop.Library.Program
import MiniDrop.Library.Pool
import MiniDrop.Library.Guarantee
import MiniDrop.Library.Tokens
import MiniDrop.Model.Messages
import MiniDrop.Model.HotmethodService
import MiniDrop.Model.ServiceRuns
import MiniDrop.Model.Database
import MiniDrop.Model.TaskState
import MiniDrop.Model.Continuous
import MiniDrop.Model.StatusRuns
import MiniDrop.Model.Artifacts
import MiniDrop.Model.Analysis
import MiniDrop.Model.Requests
import MiniDrop.Model.Deletion
import MiniDrop.Model.Groups
import MiniDrop.Model.Listing
import MiniDrop.Model.ControlService
import MiniDrop.Model.Watch
import MiniDrop.Model.Agent
import MiniDrop.Model.Cluster
import MiniDrop.Model.Reporting
import MiniDrop.Model.NaturalLanguage
import MiniDrop.Model.Backend
import MiniDrop.Verification.Hotmethod.WindowTid
import MiniDrop.Verification.Hotmethod.Operations
import MiniDrop.Verification.Hotmethod.Entries
import MiniDrop.Verification.Hotmethod.Queues
import MiniDrop.Verification.Hotmethod.Terminal
import MiniDrop.Verification.Hotmethod.Windows
import MiniDrop.Verification.Hotmethod.Stop
import MiniDrop.Verification.Api.Tables
import MiniDrop.Verification.Api.History
import MiniDrop.Verification.Api.StatusMoves
import MiniDrop.Verification.Api.Audit
import MiniDrop.Verification.Api.StatusTexts
import MiniDrop.Verification.Api.Artifacts
import MiniDrop.Verification.Cluster.Watching
import MiniDrop.Verification.Cluster.Completion
import MiniDrop.Verification.Cluster.Agents
import MiniDrop.Verification.Cluster.Fate
import MiniDrop.Verification.Cluster.Outcomes
import MiniDrop.Verification.Cluster.Decoding
import MiniDrop.Verification.Api.Frames
import MiniDrop.Verification.Api.Rows
import MiniDrop.Verification.Api.Tenants
import MiniDrop.Verification.Api.AgentSync
import MiniDrop.Verification.Cluster.Delivery
import MiniDrop.Verification.Backend.Service
import MiniDrop.Verification.Backend.Orphans
import MiniDrop.Verification.Backend.Registry
import MiniDrop.Verification.Backend.Schedules
import MiniDrop.Verification.Backend.Access
import MiniDrop.Verification.Backend.Dispatches
import MiniDrop.Verification.Api.ResultKey
import MiniDrop.Verification.Api.Verdicts
import MiniDrop.Verification.Api.Deletion
import MiniDrop.Verification.Api.Listing
import MiniDrop.Verification.Api.Assignments
import MiniDrop.Verification.Api.Integrity
import MiniDrop.Verification.Api.AgentAudit
import MiniDrop.Verification.Api.WindowPolls
import MiniDrop.Verification.Hotmethod.Results
import MiniDrop.Verification.Hotmethod.Start
import MiniDrop.Model.Failover
import MiniDrop.Verification.Cluster.Servers
import MiniDrop.Verification.Hotmethod.ParentIds
import MiniDrop.Library.Characters
import MiniDrop.Library.Dict
import MiniDrop.Model.FoldedStacks
import MiniDrop.Library.Lines
import MiniDrop.Verification.Flame.Lines
import MiniDrop.Verification.Flame.Readers
import MiniDrop.Model.FlameStats
import MiniDrop.Verification.Flame.Conservation
import MiniDrop.Library.Trie
import MiniDrop.Model.DiffTree
import MiniDrop.Verification.Flame.DiffTree
import MiniDrop.Library.Decoder
import MiniDrop.Model.HeapAnalyzer
import MiniDrop.Verification.Heap.Format
import MiniDrop.Verification.Heap.Reading
import MiniDrop.Verification.Heap.Statistics
import MiniDrop.Verification.Heap.Framing
import MiniDrop.Verification.Heap.Soundness
import MiniDrop.Verification.Heap.Rejection
import MiniDrop.Model.Attribution
import MiniDrop.Verification.Attribution.Citations
import MiniDrop.Verification.Attribution.Evidence
import MiniDrop.Verification.Attribution.Reports
import MiniDrop.Verification.Flame.TopFunctions
import MiniDrop.Model.Durations
import MiniDrop.Verification.Backend.Durations
import MiniDrop.Verification.Backend.Origins
import MiniDrop.Model.Collectors
import MiniDrop.Verification.Backend.Collectors
import MiniDrop.Verification.Backend.Repeats
import MiniDrop.Verification.Hotmethod.Timeline
import MiniDrop.Model.Suggestions
import MiniDrop.Verification.Api.Suggestions
import MiniDrop.Model.AgentRuns
import MiniDrop.Verification.Cluster.Settlement
import MiniDrop.Model.FlatDiff
import MiniDrop.Verification.Flame.FlatDiff
import MiniDrop.Model.Descriptions
import MiniDrop.Verification.Backend.Intents
import MiniDrop.Verification.Backend.Expressions
import MiniDrop.Verification.Backend.Numbers
import MiniDrop.Library.Csv
import MiniDrop.Library.Floats
import MiniDrop.Model.Biotrace
import MiniDrop.Verification.Probe.Output
import MiniDrop.Verification.Flame.Collapsed
import MiniDrop.Library.Ranking
import MiniDrop.Verification.Heap.TopLists
import MiniDrop.Library.Rounding
import MiniDrop.Model.Tracing
import MiniDrop.Verification.Tracing.Report
import MiniDrop.Verification.Tracing.Durations
import MiniDrop.Model.BioStats
import MiniDrop.Verification.Probe.Records
import MiniDrop.Verification.Probe.Encodings
import MiniDrop.Library.Regex
import MiniDrop.Model.PerfScript
import MiniDrop.Verification.Perf.Samples
import MiniDrop.Verification.Perf.Frames
import MiniDrop.Verification.Perf.Headers
import MiniDrop.Verification.Perf.Folding
import MiniDrop.Model.Memleak
import MiniDrop.Model.SuggestionMarkdown
import MiniDrop.Verification.Markdown.Headings
import MiniDrop.Verification.Markdown.Lines
import MiniDrop.Verification.Markdown.RoundTrip
import MiniDrop.Model.LeakReports
import MiniDrop.Verification.Memleak.Frames
import MiniDrop.Verification.Memleak.Sanitizer
import MiniDrop.Library.Dispersion
import MiniDrop.Verification.Flame.Gini
import MiniDrop.Library.Streams
import MiniDrop.Model.ProcStat
import MiniDrop.Verification.Process.Stat
import MiniDrop.Model.Jstack
import MiniDrop.Library.Paging
import MiniDrop.Verification.Jstack.Folding
import MiniDrop.Verification.Api.Paging
import MiniDrop.Verification.Memleak.Formats
import MiniDrop.Verification.Memleak.Detection
import MiniDrop.Model.Pprof
import MiniDrop.Verification.Pprof.Listing
import MiniDrop.Verification.Pprof.Columns
import MiniDrop.Verification.Pprof.Times
import MiniDrop.Verification.Pprof.Sizes
import MiniDrop.Model.HealthCheck
import MiniDrop.Verification.Hotmethod.Liveness
import MiniDrop.Library.Deviation
import MiniDrop.Model.BwSync
import MiniDrop.Verification.BwSync.Outliers
import MiniDrop.Verification.BwSync.Formats
import MiniDrop.Model.Accounts
import MiniDrop.Verification.Api.Accounts
import MiniDrop.Verification.Api.Sessions
import MiniDrop.Verification.Api.Settings
import MiniDrop.Model.ScriptRunner
import MiniDrop.Verification.Process.TimeLimit
import MiniDrop.Model.CpuAnalysis
import MiniDrop.Verification.Flame.Reanalysis
import MiniDrop.Model.Assembly
import MiniDrop.Verification.Assembly.Listing
import MiniDrop.Verification.Assembly.Counts
import MiniDrop.Model.PidStats
import MiniDrop.Verification.Process.Rates
import MiniDrop.Model.FlameData
import MiniDrop.Verification.Api.FlameData
