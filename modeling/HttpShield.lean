import HttpShield.Nginx
import HttpShield.Lib.SearchTree
import HttpShield.Lib.LinkedQueue
import HttpShield.Lib.BudgetedWalk
import HttpShield.Lib.ShortReads
import HttpShield.Lib.Segments
import HttpShield.Lib.Lockstep
import HttpShield.Ban.Zone
import HttpShield.Ban.Queue
import HttpShield.Ban.Lru
import HttpShield.Ban.Order
import HttpShield.Ban.Refinement
import HttpShield.Ban.Run
import HttpShield.Ban.Enforcement
import HttpShield.Ban.Eviction
import HttpShield.Ban.Frame
import HttpShield.Ban.Overflow
import HttpShield.Ban.Job
import HttpShield.Ban.Interleaving
import HttpShield.Ban.Tally
import HttpShield.Ban.Independence
import HttpShield.Ban.Blind
import HttpShield.Lib.LongestSuffix
import HttpShield.Lib.Json
import HttpShield.Lib.JsonTree
import HttpShield.Lib.JsonDump
import HttpShield.Lib.JsonTorn
import HttpShield.Lib.AtomicReplace
import HttpShield.Lib.Backoff
import HttpShield.Lib.Dict
import HttpShield.Scan.Automaton
import HttpShield.Scan.Trie
import HttpShield.Scan.FailLinks
import HttpShield.Scan.Search
import HttpShield.Scan.Bounds
import HttpShield.Scan.Patterns
import HttpShield.Scan.Input
import HttpShield.Scan.Encoding
import HttpShield.Scan.Categories
import HttpShield.Scan.CaseFold
import HttpShield.Scan.Effective
import HttpShield.Request.Types
import HttpShield.Request.Structural
import HttpShield.Request.BanKey
import HttpShield.Request.Inspect
import HttpShield.Request.Body
import HttpShield.Request.Collect
import HttpShield.Request.Handler
import HttpShield.Request.HitLog
import HttpShield.Request.Verdict
import HttpShield.Request.Flagged
import HttpShield.Request.Headers
import HttpShield.Request.KeySource
import HttpShield.Request.Target
import HttpShield.Request.Skip
import HttpShield.Request.Dotfile
import HttpShield.Request.MediaType
import HttpShield.Request.Forwarded
import HttpShield.Request.Redirects
import HttpShield.Request.Accounting
import HttpShield.Request.BanStatus
import HttpShield.Request.DryRun
import HttpShield.Request.LogSink
import HttpShield.Request.Records
import HttpShield.Request.ServerBans
import HttpShield.Config.Directives
import HttpShield.Config.Merge
import HttpShield.Config.Reload
import HttpShield.Reporter.Report
import HttpShield.Reporter.Follow
import HttpShield.Reporter.Delivery
import HttpShield.Reporter.Framing
import HttpShield.Reporter.Rotation
import HttpShield.Reporter.Comment
import HttpShield.Reporter.Suppress
import HttpShield.Reporter.Quota
import HttpShield.Reporter.Daemon
import HttpShield.Reporter.Accounts
import HttpShield.Reporter.StateFile
import HttpShield.Reporter.Persistence
import HttpShield.Reporter.Cooldown
import HttpShield.Reporter.Pipeline
