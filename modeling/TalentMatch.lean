import TalentMatch.Lib.Text
import TalentMatch.Lib.Dict
import TalentMatch.Lib.Transition
import TalentMatch.Lib.Search
import TalentMatch.Lib.FirstWrite
import TalentMatch.Lib.GroupSort
import TalentMatch.Lib.ClaimOnce
import TalentMatch.Lib.Json
import TalentMatch.Payload
import TalentMatch.Status
import TalentMatch.Progress
import TalentMatch.Ledger
import TalentMatch.LiveEvent
import TalentMatch.Orchestrator
import TalentMatch.Completion
import TalentMatch.FirstResult
import TalentMatch.Submission
import TalentMatch.Finalize
import TalentMatch.Contracts
import TalentMatch.DlqReplay
import TalentMatch.Intake
import TalentMatch.Dispatch
import TalentMatch.Platform
import TalentMatch.Aggregation
import TalentMatch.Polling
import TalentMatch.Lib.Mode
import TalentMatch.Decision
import TalentMatch.Numbering
import TalentMatch.Reports
import TalentMatch.Successes
import TalentMatch.IntakePaths
import TalentMatch.Lib.CheckThenAct
import TalentMatch.Host
import TalentMatch.Submissions
import TalentMatch.Lifecycle
import TalentMatch.Cancellation
import TalentMatch.Finality
import TalentMatch.YieldPoints
import TalentMatch.EventOrder
import TalentMatch.AggregateValues
import TalentMatch.MustHaves
import TalentMatch.FailedEntries
import TalentMatch.Malformed
import TalentMatch.Explained
import TalentMatch.ReplayAccounting
import TalentMatch.Spelling
import TalentMatch.NumericPaths
import TalentMatch.NullFields
import TalentMatch.NullConditions
import TalentMatch.Lib.PyInt
import TalentMatch.Traceparent
import TalentMatch.Lib.TtlCache
import TalentMatch.KeyCaches
import TalentMatch.WireTexts
import TalentMatch.WirePlatform
import TalentMatch.WireRuns
import TalentMatch.WireConverse
import TalentMatch.WireSubmission
import TalentMatch.WirePolling
import TalentMatch.Authorization
import TalentMatch.Projection
import TalentMatch.Recovery
import TalentMatch.WireRecovery
