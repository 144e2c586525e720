import TalentMatch.Progress

/-!
# Live progress events

`build_live_progress_event` of `runtime/events.py` and the builders of
`orchestrator/functions/fanout/__init__.py` that call it. A builder has no value
where the Python function raises: an event for a run id that is not in the
document reads a field of `None`.
-/

namespace TalentMatch

/-! ## 1. Events -/

/-- The `application` block of an event. -/
structure EventApplication where
  applicationId : String
  documentId : String
  status : String
  deriving DecidableEq

/-- The `run` block of an event. -/
structure EventRun where
  runId : String
  runIndex : Nat
  status : String
  artifactCount : Nat
  deriving DecidableEq

/-- The `submission` block of an event. -/
structure EventSubmission where
  submissionId : String
  batchId : String
  jobId : String
  status : String
  deriving DecidableEq

/-- The `progress` block of an event. -/
structure EventProgress where
  status : String
  cvsCompleted : Nat
  cvsTotal : Nat
  runsCompleted : Nat
  runsDispatched : Nat
  runsTotal : Nat
  lastUpdatedAt : String
  deriving DecidableEq

/-- A live progress event. The blocks with constant content (`specVersion` and
the poll fallback) are not listed. -/
structure LiveEvent where
  eventType : String
  sequence : Nat
  occurredAt : String
  submission : EventSubmission
  application : Option EventApplication
  run : Option EventRun
  progress : EventProgress
  artifacts : List ArtifactItem
  correlationId : String
  traceparent : String
  deriving DecidableEq

/-- `a or b` on texts. -/
def orText (a b : String) : String := if a = "" then b else a

/-- `run_result.get(key) or default`, for a text that may be null. -/
def orDefault (a : Option String) (b : String) : String := orText (a.getD "") b

/-- `_find_application_run` of `runtime/events.py`: nothing is searched for a
missing or empty id. -/
def findEventRun (progress : Progress) (runId : Option String) : Option (Application × Run) :=
  match runId with
  | none => none
  | some runId =>
    if runId = "" then none
    else (findApplicationRun progress runId).map fun m => (m.2.1, m.2.2.2.1)

/-- `build_live_progress_event`. -/
def buildLiveProgressEvent (eventType : String) (progress : Progress) (occurredAt : String)
    (sequence : Nat) (correlationId traceparent : String) (runId : Option String)
    (artifacts : Option (List ArtifactItem)) : Option LiveEvent :=
  let batchId := orText progress.batchId progress.submissionId
  let found := findEventRun progress runId
  -- an id that is not found leaves `run` null while the block is built
  if found.isNone && orDefault runId "" != "" then none
  else some
    { eventType := eventType
      sequence := sequence
      occurredAt := occurredAt
      submission :=
        { submissionId := orText progress.submissionId batchId
          batchId := batchId
          jobId := progress.jobId
          status := progress.status }
      application := found.map fun m =>
        { applicationId := m.1.applicationId
          documentId := m.1.documentId
          status := m.1.status }
      run := found.map fun m =>
        { runId := m.2.runId
          runIndex := m.2.runIndex
          status := m.2.status
          artifactCount := m.2.artifactCount }
      progress :=
        { status := progress.status
          cvsCompleted := progress.cvsCompleted
          cvsTotal := progress.cvsTotal
          runsCompleted := progress.runsCompleted
          runsDispatched := progress.runsDispatched
          runsTotal := progress.runsTotal
          lastUpdatedAt := progress.lastUpdatedAt }
      artifacts :=
        artifacts.getD ((found.bind fun m => m.2.details.map RunDetails.artifacts).getD [])
      correlationId := correlationId
      traceparent := traceparent }

/-! ## 2. The builders of the orchestrator -/

/-- `_build_run_terminal_live_event`. -/
def buildRunTerminalLiveEvent (progress : Progress) (occurredAt : String) (sequence : Nat)
    (defaultCorrelationId defaultTraceparent : String) (runResult : RunResult) :
    Option LiveEvent :=
  buildLiveProgressEvent (terminalRunEventType runResult.status) progress occurredAt sequence
    (orDefault runResult.correlationId defaultCorrelationId)
    (orDefault runResult.traceparent defaultTraceparent)
    (some runResult.runId) (some runResult.artifactList)

/-- `_build_application_terminal_live_event`: the event names the first run of
the application that has an id. -/
def buildApplicationTerminalLiveEvent (progress : Progress) (occurredAt : String) (sequence : Nat)
    (correlationId traceparent applicationId : String) : Option LiveEvent :=
  match findApplication progress applicationId with
  | none => none
  | some application =>
    let terminalRun := application.runs.find? fun run => run.runId != ""
    buildLiveProgressEvent "application.completed" progress occurredAt sequence correlationId
      traceparent (terminalRun.map Run.runId) none

/-- `_build_batch_terminal_live_event`. -/
def buildBatchTerminalLiveEvent (progress : Progress) (occurredAt : String) (sequence : Nat)
    (correlationId traceparent : String) : Option LiveEvent :=
  buildLiveProgressEvent (if isCancelledBatch progress then "batch.cancelled" else "batch.completed")
    progress occurredAt sequence correlationId traceparent none none

/-! ## 3. When an event can be built -/

/-- An event about a run in the document can be built, and names its application
and run. -/
theorem buildLiveProgressEvent_of_found {progress : Progress} {runId : String} {i j : Nat}
    {application : Application} {run : Run} (hne : runId ≠ "")
    (hfind : findApplicationRun progress runId = some (i, application, j, run, ()))
    (eventType occurredAt : String) (sequence : Nat) (correlationId traceparent : String)
    (artifacts : Option (List ArtifactItem)) :
    ∃ event, buildLiveProgressEvent eventType progress occurredAt sequence correlationId traceparent
        (some runId) artifacts = some event ∧
      event.eventType = eventType ∧
      event.application = some
        { applicationId := application.applicationId
          documentId := application.documentId
          status := application.status } := by
  have hfound : findEventRun progress (some runId) = some (application, run) := by
    simp [findEventRun, hne, hfind]
  simp [buildLiveProgressEvent, hfound]

/-- The event types of runs are not the event type of applications. -/
theorem terminalRunEventType_ne (status : String) :
    terminalRunEventType status ≠ "application.completed" := by
  unfold terminalRunEventType
  split
  · decide
  · split <;> decide

end TalentMatch
