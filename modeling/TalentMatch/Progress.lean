import TalentMatch.Lib.Search
import TalentMatch.Payload
import TalentMatch.Status
import Mathlib.Data.List.Dedup

/-!
# The progress document

The document that `batch_orchestrator` publishes as custom status, and the two
functions that update it: `_record_dispatched_run` and `_record_run_result` of
`orchestrator/functions/fanout/__init__.py`.

The Python code mutates the application and the run that `_find_application_run`
returns. Here the search also returns their positions and the updates write the
new values back at those positions.
-/

namespace TalentMatch

/-! ## 1. The document -/

/-- The keys that a run has from its first result on. -/
structure RunDetails where
  durationMs : Int
  tokensPrompt : Int
  tokensCompletion : Int
  correlationId : Option String
  traceparent : Option String
  artifacts : List ArtifactItem
  deriving DecidableEq

/-- An entry of `runs`. -/
structure Run where
  runId : String
  runIndex : Nat
  status : String
  dispatchedAt : Option String
  completedAt : Option String
  artifactCount : Nat
  artifactNames : List String
  errorMessage : Option String
  details : Option RunDetails
  deriving DecidableEq

/-- An entry of `applications`. -/
structure Application where
  applicationId : String
  documentId : String
  status : String
  runsCompleted : Nat
  runsTotal : Nat
  lastUpdatedAt : String
  runs : List Run
  deriving DecidableEq

/-- The progress document. -/
structure Progress where
  submissionId : String
  batchId : String
  jobId : String
  status : String
  cvsCompleted : Nat
  cvsTotal : Nat
  runsCompleted : Nat
  runsDispatched : Nat
  runsTotal : Nat
  lastUpdatedAt : String
  applications : List Application
  deriving DecidableEq

/-- A run before its dispatch. -/
def queuedRun (runId : String) (runIndex : Nat) : Run where
  runId := runId
  runIndex := runIndex
  status := "queued"
  dispatchedAt := none
  completedAt := none
  artifactCount := 0
  artifactNames := []
  errorMessage := none
  details := none

/-- `_build_initial_progress`. -/
def buildInitialProgress (uuid5 : String → String) (payload : BatchPayload) (updatedAt : String) :
    Progress where
  submissionId := payload.batchId
  batchId := payload.batchId
  jobId := payload.jobId
  status := "queued"
  cvsCompleted := 0
  cvsTotal := payload.cvs.length
  runsCompleted := 0
  runsDispatched := 0
  runsTotal := payload.cvs.length * payload.runCount
  lastUpdatedAt := updatedAt
  applications := payload.cvs.map fun cv =>
    { applicationId := cv.applicationId
      documentId := cv.documentId
      status := "queued"
      runsCompleted := 0
      runsTotal := payload.runCount
      lastUpdatedAt := updatedAt
      runs := (List.range payload.runCount).map fun runIndex =>
        queuedRun (payload.runId uuid5 cv runIndex) runIndex }

/-! ## 2. Reading the document -/

/-- `_find_application_run`: the first run with the id, in the first application
that has one, each with its position. -/
def findApplicationRun (progress : Progress) (runId : String) :
    Option (Nat × Application × Nat × Run × Unit) :=
  Search.findFirst
    (fun application =>
      Search.findFirst (fun run => if run.runId = runId then some () else none) application.runs)
    progress.applications

/-- `_find_application`. -/
def findApplication (progress : Progress) (applicationId : String) : Option Application :=
  progress.applications.find? fun application => application.applicationId = applicationId

/-- `_is_application_terminal`. -/
def isApplicationTerminal (application : Application) : Bool :=
  application.runs.all fun run => isTerminalRunStatus run.status

/-- `_is_cancelled_batch`. -/
def isCancelledBatch (progress : Progress) : Bool :=
  !progress.applications.isEmpty &&
    progress.applications.all fun application =>
      ["cancelled", "canceled"].contains (statusKey application.status)

/-- `_next_event_sequence`. -/
def nextEventSequence (progress : Progress) : Nat :=
  progress.runsDispatched + progress.runsCompleted +
    (progress.applications.filter isApplicationTerminal).length + 1

/-! ## 3. Updating the document -/

/-- What a dispatch writes into the run. -/
def Run.dispatched (run : Run) (updatedAt : String) : Run :=
  { run with status := "dispatched", dispatchedAt := some updatedAt }

/-- What a result writes into the run. -/
def Run.recorded (run : Run) (runResult : RunResult) (updatedAt : String) : Run :=
  { run with
    status := runResult.status
    completedAt := some updatedAt
    artifactCount := runResult.artifactList.length
    artifactNames := (runResult.artifactList.map ArtifactItem.name).filter fun name => name != ""
    errorMessage := runResult.errorMessage
    details := some
      { durationMs := runResult.durationMs
        tokensPrompt := runResult.tokensPrompt
        tokensCompletion := runResult.tokensCompletion
        correlationId := runResult.correlationId
        traceparent := runResult.traceparent
        artifacts := runResult.artifactList } }

/-- `_record_dispatched_run`. -/
def recordDispatchedRun (progress : Progress) (runId updatedAt : String) : Progress :=
  match findApplicationRun progress runId with
  | none => progress
  | some (i, application, j, run, _) =>
    let application' : Application :=
      { application with
        runs := application.runs.set j (run.dispatched updatedAt)
        status := "running"
        lastUpdatedAt := updatedAt }
    { progress with
      runsDispatched :=
        if run.status = "queued" then progress.runsDispatched + 1 else progress.runsDispatched
      applications := progress.applications.set i application'
      status := "running"
      lastUpdatedAt := updatedAt }

/-- The ids of the terminal applications, each once. -/
def completedIds (applications : List Application) : List String :=
  ((applications.filter isApplicationTerminal).map Application.applicationId).dedup

/-- `_record_run_result`. -/
def recordRunResult (progress : Progress) (runResult : RunResult) (updatedAt : String) : Progress :=
  if runResult.runId = "" then progress
  else
    match findApplicationRun progress runResult.runId with
    | none => progress
    | some (i, application, j, run, _) =>
      if isTerminalRunStatus run.status then progress
      else
        let runs := application.runs.set j (run.recorded runResult updatedAt)
        let application' : Application :=
          { application with
            runs := runs
            runsCompleted := application.runsCompleted + 1
            status := summarizeApplicationStatus (runs.map Run.status)
            lastUpdatedAt := updatedAt }
        let applications := progress.applications.set i application'
        { progress with
          applications := applications
          runsCompleted := progress.runsCompleted + 1
          -- only a result that leaves its application terminal recounts
          cvsCompleted :=
            if isApplicationTerminal application' then (completedIds applications).length
            else progress.cvsCompleted
          status := "running"
          lastUpdatedAt := updatedAt }

/-! ## 4. Finding the updated run -/

/-- The run found has the id. -/
theorem runId_of_find {progress : Progress} {r : String} {i j : Nat} {application : Application}
    {run : Run} (h : findApplicationRun progress r = some (i, application, j, run, ())) :
    run.runId = r := by
  obtain ⟨-, hrun, -⟩ := Search.findFirst_spec h
  obtain ⟨-, hid, -⟩ := Search.findFirst_spec hrun
  split at hid
  · next heq => exact heq
  · cases hid

/-- After an update in place that keeps the id, the search finds the new run at the
same place. -/
theorem find_of_set {progress progress' : Progress} {r : String} {i j : Nat}
    {application application' : Application} {run run' : Run}
    (h : findApplicationRun progress r = some (i, application, j, run, ()))
    (hid : run'.runId = run.runId) (hruns : application'.runs = application.runs.set j run')
    (happs : progress'.applications = progress.applications.set i application') :
    findApplicationRun progress' r = some (i, application', j, run', ()) := by
  obtain ⟨-, hrun, -⟩ := Search.findFirst_spec h
  have hid' : (if run'.runId = r then some () else none) = some () :=
    if_pos (hid.trans (runId_of_find h))
  have hfound := Search.findFirst_set hrun hid'
  rw [← hruns] at hfound
  rw [findApplicationRun, happs]
  exact Search.findFirst_set h hfound

end TalentMatch
