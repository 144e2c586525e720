import TalentMatch.Aggregation

/-!
# Polling a completed batch

The documents that leave the orchestrator as JSON, `_normalize_status` of
`orchestrator/functions/fanout`, and what the API makes of it: the response models
of `api/models.py` and `_to_status_response` of `api/routes_assess.py`. The API
validates in lax mode: how it reads numbers and booleans is a parameter, of which
only a number read from a number and a boolean from a boolean matter.

Results:
1. `completed_batch_polled_iff`: the API serves the document of a completed batch
   exactly when every application has a run that succeeded with a scored output;
   otherwise it answers 502.
-/

namespace TalentMatch

open Json (LoadsError)

variable {φ : Type}

/-! ## 1. Documents as JSON -/

/-- A value or null. -/
def nullable {α : Type} (encode : α → Json φ) : Option α → Json φ
  | some a => encode a
  | none => .null

/-- `ArtifactItem.model_dump`. -/
def ArtifactItem.fields (a : ArtifactItem) : Fields φ :=
  [("name", .str a.name), ("blob_uri", .str a.blobUri), ("mime", nullable .str a.mime),
    ("size_bytes", nullable .int a.sizeBytes), ("sha256", nullable .str a.sha256)]

/-- An entry of `runs` in a block. -/
def RunPayload.toJson (r : RunPayload) : Json φ :=
  .obj
    [("runId", .str r.runId), ("runIndex", .int r.runIndex), ("documentId", .str r.documentId),
      ("status", .str r.status), ("durationMs", .int r.durationMs),
      ("tokensPrompt", .int r.tokensPrompt), ("tokensCompletion", .int r.tokensCompletion),
      ("correlationId", nullable .str r.correlationId),
      ("traceparent", nullable .str r.traceparent),
      ("artifacts", nullable (fun l => .arr (l.map fun a => .obj a.fields)) r.artifacts),
      ("errorMessage", nullable .str r.errorMessage)]

/-- The `aggregated` block. -/
def CvAggregate.toJson (a : CvAggregate φ) : Json φ :=
  .obj
    [("finalScore", nullable .float a.finalScore), ("variance", .float a.variance),
      ("finalDecision", nullable .str a.finalDecision),
      ("mustHaveResult", .bool a.mustHaveResult),
      ("sourceArtifacts", .arr (a.sourceArtifacts.map fun s =>
        .obj [("name", .str s.name), ("blob_uri", .str s.blobUri), ("sha256", nullable .str s.sha256)])),
      ("runsCount", .int a.runsCount)]

/-- The `error` of a block with a message. -/
def runFailed (message : String) : Fields φ :=
  [("code", .str "RUN_FAILED"), ("message", .str message)]

/-- An entry of `cvs`. -/
def CvBlock.fields (b : CvBlock (Option (CvAggregate φ))) : Fields φ :=
  [("applicationId", .str b.applicationId), ("documentId", .str b.documentId),
    ("runs", .arr (b.runs.map RunPayload.toJson)),
    ("aggregated", nullable CvAggregate.toJson b.aggregated),
    ("error", nullable (fun message => .obj (runFailed message)) b.error)]

/-- `result_doc`. -/
def resultDocument (blocks : List (CvBlock (Option (CvAggregate φ)))) : Json φ :=
  .obj [("cvs", .arr (blocks.map fun b => .obj b.fields))]

/-- An entry of `runs` in the progress document. -/
def Run.toJson (run : Run) : Json φ :=
  .obj
    ([("runId", .str run.runId), ("runIndex", .int run.runIndex), ("status", .str run.status),
      ("dispatchedAt", nullable .str run.dispatchedAt),
      ("completedAt", nullable .str run.completedAt),
      ("artifactCount", .int run.artifactCount),
      ("artifactNames", .arr (run.artifactNames.map .str)),
      ("errorMessage", nullable .str run.errorMessage)] ++
      match run.details with
      | none => []
      | some d =>
        [("durationMs", .int d.durationMs), ("tokensPrompt", .int d.tokensPrompt),
          ("tokensCompletion", .int d.tokensCompletion),
          ("correlationId", nullable .str d.correlationId),
          ("traceparent", nullable .str d.traceparent),
          ("artifacts", .arr (d.artifacts.map fun a => .obj a.fields))])

/-- An entry of `applications`. -/
def Application.fields (application : Application) : Fields φ :=
  [("applicationId", .str application.applicationId), ("documentId", .str application.documentId),
    ("status", .str application.status), ("runsCompleted", .int application.runsCompleted),
    ("runsTotal", .int application.runsTotal), ("lastUpdatedAt", .str application.lastUpdatedAt),
    ("runs", .arr (application.runs.map Run.toJson))]

/-- The progress document. -/
def Progress.fields (progress : Progress) : Fields φ :=
  [("submissionId", .str progress.submissionId), ("batchId", .str progress.batchId),
    ("jobId", .str progress.jobId), ("status", .str progress.status),
    ("cvsCompleted", .int progress.cvsCompleted), ("cvsTotal", .int progress.cvsTotal),
    ("runsCompleted", .int progress.runsCompleted),
    ("runsDispatched", .int progress.runsDispatched), ("runsTotal", .int progress.runsTotal),
    ("lastUpdatedAt", .str progress.lastUpdatedAt),
    ("applications", .arr (progress.applications.map fun a => .obj a.fields))]

/-! ## 2. The status of an instance -/

/-- The runtime statuses of Durable; `other` are those that `_normalize_status`
does not map. -/
inductive RuntimeStatus where
  | pending
  | running
  | completed
  | failed
  | terminated
  | canceled
  | other
  deriving DecidableEq

/-- What `client.get_status` returns. -/
structure DurableStatus (φ : Type) where
  runtimeStatus : RuntimeStatus
  customStatus : Json φ
  output : Json φ

/-- `mapping.get(s.runtime_status, "running")`. -/
def RuntimeStatus.text : RuntimeStatus → String
  | .pending => "queued"
  | .running => "running"
  | .completed => "completed"
  | .failed => "failed"
  | .terminated => "cancelled"
  | .canceled => "cancelled"
  | .other => "running"

/-- The `result` of the status document. -/
def normalizedResult (loads : String → Except LoadsError (Json φ)) (s : DurableStatus φ) :
    Except LoadsError (Json φ) :=
  if s.runtimeStatus.text = "completed" then
    match s.output with
    | .null => .ok .null
    | .obj fields => .ok (.obj fields)
    | .str text => loads text
    | _ => .error .other
  else .ok .null

/-- `_normalize_status`. -/
def normalizeStatus (loads : String → Except LoadsError (Json φ)) (s : DurableStatus φ) :
    Except LoadsError (Fields φ) :=
  match normalizedResult loads s with
  | .error e => .error e
  | .ok result =>
    .ok
      [("status", .str s.runtimeStatus.text),
        ("progress", match s.customStatus with | .obj fields => .obj fields | _ => .null),
        ("result", result),
        ("error",
          if s.runtimeStatus.text = "failed" then
            .obj
              [("code", .str "ORCHESTRATION_FAILED"),
                ("message", .str (
                  match s.output with
                  | .str text => orText text "orchestration failed"
                  | _ => "orchestration failed"))]
          else .null),
        ("retryAfterSeconds",
          if s.runtimeStatus.text = "queued" ∨ s.runtimeStatus.text = "running" then .int 10
          else .null)]

/-! ## 3. The response models -/

/-- How the API's validation reads numbers and booleans. -/
structure LaxMode (φ : Type) where
  int : Json φ → Option Int
  float : Json φ → Option φ
  bool : Json φ → Option Bool
  int_int : ∀ i, int (.int i) = some i
  float_float : ∀ x, float (.float x) = some x
  bool_bool : ∀ b, bool (.bool b) = some b

/-- What `_to_status_response` raises. -/
inductive ApiError where
  | validationError
  | problemDetail (status : Nat) (title detail : String)
  | other
  deriving DecidableEq

/-- `BatchStatus`. -/
inductive BatchStatus where
  | queued
  | running
  | completed
  | failed
  | cancelling
  | cancelled
  deriving DecidableEq

/-- `BatchStatus(text)`. -/
def BatchStatus.ofText : String → Option BatchStatus
  | "queued" => some .queued
  | "running" => some .running
  | "completed" => some .completed
  | "failed" => some .failed
  | "cancelling" => some .cancelling
  | "cancelled" => some .cancelled
  | _ => none

/-- `RunEvidence`. -/
structure RunEvidence (φ : Type) where
  runId : String
  runIndex : Int
  status : String
  documentId : Option String
  correlationId : Option String
  traceparent : Option String
  artifacts : Option (List (Fields φ))

/-- `AggregatedOutcome`. -/
structure AggregatedOutcome (φ : Type) where
  finalScore : Option φ
  finalDecision : Option String
  mustHaveResult : Option Bool

/-- `CvResult`. -/
structure CvResult (φ : Type) where
  applicationId : String
  runs : List (RunEvidence φ)
  aggregated : Option (AggregatedOutcome φ)
  error : Option (Fields φ)

/-- `BatchProgress`. -/
structure BatchProgress (φ : Type) where
  cvsCompleted : Int
  cvsTotal : Int
  runsCompleted : Option Int
  runsTotal : Option Int
  runsDispatched : Option Int
  lastUpdatedAt : Option String
  applications : Option (List (Fields φ))

/-- `BatchError`. -/
structure BatchError where
  code : String
  message : String
  deriving DecidableEq

/-- `BatchStatusResponse`. -/
structure BatchStatusResponse (φ : Type) where
  submissionId : String
  status : BatchStatus
  progress : Option (BatchProgress φ)
  estimatedCompletionSeconds : Option Int
  retryAfterSeconds : Option Int
  result : Option (List (CvResult φ))
  error : Option BatchError

/-- A field that can be given by its alias or by its name. -/
def aliased (fields : Fields φ) (wireName name : String) : Option (Json φ) :=
  match Dict.get? fields wireName with
  | some v => some v
  | none => Dict.get? fields name

/-- A field `... | None = None`. -/
def optionalValue {α : Type} (read : Json φ → Option α) : Option (Json φ) → Option (Option α)
  | none => some none
  | some .null => some none
  | some v => (read v).map some

/-- A `dict[str, Any]`. -/
def readDict : Json φ → Option (Fields φ)
  | .obj fields => some fields
  | _ => none

section Validation
variable (lax : LaxMode φ)

/-- An `int` with `ge=0`. -/
def readCount (v : Json φ) : Option Int := (lax.int v).filter fun n => 0 ≤ n

/-- `RunEvidence.model_validate`. -/
def validateRunEvidence : Json φ → Option (RunEvidence φ)
  | .obj fields => do
    let runId ← (aliased fields "runId" "run_id").bind strictStr
    let runIndex ← (aliased fields "runIndex" "run_index").bind (readCount lax)
    let status ← (Dict.get? fields "status").bind strictStr
    let documentId ← optionalValue strictStr (aliased fields "documentId" "document_id")
    let correlationId ← optionalValue strictStr (aliased fields "correlationId" "correlation_id")
    let traceparent ← optionalValue strictStr (Dict.get? fields "traceparent")
    let artifacts ← optionalValue (strictList readDict) (Dict.get? fields "artifacts")
    some { runId, runIndex, status, documentId, correlationId, traceparent, artifacts }
  | _ => none

/-- `AggregatedOutcome.model_validate`. -/
def validateAggregatedOutcome : Json φ → Option (AggregatedOutcome φ)
  | .obj fields => do
    let finalScore ← optionalValue lax.float (aliased fields "finalScore" "final_score")
    let finalDecision ← optionalValue strictStr (aliased fields "finalDecision" "final_decision")
    let mustHaveResult ← optionalValue lax.bool (aliased fields "mustHaveResult" "must_have_result")
    some { finalScore, finalDecision, mustHaveResult }
  | _ => none

/-- `CvResult.model_validate`. -/
def validateCvResult (fields : Fields φ) : Option (CvResult φ) := do
  let applicationId ← (aliased fields "applicationId" "application_id").bind strictStr
  let runs ← (Dict.get? fields "runs").bind (strictList (validateRunEvidence lax))
  let aggregated ← optionalValue (validateAggregatedOutcome lax) (Dict.get? fields "aggregated")
  let error ← optionalValue readDict (Dict.get? fields "error")
  some { applicationId, runs, aggregated, error }

/-- `BatchProgress.model_validate`. -/
def validateBatchProgress (fields : Fields φ) : Option (BatchProgress φ) := do
  let cvsCompleted ← (aliased fields "cvsCompleted" "cvs_completed").bind (readCount lax)
  let cvsTotal ← (aliased fields "cvsTotal" "cvs_total").bind (readCount lax)
  let runsCompleted ← optionalValue (readCount lax) (aliased fields "runsCompleted" "runs_completed")
  let runsTotal ← optionalValue (readCount lax) (aliased fields "runsTotal" "runs_total")
  let runsDispatched ←
    optionalValue (readCount lax) (aliased fields "runsDispatched" "runs_dispatched")
  let lastUpdatedAt ← optionalValue strictStr (aliased fields "lastUpdatedAt" "last_updated_at")
  let applications ← optionalValue (strictList readDict) (Dict.get? fields "applications")
  some
    { cvsCompleted, cvsTotal, runsCompleted, runsTotal, runsDispatched, lastUpdatedAt, applications }

/-! ## 4. The answer of the API -/

/-- `if raw.get(name): Model(**raw[name])`. -/
def readBlock {α : Type} (isZero : φ → Bool) (validate : Fields φ → Option α) (raw : Fields φ)
    (name : String) : Except ApiError (Option α) :=
  let block := valueAt raw name
  if block.truthy isZero then
    match block with
    | .obj fields =>
      match validate fields with
      | some a => .ok (some a)
      | none => .error .validationError
    | _ => .error .other
  else .ok none

/-- `CvResult(**cv)`. -/
def readCv : Json φ → Except ApiError (CvResult φ)
  | .obj fields =>
    match validateCvResult lax fields with
    | some cv => .ok cv
    | none => .error .validationError
  | _ => .error .other

/-- `[CvResult(**cv) for cv in raw["result"].get("cvs", [])]`. -/
def readCvs (result : Fields φ) : Except ApiError (List (CvResult φ)) :=
  match (Dict.get? result "cvs").getD (.arr []) with
  | .arr items => items.mapM (readCv lax)
  | _ => .error .other

/-- The contract check on a block of a completed result. -/
def checkCv (cv : CvResult φ) : Except ApiError Unit :=
  match cv.aggregated with
  | none =>
    .error (.problemDetail 502 "Upstream contract error" "Completed result missing aggregated block.")
  | some a =>
    if a.finalScore.isNone || a.finalDecision.isNone || a.mustHaveResult.isNone then
      .error (.problemDetail 502 "Upstream contract error"
        "Completed result missing required aggregate fields.")
    else .ok ()

/-- `result` of the response. -/
def readResult (isZero : φ → Bool) (raw : Fields φ) : Except ApiError (Option (List (CvResult φ))) :=
  let result := valueAt raw "result"
  if result.truthy isZero then
    match result with
    | .obj fields =>
      match readCvs lax fields with
      | .error e => .error e
      | .ok cvs =>
        match valueAt raw "status" with
        | .str "completed" =>
          match cvs.forM checkCv with
          | .error e => .error e
          | .ok _ => .ok (some cvs)
        | _ => .ok (some cvs)
    | _ => .error .other
  else .ok none

/-- `BatchError.model_validate`. -/
def validateBatchError (fields : Fields φ) : Option BatchError := do
  let code ← (Dict.get? fields "code").bind strictStr
  let message ← (Dict.get? fields "message").bind strictStr
  some { code, message }

/-- `_to_status_response`. -/
def toStatusResponse (isZero : φ → Bool) (submissionId : String) (raw : Fields φ) :
    Except ApiError (BatchStatusResponse φ) := do
  let progress ← readBlock isZero (validateBatchProgress lax) raw "progress"
  let result ← readResult lax isZero raw
  let error ← readBlock isZero validateBatchError raw "error"
  let status ←
    match (strictStr (valueAt raw "status")).bind BatchStatus.ofText with
    | some status => .ok status
    | none => .error .other
  let estimatedCompletionSeconds ←
    match optionalValue lax.int (Dict.get? raw "estimatedCompletionSeconds") with
    | some n => .ok n
    | none => .error .validationError
  let retryAfterSeconds ←
    match optionalValue lax.int (some ((Dict.get? raw "retryAfterSeconds").getD (.int 10))) with
    | some n => .ok n
    | none => .error .validationError
  .ok
    { submissionId, status, progress, estimatedCompletionSeconds, retryAfterSeconds, result, error }

/-- What a client of the API gets for the status of an instance. An exception of
`_normalize_status` is a 500 that the API does not read. -/
def poll (loads : String → Except LoadsError (Json φ)) (isZero : φ → Bool) (submissionId : String)
    (s : DurableStatus φ) : Except ApiError (BatchStatusResponse φ) :=
  match normalizeStatus loads s with
  | .error _ => .error .other
  | .ok raw => toStatusResponse lax isZero submissionId raw

end Validation

/-! ## 5. What the API reads back -/

/-- The evidence of an entry of `runs`. -/
def RunPayload.evidence (r : RunPayload) : RunEvidence φ where
  runId := r.runId
  runIndex := r.runIndex
  status := r.status
  documentId := some r.documentId
  correlationId := r.correlationId
  traceparent := r.traceparent
  artifacts := r.artifacts.map fun artifacts => artifacts.map ArtifactItem.fields

/-- The outcome of an `aggregated` block. -/
def CvAggregate.outcome (a : CvAggregate φ) : AggregatedOutcome φ where
  finalScore := a.finalScore
  finalDecision := a.finalDecision
  mustHaveResult := some a.mustHaveResult

/-- The result of an entry of `cvs`. -/
def CvBlock.served (b : CvBlock (Option (CvAggregate φ))) : CvResult φ where
  applicationId := b.applicationId
  runs := b.runs.map RunPayload.evidence
  aggregated := b.aggregated.map CvAggregate.outcome
  error := b.error.map runFailed

/-- The progress of a response. -/
def Progress.served (progress : Progress) : BatchProgress φ where
  cvsCompleted := progress.cvsCompleted
  cvsTotal := progress.cvsTotal
  runsCompleted := some progress.runsCompleted
  runsTotal := some progress.runsTotal
  runsDispatched := some progress.runsDispatched
  lastUpdatedAt := some progress.lastUpdatedAt
  applications := some (progress.applications.map Application.fields)

/-- What `encode` writes is not null and is read back as `view`. -/
structure ReadsBack {α β : Type} (read : Json φ → Option β) (encode : α → Json φ) (view : α → β) :
    Prop where
  read_encode : ∀ a, read (encode a) = some (view a)
  ne_null : ∀ a, encode a ≠ .null

namespace ReadsBack

variable {α β : Type} {read : Json φ → Option β} {encode : α → Json φ} {view : α → β}

theorem optionalValue_encode (h : ReadsBack read encode view) (a : α) :
    optionalValue read (some (encode a)) = some (some (view a)) := by
  unfold optionalValue
  split
  · next h' => cases h'
  · next h' => exact absurd (Option.some.inj h') (h.ne_null a)
  · next h' =>
    cases h'
    rw [h.read_encode]
    rfl

/-- A field that is written as null when it is absent. -/
theorem optionalValue_nullable (h : ReadsBack read encode view) (o : Option α) :
    optionalValue read (some (nullable encode o)) = some (o.map view) := by
  cases o with
  | none => rfl
  | some a => exact h.optionalValue_encode a

theorem list (h : ReadsBack read encode view) :
    ReadsBack (strictList read) (fun l : List α => .arr (l.map encode)) (List.map view) where
  read_encode l := by
    show (l.map encode).mapM read = some (l.map view)
    rw [List.mapM_map]
    exact Search.mapM_eq_some_map fun a _ => h.read_encode a
  ne_null _ hnull := by cases hnull

theorem str : ReadsBack (strictStr (φ := φ)) .str id where
  read_encode _ := rfl
  ne_null _ hnull := by cases hnull

/-- Objects are kept as they are. -/
theorem dict (fields : α → Fields φ) : ReadsBack readDict (fun a => .obj (fields a)) fields where
  read_encode _ := rfl
  ne_null _ hnull := by cases hnull

section Lax
variable (lax : LaxMode φ)

theorem float : ReadsBack lax.float .float id where
  read_encode := lax.float_float
  ne_null _ hnull := by cases hnull

theorem bool : ReadsBack lax.bool .bool id where
  read_encode := lax.bool_bool
  ne_null _ hnull := by cases hnull

theorem count : ReadsBack (readCount lax) (fun n : Nat => .int n) Nat.cast where
  read_encode n := by
    unfold readCount
    rw [lax.int_int]
    simp
  ne_null _ hnull := by cases hnull

/-- An entry of `runs` is evidence. -/
theorem runEvidence :
    ReadsBack (validateRunEvidence lax) RunPayload.toJson RunPayload.evidence where
  read_encode r := by
    have hartifacts := (dict (φ := φ) ArtifactItem.fields).list.optionalValue_nullable r.artifacts
    have hcorrelationId := str (φ := φ).optionalValue_nullable r.correlationId
    have htraceparent := str (φ := φ).optionalValue_nullable r.traceparent
    simp [validateRunEvidence, RunPayload.toJson, aliased, Dict.get?, strictStr,
      (count lax).read_encode, str.optionalValue_encode, hcorrelationId, htraceparent, hartifacts]
    rfl
  ne_null _ hnull := by cases hnull

/-- An `aggregated` block is an outcome. -/
theorem aggregatedOutcome :
    ReadsBack (validateAggregatedOutcome lax) CvAggregate.toJson CvAggregate.outcome where
  read_encode a := by
    simp [validateAggregatedOutcome, CvAggregate.toJson, aliased, Dict.get?,
      (float lax).optionalValue_nullable, str.optionalValue_nullable, (bool lax).optionalValue_encode]
    rfl
  ne_null _ hnull := by cases hnull

end Lax

end ReadsBack

namespace PollingLemmas

section Lax
variable (lax : LaxMode φ)

/-- An entry of `cvs` is a result. -/
theorem validateCvResult_fields (b : CvBlock (Option (CvAggregate φ))) :
    validateCvResult lax b.fields = some b.served := by
  simp [validateCvResult, CvBlock.fields, aliased, Dict.get?, strictStr,
    (ReadsBack.runEvidence lax).list.read_encode,
    (ReadsBack.aggregatedOutcome lax).optionalValue_nullable,
    (ReadsBack.dict runFailed).optionalValue_nullable]
  rfl

/-- A progress document is a progress. -/
theorem validateBatchProgress_fields (progress : Progress) :
    validateBatchProgress lax progress.fields = some progress.served := by
  simp [validateBatchProgress, Progress.fields, aliased, Dict.get?,
    (ReadsBack.count lax).read_encode, (ReadsBack.count lax).optionalValue_encode,
    ReadsBack.str.optionalValue_encode,
    (ReadsBack.dict Application.fields).list.optionalValue_encode]
  rfl

/-- The API reads the document of a batch block by block. -/
theorem readCvs_resultDocument (document : List (CvBlock (Option (CvAggregate φ)))) :
    readCvs lax [("cvs", .arr (document.map fun b => .obj b.fields))] =
      .ok (document.map CvBlock.served) := by
  show (document.map fun b => Json.obj b.fields).mapM (readCv lax) = .ok (document.map CvBlock.served)
  rw [List.mapM_map]
  refine Search.mapM_eq_ok_map fun b _ => ?_
  simp only [Function.comp_apply, readCv, validateCvResult_fields]

end Lax

/-- The contract check passes a block exactly when it has a score, and raises 502
otherwise. -/
theorem checkCv_served {b : CvBlock (Option (CvAggregate φ))}
    (hdecision : ∀ a, b.aggregated = some a → a.finalDecision.isSome) :
    (checkCv b.served = .ok () ∧ HasScore b.aggregated) ∨
      (∃ detail, checkCv b.served = .error (.problemDetail 502 "Upstream contract error" detail)) ∧
        ¬ HasScore b.aggregated := by
  cases ha : b.aggregated with
  | none =>
    refine .inr ⟨⟨_, by simp [checkCv, CvBlock.served, ha]; rfl⟩, ?_⟩
    rintro ⟨a, h, -⟩
    cases h
  | some a =>
    obtain ⟨d, hd⟩ := Option.isSome_iff_exists.mp (hdecision a ha)
    cases hs : a.finalScore with
    | none =>
      refine .inr ⟨⟨_, by simp [checkCv, CvBlock.served, CvAggregate.outcome, ha, hs]; rfl⟩, ?_⟩
      rintro ⟨a', h, hscore⟩
      cases h
      rw [hs] at hscore
      cases hscore
    | some x =>
      exact .inl ⟨by simp [checkCv, CvBlock.served, CvAggregate.outcome, ha, hs, hd],
        a, rfl, by rw [hs]; rfl⟩

end PollingLemmas

/-! ## 6. Polling a completed batch -/

/-- A completed instance with the given custom status and output. -/
def completedStatus (progress : Option Progress) (output : Json φ) : DurableStatus φ where
  runtimeStatus := .completed
  customStatus := nullable (fun p => .obj p.fields) progress
  output := output

/-- The output is the document, or a text that is read as the document. -/
def IsOutput (loads : String → Except LoadsError (Json φ)) (output document : Json φ) : Prop :=
  output = document ∨ ∃ text, output = .str text ∧ loads text = .ok document

/-- The answer is a completed status with one result per CV. -/
def ServesCompleted (cvs : List CvRef) (answer : Except ApiError (BatchStatusResponse φ)) : Prop :=
  ∃ response results, answer = .ok response ∧ response.status = .completed ∧
    response.result = some results ∧
    results.map CvResult.applicationId = cvs.map CvRef.applicationId

section Completed
variable {lax : LaxMode φ} {loads : String → Except LoadsError (Json φ)} {isZero : φ → Bool}
variable {document : List (CvBlock (Option (CvAggregate φ)))} {output : Json φ}

open PollingLemmas

theorem normalizeStatus_completed (progress : Option Progress)
    (h : IsOutput loads output (resultDocument document)) :
    normalizeStatus loads (completedStatus progress output) =
      .ok
        [("status", .str "completed"),
          ("progress", nullable (fun p => .obj p.fields) progress),
          ("result", resultDocument document), ("error", .null), ("retryAfterSeconds", .null)] := by
  have hresult : normalizedResult loads (completedStatus progress output) =
      .ok (resultDocument document) := by
    rcases h with rfl | ⟨text, rfl, hloads⟩
    · rfl
    · exact hloads
  unfold normalizeStatus
  rw [hresult]
  cases progress with
  | none => rfl
  | some p => rfl

theorem readBlock_progress {raw : Fields φ} (progress : Option Progress)
    (h : valueAt raw "progress" = nullable (fun p => .obj p.fields) progress) :
    readBlock isZero (validateBatchProgress lax) raw "progress" =
      .ok (progress.map Progress.served) := by
  unfold readBlock
  rw [h]
  cases progress with
  | none => rfl
  | some p =>
    have htruthy : (Json.obj (φ := φ) p.fields).truthy isZero = true := rfl
    simp only [nullable, htruthy, if_true, validateBatchProgress_fields]
    rfl

/-- The contract check on the results decides what is answered. -/
theorem poll_completed (progress : Option Progress) (submissionId : String)
    (h : IsOutput loads output (resultDocument document)) :
    poll lax loads isZero submissionId (completedStatus progress output) =
      match (document.map CvBlock.served).forM checkCv with
      | .error e => .error e
      | .ok _ =>
        .ok
          { submissionId := submissionId
            status := .completed
            progress := progress.map Progress.served
            estimatedCompletionSeconds := none
            retryAfterSeconds := none
            result := some (document.map CvBlock.served)
            error := none } := by
  have hresult : ∀ raw : Fields φ, valueAt raw "result" = resultDocument document →
      valueAt raw "status" = .str "completed" →
      readResult lax isZero raw =
        match (document.map CvBlock.served).forM checkCv with
        | .error e => .error e
        | .ok _ => .ok (some (document.map CvBlock.served)) := by
    intro raw hr hs
    unfold readResult
    rw [hr, hs]
    have htruthy : (resultDocument document).truthy isZero = true := rfl
    simp only [htruthy, if_true]
    show (match readCvs lax [("cvs", .arr (document.map fun b => .obj b.fields))] with
      | .error e => _
      | .ok cvs => _) = _
    rw [readCvs_resultDocument]
  unfold poll
  rw [normalizeStatus_completed progress h]
  simp only [toStatusResponse]
  rw [readBlock_progress progress rfl, hresult _ rfl rfl]
  cases (document.map CvBlock.served).forM checkCv with
  | error e => rfl
  | ok u => rfl

/-- The contract check passes a document exactly when every block has a score, and raises
502 otherwise. -/
theorem checkDocument_cases
    (hdecision : ∀ b ∈ document, ∀ a, b.aggregated = some a → a.finalDecision.isSome) :
    ((document.map CvBlock.served).forM checkCv = .ok () ∧
        ∀ b ∈ document, HasScore b.aggregated) ∨
      (∃ detail, (document.map CvBlock.served).forM checkCv =
          .error (.problemDetail 502 "Upstream contract error" detail)) ∧
        ∃ b ∈ document, ¬ HasScore b.aggregated := by
  rcases Search.forM_ok_or_error checkCv (document.map CvBlock.served) with
    ⟨hok, hall⟩ | ⟨cv, hcv, e, he, hraise⟩
  · refine .inl ⟨hok, fun b hb => ?_⟩
    rcases checkCv_served (hdecision b hb) with ⟨-, hscore⟩ | ⟨⟨detail, hfail⟩, -⟩
    · exact hscore
    · have hpass := hall b.served (List.mem_map_of_mem hb)
      rw [hfail] at hpass
      cases hpass
  · -- the first block that fails the check ends the answer
    obtain ⟨b, hb, rfl⟩ := List.mem_map.mp hcv
    rcases checkCv_served (hdecision b hb) with ⟨hpass, -⟩ | ⟨⟨detail, hfail⟩, hnone⟩
    · rw [hpass] at he
      cases he
    · rw [hfail] at he
      cases he
      exact .inr ⟨⟨detail, hraise⟩, b, hb, hnone⟩

/-- A completed batch can be polled exactly when every application has a run that
succeeded with an output that gives a score. Otherwise the answer is 502. -/
theorem completed_batch_polled_iff {num : Numerics φ} {str : Json φ → String} {order : SetOrder}
    {readObject : String → Option (Fields φ)} {cvs : List CvRef} {runResults : List RunEntry}
    (hdocument : finalizeDocument num str order readObject cvs runResults = .ok document)
    (houtput : IsOutput loads output (resultDocument document)) (progress : Option Progress)
    (submissionId : String) :
    (ServesCompleted cvs (poll lax loads isZero submissionId (completedStatus progress output)) ↔
        ∀ cv ∈ cvs, ScoredApplication num str readObject runResults cv.applicationId) ∧
      (¬ ServesCompleted cvs
          (poll lax loads isZero submissionId (completedStatus progress output)) →
        ∃ detail, poll lax loads isZero submissionId (completedStatus progress output) =
          .error (.problemDetail 502 "Upstream contract error" detail)) := by
  rw [← scored_iff hdocument, poll_completed progress submissionId houtput]
  have hdecision : ∀ b ∈ document, ∀ a, b.aggregated = some a → a.finalDecision.isSome := by
    intro b hb a ha
    obtain ⟨haggregate, -⟩ := block_finalizeDocument hdocument hb
    rw [ha] at haggregate
    exact aggregateRuns_decision haggregate
  rcases Search.forM_ok_or_error checkCv (document.map CvBlock.served) with
    ⟨hok, hall⟩ | ⟨cv, hcv, e, he, hraise⟩
  · -- every block passed the check, so the batch is served
    rw [hok]
    have hids : (document.map CvBlock.served).map CvResult.applicationId =
        cvs.map CvRef.applicationId := by
      rw [List.map_map, ← applicationIds_finalizeDocument hdocument]
      rfl
    have hscored : ∀ b ∈ document, HasScore b.aggregated := by
      intro b hb
      rcases checkCv_served (hdecision b hb) with ⟨-, hscore⟩ | ⟨⟨detail, hfail⟩, -⟩
      · exact hscore
      · have hpass := hall b.served (List.mem_map_of_mem hb)
        rw [hfail] at hpass
        cases hpass
    refine ⟨⟨fun _ => hscored, fun _ => ⟨_, _, rfl, rfl, rfl, hids⟩⟩, fun hn => ?_⟩
    exact absurd ⟨_, _, rfl, rfl, rfl, hids⟩ hn
  · -- the first block that fails the check ends the answer
    obtain ⟨b, hb, rfl⟩ := List.mem_map.mp hcv
    rw [hraise]
    rcases checkCv_served (hdecision b hb) with ⟨hpass, -⟩ | ⟨⟨detail, hfail⟩, hnone⟩
    · rw [hpass] at he
      cases he
    · rw [hfail] at he
      cases he
      refine ⟨⟨?_, fun hall => absurd (hall b hb) hnone⟩, fun _ => ⟨detail, rfl⟩⟩
      rintro ⟨response, results, h, -⟩
      cases h

end Completed

namespace Sample

/-- The result of a run that wrote `output.json`. -/
def scoredResult (runId blobUri : String) : RunResult :=
  { result runId "Succeeded" with artifacts := some [⟨"output.json", blobUri, none, none, none⟩] }

def lax : LaxMode ℚ where
  int | .int i => some i | _ => none
  float | .float x => some x | .int i => some i | _ => none
  bool | .bool b => some b | _ => none
  int_int _ := rfl
  float_float _ := rfl
  bool_bool _ := rfl

/-- The blob of the one output. -/
def readObject (blobUri : String) : Option (Fields ℚ) :=
  if blobUri = "https://awrstore.blob.core.windows.net/runs/app-2/output.json" then
    some [("overall_score", .int 8), ("must_haves", .arr [.obj [("met", .bool true)]])]
  else none

/-- The only run of `app-1` failed, the one of `app-2` succeeded. -/
def mixedEntries : List RunEntry :=
  [⟨result "c055d77e-9f11-5874-aa97-192185e2def4" "Failed", "app-1", 0⟩,
   ⟨scoredResult "0c6c49f9-bfe7-5329-ba7e-8e851db2833e"
      "https://awrstore.blob.core.windows.net/runs/app-2/output.json", "app-2", 0⟩]

/-- The answer for a batch of the given applications with these runs, when the
instance ends with `document` as its output. -/
def answer (document : List (CvBlock (Option (CvAggregate ℚ)))) :
    Except ApiError (BatchStatusResponse ℚ) :=
  poll lax (fun _ => .error .other) numerics.isZero batch1
    (completedStatus none (resultDocument document))

/-- `finalize_batch` on these runs. -/
def finalized (applicationIds : List String) :
    Except AggregateError (List (CvBlock (Option (CvAggregate ℚ)))) :=
  finalizeDocument numerics str setOrder readObject (applicationIds.map cv) mixedEntries

end Sample

/-- The batch whose only application is scored is served. -/
theorem completed_batch_polled_iff_sample :
    ∃ document, Sample.finalized ["app-2"] = .ok document ∧
      ServesCompleted [Sample.cv "app-2"] (Sample.answer document) := by
  have hscored : ∀ cv ∈ ["app-2"].map Sample.cv, ScoredApplication Sample.numerics Sample.str
      Sample.readObject Sample.mixedEntries cv.applicationId := by
    intro cv hcv
    rw [List.mem_singleton.mp hcv]
    refine ⟨_, List.mem_cons_of_mem _ List.mem_cons_self, rfl, rfl, _, rfl, ?_⟩
    exact ⟨⟨some 8, true, "Approve"⟩, rfl, rfl⟩
  obtain ⟨document, hdocument⟩ : ∃ document, Sample.finalized ["app-2"] = .ok document := ⟨_, rfl⟩
  exact ⟨document, hdocument,
    (completed_batch_polled_iff hdocument (.inl rfl) none Sample.batch1).1.mpr hscored⟩

/-- The application whose runs all failed makes the whole batch unreadable, that of
the application that was scored included. -/
theorem failed_application_hides_batch :
    (["app-1", "app-2"].map fun a => (Sample.cv a).applicationId).Nodup ∧
      ∃ document, Sample.finalized ["app-1", "app-2"] = .ok document ∧
        Sample.answer document = .error (.problemDetail 502 "Upstream contract error"
          "Completed result missing aggregated block.") ∧
        ¬ ServesCompleted [Sample.cv "app-1", Sample.cv "app-2"] (Sample.answer document) := by
  refine ⟨by decide, _, rfl, rfl, ?_⟩
  rintro ⟨response, results, h, -⟩
  cases h

end TalentMatch
