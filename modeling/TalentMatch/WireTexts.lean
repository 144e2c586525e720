import TalentMatch.FakeEngine
import TalentMatch.Intake

/-!
# What the parties write and read

The texts behind the typed values of the platform: the blob `run-index/{run_id}.json`
and `_lookup_batch_id`, the message of `dispatch_run`, and the payload of an external
event with `_coerce_run_result_payload`. Before it writes, `dispatch_run` checks the
digest of the input blob.

Results:
1. `lookupRunIndex_text`: the batch id is read back from the blob.
2. `event_payload_read`: whether an event arrives as a dictionary or as JSON text, the
   orchestrator reads the result that intake raised.
-/

namespace TalentMatch

open Json (LoadsError Layout FloatWriter Keyed KeyedFields)

variable {φ : Type}

/-! ## 1. The run index -/

/-- The blob that `dispatch_run` writes. -/
def RunIndexEntry.fields (e : RunIndexEntry) : Fields φ :=
  [("batchId", .str e.batchId), ("jobId", .str e.jobId), ("runId", .str e.runId),
    ("applicationId", .str e.applicationId), ("documentId", .str e.documentId),
    ("runIndex", .int e.runIndex), ("dispatchedAt", .str e.dispatchedAt)]

def RunIndexEntry.text (repr : φ → String) (e : RunIndexEntry) : String :=
  Json.text .dumps repr (.obj e.fields)

/-- What `_lookup_batch_id` raises, or what fails right after it. -/
inductive LookupError where
  | attributeError
  | loadsError
  | noText
  deriving DecidableEq

/-- `_lookup_batch_id`, from the content of the blob. A batch id that is no text is of no use as
the name of an instance. -/
def lookupRunIndex (loads : String → Except LoadsError (Json φ)) :
    Option String → Except LookupError (Option String)
  | none => .ok none
  | some text =>
    match loads text with
    | .error .decode => .ok none
    | .error .other => .error .loadsError
    | .ok (.obj fields) =>
      match Dict.get? fields "batchId" with
      | none => .ok none
      | some .null => .ok none
      | some (.str batchId) => .ok (some batchId)
      | some _ => .error .noText
    | .ok _ => .error .attributeError

/-! ## 2. The message -/

/-- The message as it is queued. -/
def RunMessage.queued (repr : φ → String) (m : RunMessage) : ServiceBusMessage φ where
  body := m.modelBody.modelDumpJson repr
  messageId := m.messageId
  correlationId := .str m.correlationId
  properties := m.applicationProperties.map fun p => (p.1, .str p.2)

/-- What `_verify_input_blob_sha256` raises. -/
inductive VerifyError where
  | runtimeError (text : String)
  | valueError (text : String)
  deriving DecidableEq

/-- `_verify_input_blob_sha256`. -/
def verifyInputBlobSha256 (readBlob : String → Option ByteArray) (sha256 : ByteArray → String)
    (blobUri expectedSha256 : String) : Except VerifyError Unit :=
  if expectedSha256 = "" then .ok ()
  else
    match readBlob blobUri with
    | none => .error (.runtimeError ("failed to verify input blob sha256 for " ++ blobUri))
    | some data =>
      if PyText.lower (sha256 data) = PyText.lower expectedSha256 then .ok ()
      else .error (.valueError ("sha256 mismatch for " ++ blobUri))

/-! ## 3. The event -/

/-- `result.model_dump(mode="json")`. -/
def RunResultMessage.fields (result : RunResultMessage) : Fields φ :=
  [("run_id", .str result.runId), ("status", .str result.status),
    ("duration_ms", .int result.durationMs), ("tokens_prompt", .int result.tokensPrompt),
    ("tokens_completion", .int result.tokensCompletion),
    ("error_message", nullable .str result.errorMessage),
    ("correlation_id", .str result.correlationId),
    ("traceparent", nullable .str result.traceparent),
    ("artifacts", nullable (fun l => .arr (l.map fun a => .obj a.fields)) result.artifacts)]

/-- The payload that is raised. -/
def Delivery.eventFields : Delivery → Fields φ
  | .serviceBus result traceparent =>
    if traceparent = "" then result.fields else Dict.set result.fields "traceparent" (.str traceparent)
  | .http runId finish correlationId traceparent =>
    [("run_id", .str runId), ("status", .str finish.status),
      ("duration_ms", .int finish.durationMs), ("tokens_prompt", .int finish.tokensPrompt),
      ("tokens_completion", .int finish.tokensCompletion),
      ("error_message", nullable .str finish.errorMessage), ("correlation_id", .str correlationId),
      ("artifacts", nullable (fun l => .arr (l.map fun a => .obj a.fields))
        (if finish.artifacts = some [] then none else finish.artifacts))] ++
      if traceparent = "" then [] else [("traceparent", .str traceparent)]

/-- What `_coerce_run_result_payload` raises. -/
inductive CoerceError where
  | valueError (text : String)
  | typeError (text : String)
  | loadsError
  deriving DecidableEq

/-- `_coerce_run_result_payload`. -/
def coerceRunResultPayload (loads : String → Except LoadsError (Json φ)) :
    Json φ → Except CoerceError (Fields φ)
  | .obj fields => .ok fields
  | .str text =>
    match loads text with
    | .error .decode => .error (.valueError "run result payload is not valid JSON")
    | .error .other => .error .loadsError
    | .ok (.obj fields) => .ok fields
    | .ok _ => .error (.typeError "run result payload must be a dict")
  | _ => .error (.typeError "run result payload must be a dict")

/-- The values that the orchestrator gets from the dictionary. -/
def readRunResult (fields : Fields φ) : Option RunResult := do
  let runId ← requiredField strictStr fields "run_id"
  let status ← requiredField strictStr fields "status"
  let durationMs ← requiredField strictInt fields "duration_ms"
  let tokensPrompt ← requiredField strictInt fields "tokens_prompt"
  let tokensCompletion ← requiredField strictInt fields "tokens_completion"
  let errorMessage ← optionalField strictStr fields "error_message"
  let correlationId ← optionalField strictStr fields "correlation_id"
  let traceparent ← optionalField strictStr fields "traceparent"
  let artifacts ← optionalField (strictList validateArtifactItem) fields "artifacts"
  some
    { runId, status, durationMs, tokensPrompt, tokensCompletion, errorMessage, correlationId,
      traceparent, artifacts }

/-- The payload of an event as it arrives: a dictionary, or the JSON text of one. -/
def Delivery.arrives (layout : Layout) (repr : φ → String) (asText : Bool) (d : Delivery) : Json φ :=
  if asText then .str (Json.text layout repr (.obj d.eventFields)) else .obj d.eventFields

namespace WireTextsLemmas

open EngineContractLemmas

theorem keyed_artifactItem (a : ArtifactItem) : Keyed (φ := φ) (.obj a.fields) :=
  ⟨show ["name", "blob_uri", "mime", "size_bytes", "sha256"].Nodup by decide, trivial, trivial,
    keyed_str _, keyed_int _, keyed_str _, trivial⟩

theorem keyed_artifacts (l : Option (List ArtifactItem)) :
    Keyed (φ := φ) (nullable (fun l => .arr (l.map fun a => .obj a.fields)) l) :=
  keyed_nullable fun _ _ => keyed_arr_map fun a _ => keyed_artifactItem a

theorem keyed_indexEntry (e : RunIndexEntry) : Keyed (φ := φ) (.obj e.fields) :=
  ⟨show ["batchId", "jobId", "runId", "applicationId", "documentId", "runIndex",
    "dispatchedAt"].Nodup by decide, trivial, trivial, trivial, trivial, trivial, trivial, trivial,
    trivial⟩

/-- The batch id is read back from the blob. -/
theorem lookupRunIndex_text {float : String → φ} (writer : FloatWriter float) (e : RunIndexEntry) :
    lookupRunIndex (Json.loads float) (some (e.text writer.repr)) = .ok (some e.batchId) := by
  rw [lookupRunIndex, RunIndexEntry.text, Json.loads_dumps writer .dumps (keyed_indexEntry e)]
  rfl

theorem validateArtifactItem_fields (a : ArtifactItem) :
    validateArtifactItem (φ := φ) (.obj a.fields) = some a := by
  have hmime : optionalField (φ := φ) strictStr a.fields "mime" = some a.mime :=
    optionalField_nullable rfl (fun _ _ => rfl) (fun _ => by simp)
  have hsize : optionalField (φ := φ) strictInt a.fields "size_bytes" = some a.sizeBytes :=
    optionalField_nullable rfl (fun _ _ => rfl) (fun _ => by simp)
  have hsha : optionalField (φ := φ) strictStr a.fields "sha256" = some a.sha256 :=
    optionalField_nullable rfl (fun _ _ => rfl) (fun _ => by simp)
  have hname : requiredField (φ := φ) strictStr a.fields "name" = some a.name := rfl
  have huri : requiredField (φ := φ) strictStr a.fields "blob_uri" = some a.blobUri := rfl
  simp only [validateArtifactItem, hname, huri, hmime, hsize, hsha, Option.bind_eq_bind,
    Option.bind_some]

theorem artifactItem :
    ReadsBack (validateArtifactItem (φ := φ)) (fun a => .obj a.fields) id where
  read_encode := validateArtifactItem_fields
  ne_null _ hnull := by cases hnull

/-- A result is read off a dictionary that has its values. -/
theorem readRunResult_eq {fields : Fields φ} {rr : RunResult}
    (hrun : Dict.get? fields "run_id" = some (.str rr.runId))
    (hstatus : Dict.get? fields "status" = some (.str rr.status))
    (hduration : Dict.get? fields "duration_ms" = some (.int rr.durationMs))
    (hprompt : Dict.get? fields "tokens_prompt" = some (.int rr.tokensPrompt))
    (hcompletion : Dict.get? fields "tokens_completion" = some (.int rr.tokensCompletion))
    (herror : Dict.get? fields "error_message" = some (nullable .str rr.errorMessage))
    (hcorrelation : Dict.get? fields "correlation_id" = some (nullable .str rr.correlationId))
    (htrace : optionalField strictStr fields "traceparent" = some rr.traceparent)
    (hartifacts : Dict.get? fields "artifacts" =
      some (nullable (fun l => .arr (l.map fun a => .obj a.fields)) rr.artifacts)) :
    readRunResult fields = some rr := by
  have hlist : ∀ l : List ArtifactItem,
      strictList validateArtifactItem (.arr (l.map fun a => Json.obj (φ := φ) a.fields)) = some l := by
    intro l
    rw [artifactItem.list.read_encode l, List.map_id]
  have herror' : optionalField strictStr fields "error_message" = some rr.errorMessage :=
    optionalField_nullable herror (fun _ _ => rfl) (fun _ => by simp)
  have hcorrelation' : optionalField strictStr fields "correlation_id" = some rr.correlationId :=
    optionalField_nullable hcorrelation (fun _ _ => rfl) (fun _ => by simp)
  have hartifacts' : optionalField (strictList validateArtifactItem) fields "artifacts" =
      some rr.artifacts := optionalField_nullable hartifacts (fun l _ => hlist l) (fun _ => by simp)
  have hrun' : requiredField strictStr fields "run_id" = some rr.runId := requiredField_eq hrun rfl
  have hstatus' : requiredField strictStr fields "status" = some rr.status :=
    requiredField_eq hstatus rfl
  have hduration' : requiredField strictInt fields "duration_ms" = some rr.durationMs :=
    requiredField_eq hduration rfl
  have hprompt' : requiredField strictInt fields "tokens_prompt" = some rr.tokensPrompt :=
    requiredField_eq hprompt rfl
  have hcompletion' : requiredField strictInt fields "tokens_completion" =
      some rr.tokensCompletion := requiredField_eq hcompletion rfl
  simp only [readRunResult, hrun', hstatus', hduration', hprompt', hcompletion', herror',
    hcorrelation', htrace, hartifacts', Option.bind_eq_bind, Option.bind_some]

/-- The orchestrator reads the result that intake raised. -/
theorem readRunResult_eventFields (d : Delivery) :
    readRunResult (φ := φ) d.eventFields = some d.eventPayload := by
  cases d with
  | serviceBus result traceparent =>
    by_cases htrace : traceparent = ""
    · simp only [Delivery.eventFields, Delivery.eventPayload, htrace, if_true]
      exact readRunResult_eq rfl rfl rfl rfl rfl rfl rfl
        (optionalField_nullable rfl (fun _ _ => rfl) (fun _ => by simp)) rfl
    · simp only [Delivery.eventFields, Delivery.eventPayload, htrace, if_false]
      exact readRunResult_eq rfl rfl rfl rfl rfl rfl rfl rfl rfl
  | http runId finish correlationId traceparent =>
    by_cases htrace : traceparent = ""
    · simp only [Delivery.eventFields, Delivery.eventPayload, htrace, if_true]
      exact readRunResult_eq rfl rfl rfl rfl rfl rfl rfl rfl rfl
    · simp only [Delivery.eventFields, Delivery.eventPayload, htrace, if_false]
      exact readRunResult_eq rfl rfl rfl rfl rfl rfl rfl rfl rfl

theorem keyed_eventFields (d : Delivery) : Keyed (φ := φ) (.obj d.eventFields) := by
  cases d with
  | serviceBus result traceparent =>
    have hkeys : ["run_id", "status", "duration_ms", "tokens_prompt", "tokens_completion",
      "error_message", "correlation_id", "traceparent", "artifacts"].Nodup := by decide
    by_cases htrace : traceparent = ""
    · simp only [Delivery.eventFields, htrace, if_true]
      exact ⟨hkeys, trivial, trivial, trivial, trivial, trivial, keyed_str _, trivial, keyed_str _,
        keyed_artifacts _, trivial⟩
    · simp only [Delivery.eventFields, htrace, if_false]
      exact ⟨hkeys, trivial, trivial, trivial, trivial, trivial, keyed_str _, trivial, trivial,
        keyed_artifacts _, trivial⟩
  | http runId finish correlationId traceparent =>
    by_cases htrace : traceparent = ""
    · simp only [Delivery.eventFields, htrace, if_true]
      exact ⟨show ["run_id", "status", "duration_ms", "tokens_prompt", "tokens_completion",
        "error_message", "correlation_id", "artifacts"].Nodup by decide, trivial, trivial, trivial,
        trivial, trivial, keyed_str _, trivial, keyed_artifacts _, trivial⟩
    · simp only [Delivery.eventFields, htrace, if_false]
      exact ⟨show ["run_id", "status", "duration_ms", "tokens_prompt", "tokens_completion",
        "error_message", "correlation_id", "artifacts", "traceparent"].Nodup by decide, trivial,
        trivial, trivial, trivial, trivial, keyed_str _, trivial, keyed_artifacts _, trivial, trivial⟩

/-- Both ways in which an event arrives give its fields. -/
theorem coerceRunResultPayload_arrives {float : String → φ} (writer : FloatWriter float)
    (layout : Layout) (d : Delivery) (asText : Bool) :
    coerceRunResultPayload (Json.loads float) (d.arrives layout writer.repr asText) =
      .ok d.eventFields := by
  cases asText with
  | false => rfl
  | true =>
    simp only [Delivery.arrives, if_true, coerceRunResultPayload,
      Json.loads_dumps writer layout (keyed_eventFields d)]

end WireTextsLemmas

open WireTextsLemmas

/-- Whether an event arrives as a dictionary or as JSON text, the orchestrator reads the result
that intake raised. -/
theorem event_payload_read {float : String → φ} (writer : FloatWriter float) (layout : Layout)
    (d : Delivery) (asText : Bool) :
    (coerceRunResultPayload (Json.loads float) (d.arrives layout writer.repr asText)).map
      readRunResult = .ok (some d.eventPayload) := by
  rw [coerceRunResultPayload_arrives]
  exact congrArg Except.ok (readRunResult_eventFields d)

end TalentMatch
