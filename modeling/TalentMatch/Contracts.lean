import TalentMatch.Lib.Json
import TalentMatch.Payload

/-!
# The wire contracts of a completion

What `result_intake` makes of the bytes or the request it receives:
`normalize_completion_payload` of `orchestrator/engine_contracts.py`, the strict
models of `orchestrator/sb_contracts.py`, `extract_trace_metadata` of
`runtime/events.py` and the payload of the external event. `json.loads` is a
parameter wherever its details do not matter.

Results:
1. `get?_normalized`: normalisation adds fields and never changes one that is
   there.
2. `requiredField_normalized`: a field that a message needs is the field of the
   body whenever the body has it.
3. `runId_of_sbDelivery`, `runId_of_httpDelivery`: which run a delivery is about.
-/

namespace TalentMatch

open Json (LoadsError)

variable {φ : Type}

/-! ## 1. Normalisation -/

/-- The fields of a JSON object. -/
abbrev Fields (φ : Type) := List (String × Json φ)

/-- A completion payload: bytes, or what is already a Python value. -/
inductive CompletionPayload (φ : Type) where
  | bytes (data : ByteArray)
  | value (v : Json φ)

/-- What `normalize_completion_payload` raises. -/
inductive CompletionError where
  | unicodeDecodeError
  | valueError (text : String)
  | typeError (text : String)
  | loadsError
  deriving DecidableEq

/-- `data.decode("utf-8")`. -/
def decodeUtf8 (data : ByteArray) : Option String := String.fromUTF8? data

theorem decodeUtf8_toByteArray (text : String) : decodeUtf8 text.toByteArray = some text := by
  have hvalid : ByteArray.IsValidUTF8 text.toByteArray := text.isValidUTF8
  simp only [decodeUtf8, String.fromUTF8?, hvalid, dif_pos]
  rfl

/-- The aliases that normalisation rewrites, in its order. -/
def completionAliases : List (String × String) :=
  [("runId", "run_id"), ("durationMs", "duration_ms"), ("tokensPrompt", "tokens_prompt"),
    ("tokensCompletion", "tokens_completion"), ("errorMessage", "error_message"),
    ("correlationId", "correlation_id"), ("traceParent", "traceparent")]

/-- One turn of the alias loop. -/
def applyAlias (normalized : Fields φ) (p : String × String) : Fields φ :=
  match Dict.get? normalized p.1 with
  | some v => if (Dict.get? normalized p.2).isSome then normalized else Dict.set normalized p.2 v
  | none => normalized

/-- The alias loop. -/
def normalizeFields (fields : Fields φ) : Fields φ := completionAliases.foldl applyAlias fields

/-- `normalize_completion_payload`. -/
def normalizeCompletionPayload (loads : String → Except LoadsError (Json φ))
    (payload : CompletionPayload φ) : Except CompletionError (Fields φ) := do
  let value : Json φ ←
    match payload with
    | .bytes data =>
      match decodeUtf8 data with
      | some text => .ok (.str text)
      | none => .error .unicodeDecodeError
    | .value v => .ok v
  let value : Json φ ←
    match value with
    | .str text =>
      match loads text with
      | .ok v => .ok v
      | .error .decode => .error (.valueError "completion payload is not valid JSON")
      | .error .other => .error .loadsError
    | v => .ok v
  match value with
  | .obj fields => .ok (normalizeFields fields)
  | _ => .error (.typeError "completion payload must be a JSON object")

theorem get?_applyAlias {fields : Fields φ} {k : String} {v : Json φ}
    (h : Dict.get? fields k = some v) (p : String × String) :
    Dict.get? (applyAlias fields p) k = some v := by
  unfold applyAlias
  split
  · split
    · exact h
    · next hnone =>
      have hne : k ≠ p.2 := by
        rintro rfl
        exact hnone (by rw [h]; rfl)
      rw [Dict.get?_set_of_ne _ _ hne]
      exact h
  · exact h

/-- A field that is there keeps its value. -/
theorem get?_normalized {fields : Fields φ} {k : String} {v : Json φ}
    (h : Dict.get? fields k = some v) : Dict.get? (normalizeFields fields) k = some v := by
  unfold normalizeFields
  generalize completionAliases = aliases
  induction aliases generalizing fields with
  | nil => exact h
  | cons p aliases ih => exact ih (get?_applyAlias h p)

/-! ## 2. Strict validation -/

/-- A strict `str`. -/
def strictStr : Json φ → Option String
  | .str s => some s
  | _ => none

/-- A strict `int`, which a `bool` is not. -/
def strictInt : Json φ → Option Int
  | .int i => some i
  | _ => none

/-- A strict `List[...]`. -/
def strictList {α : Type} (item : Json φ → Option α) : Json φ → Option (List α)
  | .arr items => items.mapM item
  | _ => none

/-- A field without a default. -/
def requiredField {α : Type} (read : Json φ → Option α) (fields : Fields φ) (name : String) :
    Option α :=
  (Dict.get? fields name).bind read

/-- A field `Optional[...] = None`. -/
def optionalField {α : Type} (read : Json φ → Option α) (fields : Fields φ) (name : String) :
    Option (Option α) :=
  match Dict.get? fields name with
  | none => some none
  | some .null => some none
  | some v => (read v).map some

/-- `ArtifactItem.model_validate`. -/
def validateArtifactItem : Json φ → Option ArtifactItem
  | .obj fields => do
    let name ← requiredField strictStr fields "name"
    let blobUri ← requiredField strictStr fields "blob_uri"
    let mime ← optionalField strictStr fields "mime"
    let sizeBytes ← optionalField strictInt fields "size_bytes"
    let sha256 ← optionalField strictStr fields "sha256"
    some { name, blobUri, mime, sizeBytes, sha256 }
  | _ => none

/-- `RunResultMessage`. -/
structure RunResultMessage where
  runId : String
  status : String
  durationMs : Int
  tokensPrompt : Int
  tokensCompletion : Int
  errorMessage : Option String
  correlationId : String
  traceparent : Option String
  artifacts : Option (List ArtifactItem)
  deriving DecidableEq

/-- `RunResultMessage.model_validate`. Fields that the model does not know are
ignored. -/
def validateRunResultMessage (fields : Fields φ) : Option RunResultMessage := do
  let runId ← requiredField strictStr fields "run_id"
  let status ← requiredField strictStr fields "status"
  let durationMs ← requiredField strictInt fields "duration_ms"
  let tokensPrompt ← requiredField strictInt fields "tokens_prompt"
  let tokensCompletion ← requiredField strictInt fields "tokens_completion"
  let errorMessage ← optionalField strictStr fields "error_message"
  let correlationId ← requiredField strictStr fields "correlation_id"
  let traceparent ← optionalField strictStr fields "traceparent"
  let artifacts ← optionalField (strictList validateArtifactItem) fields "artifacts"
  some
    { runId, status, durationMs, tokensPrompt, tokensCompletion, errorMessage, correlationId,
      traceparent, artifacts }

/-- `FinishRunRequest`. -/
structure FinishRunRequest where
  status : String
  durationMs : Int
  tokensPrompt : Int
  tokensCompletion : Int
  errorMessage : Option String
  correlationId : Option String
  traceparent : Option String
  artifacts : Option (List ArtifactItem)
  deriving DecidableEq

/-- `FinishRunRequest.model_validate`. -/
def validateFinishRunRequest (fields : Fields φ) : Option FinishRunRequest := do
  let status ← requiredField strictStr fields "status"
  let durationMs ← requiredField strictInt fields "duration_ms"
  let tokensPrompt ← requiredField strictInt fields "tokens_prompt"
  let tokensCompletion ← requiredField strictInt fields "tokens_completion"
  let errorMessage ← optionalField strictStr fields "error_message"
  let correlationId ← optionalField strictStr fields "correlation_id"
  let traceparent ← optionalField strictStr fields "traceparent"
  let artifacts ← optionalField (strictList validateArtifactItem) fields "artifacts"
  some
    { status, durationMs, tokensPrompt, tokensCompletion, errorMessage, correlationId, traceparent,
      artifacts }

/-- The text fields that an accepted message needs. -/
theorem requiredFields_of_validate {fields : Fields φ} {message : RunResultMessage}
    (h : validateRunResultMessage fields = some message) :
    requiredField strictStr fields "run_id" = some message.runId ∧
      requiredField strictStr fields "status" = some message.status := by
  simp only [validateRunResultMessage, Option.bind_eq_bind, Option.bind_eq_some_iff,
    Option.some.injEq] at h
  obtain ⟨runId, hrun, status, hstatus, -, -, -, -, -, -, -, -, -, -, -, -, -, -, rfl⟩ := h
  exact ⟨hrun, hstatus⟩

/-! ## 3. Trace metadata -/

/-- The key of an application property: a text, or the bytes of one. -/
inductive PropertyKey where
  | text (name : String)
  | bytes (name : String)
  deriving DecidableEq

/-- `a or b or … or ""`, as a text; `str` is Python's for values that are not
texts. -/
def firstTruthy (isZero : φ → Bool) (str : Json φ → String) (candidates : List (Option (Json φ))) :
    String :=
  match (candidates.filterMap id).find? (Json.truthy isZero) with
  | some (.str s) => s
  | some v => str v
  | none => ""

/-- `extract_trace_metadata`. -/
def extractTraceMetadata (isZero : φ → Bool) (str : Json φ → String)
    (headers : List (String × String)) (properties : List (PropertyKey × String))
    (payload : Fields φ) : String × String :=
  let header (name : String) : Option (Json φ) := (Dict.get? headers name).map .str
  let property (key : PropertyKey) : Option (Json φ) := (Dict.get? properties key).map .str
  let correlationId := firstTruthy isZero str
    [header "x-correlation-id", header "X-Correlation-Id", property (.text "correlationId"),
      property (.bytes "correlationId"), Dict.get? payload "correlation_id",
      Dict.get? payload "correlationId"]
  let traceparent := firstTruthy isZero str
    [header "traceparent", property (.text "traceparent"), property (.bytes "traceparent"),
      Dict.get? payload "traceparent", Dict.get? payload "traceParent"]
  (correlationId, traceparent)

/-! ## 4. Deliveries -/

/-- A completion that passed validation, with what intake found out about its
trace. -/
inductive Delivery where
  | serviceBus (result : RunResultMessage) (traceparent : String)
  | http (runId : String) (finish : FinishRunRequest) (correlationId traceparent : String)
  deriving DecidableEq

namespace Delivery

/-- The run that a delivery is about. -/
def runId : Delivery → String
  | .serviceBus result _ => result.runId
  | .http runId _ _ _ => runId

/-- The payload of the external event that intake raises. The handler of the
queue dumps the message, the handler of the request shapes a similar one. -/
def eventPayload : Delivery → RunResult
  | .serviceBus result traceparent =>
    { runId := result.runId
      status := result.status
      durationMs := result.durationMs
      tokensPrompt := result.tokensPrompt
      tokensCompletion := result.tokensCompletion
      errorMessage := result.errorMessage
      correlationId := some result.correlationId
      traceparent := if traceparent = "" then result.traceparent else some traceparent
      artifacts := result.artifacts }
  | .http runId finish correlationId traceparent =>
    { runId := runId
      status := finish.status
      durationMs := finish.durationMs
      tokensPrompt := finish.tokensPrompt
      tokensCompletion := finish.tokensCompletion
      errorMessage := finish.errorMessage
      correlationId := some correlationId
      traceparent := if traceparent = "" then none else some traceparent
      artifacts := if finish.artifacts = some [] then none else finish.artifacts }

@[simp] theorem runId_eventPayload (d : Delivery) : d.eventPayload.runId = d.runId := by
  cases d <;> rfl

end Delivery

section Intake
variable (loads : String → Except LoadsError (Json φ)) (isZero : φ → Bool) (str : Json φ → String)

/-- The first lines of `sb_result_handler`: the body is decoded, normalised and
validated. No value is an exception. -/
def readRunResultMessage (body : ByteArray) : Option RunResultMessage :=
  match decodeUtf8 body with
  | none => none
  | some text =>
    match normalizeCompletionPayload loads (.value (.str text)) with
    | .error _ => none
    | .ok normalized => validateRunResultMessage normalized

/-- `result.model_dump(mode="json")`, as far as the trace metadata go. -/
def RunResultMessage.traceFields (result : RunResultMessage) : Fields φ :=
  [("correlation_id", .str result.correlationId),
    ("traceparent", (result.traceparent.map Json.str).getD .null)]

/-- The delivery that `sb_result_handler` works on. -/
def sbDelivery (body : ByteArray) (properties : List (PropertyKey × String)) : Option Delivery :=
  (readRunResultMessage loads body).map fun result =>
    .serviceBus result (extractTraceMetadata isZero str [] properties result.traceFields).2

/-- The delivery that `http_patch_run` works on. `json` is what `req.get_json()`
returned, or nothing when it raised; the error is how the text of the 400 answer
starts. -/
def httpDelivery (routeRunId : String) (headers : List (String × String)) (json : Option (Json φ)) :
    Except String Delivery :=
  if routeRunId = "" then .error "run_id required"
  else
    match json with
    | none => .error "invalid json"
    | some body =>
      match normalizeCompletionPayload loads (.value body) with
      | .error _ => .error "invalid json"
      | .ok normalized =>
        match validateFinishRunRequest normalized with
        | none => .error "invalid FinishRunRequest: "
        | some finish =>
          let (correlationId, traceparent) := extractTraceMetadata isZero str headers [] normalized
          .ok (.http routeRunId finish correlationId traceparent)

variable {loads}

variable {isZero str}

/-- A Service Bus delivery is about the run that its body names. -/
theorem runId_of_sbDelivery {body : ByteArray} {properties : List (PropertyKey × String)}
    {d : Delivery} (h : sbDelivery loads isZero str body properties = some d) :
    ∃ message, readRunResultMessage loads body = some message ∧ d.runId = message.runId := by
  obtain ⟨message, hread, rfl⟩ := Option.map_eq_some_iff.mp h
  exact ⟨message, hread, rfl⟩

/-- An HTTP delivery is about the run of its route, whatever its body names. -/
theorem runId_of_httpDelivery {routeRunId : String} {headers : List (String × String)}
    {json : Option (Json φ)} {d : Delivery}
    (h : httpDelivery loads isZero str routeRunId headers json = .ok d) :
    d.runId = routeRunId ∧ routeRunId ≠ "" := by
  unfold httpDelivery at h
  split at h
  · cases h
  · next hne =>
    cases json with
    | none => cases h
    | some body =>
      simp only at h
      split at h
      · cases h
      · split at h
        · cases h
        · cases h
          exact ⟨rfl, hne⟩

end Intake

namespace Sample

/-- A completion with the given status. -/
def message (runId status : String) : RunResultMessage where
  runId := runId
  status := status
  durationMs := 1200
  tokensPrompt := 310
  tokensCompletion := 88
  errorMessage := none
  correlationId := "corr-1"
  traceparent := none
  artifacts := none

end Sample

end TalentMatch
