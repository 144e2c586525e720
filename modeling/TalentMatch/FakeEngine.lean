import TalentMatch.EngineContract

/-!
# The fake engine

`tools/fake-engine/function_app.py`, a drop-in replacement for the engine: it takes
a message from `engine-runs`, writes an `output.json` and sends a completion to
`engine-results`. The random draws, the clock and the environment of one execution
are inputs.

Results:
1. `fake_engine_drop_in`: what it sends for a valid `RunMessage` is accepted by
   `sb_result_handler`, is about the same run (a new one, when the message names
   none) and carries its correlation id and trace; the output of a run that
   succeeded is read back and gives its score.
2. `outputUrl_injective`: different runs have different outputs.
-/

namespace TalentMatch

open Json (LoadsError Layout FloatWriter Keyed KeyedFields)

variable {φ : Type}

/-! ## 1. Messages on a queue -/

/-- A Service Bus message. The engine's values need not be texts. -/
structure ServiceBusMessage (φ : Type) where
  body : String
  messageId : String
  correlationId : Json φ
  properties : List (String × Json φ)

/-- The application properties that `dispatch_run` and the fake engine set. -/
def traceProperties (correlationId runId : Json φ) (traceparent : String) :
    List (String × Json φ) :=
  [("correlationId", correlationId), ("runId", runId)] ++
    if traceparent = "" then [] else [("traceparent", .str traceparent)]

/-- A value of an application property as a handler gets it; of other values their `str` and
their truth value. -/
inductive PropertyValue where
  | null
  | text (s : String)
  | bytes (data : ByteArray)
  | other (str : String) (truthy : Bool)

/-- `_coerce_str`. -/
def coerceStr : PropertyValue → String
  | .null => ""
  | .text s => s
  | .bytes data => (decodeUtf8 data).getD ""
  | .other s _ => s

def PropertyValue.truthy : PropertyValue → Bool
  | .null => false
  | .text s => s != ""
  | .bytes data => !data.isEmpty
  | .other _ b => b

section Received
variable (isZero : φ → Bool) (str : Json φ → String)

/-- `f"{value}"`. -/
def formatValue : Json φ → String
  | .str s => s
  | v => str v

def propertyValue : Json φ → PropertyValue
  | .null => .null
  | .str s => .text s
  | v => .other (str v) (v.truthy isZero)

/-- The application properties as they are received: with texts, or with the bytes of texts. -/
def ServiceBusMessage.received (asBytes : Bool) (m : ServiceBusMessage φ) :
    List (PropertyKey × PropertyValue) :=
  m.properties.map fun p =>
    if asBytes then (.bytes p.1, .bytes (formatValue str p.2).toByteArray)
    else (.text p.1, propertyValue isZero str p.2)

/-- The same with the texts of the values, which is all that `extract_trace_metadata` uses. -/
def ServiceBusMessage.receivedTexts (asBytes : Bool) (m : ServiceBusMessage φ) :
    List (PropertyKey × String) :=
  m.properties.map fun p =>
    (if asBytes then .bytes p.1 else .text p.1, formatValue str p.2)

end Received

/-! ## 2. One execution -/

/-- The storage account and the container of the outputs. -/
structure FakeSettings where
  blobAccount : String
  container : String
  deriving DecidableEq

/-- What one execution draws and reads off the clocks. -/
structure FakeDraw (φ : Type) where
  transient : Bool
  fail : Bool
  score : φ
  experience : φ
  skills : φ
  education : φ
  minimumExperience : Bool
  requiredSkills : Bool
  generatedAt : String
  durationMs : Int
  newRunId : String
  messageId : String

/-- What `fake_engine_run` raises. -/
inductive FakeError where
  | unicodeDecodeError
  | loadsError
  | attributeError
  | transient
  deriving DecidableEq

/-- What it does: the blob that it writes, by its URL, and the message that it sends. -/
structure FakeOutput (φ : Type) where
  artifact : Option (String × String)
  result : ServiceBusMessage φ

/-- `_build_output`, where `zero` is `0.0`. -/
def buildOutput (zero : φ) (runId : Json φ) (draw : FakeDraw φ) : Fields φ :=
  [("run_id", runId), ("overall_score", .float draw.score),
    ("sub_scores", .obj
      [("experience", .float draw.experience), ("skills", .float draw.skills),
        ("education", .float draw.education)]),
    ("must_haves", .arr
      [.obj [("name", .str "minimum_experience"), ("met", .bool draw.minimumExperience)],
        .obj [("name", .str "required_skills"), ("met", .bool draw.requiredSkills)]]),
    ("variance", .float zero), ("generated_at", .str draw.generatedAt)]

/-- The URL that `_write_output_artifact` writes to. -/
def FakeSettings.outputUrl (settings : FakeSettings) (runId : String) : String :=
  "https://" ++ settings.blobAccount ++ ".blob.core.windows.net/" ++ settings.container ++ "/" ++
    ("engine-outputs/" ++ runId ++ "/output.json")

/-- The entry of `artifacts`. -/
def outputArtifact (url : String) : Json φ :=
  .obj
    [("name", .str "output.json"), ("blob_uri", .str url), ("mime", .str "application/json"),
      ("size_bytes", .null), ("sha256", .null)]

/-- `result_body`. -/
def resultBody (runId correlationId : Json φ) (draw : FakeDraw φ) (artifacts : Json φ) : Fields φ :=
  [("run_id", runId), ("status", .str (if draw.fail then "Failed" else "Succeeded")),
    ("duration_ms", .int draw.durationMs), ("tokens_prompt", .int 0), ("tokens_completion", .int 0),
    ("error_message", if draw.fail then .str "fake-engine synthetic failure" else .null),
    ("correlation_id", correlationId), ("artifacts", artifacts)]

/-- `inbound.get(name) or default`. -/
def getOr (isZero : φ → Bool) (inbound : Fields φ) (name : String) (default : Json φ) : Json φ :=
  let v := valueAt inbound name
  if v.truthy isZero then v else default

/-- `app_props.get("traceparent") or app_props.get(b"traceparent")`. -/
def traceProperty (properties : List (PropertyKey × PropertyValue)) : PropertyValue :=
  let v := (Dict.get? properties (.text "traceparent")).getD .null
  if v.truthy then v else (Dict.get? properties (.bytes "traceparent")).getD .null

section Run
variable (loads : String → Except LoadsError (Json φ)) (isZero : φ → Bool) (str : Json φ → String)
  (repr : φ → String) (zero : φ) (settings : FakeSettings)

/-- What an execution that is not transient does. -/
def fakeOutput (draw : FakeDraw φ) (runId correlationId : Json φ) (traceparent : String) :
    FakeOutput φ :=
  let url := settings.outputUrl (formatValue str runId)
  let artifacts := if draw.fail then .null else .arr [outputArtifact url]
  { artifact :=
      if draw.fail then none
      else some (url, Json.text .dumps repr (.obj (buildOutput zero runId draw)))
    result :=
      { body := Json.text .dumps repr (.obj (resultBody runId correlationId draw artifacts))
        messageId := draw.messageId
        correlationId := correlationId
        properties := traceProperties correlationId runId traceparent } }

/-- `fake_engine_run`. -/
def fakeEngineRun (draw : FakeDraw φ) (body : ByteArray)
    (properties : List (PropertyKey × PropertyValue)) : Except FakeError (FakeOutput φ) :=
  match decodeUtf8 body with
  | none => .error .unicodeDecodeError
  | some text =>
    match loads text with
    | .error _ => .error .loadsError
    | .ok (.obj inbound) =>
      let runId := getOr isZero inbound "run_id" (.str draw.newRunId)
      let correlationId := getOr isZero inbound "correlation_id" (.str "")
      let traceparent := coerceStr (traceProperty properties)
      if draw.transient then .error .transient
      else .ok (fakeOutput str repr zero settings draw runId correlationId traceparent)
    | .ok _ => .error .attributeError

end Run

/-! ## 3. Reading an output -/

/-- `text.lstrip()`. -/
def lstrip (text : String) : String := String.ofList (text.toList.dropWhile PyText.isSpace)

/-- What `_read_output_artifact` makes of the text of a blob: the JSON object that it starts
with, after white space. -/
def readObjectText (float : String → φ) (text : String) : Option (Fields φ) :=
  match Json.rawDecode float (lstrip text) with
  | .ok (.obj fields) => some fields
  | _ => none

/-- And of a blob in the store. -/
def readStored (float : String → φ) (artifacts : String → Option String) (blobUri : String) :
    Option (Fields φ) :=
  (artifacts blobUri).bind (readObjectText float)

/-- The completion of an execution, as `RunResultMessage`. -/
def fakeMessage (settings : FakeSettings) (draw : FakeDraw φ) (runId correlationId : String) :
    RunResultMessage where
  runId := runId
  status := if draw.fail then "Failed" else "Succeeded"
  durationMs := draw.durationMs
  tokensPrompt := 0
  tokensCompletion := 0
  errorMessage := if draw.fail then some "fake-engine synthetic failure" else none
  correlationId := correlationId
  traceparent := none
  artifacts :=
    if draw.fail then none
    else
      some
        [{ name := "output.json"
           blobUri := settings.outputUrl runId
           mime := some "application/json"
           sizeBytes := none
           sha256 := none }]

/-- The body that the fake engine sends. -/
def fakeBody (settings : FakeSettings) (draw : FakeDraw φ) (runId correlationId : String) :
    Fields φ :=
  resultBody (.str runId) (.str correlationId) draw
    (if draw.fail then .null else .arr [outputArtifact (settings.outputUrl runId)])

namespace FakeEngineLemmas

open EngineContractLemmas

/-! ## 4. The completion is accepted -/

/-- The signal of an output. -/
theorem extractCvSignal_buildOutput (num : Numerics φ) (str : Json φ → String) (zero : φ)
    (runId : Json φ) (draw : FakeDraw φ) :
    extractCvSignal num str (buildOutput zero runId draw) =
      .ok (some
        { score := some draw.score
          mustAllMet := draw.minimumExperience && draw.requiredSkills
          decision :=
            if draw.minimumExperience && draw.requiredSkills then "Approve" else "Reject" }) := by
  cases hm : draw.minimumExperience <;> cases hs : draw.requiredSkills <;>
    simp only [buildOutput, hm, hs] <;> rfl

/-- Fields without an alias are left as they are. -/
theorem normalizeFields_of_plain {fields : Fields φ}
    (h : ∀ p ∈ completionAliases, p.1 ∉ Dict.keys fields) : normalizeFields fields = fields := by
  unfold normalizeFields
  generalize completionAliases = aliases at h
  induction aliases with
  | nil => rfl
  | cons p aliases ih =>
    have hnone : Dict.get? fields p.1 = none := by
      cases hget : Dict.get? fields p.1 with
      | none => rfl
      | some v =>
        exact absurd (List.mem_map_of_mem (Dict.mem_of_get? hget)) (h p List.mem_cons_self)
    have hone : applyAlias fields p = fields := by rw [applyAlias, hnone]
    rw [List.foldl_cons, hone]
    exact ih fun q hq => h q (List.mem_cons_of_mem p hq)

/-- The keys of the body. -/
def fakeKeys : List String :=
  ["run_id", "status", "duration_ms", "tokens_prompt", "tokens_completion", "error_message",
    "correlation_id", "artifacts"]

theorem validateArtifactItem_outputArtifact (url : String) :
    validateArtifactItem (φ := φ) (outputArtifact url) =
      some ⟨"output.json", url, some "application/json", none, none⟩ := by
  simp [validateArtifactItem, outputArtifact, requiredField, optionalField, Dict.get?, strictStr]

/-- The body has no alias that normalisation would rewrite. -/
theorem validate_fakeBody (settings : FakeSettings) (draw : FakeDraw φ)
    (runId correlationId : String) :
    validateRunResultMessage (normalizeFields (fakeBody settings draw runId correlationId)) =
      some (fakeMessage settings draw runId correlationId) := by
  have hplain : ∀ p ∈ completionAliases, p.1 ∉ Dict.keys (fakeBody settings draw runId correlationId) :=
    show ∀ p ∈ completionAliases, p.1 ∉ fakeKeys by decide
  rw [normalizeFields_of_plain hplain]
  cases hfail : draw.fail <;>
    simp [validateRunResultMessage, fakeBody, resultBody, fakeMessage, hfail, requiredField,
      optionalField, Dict.get?, strictStr, strictInt, strictList,
      validateArtifactItem_outputArtifact]

theorem keyed_fakeBody (settings : FakeSettings) (draw : FakeDraw φ)
    (runId correlationId : String) : Keyed (.obj (fakeBody settings draw runId correlationId)) := by
  have hkeys : (Dict.keys (fakeBody settings draw runId correlationId)).Nodup :=
    show fakeKeys.Nodup by decide
  have hartifact : ∀ url, Keyed (outputArtifact (φ := φ) url) := fun url =>
    ⟨show ["name", "blob_uri", "mime", "size_bytes", "sha256"].Nodup by decide, trivial, trivial,
      trivial, trivial, trivial, trivial⟩
  refine ⟨hkeys, Json.keyedFields_iff.mpr fun p hp => ?_⟩
  cases hfail : draw.fail
  all_goals
    simp only [fakeBody, resultBody, hfail, List.mem_cons, List.not_mem_nil, or_false] at hp
    rcases hp with rfl | rfl | rfl | rfl | rfl | rfl | rfl | rfl <;> try trivial
  exact ⟨hartifact _, trivial⟩

theorem keyed_buildOutput (zero : φ) (runId : String) (draw : FakeDraw φ) :
    Keyed (.obj (buildOutput zero (.str runId) draw)) := by
  have hkeys : (Dict.keys (buildOutput zero (.str runId) draw)).Nodup :=
    show ["run_id", "overall_score", "sub_scores", "must_haves", "variance",
      "generated_at"].Nodup by decide
  have hscores : (["experience", "skills", "education"] : List String).Nodup := by decide
  have hmust : (["name", "met"] : List String).Nodup := by decide
  exact ⟨hkeys, trivial, trivial, ⟨hscores, trivial, trivial, trivial, trivial⟩,
    ⟨⟨hmust, trivial, trivial, trivial⟩, ⟨hmust, trivial, trivial, trivial⟩, trivial⟩, trivial,
    trivial, trivial⟩

section Read
variable {float : String → φ} (writer : FloatWriter float)

/-- A text that starts with a brace is left as it is by `lstrip`. -/
theorem lstrip_of_brace {text : String} {cs : List Char} (h : text.toList = '{' :: cs) :
    lstrip text = text := by
  rw [lstrip, h, List.dropWhile_cons_of_neg (by decide), ← h, String.ofList_toList]

/-- An output is read back, whatever text follows it. -/
theorem readObjectText_output (layout : Layout) {fields : Fields φ} (h : Keyed (.obj fields))
    (prose : String) :
    readObjectText float (Json.text layout writer.repr (.obj fields) ++ prose) = some fields := by
  have hhead : ∃ cs, (Json.text layout writer.repr (.obj fields) ++ prose).toList = '{' :: cs := by
    rw [String.toList_append, Json.text, String.toList_ofList]
    cases fields with
    | nil => exact ⟨_, rfl⟩
    | cons p fields => exact ⟨_, rfl⟩
  obtain ⟨cs, hcs⟩ := hhead
  rw [readObjectText, lstrip_of_brace hcs, Json.rawDecode_obj writer layout h]

/-- `sb_result_handler` accepts the body. -/
theorem readRunResultMessage_fakeBody (settings : FakeSettings) (draw : FakeDraw φ)
    (runId correlationId : String) :
    readRunResultMessage (Json.loads float)
        (Json.text .dumps writer.repr
          (.obj (fakeBody settings draw runId correlationId))).toByteArray =
      some (fakeMessage settings draw runId correlationId) := by
  rw [readRunResultMessage, decodeUtf8_toByteArray]
  simp only [normalizeCompletionPayload, bind, Except.bind]
  rw [Json.loads_dumps writer _ (keyed_fakeBody settings draw runId correlationId)]
  exact validate_fakeBody settings draw runId correlationId

/-- What a valid `RunMessage` is as JSON. -/
theorem fields_of_modelValidateJson {text : String} {m : RunMessageBody φ}
    (h : modelValidateJson float text = some m) :
    ∃ fields, Json.loads float text = .ok (.obj fields) ∧
      Dict.get? fields "run_id" = some (.str m.runId) ∧
      Dict.get? fields "correlation_id" = some (.str m.correlationId) := by
  have hstr : ∀ {fields : Fields φ} {name value : String},
      requiredField strictStr fields name = some value →
        Dict.get? fields name = some (.str value) := by
    intro fields name value h
    obtain ⟨v, hv, hread⟩ := Option.bind_eq_some_iff.mp h
    cases v with
    | str s =>
      cases hread
      exact hv
    | _ => cases hread
  rw [modelValidateJson] at h
  split at h
  · next v hload =>
    cases v with
    | obj fields =>
      simp only [validateRunMessage, Option.bind_eq_bind, Option.bind_eq_some_iff] at h
      obtain ⟨_, -, runId, hrun, _, -, _, -, correlationId, hcorrelation, _, -, h⟩ := h
      split at h
      · cases h
        exact ⟨fields, Json.loads_of_strictLoads hload, hstr hrun, hstr hcorrelation⟩
      · cases h
    | _ => cases h
  · cases h

end Read

section Trace
variable {isZero : φ → Bool} {str : Json φ → String}

theorem getOr_str {inbound : Fields φ} {name value : String} (default : String)
    (h : Dict.get? inbound name = some (.str value)) :
    getOr isZero inbound name (.str default) = .str (orText value default) := by
  simp only [getOr, valueAt, h, Option.getD_some, Json.truthy, orText]
  split
  · next hne => rw [if_neg (by simpa using hne)]
  · next heq => rw [if_pos (by simpa using heq)]

theorem firstTruthy_of_falsy {candidates : List (Option (Json φ))}
    (h : ∀ v, some v ∈ candidates → v.truthy isZero = false) :
    firstTruthy isZero str candidates = "" := by
  have hnone : (candidates.filterMap id).find? (Json.truthy isZero) = none := by
    refine List.find?_eq_none.mpr fun v hv => ?_
    obtain ⟨o, ho, rfl⟩ := List.mem_filterMap.mp hv
    simpa using h v ho
  rw [firstTruthy, hnone]

theorem firstTruthy_str {s : String} (hs : s ≠ "") (candidates : List (Option (Json φ))) :
    firstTruthy isZero str (some (.str s) :: candidates) = s := by
  have hfind : ((some (Json.str s) :: candidates).filterMap id).find? (Json.truthy isZero) =
      some (.str s) := by
    have htruthy : Json.truthy isZero (.str s) = true := by
      simpa [Json.truthy] using hs
    exact List.find?_cons_of_pos htruthy
  rw [firstTruthy, hfind]

/-- The trace that intake finds in the properties of a message. -/
theorem extractTraceMetadata_properties (asBytes : Bool) {m : ServiceBusMessage φ}
    {correlationId runId : Json φ} {traceparent : String}
    (hm : m.properties = traceProperties correlationId runId traceparent) {payload : Fields φ}
    (hpayload : ∀ name ∈ ["traceparent", "traceParent"],
      ∀ v, Dict.get? payload name = some v → v.truthy isZero = false) :
    (extractTraceMetadata isZero str [] (m.receivedTexts str asBytes) payload).2 = traceparent := by
  have hlast : firstTruthy isZero str [none, none, none, Dict.get? payload "traceparent",
      Dict.get? payload "traceParent"] = "" := by
    refine firstTruthy_of_falsy fun v hv => ?_
    simp only [List.mem_cons, reduceCtorEq, false_or, List.not_mem_nil, or_false] at hv
    rcases hv with hv | hv
    · exact hpayload _ (by simp) v hv.symm
    · exact hpayload _ (by simp) v hv.symm
  by_cases htrace : traceparent = ""
  · subst htrace
    cases asBytes
    · simp only [extractTraceMetadata, ServiceBusMessage.receivedTexts, hm]
      exact hlast
    · simp only [extractTraceMetadata, ServiceBusMessage.receivedTexts, hm]
      exact hlast
  · cases asBytes
    · simp only [extractTraceMetadata, ServiceBusMessage.receivedTexts, hm, traceProperties, htrace,
        if_false]
      exact firstTruthy_str htrace _
    · simp only [extractTraceMetadata, ServiceBusMessage.receivedTexts, hm, traceProperties, htrace,
        if_false]
      exact firstTruthy_str htrace _

/-- The trace that the fake engine finds there. -/
theorem traceProperty_received (asBytes : Bool) {m : ServiceBusMessage φ} {correlationId runId : Json φ}
    {traceparent : String} (hm : m.properties = traceProperties correlationId runId traceparent) :
    coerceStr (traceProperty (m.received isZero str asBytes)) = traceparent := by
  by_cases htrace : traceparent = ""
  · subst htrace
    cases asBytes <;> simp only [ServiceBusMessage.received, hm] <;> rfl
  · cases asBytes
    · simp only [ServiceBusMessage.received, hm, traceProperties, htrace, if_false]
      have htruthy : (PropertyValue.text traceparent).truthy = true := by
        simpa [PropertyValue.truthy] using htrace
      show coerceStr (if (PropertyValue.text traceparent).truthy then .text traceparent else _) = _
      rw [if_pos htruthy]
      rfl
    · simp only [ServiceBusMessage.received, hm, traceProperties, htrace, if_false]
      show (decodeUtf8 traceparent.toByteArray).getD "" = traceparent
      rw [decodeUtf8_toByteArray]
      rfl

end Trace

section Output
variable {float : String → φ} (writer : FloatWriter float) (isZero : φ → Bool)
  (str : Json φ → String) (zero : φ) (settings : FakeSettings) (draw : FakeDraw φ)

/-- Intake makes of the message that is sent the delivery that the draw says. -/
theorem sbDelivery_fakeOutput (runId correlationId traceparent : String) (asBytes : Bool) :
    let out := fakeOutput str writer.repr zero settings draw (.str runId) (.str correlationId)
      traceparent
    sbDelivery (Json.loads float) isZero str out.result.body.toByteArray
        (out.result.receivedTexts str asBytes) =
      some (.serviceBus (fakeMessage settings draw runId correlationId) traceparent) := by
  have hread := readRunResultMessage_fakeBody writer settings draw runId correlationId
  have hplain : ∀ name ∈ ["traceparent", "traceParent"], ∀ v,
      Dict.get? (fakeMessage settings draw runId correlationId).traceFields name = some v →
        Json.truthy isZero v = false := by
    intro name hname v hv
    simp only [List.mem_cons, List.not_mem_nil, or_false] at hname
    rcases hname with rfl | rfl
    · cases hv
      rfl
    · cases hv
  have htrace : (extractTraceMetadata isZero str []
      ((fakeOutput str writer.repr zero settings draw (.str runId) (.str correlationId)
        traceparent).result.receivedTexts str asBytes)
      (fakeMessage settings draw runId correlationId).traceFields).2 = traceparent :=
    extractTraceMetadata_properties asBytes rfl hplain
  show Option.map _ (readRunResultMessage (Json.loads float) _) = _
  rw [show (fakeOutput str writer.repr zero settings draw (.str runId) (.str correlationId)
    traceparent).result.body = Json.text .dumps writer.repr
      (.obj (fakeBody settings draw runId correlationId)) from rfl, hread, Option.map_some, htrace]

/-- The output of a run that did not fail. -/
theorem artifact_fakeOutput (hfail : draw.fail = false) (runId : String) (correlationId : Json φ)
    (traceparent : String) :
    (fakeOutput str writer.repr zero settings draw (.str runId) correlationId traceparent).artifact =
      some (settings.outputUrl runId,
        Json.text .dumps writer.repr (.obj (buildOutput zero (.str runId) draw))) := by
  simp only [fakeOutput, hfail]
  rfl

end Output

theorem orText_empty (s : String) : orText s "" = s := by
  unfold orText
  split
  · next h => exact h.symm
  · rfl

/-- A valid message is executed, unless it is transient. -/
theorem fakeEngineRun_valid {float : String → φ} (num : Numerics φ) (str : Json φ → String)
    (repr : φ → String) (settings : FakeSettings) (draw : FakeDraw φ) {text : String}
    {m : RunMessageBody φ} (hm : modelValidateJson float text = some m)
    (htransient : draw.transient = false) (properties : List (PropertyKey × PropertyValue)) :
    fakeEngineRun (Json.loads float) num.isZero str repr num.zero settings draw text.toByteArray
        properties =
      .ok (fakeOutput str repr num.zero settings draw (.str (orText m.runId draw.newRunId))
        (.str m.correlationId) (coerceStr (traceProperty properties))) := by
  obtain ⟨fields, hload, hrun, hcorrelation⟩ := fields_of_modelValidateJson hm
  rw [fakeEngineRun, decodeUtf8_toByteArray]
  simp only [hload, getOr_str draw.newRunId hrun, getOr_str "" hcorrelation, orText_empty, htransient,
    Bool.false_eq_true, if_false]

end FakeEngineLemmas

open EngineContractLemmas FakeEngineLemmas

/-- What the fake engine sends for a valid message, unless it is transient: intake accepts it as
the completion of the run of the message, or of a new run when that is empty, with its
correlation id and trace. The output of a run that did not fail is where the completion says,
and whatever text is appended to it, it gives the score that was drawn. -/
theorem fake_engine_drop_in {float : String → φ} (writer : FloatWriter float) (num : Numerics φ)
    (str : Json φ → String) (settings : FakeSettings) (draw : FakeDraw φ)
    {text : String} {m : RunMessageBody φ} (hm : modelValidateJson float text = some m)
    (htransient : draw.transient = false) (properties : List (PropertyKey × PropertyValue)) :
    ∃ out, fakeEngineRun (Json.loads float) num.isZero str writer.repr num.zero settings draw
        text.toByteArray properties = .ok out ∧
      (∀ asBytes, sbDelivery (Json.loads float) num.isZero str out.result.body.toByteArray
          (out.result.receivedTexts str asBytes) =
        some (.serviceBus (fakeMessage settings draw (orText m.runId draw.newRunId) m.correlationId)
          (coerceStr (traceProperty properties)))) ∧
      (draw.fail = false → ∃ outputText output,
        out.artifact = some (settings.outputUrl (orText m.runId draw.newRunId), outputText) ∧
        (∀ prose, readObjectText float (outputText ++ prose) = some output) ∧
        ∃ signal, extractCvSignal num str output = .ok (some signal) ∧
          signal.score = some draw.score) := by
  refine ⟨_, fakeEngineRun_valid num str writer.repr settings draw hm htransient properties,
    fun asBytes => ?_, fun hfail => ?_⟩
  · exact sbDelivery_fakeOutput writer num.isZero str num.zero settings draw _ _ _ asBytes
  · refine ⟨_, buildOutput num.zero (.str (orText m.runId draw.newRunId)) draw,
      artifact_fakeOutput writer str num.zero settings draw hfail _ _ _,
      readObjectText_output writer .dumps (keyed_buildOutput num.zero _ draw), _,
      extractCvSignal_buildOutput num str num.zero _ draw, rfl⟩

namespace Sample

/-- Integers in place of floating point numbers. -/
def wholeNumerics : Numerics ℤ where
  zero := 0
  isZero x := x == 0
  ofInt i := some i
  median xs :=
    let sorted := xs.insertionSort (· ≤ ·)
    (sorted.getD ((xs.length - 1) / 2) 0 + sorted.getD (xs.length / 2) 0) / 2
  pvariance xs :=
    let mean := xs.sum / xs.length
    some ((xs.map fun x => (x - mean) ^ 2).sum / xs.length)

def wholeStr : Json ℤ → String
  | .int i => toString i
  | .str s => s
  | _ => ""

/-- The message of a run of the first batch. -/
def engineMessage : RunMessage where
  messageId := "m-1"
  runId := "c055d77e-9f11-5874-aa97-192185e2def4"
  engine := "awreason"
  cvBlobUris := ["https://awrstore.blob.core.windows.net/cvs/app-1.pdf"]
  promptBlobUri := "https://awrstore.blob.core.windows.net/batch-results/prompt.txt"
  correlationId := "corr-1"
  enqueuedAt := "t1"
  applicationProperties := []

def fakeSettings : FakeSettings := ⟨"awrstore", "batch-results"⟩

/-- An execution that succeeds. -/
def fakeDraw : FakeDraw ℤ where
  transient := false
  fail := false
  score := 7
  experience := 8
  skills := 6
  education := 7
  minimumExperience := true
  requiredSkills := true
  generatedAt := "t2"
  durationMs := 120
  newRunId := "00000000-0000-0000-0000-000000000000"
  messageId := "m-2"

end Sample

/-- The theorem on the text of that message. -/
theorem fake_engine_drop_in_sample :
    ∃ out, fakeEngineRun (Json.loads Json.readWhole) Sample.wholeNumerics.isZero Sample.wholeStr
        Json.wholeFloats.repr Sample.wholeNumerics.zero Sample.fakeSettings Sample.fakeDraw
        (Sample.engineMessage.modelBody.modelDumpJson Json.wholeFloats.repr).toByteArray [] =
          .ok out ∧
      out.artifact.isSome := by
  have hm := modelValidateJson_dump Json.wholeFloats (wellFormed_modelBody Sample.engineMessage)
  obtain ⟨out, hout, -, hartifact⟩ := fake_engine_drop_in Json.wholeFloats Sample.wholeNumerics
    Sample.wholeStr Sample.fakeSettings Sample.fakeDraw hm rfl []
  obtain ⟨text, output, htext, -⟩ := hartifact rfl
  exact ⟨out, hout, by rw [htext]; rfl⟩

/-- Different runs have different outputs. -/
theorem outputUrl_injective (settings : FakeSettings) :
    Function.Injective settings.outputUrl := by
  intro r r' h
  have hlist := congrArg String.toList h
  simp only [FakeSettings.outputUrl, String.toList_append] at hlist
  have hrun := List.append_cancel_left hlist
  exact String.toList_inj.mp (List.append_cancel_left (List.append_cancel_right hrun))

end TalentMatch
