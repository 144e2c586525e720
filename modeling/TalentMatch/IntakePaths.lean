import TalentMatch.DlqReplay
import TalentMatch.Intake

/-!
# The two paths of result intake

The engine reports a completion over Service Bus or as an HTTP `PATCH`. Both handlers
of `orchestrator/functions/result_intake` get the same bytes here, with the same
run-index blob and the same marker, and no trace metadata outside the bytes. What
`req.get_json()` returns is a parameter.

Results:
1. `readRunResultMessage_encodes`, `normalize_encodes`: `sb_result_handler` reads an
   object, `http_patch_run` also reads the text of one.
2. `validateRunResultMessage_eq`: the message model accepts what the request model
   accepts, when the correlation id is a text.
3. `intake_paths_agree_iff`: when both paths raise the same event.
-/

namespace TalentMatch

open Json (LoadsError)

variable {φ : Type}

/-! ## 1. The same bytes on both paths -/

section Paths
variable (loads : String → Except LoadsError (Json φ)) (isZero : φ → Bool) (str : Json φ → String)
variable (getJson : ByteArray → Option (Json φ))
variable (lookupBatchId : String → Option String) (claimed : String → Bool)

/-- The event that a handler raises for its delivery: none without a run-index blob, and
none when the marker of the run is there. -/
def raiseOnce (d : Delivery) : Option RaisedEvent :=
  match lookupBatchId d.runId with
  | none => none
  | some batchId =>
    if claimed d.runId then none else some ⟨batchId, eventName d.runId, d.eventPayload⟩

/-- The event that `sb_result_handler` raises for a message with this body. -/
def sbRaised (body : ByteArray) (properties : List (PropertyKey × String)) : Option RaisedEvent :=
  (sbDelivery loads isZero str body properties).bind (raiseOnce lookupBatchId claimed)

/-- The event that `http_patch_run` raises for a request with this body. -/
def httpRaised (routeRunId : String) (headers : List (String × String)) (body : ByteArray) :
    Option RaisedEvent :=
  match httpDelivery loads isZero str routeRunId headers (getJson body) with
  | .error _ => none
  | .ok d => raiseOnce lookupBatchId claimed d

/-- The value is the object, under a number of levels of encoding as a JSON text. -/
inductive Encodes : Nat → Json φ → Fields φ → Prop
  | object (fields : Fields φ) : Encodes 0 (.obj fields) fields
  | text {level : Nat} {text : String} {v : Json φ} {fields : Fields φ} :
      loads text = .ok v → Encodes level v fields → Encodes (level + 1) (.str text) fields

/-- The bytes are JSON, and decode to a completion with a run id and a correlation
id. -/
structure IsCompletion (body : ByteArray) (level : Nat) (fields : Fields φ) (runId : String) :
    Prop where
  decodes : ∃ text v, decodeUtf8 body = some text ∧ loads text = .ok v ∧ Encodes loads level v fields
  runId : Dict.get? (normalizeFields fields) "run_id" = some (.str runId)
  correlationId : (Dict.get? (normalizeFields fields) "correlation_id").isSome

end Paths

/-- Neither the headers nor the application properties carry trace metadata. -/
structure NoOuterTrace (headers : List (String × String)) (properties : List (PropertyKey × String)) :
    Prop where
  headers : ∀ name ∈ ["x-correlation-id", "X-Correlation-Id", "traceparent"],
    Dict.get? headers name = none
  properties : ∀ key ∈ [PropertyKey.text "traceparent", .bytes "traceparent"],
    Dict.get? properties key = none

/-- The field is absent or falsy. -/
def IsFalsy (isZero : φ → Bool) (field : Option (Json φ)) : Prop :=
  ∀ v, field = some v → v.truthy isZero = false

/-- The handlers shape the same payload from a normalised object: its correlation id is a
text, which is not taken from the alias when it is empty; its traceparent is null, and
then not taken from the alias, or a text that is not empty; its artifacts are not an
empty list. -/
structure SamePayload (isZero : φ → Bool) (normalized : Fields φ) : Prop where
  correlationId : ∃ c, Dict.get? normalized "correlation_id" = some (.str c) ∧
    (c = "" → IsFalsy isZero (Dict.get? normalized "correlationId"))
  traceparent : (∃ t, Dict.get? normalized "traceparent" = some (.str t) ∧ t ≠ "") ∨
    (∀ t, Dict.get? normalized "traceparent" ≠ some (.str t)) ∧
      IsFalsy isZero (Dict.get? normalized "traceParent")
  artifacts : Dict.get? normalized "artifacts" ≠ some (.arr [])

/-- The message that says the same as the request. -/
def FinishRunRequest.message (finish : FinishRunRequest) (runId correlationId : String) :
    RunResultMessage where
  runId := runId
  status := finish.status
  durationMs := finish.durationMs
  tokensPrompt := finish.tokensPrompt
  tokensCompletion := finish.tokensCompletion
  errorMessage := finish.errorMessage
  correlationId := correlationId
  traceparent := finish.traceparent
  artifacts := finish.artifacts

namespace IntakePathsLemmas

/-! ## 2. Trace metadata of the body alone -/

section Trace
variable {isZero : φ → Bool} {str : Json φ → String}

theorem firstTruthy_none (rest : List (Option (Json φ))) :
    firstTruthy isZero str (none :: rest) = firstTruthy isZero str rest := rfl

theorem filterMap_some (v : Json φ) (rest : List (Option (Json φ))) :
    (some v :: rest).filterMap id = v :: rest.filterMap id := rfl

theorem firstTruthy_of_falsy {field : Option (Json φ)} (h : IsFalsy isZero field)
    (rest : List (Option (Json φ))) :
    firstTruthy isZero str (field :: rest) = firstTruthy isZero str rest := by
  cases field with
  | none => rfl
  | some v =>
    unfold firstTruthy
    rw [filterMap_some, List.find?_cons_of_neg]
    rw [h v rfl]
    exact Bool.false_ne_true

theorem firstTruthy_text {t : String} (ht : t ≠ "") (rest : List (Option (Json φ))) :
    firstTruthy isZero str (some (.str t) :: rest) = t := by
  unfold firstTruthy
  rw [filterMap_some, List.find?_cons_of_pos]
  simpa [Json.truthy] using ht

/-- The last candidate gives the empty text exactly when it is falsy. -/
theorem firstTruthy_last (hstr : ∀ v : Json φ, v.truthy isZero = true → str v ≠ "")
    (field : Option (Json φ)) :
    firstTruthy isZero str [field] = "" ↔ IsFalsy isZero field := by
  cases field with
  | none => exact ⟨fun _ v hv => (by cases hv), fun _ => rfl⟩
  | some v =>
    constructor
    · rintro h w hw
      cases hw
      by_contra htruthy
      rw [Bool.not_eq_false] at htruthy
      unfold firstTruthy at h
      rw [filterMap_some, List.find?_cons_of_pos htruthy] at h
      cases v with
      | str s =>
        simp only at h
        rw [h] at htruthy
        exact absurd htruthy (by simp [Json.truthy])
      | _ => exact hstr _ htruthy h
    · intro h
      rw [firstTruthy_of_falsy h]
      rfl

theorem isFalsy_empty : IsFalsy isZero (some (Json.str (φ := φ) "")) := by
  rintro v hv
  cases hv
  rfl

theorem isFalsy_null : IsFalsy isZero (some (Json.null (φ := φ))) := by
  rintro v hv
  cases hv
  rfl

variable {headers : List (String × String)} {properties : List (PropertyKey × String)}

/-- What `http_patch_run` takes from the body. -/
theorem extract_http (h : NoOuterTrace headers properties) (normalized : Fields φ) :
    extractTraceMetadata isZero str headers [] normalized =
      (firstTruthy isZero str
          [Dict.get? normalized "correlation_id", Dict.get? normalized "correlationId"],
        firstTruthy isZero str
          [Dict.get? normalized "traceparent", Dict.get? normalized "traceParent"]) := by
  have h₁ := h.headers "x-correlation-id" (by decide)
  have h₂ := h.headers "X-Correlation-Id" (by decide)
  have h₃ := h.headers "traceparent" (by decide)
  unfold extractTraceMetadata
  simp only [h₁, h₂, h₃, Option.map_none, Dict.get?, firstTruthy_none]

/-- `sb_result_handler` keeps the traceparent of the message. -/
theorem traceparent_sb (h : NoOuterTrace headers properties) (result : RunResultMessage) :
    (if (extractTraceMetadata isZero str [] properties result.traceFields).2 = ""
      then result.traceparent
      else some (extractTraceMetadata isZero str [] properties result.traceFields).2) =
      result.traceparent := by
  have h₁ := h.properties (.text "traceparent") (by decide)
  have h₂ := h.properties (.bytes "traceparent") (by decide)
  have hextract : (extractTraceMetadata isZero str [] properties result.traceFields).2 =
      firstTruthy isZero str [some ((result.traceparent.map Json.str).getD .null), none] := by
    unfold extractTraceMetadata RunResultMessage.traceFields
    simp only [h₁, h₂, Option.map_none, Dict.get?, firstTruthy_none]
    rfl
  rw [hextract]
  cases htp : result.traceparent with
  | none => exact if_pos (firstTruthy_of_falsy isFalsy_null _)
  | some t =>
    by_cases ht : t = ""
    · subst ht
      exact if_pos (firstTruthy_of_falsy isFalsy_empty _)
    · simp only [Option.map_some, Option.getD_some, firstTruthy_text ht]
      rw [if_neg ht]

end Trace

/-! ## 3. What the handlers read -/

section Read
variable {loads : String → Except LoadsError (Json φ)}

/-- `sb_result_handler` reads the message only when its body is the object. -/
theorem readRunResultMessage_encodes {body : ByteArray} {text : String} {v : Json φ} {level : Nat}
    {fields : Fields φ} (htext : decodeUtf8 body = some text) (hloads : loads text = .ok v)
    (henc : Encodes loads level v fields) :
    readRunResultMessage loads body =
      if level = 0 then validateRunResultMessage (normalizeFields fields) else none := by
  unfold readRunResultMessage
  rw [htext]
  cases henc with
  | object => simp [normalizeCompletionPayload, hloads, bind, Except.bind]
  | text => simp [normalizeCompletionPayload, hloads, bind, Except.bind]

/-- `http_patch_run` also decodes one level of text. -/
theorem normalize_encodes {v : Json φ} {level : Nat} {fields : Fields φ}
    (henc : Encodes loads level v fields) :
    normalizeCompletionPayload loads (.value v) =
      if level ≤ 1 then .ok (normalizeFields fields)
      else .error (.typeError "completion payload must be a JSON object") := by
  cases henc with
  | object => rfl
  | text hloads henc =>
    cases henc with
    | object => simp [normalizeCompletionPayload, hloads, bind, Except.bind]
    | text => simp [normalizeCompletionPayload, hloads, bind, Except.bind]

end Read

/-! ## 4. Two models of one completion -/

section Models
variable {normalized : Fields φ} {runId : String}

theorem validateRunResultMessage_eq (hrun : Dict.get? normalized "run_id" = some (.str runId))
    {c : String} (hc : Dict.get? normalized "correlation_id" = some (.str c)) :
    validateRunResultMessage normalized =
      (validateFinishRunRequest normalized).map fun finish =>
        FinishRunRequest.message finish runId c := by
  have hreq : requiredField strictStr normalized "correlation_id" = some c := by
    rw [requiredField, hc]
    rfl
  have hopt : optionalField strictStr normalized "correlation_id" = some (some c) := by
    rw [optionalField, hc]
    rfl
  have hid : requiredField strictStr normalized "run_id" = some runId := by
    rw [requiredField, hrun]
    rfl
  simp [validateRunResultMessage, validateFinishRunRequest, hreq, hopt, hid, Option.map_bind,
    FinishRunRequest.message]

/-- The message model needs a correlation id. -/
theorem correlationId_of_message {message : RunResultMessage}
    (h : validateRunResultMessage normalized = some message) :
    Dict.get? normalized "correlation_id" = some (.str message.correlationId) := by
  simp only [validateRunResultMessage, Option.bind_eq_bind, Option.bind_eq_some_iff,
    Option.some.injEq] at h
  obtain ⟨_, -, _, -, _, -, _, -, _, -, _, -, c, hc, _, -, _, -, rfl⟩ := h
  obtain ⟨v, hv, hread⟩ := Option.bind_eq_some_iff.mp hc
  cases v with
  | str s =>
    cases hread
    exact hv
  | _ => cases hread

/-- The traceparent and the artifacts of an accepted request are those of the object. -/
theorem fields_of_finish {finish : FinishRunRequest}
    (h : validateFinishRunRequest normalized = some finish) :
    optionalField strictStr normalized "traceparent" = some finish.traceparent ∧
      optionalField (strictList validateArtifactItem) normalized "artifacts" =
        some finish.artifacts := by
  simp only [validateFinishRunRequest, Option.bind_eq_bind, Option.bind_eq_some_iff,
    Option.some.injEq] at h
  obtain ⟨_, -, _, -, _, -, _, -, _, -, _, -, t, ht, a, ha, rfl⟩ := h
  exact ⟨ht, ha⟩

theorem traceparent_iff {o : Option String}
    (h : optionalField strictStr normalized "traceparent" = some o) (t : String) :
    Dict.get? normalized "traceparent" = some (.str t) ↔ o = some t := by
  unfold optionalField at h
  cases hv : Dict.get? normalized "traceparent" with
  | none =>
    rw [hv] at h
    cases h
    simp
  | some v =>
    rw [hv] at h
    cases v with
    | null =>
      cases h
      simp
    | str s =>
      cases h
      simp
    | _ => cases h

/-- The artifacts of the request are an empty list exactly when those of the object
are. -/
theorem artifacts_iff {o : Option (List ArtifactItem)}
    (h : optionalField (strictList validateArtifactItem) normalized "artifacts" = some o) :
    Dict.get? normalized "artifacts" = some (.arr []) ↔ o = some [] := by
  unfold optionalField at h
  cases hv : Dict.get? normalized "artifacts" with
  | none =>
    rw [hv] at h
    cases h
    simp
  | some v =>
    rw [hv] at h
    cases v with
    | null =>
      cases h
      simp
    | arr items =>
      obtain ⟨l, hl, rfl⟩ := Option.map_eq_some_iff.mp h
      cases items with
      | nil =>
        cases hl
        simp
      | cons a items =>
        have hne : l ≠ [] := by
          rintro rfl
          simp only [strictList, List.mapM_cons, Option.bind_eq_bind, Option.bind_eq_some_iff] at hl
          obtain ⟨_, -, _, -, hcons⟩ := hl
          cases hcons
        simp [hne]
    | _ => cases h

/-! ## 5. One field after the other -/

section Fields
variable {isZero : φ → Bool} {str : Json φ → String}
  (hstr : ∀ v : Json φ, v.truthy isZero = true → str v ≠ "")
include hstr

theorem correlationId_eq_iff {c : String} (field : Option (Json φ)) :
    c = firstTruthy isZero str [some (.str c), field] ↔ (c = "" → IsFalsy isZero field) := by
  by_cases hc : c = ""
  · subst hc
    rw [firstTruthy_of_falsy isFalsy_empty, eq_comm, firstTruthy_last hstr]
    exact ⟨fun h _ => h, fun h => h rfl⟩
  · rw [firstTruthy_text hc]
    exact ⟨fun _ h => absurd h hc, fun _ => rfl⟩

theorem traceparent_eq_iff {o : Option String}
    (h : optionalField strictStr normalized "traceparent" = some o) (field : Option (Json φ)) :
    o = (if firstTruthy isZero str [Dict.get? normalized "traceparent", field] = "" then none
        else some (firstTruthy isZero str [Dict.get? normalized "traceparent", field])) ↔
      (∃ t, Dict.get? normalized "traceparent" = some (.str t) ∧ t ≠ "") ∨
        (∀ t, Dict.get? normalized "traceparent" ≠ some (.str t)) ∧ IsFalsy isZero field := by
  have htext := traceparent_iff h
  cases o with
  | none =>
    -- no traceparent: only the alias can give one
    have hnone : ∀ t, Dict.get? normalized "traceparent" ≠ some (.str t) := by
      intro t ht
      cases (htext t).mp ht
    have hfalsy : IsFalsy isZero (Dict.get? normalized "traceparent") := by
      rintro v hv
      unfold optionalField at h
      rw [hv] at h
      cases v with
      | null => rfl
      | str s => exact absurd hv (hnone s)
      | _ => cases h
    rw [firstTruthy_of_falsy hfalsy, ← firstTruthy_last hstr field]
    constructor
    · intro heq
      refine .inr ⟨hnone, ?_⟩
      by_contra hne
      rw [if_neg hne] at heq
      cases heq
    · rintro (⟨t, ht, -⟩ | ⟨-, heq⟩)
      · exact absurd ht (hnone t)
      · rw [if_pos heq]
  | some t =>
    have ht := (htext t).mpr rfl
    rw [ht]
    by_cases hne : t = ""
    · -- the empty text stays in the message and is dropped from the request
      subst hne
      rw [firstTruthy_of_falsy isFalsy_empty]
      constructor
      · intro heq
        split at heq
        · cases heq
        · next hnot => exact absurd (Option.some.inj heq).symm hnot
      · rintro (⟨t', ht', hne'⟩ | ⟨hnot, -⟩)
        · cases ht'
          exact absurd rfl hne'
        · exact absurd rfl (hnot "")
    · rw [firstTruthy_text hne, if_neg hne]
      exact ⟨fun _ => .inl ⟨t, rfl, hne⟩, fun _ => rfl⟩

omit hstr in
theorem artifacts_eq_iff {o : Option (List ArtifactItem)}
    (h : optionalField (strictList validateArtifactItem) normalized "artifacts" = some o) :
    o = (if o = some [] then none else o) ↔ Dict.get? normalized "artifacts" ≠ some (.arr []) := by
  rw [ne_eq, artifacts_iff h]
  by_cases ho : o = some []
  · rw [if_pos ho, ho]
    simp
  · rw [if_neg ho]
    simp [ho]

variable {headers : List (String × String)} {properties : List (PropertyKey × String)}

variable (runId) in
/-- The payloads of the two deliveries of one normalised object. -/
theorem eventPayload_eq_iff (houter : NoOuterTrace headers properties) {finish : FinishRunRequest}
    (hfinish : validateFinishRunRequest normalized = some finish) {c : String}
    (hc : Dict.get? normalized "correlation_id" = some (.str c)) :
    (Delivery.serviceBus (finish.message runId c)
        (extractTraceMetadata isZero str [] properties (finish.message runId c).traceFields).2).eventPayload =
      (Delivery.http runId finish (extractTraceMetadata isZero str headers [] normalized).1
        (extractTraceMetadata isZero str headers [] normalized).2).eventPayload ↔
      SamePayload isZero normalized := by
  obtain ⟨htraceparent, hartifacts⟩ := fields_of_finish hfinish
  have hfields : SamePayload isZero normalized ↔
      (c = "" → IsFalsy isZero (Dict.get? normalized "correlationId")) ∧
        ((∃ t, Dict.get? normalized "traceparent" = some (.str t) ∧ t ≠ "") ∨
          (∀ t, Dict.get? normalized "traceparent" ≠ some (.str t)) ∧
            IsFalsy isZero (Dict.get? normalized "traceParent")) ∧
        Dict.get? normalized "artifacts" ≠ some (.arr []) := by
    constructor
    · rintro ⟨⟨c', hc', hcorrelation⟩, htrace, hlist⟩
      cases hc.symm.trans hc'
      exact ⟨hcorrelation, htrace, hlist⟩
    · rintro ⟨hcorrelation, htrace, hlist⟩
      exact ⟨⟨c, hc, hcorrelation⟩, htrace, hlist⟩
  rw [hfields, ← correlationId_eq_iff hstr, ← traceparent_eq_iff hstr htraceparent,
    ← artifacts_eq_iff hartifacts, extract_http houter, hc]
  unfold Delivery.eventPayload
  simp only [RunResult.mk.injEq, traceparent_sb houter, Option.some.injEq]
  simp only [FinishRunRequest.message, true_and]

end Fields

end Models

end IntakePathsLemmas

open IntakePathsLemmas

/-! ## 6. When the paths agree -/

section Agreement
variable {loads : String → Except LoadsError (Json φ)} {isZero : φ → Bool} {str : Json φ → String}
variable {getJson : ByteArray → Option (Json φ)}
variable {lookupBatchId : String → Option String} {claimed : String → Bool}
variable {body : ByteArray} {level : Nat} {fields : Fields φ} {runId : String}
variable {headers : List (String × String)} {properties : List (PropertyKey × String)}

/-- A delivery for a run without a run-index blob or with a marker raises nothing. -/
theorem raiseOnce_eq_none {d : Delivery}
    (h : lookupBatchId d.runId = none ∨ claimed d.runId = true) :
    raiseOnce lookupBatchId claimed d = none := by
  unfold raiseOnce
  rcases h with h | h
  · rw [h]
  · split
    · rfl
    · rw [if_pos h]

theorem raiseOnce_eq_some {d : Delivery} {batchId : String}
    (hlookup : lookupBatchId d.runId = some batchId) (hclaimed : claimed d.runId = false) :
    raiseOnce lookupBatchId claimed d = some ⟨batchId, eventName d.runId, d.eventPayload⟩ := by
  unfold raiseOnce
  rw [hlookup, hclaimed]
  rfl

/-- The run that nothing is raised for in this state. -/
def Quiet (lookupBatchId : String → Option String) (claimed : String → Bool) (runId : String) : Prop :=
  lookupBatchId runId = none ∨ claimed runId = true

/-- `sb_result_handler` raises nothing. -/
theorem sbRaised_eq_none (h : IsCompletion loads body level fields runId)
    (hno : level ≠ 0 ∨ (∀ c, Dict.get? (normalizeFields fields) "correlation_id" ≠ some (.str c)) ∨
      validateFinishRunRequest (normalizeFields fields) = none ∨ Quiet lookupBatchId claimed runId) :
    sbRaised loads isZero str lookupBatchId claimed body properties = none := by
  obtain ⟨text, v, htext, hloads, henc⟩ := h.decodes
  unfold sbRaised sbDelivery
  rw [readRunResultMessage_encodes htext hloads henc]
  by_cases hlevel : level = 0
  · rw [if_pos hlevel]
    cases hmessage : validateRunResultMessage (normalizeFields fields) with
    | none => rfl
    | some message =>
      -- an accepted message has its correlation id and is accepted as a request
      have hc := correlationId_of_message hmessage
      have heq := validateRunResultMessage_eq h.runId hc
      rw [hmessage] at heq
      obtain ⟨finish, hfinish, hsame⟩ := Option.map_eq_some_iff.mp heq.symm
      have hrun : message.runId = runId := by
        rw [← hsame]
        rfl
      rcases hno with hno | hno | hno | hno
      · exact absurd hlevel hno
      · exact absurd hc (hno _)
      · rw [hfinish] at hno
        cases hno
      · rw [← hrun] at hno
        exact raiseOnce_eq_none hno
  · rw [if_neg hlevel]
    rfl

/-- `sb_result_handler` raises an event for the message that the object is. -/
theorem sbRaised_eq_some (h : IsCompletion loads body level fields runId) (hlevel : level = 0)
    {c : String} (hc : Dict.get? (normalizeFields fields) "correlation_id" = some (.str c))
    {finish : FinishRunRequest} (hfinish : validateFinishRunRequest (normalizeFields fields) = some finish)
    {batchId : String} (hlookup : lookupBatchId runId = some batchId) (hclaimed : claimed runId = false) :
    sbRaised loads isZero str lookupBatchId claimed body properties =
      some ⟨batchId, eventName runId, (Delivery.serviceBus (finish.message runId c)
        (extractTraceMetadata isZero str [] properties
          (finish.message runId c).traceFields).2).eventPayload⟩ := by
  obtain ⟨text, v, htext, hloads, henc⟩ := h.decodes
  unfold sbRaised sbDelivery
  rw [readRunResultMessage_encodes htext hloads henc, if_pos hlevel,
    validateRunResultMessage_eq h.runId hc, hfinish]
  exact raiseOnce_eq_some (d := .serviceBus (finish.message runId c) _) hlookup hclaimed

section Request
variable (hget : ∀ body text v, decodeUtf8 body = some text → loads text = .ok v →
  getJson body = some v)
include hget

/-- `http_patch_run` raises nothing. -/
theorem httpRaised_eq_none (h : IsCompletion loads body level fields runId)
    (hno : 1 < level ∨ runId = "" ∨ validateFinishRunRequest (normalizeFields fields) = none ∨
      Quiet lookupBatchId claimed runId) :
    httpRaised loads isZero str getJson lookupBatchId claimed runId headers body = none := by
  obtain ⟨text, v, htext, hloads, henc⟩ := h.decodes
  unfold httpRaised httpDelivery
  rw [hget body text v htext hloads]
  by_cases hrun : runId = ""
  · rw [if_pos hrun]
  rw [if_neg hrun]
  simp only [normalize_encodes henc]
  by_cases hlevel : level ≤ 1
  · rw [if_pos hlevel]
    cases hfinish : validateFinishRunRequest (normalizeFields fields) with
    | none => simp only [hfinish]
    | some finish =>
      simp only [hfinish]
      rcases hno with hno | hno | hno | hno
      · omega
      · exact absurd hno hrun
      · rw [hfinish] at hno
        cases hno
      · exact raiseOnce_eq_none hno
  · rw [if_neg hlevel]

/-- `http_patch_run` raises an event for the request that the object is. -/
theorem httpRaised_eq_some (h : IsCompletion loads body level fields runId) (hlevel : level ≤ 1)
    (hrun : runId ≠ "") {finish : FinishRunRequest}
    (hfinish : validateFinishRunRequest (normalizeFields fields) = some finish) {batchId : String}
    (hlookup : lookupBatchId runId = some batchId) (hclaimed : claimed runId = false) :
    httpRaised loads isZero str getJson lookupBatchId claimed runId headers body =
      some ⟨batchId, eventName runId, (Delivery.http runId finish
        (extractTraceMetadata isZero str headers [] (normalizeFields fields)).1
        (extractTraceMetadata isZero str headers [] (normalizeFields fields)).2).eventPayload⟩ := by
  obtain ⟨text, v, htext, hloads, henc⟩ := h.decodes
  unfold httpRaised httpDelivery
  rw [hget body text v htext hloads, if_neg hrun]
  simp only [normalize_encodes henc, if_pos hlevel, hfinish]
  exact raiseOnce_eq_some (d := .http runId finish _ _) hlookup hclaimed

end Request

/-- Both handlers raise the same event, or none, exactly when the completion is under two
levels of text or more, or invalid, or about a run that is unknown or has its marker; or
when it is an object from which both shape the same payload. Under an empty run id the
request is refused, so there the message must not be read or not be accepted. -/
theorem intake_paths_agree_iff
    (hget : ∀ body text v, decodeUtf8 body = some text → loads text = .ok v → getJson body = some v)
    (hstr : ∀ v : Json φ, v.truthy isZero = true → str v ≠ "")
    (houter : NoOuterTrace headers properties) (h : IsCompletion loads body level fields runId) :
    sbRaised loads isZero str lookupBatchId claimed body properties =
        httpRaised loads isZero str getJson lookupBatchId claimed runId headers body ↔
      1 < level ∨ validateFinishRunRequest (normalizeFields fields) = none ∨
        lookupBatchId runId = none ∨ claimed runId = true ∨
        if runId = "" then
          level = 1 ∨ ∀ c, Dict.get? (normalizeFields fields) "correlation_id" ≠ some (.str c)
        else level = 0 ∧ SamePayload isZero (normalizeFields fields) := by
  by_cases hnone : 1 < level ∨ validateFinishRunRequest (normalizeFields fields) = none ∨
      Quiet lookupBatchId claimed runId
  · -- neither raises anything
    have hsb : sbRaised loads isZero str lookupBatchId claimed body properties = none := by
      refine sbRaised_eq_none h ?_
      rcases hnone with hlevel | hrest
      · exact .inl (by omega)
      · exact .inr (.inr hrest)
    have hhttp : httpRaised loads isZero str getJson lookupBatchId claimed runId headers body = none := by
      refine httpRaised_eq_none hget h ?_
      rcases hnone with hlevel | hrest
      · exact .inl hlevel
      · exact .inr (.inr hrest)
    refine ⟨fun _ => ?_, fun _ => hsb.trans hhttp.symm⟩
    rcases hnone with hlevel | hfinish | hlookup | hclaimed
    · exact .inl hlevel
    · exact .inr (.inl hfinish)
    · exact .inr (.inr (.inl hlookup))
    · exact .inr (.inr (.inr (.inl hclaimed)))
  simp only [Quiet, not_or, Nat.not_lt] at hnone
  obtain ⟨hlevel, hfinish, hlookup, hclaimed⟩ := hnone
  obtain ⟨finish, hfinish'⟩ := Option.ne_none_iff_exists'.mp hfinish
  obtain ⟨batchId, hlookup'⟩ := Option.ne_none_iff_exists'.mp hlookup
  have hclaimed' : claimed runId = false := by simpa using hclaimed
  rw [or_iff_right (Nat.not_lt.mpr hlevel), or_iff_right hfinish, or_iff_right hlookup,
    or_iff_right hclaimed]
  by_cases hread : level = 0 ∧ ∃ c, Dict.get? (normalizeFields fields) "correlation_id" = some (.str c)
  · obtain ⟨hzero, c, hc⟩ := hread
    rw [sbRaised_eq_some h hzero hc hfinish' hlookup' hclaimed']
    by_cases hrun : runId = ""
    · -- the request is refused and the message is not
      rw [httpRaised_eq_none hget h (.inr (.inl hrun)), if_pos hrun]
      refine ⟨fun heq => (by cases heq), ?_⟩
      rintro (hone | hnot)
      · omega
      · exact absurd hc (hnot c)
    · rw [httpRaised_eq_some hget h hlevel hrun hfinish' hlookup' hclaimed', if_neg hrun,
        ← eventPayload_eq_iff runId hstr houter hfinish' hc]
      simp only [Option.some.injEq, RaisedEvent.mk.injEq, true_and, hzero]
  · -- the message is not read, or refused
    have hnot : level ≠ 0 ∨ ∀ c, Dict.get? (normalizeFields fields) "correlation_id" ≠ some (.str c) := by
      by_cases hzero : level = 0
      · exact .inr fun c hc => hread ⟨hzero, c, hc⟩
      · exact .inl hzero
    rw [sbRaised_eq_none h (hnot.imp_right .inl)]
    by_cases hrun : runId = ""
    · rw [httpRaised_eq_none hget h (.inr (.inl hrun)), if_pos hrun]
      exact ⟨fun _ => hnot.imp_left fun _ => by omega, fun _ => rfl⟩
    · rw [httpRaised_eq_some hget h hlevel hrun hfinish' hlookup' hclaimed', if_neg hrun]
      refine ⟨fun heq => (by cases heq), ?_⟩
      rintro ⟨hzero, ⟨c, hc, -⟩, -, -⟩
      exact absurd ⟨hzero, c, hc⟩ hread

end Agreement

namespace Sample

/-- A completion of the first run of `app-1` with an empty list of artifacts. -/
def emptyArtifactsText : String :=
  "\x7b\"run_id\": \"c055d77e-9f11-5874-aa97-192185e2def4\", \"status\": \"Succeeded\", " ++
    "\"duration_ms\": 1200, \"tokens_prompt\": 310, \"tokens_completion\": 88, " ++
    "\"correlation_id\": \"corr-1\", \"artifacts\": []\x7d"

/-- What the request says. -/
def emptyArtifacts : FinishRunRequest where
  status := "Succeeded"
  durationMs := 1200
  tokensPrompt := 310
  tokensCompletion := 88
  errorMessage := none
  correlationId := some "corr-1"
  traceparent := none
  artifacts := some []

/-- `req.get_json()` on the bytes of a body. -/
def getJson (body : ByteArray) : Option (Json String) :=
  (decodeUtf8 body).bind fun text =>
    match loads text with
    | .ok v => some v
    | .error _ => none

theorem getJson_spec (body : ByteArray) (text : String) (v : Json String)
    (htext : decodeUtf8 body = some text) (hloads : loads text = .ok v) :
    getJson body = some v := by
  unfold getJson
  rw [htext, Option.bind_some, hloads]

/-- `str`, which is not called on this completion. -/
def anyStr (_ : Json String) : String := "None"

theorem noOuterTrace : NoOuterTrace [] [] where
  headers _ _ := rfl
  properties _ _ := rfl

/-- The text is an object with these fields. -/
theorem emptyArtifacts_fields :
    ∃ fields, loads emptyArtifactsText = .ok (.obj fields) ∧
      Dict.get? (normalizeFields fields) "run_id" =
        some (.str "c055d77e-9f11-5874-aa97-192185e2def4") ∧
      Dict.get? (normalizeFields fields) "correlation_id" = some (.str "corr-1") ∧
      validateFinishRunRequest (normalizeFields fields) = some emptyArtifacts := by
  have hread : ((bodyFields loads emptyArtifactsText.toByteArray).bind fun fields =>
      (validateRunResultMessage (normalizeFields fields)).bind fun result =>
        (validateFinishRunRequest (normalizeFields fields)).map fun finish =>
          (result.runId, result.correlationId, finish)) =
      some ("c055d77e-9f11-5874-aa97-192185e2def4", "corr-1", emptyArtifacts) := by
    obtain ⟨cs, hcs, hchars⟩ : ∃ cs, emptyArtifactsText.toList = cs ∧
        ((bodyFields (fun _ => Json.loadsChars (some (Char.ofNat 0xfffd)) id cs) "".toByteArray).bind fun fields =>
          (validateRunResultMessage (normalizeFields fields)).bind fun result =>
            (validateFinishRunRequest (normalizeFields fields)).map fun finish =>
              (result.runId, result.correlationId, finish)) =
          some ("c055d77e-9f11-5874-aa97-192185e2def4", "corr-1", emptyArtifacts) := by
      apply Exists.intro
      refine And.intro ?_ ?_
      · unfold emptyArtifactsText
        simp only [String.toList_append]
        rewrite [String.toList_ofList, String.toList_ofList, String.toList_ofList]
        rfl
      · decide +kernel
    have hloads : loads emptyArtifactsText = Json.loadsChars (some (Char.ofNat 0xfffd)) id cs := Json.loads_of_toList id hcs
    rw [bodyFields_toByteArray, hloads]
    exact hchars
  obtain ⟨fields, hfields, hrest⟩ := Option.bind_eq_some_iff.mp hread
  obtain ⟨text, htext, hloads⟩ := DlqReplayLemmas.bodyFields_eq_some hfields
  rw [decodeUtf8_toByteArray] at htext
  cases htext
  obtain ⟨result, hresult, hmap⟩ := Option.bind_eq_some_iff.mp hrest
  obtain ⟨finish, hfinish, heq⟩ := Option.map_eq_some_iff.mp hmap
  simp only [Prod.mk.injEq] at heq
  obtain ⟨hrun, hcorrelation, rfl⟩ := heq
  obtain ⟨v, hv, hv'⟩ := Option.bind_eq_some_iff.mp (requiredFields_of_validate hresult).1
  have hc := correlationId_of_message hresult
  rw [hcorrelation] at hc
  refine ⟨fields, hloads, ?_, hc, hfinish⟩
  cases v with
  | str s =>
    cases hv'
    rw [hv, hrun]
  | _ => cases hv'

end Sample

/-- The completion with an empty list of artifacts: over Service Bus the event has the
empty list, over HTTP it has null. -/
theorem empty_artifacts_differ :
    ∃ fields, IsCompletion Sample.loads Sample.emptyArtifactsText.toByteArray 0 fields
        "c055d77e-9f11-5874-aa97-192185e2def4" ∧
      NoOuterTrace [] [] ∧
      ∃ e e', sbRaised Sample.loads Sample.isZero Sample.anyStr Sample.lookupBatchId (fun _ => false)
          Sample.emptyArtifactsText.toByteArray [] = some e ∧
        httpRaised Sample.loads Sample.isZero Sample.anyStr Sample.getJson Sample.lookupBatchId
          (fun _ => false) "c055d77e-9f11-5874-aa97-192185e2def4" []
          Sample.emptyArtifactsText.toByteArray = some e' ∧
        e.payload.artifacts = some [] ∧ e'.payload.artifacts = none ∧ e ≠ e' := by
  obtain ⟨fields, hloads, hrun, hc, hfinish⟩ := Sample.emptyArtifacts_fields
  have h : IsCompletion Sample.loads Sample.emptyArtifactsText.toByteArray 0 fields
      "c055d77e-9f11-5874-aa97-192185e2def4" :=
    ⟨⟨_, _, decodeUtf8_toByteArray _, hloads, .object fields⟩, hrun, by rw [hc]; rfl⟩
  refine ⟨fields, h, Sample.noOuterTrace, _, _, sbRaised_eq_some h rfl hc hfinish rfl rfl,
    httpRaised_eq_some Sample.getJson_spec h (by decide) (by decide) hfinish rfl rfl, rfl, rfl, ?_⟩
  intro heq
  have hartifacts := congrArg (fun e => e.payload.artifacts) heq
  cases hartifacts

/-- The theorem on that completion. -/
theorem intake_paths_agree_iff_sample :
    ∃ fields, IsCompletion Sample.loads Sample.emptyArtifactsText.toByteArray 0 fields
        "c055d77e-9f11-5874-aa97-192185e2def4" ∧
      (sbRaised Sample.loads Sample.isZero Sample.anyStr Sample.lookupBatchId (fun _ => false)
          Sample.emptyArtifactsText.toByteArray [] =
        httpRaised Sample.loads Sample.isZero Sample.anyStr Sample.getJson Sample.lookupBatchId
          (fun _ => false) "c055d77e-9f11-5874-aa97-192185e2def4" []
          Sample.emptyArtifactsText.toByteArray ↔
        1 < 0 ∨ validateFinishRunRequest (normalizeFields fields) = none ∨
          Sample.lookupBatchId "c055d77e-9f11-5874-aa97-192185e2def4" = none ∨ false = true ∨
          if "c055d77e-9f11-5874-aa97-192185e2def4" = "" then
            0 = 1 ∨ ∀ c, Dict.get? (normalizeFields fields) "correlation_id" ≠ some (.str c)
          else 0 = 0 ∧ SamePayload Sample.isZero (normalizeFields fields)) := by
  obtain ⟨fields, hloads, hrun, hc, -⟩ := Sample.emptyArtifacts_fields
  have h : IsCompletion Sample.loads Sample.emptyArtifactsText.toByteArray 0 fields
      "c055d77e-9f11-5874-aa97-192185e2def4" :=
    ⟨⟨_, _, decodeUtf8_toByteArray _, hloads, .object fields⟩, hrun, by rw [hc]; rfl⟩
  have hstr : ∀ v : Json String, v.truthy Sample.isZero = true → Sample.anyStr v ≠ "" :=
    fun _ _ => show "None" ≠ "" by decide
  exact ⟨fields, h, intake_paths_agree_iff Sample.getJson_spec hstr Sample.noOuterTrace h⟩

end TalentMatch
