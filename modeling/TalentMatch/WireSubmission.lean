import TalentMatch.WireTexts
import TalentMatch.Submissions

/-!
# From a submission to the activities

The texts between `submit_batch` and the activities of the orchestrator: the request
of `start_batch`, the orchestrator input that Durable stores, and the inputs of
`dispatch_run` and `finalize_batch`. `BatchPayload`, `DispatchRunInput` and
`FinalizeBatchInput` of `orchestrator/engine_contracts.py` are validated in lax mode,
of which only an integer read from an integer matters.

Results:
1. `submitted_input_read`: after any sequence of submissions, the orchestrator of
   every instance reads the batch of the first submission that was accepted for it,
   with its trace headers.
2. `activity_inputs_read`: `dispatch_run` and `finalize_batch` read the inputs that the
   orchestrator builds.
-/

namespace TalentMatch

open Json (LoadsError Layout FloatWriter Keyed KeyedFields)

variable {φ : Type}

/-! ## 1. The orchestrator input -/

section Input
variable (lax : LaxMode φ) (isZero : φ → Bool)

/-- An entry of `cvs`, as the dispatch loop and `dispatch_run` need it. -/
def readCvRef : Json φ → Option CvRef
  | .obj fields => do
    let applicationId ← requiredField strictStr fields "applicationId"
    let documentId ← requiredField strictStr fields "documentId"
    let fileName ← requiredField strictStr fields "fileName"
    let mimeType ← requiredField strictStr fields "mimeType"
    let blobUri ← requiredField strictStr fields "blobUri"
    let sha256 ← requiredField strictStr fields "sha256"
    some { applicationId, documentId, fileName, mimeType, blobUri, sha256 }
  | _ => none

/-- `(payload.prompt or {}).get("text", "")`, and `or ""` of `prepare_prompt_blob`. -/
def readPromptText (prompt : Fields φ) : Option String :=
  match Dict.get? prompt "text" with
  | none => some ""
  | some v => if v.truthy isZero then strictStr v else some ""

/-- `raw.get(name) or … or ""`. -/
def readTrace (raw : Fields φ) (names : List String) : Option String :=
  match (names.filterMap (Dict.get? raw)).find? (Json.truthy isZero) with
  | none => some ""
  | some v => strictStr v

/-- What `batch_orchestrator` reads from its input. A value that makes an activity fail is read
as none. -/
def readBatchPayload : Json φ → Option BatchPayload
  | .obj raw => do
    let batchId ← (aliased raw "batchId" "batch_id").bind strictStr
    let jobId ← (aliased raw "jobId" "job_id").bind strictStr
    let promptVersionId ← (aliased raw "promptVersionId" "prompt_version_id").bind strictStr
    let runCount ← (aliased raw "runCount" "run_count").bind lax.int
    let prompt ← (Dict.get? raw "prompt").bind readDict
    let cvs ← (Dict.get? raw "cvs").bind (strictList readCvRef)
    let promptText ← readPromptText isZero prompt
    let correlationId ← readTrace isZero raw ["correlationId", "correlation_id"]
    let traceparent ← readTrace isZero raw ["traceparent"]
    if h : 1 ≤ runCount then
      some
        { batchId, jobId, promptVersionId, promptText, cvs, correlationId, traceparent
          runCount := runCount.toNat
          one_le_runCount := by omega }
    else none
  | _ => none

end Input

/-! ## 2. The inputs of the activities -/

/-- `dispatch_input`. -/
def DispatchRunInput.fields (inp : DispatchRunInput) : Fields φ :=
  [("batch_id", .str inp.batchId), ("job_id", .str inp.jobId), ("run_id", .str inp.runId),
    ("application_id", .str inp.applicationId), ("document_id", .str inp.documentId),
    ("file_name", .str inp.fileName), ("mime_type", .str inp.mimeType),
    ("blob_uri", .str inp.blobUri), ("sha256", .str inp.sha256), ("run_index", .int inp.runIndex),
    ("prompt_blob_uri", .str inp.promptBlobUri), ("correlation_id", .str inp.correlationId),
    ("traceparent", .str inp.traceparent)]

def DispatchRunInput.declared : List String :=
  ["batch_id", "job_id", "run_id", "application_id", "document_id", "file_name", "mime_type",
    "blob_uri", "sha256", "run_index", "prompt_blob_uri", "correlation_id", "traceparent"]

/-- `DispatchRunInput.model_validate`, which takes no other field. -/
def validateDispatchRunInput (lax : LaxMode φ) : Json φ → Option DispatchRunInput
  | .obj fields => do
    let batchId ← requiredField strictStr fields "batch_id"
    let jobId ← requiredField strictStr fields "job_id"
    let runId ← requiredField strictStr fields "run_id"
    let applicationId ← requiredField strictStr fields "application_id"
    let documentId ← requiredField strictStr fields "document_id"
    let fileName ← requiredField strictStr fields "file_name"
    let mimeType ← requiredField strictStr fields "mime_type"
    let blobUri ← requiredField strictStr fields "blob_uri"
    let sha256 ← requiredField strictStr fields "sha256"
    let runIndex ← requiredField (readCount lax) fields "run_index"
    let promptBlobUri ← requiredField strictStr fields "prompt_blob_uri"
    let correlationId ← requiredField strictStr fields "correlation_id"
    let traceparent ← defaultField strictStr "" fields "traceparent"
    if (Dict.remove DispatchRunInput.declared fields).isEmpty then
      some
        { batchId, jobId, runId, applicationId, documentId, fileName, mimeType, blobUri, sha256
          promptBlobUri, correlationId, traceparent
          runIndex := runIndex.toNat }
    else none
  | _ => none

/-- An entry of `run_results`: the dictionary of the event with two more fields. -/
def entryFields (fields : Fields φ) (applicationId : String) (runIndex : Nat) : Fields φ :=
  Dict.set (Dict.set fields "_application_id" (.str applicationId)) "_run_index" (.int runIndex)

/-- The `run_results` that the orchestrator builds from the dictionaries of the events. -/
def runResultsFields (indexMap : List (String × String × Nat)) (events : List (Fields φ)) :
    Option (List (Fields φ)) :=
  events.mapM fun rr => do
    let runId ← requiredField strictStr rr "run_id"
    let entry ← Dict.get? indexMap runId
    some (entryFields rr entry.1 entry.2)

/-- `finalize_input`. -/
def finalizeInputFields (batchId : String) (cvs : List CvRef) (runResults : List (Fields φ)) :
    Fields φ :=
  [("batch_id", .str batchId), ("cvs", .arr (cvs.map fun cv => .obj cv.dump)),
    ("run_results", .arr (runResults.map .obj))]

/-- What `finalize_batch` reads from an entry of `run_results`. -/
def readRunEntry : Json φ → Option RunEntry
  | .obj fields => do
    let result ← readRunResult fields
    let applicationId ← requiredField strictStr fields "_application_id"
    let runIndex ← requiredField strictInt fields "_run_index"
    some { result, applicationId, runIndex := runIndex.toNat }
  | _ => none

/-- `FinalizeBatchInput.model_validate`, which takes no other field, with what `finalize_batch`
reads from the dictionaries in it. -/
def readFinalizeInput : Json φ → Option (String × List CvRef × List RunEntry)
  | .obj fields => do
    let batchId ← requiredField strictStr fields "batch_id"
    let cvs ← requiredField (strictList readCvRef) fields "cvs"
    let runResults ← requiredField (strictList readRunEntry) fields "run_results"
    if (Dict.remove ["batch_id", "cvs", "run_results"] fields).isEmpty then
      some (batchId, cvs, runResults)
    else none
  | _ => none

/-! ## 3. Submissions over texts -/

/-- The body of the request of `start_batch`. -/
def SubmitCall.startBody (call : SubmitCall) : Json φ :=
  .obj [("instance_id", .str call.body.batchId), ("payload", .obj call.body.dump)]

/-- The request as `http_start` gets it, with its body read from the text that was sent. -/
def SubmitCall.received (float : String → φ) (layout : Layout) (repr : φ → String)
    (call : SubmitCall) : HostRequest φ :=
  { call.startRequest (φ := φ) with
    body := (Json.loads float (Json.text layout repr call.startBody)).toOption }

/-- The instances after submissions, one after the other. One whose header is not its `batchId` is
refused by `submit_batch`. -/
def submitAll (env : Env φ) (float : String → φ) (layout : Layout) (repr : φ → String) :
    Instances φ → List SubmitCall → Instances φ
  | instances, [] => instances
  | instances, call :: calls =>
    submitAll env float layout repr
      (if call.idempotencyKey = call.body.batchId then
        (httpStart env instances call.now (call.received float layout repr)).2
      else instances)
      calls

/-- The batch that an orchestrator reads from the text of its input. -/
def DurableInstance.readBatch (env : Env φ) (float : String → φ) (layout : Layout)
    (repr : φ → String) (i : DurableInstance φ) : Option BatchPayload :=
  (Json.loads float (Json.text layout repr i.input)).toOption.bind
    (readBatchPayload env.lax env.isZero)

namespace WireSubmissionLemmas

open EngineContractLemmas WireTextsLemmas SubmissionsLemmas

/-! ## 4. What is read -/

section Read
variable {lax : LaxMode φ} {isZero : φ → Bool}

theorem cvRef : ReadsBack (readCvRef (φ := φ)) (fun cv => .obj cv.dump) id where
  read_encode _ := rfl
  ne_null _ hnull := by cases hnull

theorem readCvs_dump (cvs : List CvRef) :
    strictList readCvRef (.arr (cvs.map fun cv => Json.obj (φ := φ) cv.dump)) = some cvs :=
  (cvRef.list.read_encode cvs).trans (by rw [List.map_id])

theorem keyed_cvRef (cv : CvRef) : Keyed (φ := φ) (.obj cv.dump) :=
  ⟨show ["applicationId", "documentId", "fileName", "mimeType", "blobUri", "sha256"].Nodup by
    decide, trivial, trivial, trivial, trivial, trivial, trivial, trivial⟩

theorem keyed_cvs (cvs : List CvRef) :
    Keyed (φ := φ) (.arr (cvs.map fun cv => .obj cv.dump)) :=
  keyed_arr_map fun cv _ => keyed_cvRef cv

/-- The headers that are merged into a payload. -/
theorem mergeTrace_dump (request : BatchSubmitRequest) (correlationId traceparent : String) :
    mergeTrace correlationId traceparent (.obj request.dump : Json φ) =
      .obj (request.dump ++
        ((if correlationId = "" then [] else [("correlationId", .str correlationId)]) ++
          if traceparent = "" then [] else [("traceparent", .str traceparent)])) := by
  unfold mergeTrace
  by_cases hc : correlationId = "" <;> by_cases ht : traceparent = ""
  all_goals
    simp only [hc, ht, if_true, if_false]
    rfl

theorem readTrace_of_none {raw : Fields φ} {names : List String}
    (h : ∀ name ∈ names, Dict.get? raw name = none) : readTrace isZero raw names = some "" := by
  have hnone : names.filterMap (Dict.get? raw) = [] := List.filterMap_eq_nil_iff.mpr h
  rw [readTrace, hnone]
  rfl

theorem readTrace_str {raw : Fields φ} {name text : String} (names : List String)
    (h : Dict.get? raw name = some (.str text)) (hne : text ≠ "") :
    readTrace isZero raw (name :: names) = some text := by
  have htruthy : Json.truthy isZero (.str text) = true := by
    simpa [Json.truthy] using hne
  rw [readTrace, List.filterMap_cons_some h, List.find?_cons_of_pos htruthy]
  rfl

theorem readTrace_correlationId (request : BatchSubmitRequest) (correlationId traceparent : String)
    (rest : Fields φ)
    (hrest : rest = if traceparent = "" then [] else [("traceparent", .str traceparent)]) :
    readTrace isZero (request.dump ++
      ((if correlationId = "" then [] else [("correlationId", .str correlationId)]) ++ rest))
        ["correlationId", "correlation_id"] = some correlationId := by
  by_cases hc : correlationId = ""
  · rw [if_pos hc, hc]
    refine readTrace_of_none fun name hname => ?_
    simp only [List.mem_cons, List.not_mem_nil, or_false] at hname
    rw [hrest]
    by_cases ht : traceparent = ""
    · rcases hname with rfl | rfl <;> rw [if_pos ht] <;> rfl
    · rcases hname with rfl | rfl <;> rw [if_neg ht] <;> rfl
  · rw [if_neg hc]
    exact readTrace_str _ rfl hc

theorem readTrace_traceparent (request : BatchSubmitRequest) (correlationId traceparent : String) :
    readTrace isZero (request.dump ++
      ((if correlationId = "" then [] else [("correlationId", .str correlationId)]) ++
        if traceparent = "" then [] else [("traceparent", Json.str (φ := φ) traceparent)]))
        ["traceparent"] = some traceparent := by
  have hget : ∀ rest : Fields φ, Dict.get? (request.dump ++
      ((if correlationId = "" then [] else [("correlationId", .str correlationId)]) ++ rest))
        "traceparent" = Dict.get? rest "traceparent" := by
    intro rest
    by_cases hc : correlationId = ""
    · rw [if_pos hc]
      rfl
    · rw [if_neg hc]
      rfl
  by_cases ht : traceparent = ""
  · rw [if_pos ht, ht]
    refine readTrace_of_none fun name hname => ?_
    rw [List.mem_singleton.mp hname]
    exact hget []
  · rw [if_neg ht]
    exact readTrace_str _ (hget _) ht

/-- The orchestrator reads the batch from the input that `http_start` builds. -/
theorem readBatchPayload_mergeTrace (request : BatchSubmitRequest)
    (correlationId traceparent : String) :
    readBatchPayload lax isZero
        (mergeTrace correlationId traceparent (.obj request.dump : Json φ)) =
      some (request.payload correlationId traceparent) := by
  rw [mergeTrace_dump]
  simp only [readBatchPayload, readTrace_correlationId request correlationId traceparent _ rfl,
    readTrace_traceparent request correlationId traceparent]
  generalize ((if correlationId = "" then [] else [("correlationId", Json.str (φ := φ) correlationId)])
    ++ if traceparent = "" then [] else [("traceparent", Json.str (φ := φ) traceparent)]) = rest
  have hcount : ((aliased (request.dump ++ rest) "runCount" "run_count").bind lax.int) =
      some (request.runCount : Int) := lax.int_int _
  have hcvs : ((Dict.get? (request.dump ++ rest) "cvs").bind (strictList readCvRef)) =
      some request.cvs := readCvs_dump request.cvs
  have htext : ∀ wireName name value, aliased (request.dump ++ rest) wireName name = some (.str value) →
      (aliased (request.dump ++ rest) wireName name).bind strictStr = some value := by
    intro wireName name value h
    rw [h]
    rfl
  have hprompt : ((Dict.get? (request.dump ++ rest) "prompt").bind readDict) =
      some [("kind", .str "inline"), ("text", .str request.promptText)] := rfl
  have htextTruthy : Json.truthy isZero (.str request.promptText) = true := by
    have hne : request.promptText ≠ "" := fun h => absurd request.length_promptText (by rw [h]; decide)
    simpa [Json.truthy] using hne
  have hpromptText : readPromptText isZero
      [("kind", .str "inline"), ("text", .str request.promptText)] = some request.promptText :=
    if_pos htextTruthy
  have hone : (1 : Int) ≤ request.runCount := by exact_mod_cast request.runCount_range.1
  simp only [htext "batchId" "batch_id" _ rfl, htext "jobId" "job_id" _ rfl,
    htext "promptVersionId" "prompt_version_id" _ rfl, hcount, hprompt, hcvs, hpromptText,
    Option.bind_eq_bind, Option.bind_some, dif_pos hone]
  rfl

end Read

theorem keyed_mergeTrace (request : BatchSubmitRequest) (correlationId traceparent : String) :
    Keyed (mergeTrace correlationId traceparent (.obj request.dump : Json φ)) := by
  rw [mergeTrace_dump]
  have hprompt : (["kind", "text"] : List String).Nodup := by decide
  by_cases hc : correlationId = "" <;> by_cases ht : traceparent = ""
  all_goals
    simp only [hc, ht, if_true, if_false]
    refine ⟨?_, trivial, trivial, trivial, trivial, ⟨hprompt, trivial, trivial, trivial⟩,
      keyed_cvs _, keyed_str _, ?_⟩
  · exact show ["batchId", "jobId", "promptVersionId", "runCount", "prompt", "cvs",
      "callbackUrl"].Nodup by decide
  · trivial
  · exact show ["batchId", "jobId", "promptVersionId", "runCount", "prompt", "cvs",
      "callbackUrl", "traceparent"].Nodup by decide
  · exact ⟨trivial, trivial⟩
  · exact show ["batchId", "jobId", "promptVersionId", "runCount", "prompt", "cvs",
      "callbackUrl", "correlationId"].Nodup by decide
  · exact ⟨trivial, trivial⟩
  · exact show ["batchId", "jobId", "promptVersionId", "runCount", "prompt", "cvs",
      "callbackUrl", "correlationId", "traceparent"].Nodup by decide
  · exact ⟨trivial, trivial, trivial⟩

theorem keyed_startBody (call : SubmitCall) : Keyed (φ := φ) call.startBody := by
  have hdump : Keyed (.obj call.body.dump : Json φ) := keyed_mergeTrace call.body "" ""
  exact ⟨show ["instance_id", "payload"].Nodup by decide, trivial, hdump, trivial⟩

/-! ## 5. What the activities read -/

theorem readCount_nat (lax : LaxMode φ) (n : Nat) : readCount lax (.int n) = some (n : Int) := by
  rw [readCount, lax.int_int]
  exact Option.filter_some_pos (by simp)

/-- `dispatch_run` reads the input that the orchestrator built. -/
theorem validateDispatchRunInput_fields (lax : LaxMode φ) (inp : DispatchRunInput) :
    validateDispatchRunInput lax (.obj inp.fields) = some inp := by
  have htext : ∀ name text, Dict.get? (inp.fields (φ := φ)) name = some (.str text) →
      requiredField strictStr inp.fields name = some text :=
    fun name text h => requiredField_eq h rfl
  have hindex : requiredField (readCount lax) inp.fields "run_index" = some (inp.runIndex : Int) :=
    readCount_nat lax inp.runIndex
  have htrace : defaultField strictStr "" (inp.fields (φ := φ)) "traceparent" =
      some inp.traceparent := rfl
  have hempty : (Dict.remove DispatchRunInput.declared (inp.fields (φ := φ))).isEmpty = true := rfl
  simp only [validateDispatchRunInput, htext "batch_id" _ rfl, htext "job_id" _ rfl,
    htext "run_id" _ rfl, htext "application_id" _ rfl, htext "document_id" _ rfl,
    htext "file_name" _ rfl, htext "mime_type" _ rfl, htext "blob_uri" _ rfl,
    htext "sha256" _ rfl, hindex, htext "prompt_blob_uri" _ rfl, htext "correlation_id" _ rfl,
    htrace, hempty, Option.bind_eq_bind, Option.bind_some, if_true, Int.toNat_natCast]

theorem keyed_dispatchFields (inp : DispatchRunInput) : Keyed (φ := φ) (.obj inp.fields) :=
  ⟨show DispatchRunInput.declared.Nodup by decide, trivial, trivial, trivial, trivial, trivial,
    trivial, trivial, trivial, trivial, trivial, trivial, trivial, trivial, trivial⟩

theorem keyed_set {fields : Fields φ} (h : Keyed (.obj fields)) (name : String) {v : Json φ}
    (hv : Keyed v) : Keyed (.obj (Dict.set fields name v)) := by
  refine ⟨Dict.nodup_keys_set h.1 name v, Json.keyedFields_iff.mpr fun p hp => ?_⟩
  obtain hmem | ⟨-, heq⟩ := Dict.mem_set hp
  · exact Json.keyedFields_iff.mp h.2 p hmem
  · exact heq ▸ hv

section Entries
variable (fields : Fields φ) (applicationId : String) (runIndex : Nat)

theorem get?_entryFields {name : String} (happ : name ≠ "_application_id")
    (hindex : name ≠ "_run_index") :
    Dict.get? (entryFields fields applicationId runIndex) name = Dict.get? fields name := by
  rw [entryFields, Dict.get?_set_of_ne _ _ hindex, Dict.get?_set_of_ne _ _ happ]

/-- The two added fields do not change the result. -/
theorem readRunResult_entryFields :
    readRunResult (entryFields fields applicationId runIndex) = readRunResult fields := by
  have hget : ∀ name, name ≠ "_application_id" → name ≠ "_run_index" →
      Dict.get? (entryFields fields applicationId runIndex) name = Dict.get? fields name :=
    fun _ => get?_entryFields fields applicationId runIndex
  simp only [readRunResult, requiredField, optionalField, hget "run_id" (by decide) (by decide),
    hget "status" (by decide) (by decide), hget "duration_ms" (by decide) (by decide),
    hget "tokens_prompt" (by decide) (by decide), hget "tokens_completion" (by decide) (by decide),
    hget "error_message" (by decide) (by decide), hget "correlation_id" (by decide) (by decide),
    hget "traceparent" (by decide) (by decide), hget "artifacts" (by decide) (by decide)]

theorem readRunEntry_entryFields {result : RunResult} (h : readRunResult fields = some result) :
    readRunEntry (.obj (entryFields fields applicationId runIndex)) =
      some ⟨result, applicationId, runIndex⟩ := by
  have happ : requiredField strictStr (entryFields fields applicationId runIndex)
      "_application_id" = some applicationId := by
    rw [requiredField, entryFields, Dict.get?_set_of_ne _ _ (by decide), Dict.get?_set_self]
    rfl
  have hindex : requiredField strictInt (entryFields fields applicationId runIndex)
      "_run_index" = some (runIndex : Int) := by
    rw [requiredField, entryFields, Dict.get?_set_self]
    rfl
  simp only [readRunEntry, readRunResult_entryFields, h, happ, hindex, Option.bind_eq_bind,
    Option.bind_some, Int.toNat_natCast]

theorem keyed_entryFields (h : Keyed (.obj fields)) :
    Keyed (.obj (entryFields fields applicationId runIndex)) :=
  keyed_set (keyed_set h "_application_id" (v := .str applicationId) trivial) "_run_index"
    (v := .int runIndex) trivial

end Entries

/-- The entries of `run_index_map` for the events, in their order. -/
def matchEvents (indexMap : List (String × String × Nat)) (deliveries : List Delivery) :
    Option (List (Delivery × String × Nat)) :=
  deliveries.mapM fun d => (Dict.get? indexMap d.eventPayload.runId).map fun entry => (d, entry)

theorem runResultsFields_eq (indexMap : List (String × String × Nat))
    (deliveries : List Delivery) :
    runResultsFields indexMap (deliveries.map (Delivery.eventFields (φ := φ))) =
      (matchEvents indexMap deliveries).map
        (List.map fun p => entryFields p.1.eventFields p.2.1 p.2.2) := by
  rw [runResultsFields, List.mapM_map, matchEvents, ← Search.mapM_map_some]
  refine congrArg (fun f => List.mapM f deliveries) (funext fun d => ?_)
  have hrun : requiredField strictStr (d.eventFields (φ := φ)) "run_id" =
      some d.eventPayload.runId := by
    cases d with
    | serviceBus result traceparent =>
      by_cases htrace : traceparent = ""
      · simp only [Delivery.eventFields, Delivery.eventPayload, htrace, if_true]
        rfl
      · simp only [Delivery.eventFields, Delivery.eventPayload, htrace, if_false]
        rfl
    | http => rfl
  show (requiredField strictStr d.eventFields "run_id").bind _ = _
  rw [hrun]
  show (Dict.get? indexMap d.eventPayload.runId).bind _ = _
  cases Dict.get? indexMap d.eventPayload.runId <;> rfl

theorem finalizeInput_matchEvents (uuid5 : String → String) (payload : BatchPayload)
    (o : OrchState) (deliveries : List Delivery) :
    finalizeInput uuid5 payload { o with runResults := deliveries.map Delivery.eventPayload } =
      (matchEvents (runIndexMap uuid5 payload) deliveries).map
        (List.map fun p => ⟨p.1.eventPayload, p.2.1, p.2.2⟩) := by
  rw [finalizeInput, List.mapM_map, matchEvents, ← Search.mapM_map_some]
  refine congrArg (fun f => List.mapM f deliveries) (funext fun d => ?_)
  rw [Option.map_map]
  rfl

/-- `finalize_batch` reads what the orchestrator built. -/
theorem readFinalizeInput_fields (batchId : String) (cvs : List CvRef)
    (matched : List (Delivery × String × Nat)) :
    readFinalizeInput (φ := φ) (.obj (finalizeInputFields batchId cvs
      (matched.map fun p => entryFields p.1.eventFields p.2.1 p.2.2))) =
      some (batchId, cvs, matched.map fun p => ⟨p.1.eventPayload, p.2.1, p.2.2⟩) := by
  have hentries : strictList (readRunEntry (φ := φ))
      (.arr ((matched.map fun p => entryFields p.1.eventFields p.2.1 p.2.2).map .obj)) =
        some (matched.map fun p => ⟨p.1.eventPayload, p.2.1, p.2.2⟩) := by
    rw [strictList, List.map_map, List.mapM_map]
    exact Search.mapM_eq_some_map fun p _ =>
      readRunEntry_entryFields _ _ _ (readRunResult_eventFields p.1)
  generalize (matched.map fun p => entryFields (φ := φ) p.1.eventFields p.2.1 p.2.2) = entries
    at hentries ⊢
  have hbatch : requiredField strictStr (finalizeInputFields (φ := φ) batchId cvs entries)
      "batch_id" = some batchId := rfl
  have hcvs : requiredField (strictList readCvRef) (finalizeInputFields batchId cvs entries)
      "cvs" = some cvs := readCvs_dump cvs
  have hresults : requiredField (strictList readRunEntry) (finalizeInputFields batchId cvs entries)
      "run_results" = some (matched.map fun p => ⟨p.1.eventPayload, p.2.1, p.2.2⟩) := hentries
  simp only [readFinalizeInput, hbatch, hcvs, hresults, Option.bind_eq_bind, Option.bind_some]
  rfl

theorem keyed_finalizeInputFields (batchId : String) (cvs : List CvRef)
    (matched : List (Delivery × String × Nat)) :
    Keyed (φ := φ) (.obj (finalizeInputFields batchId cvs
      (matched.map fun p => entryFields p.1.eventFields p.2.1 p.2.2))) := by
  refine ⟨show ["batch_id", "cvs", "run_results"].Nodup by decide, trivial, keyed_cvs cvs, ?_,
    trivial⟩
  rw [List.map_map]
  exact keyed_arr_map fun p _ => keyed_entryFields _ _ _ (keyed_eventFields p.1)

section Submissions
variable {float : String → φ} (writer : FloatWriter float) (layout : Layout) {env : Env φ}
  {instances : Instances φ}

/-- The host gets the request that was sent. -/
theorem received_eq (call : SubmitCall) :
    call.received float layout writer.repr = call.startRequest := by
  rw [SubmitCall.received, Json.loads_dumps writer layout (keyed_startBody call)]
  rfl

/-- One submission: the instance stays if it is there, and is started by a call that is accepted
for it. -/
theorem httpStart_received (call : SubmitCall) (hkey : call.Matches) (batchId : String) :
    (httpStart env instances call.now (call.received float layout writer.repr)).2 batchId =
      (instances batchId).or
        (if call.body.batchId = batchId then
          some (.started (mergeTrace call.correlationId call.traceparent (.obj call.body.dump))
            call.now)
        else none) := by
  have hsubmit : (submitBatch env instances call).2 =
      (httpStart env instances call.now call.startRequest).2 :=
    congrArg Prod.snd (submitBatch_matches hkey)
  rw [received_eq writer layout call, ← hsubmit]
  by_cases hb : call.body.batchId = batchId
  · rw [if_pos hb, ← hb]
    cases hi : instances call.body.batchId with
    | none =>
      rw [submitBatch_new env hkey hi]
      exact startNew_self instances _ _ _
    | some i =>
      rw [(submitBatch_existing env hkey hi).2]
      exact hi
  · rw [if_neg hb, Option.or_none]
    cases hi : instances call.body.batchId with
    | none =>
      rw [submitBatch_new env hkey hi]
      exact startNew_of_ne instances (Ne.symm hb) _ _
    | some i => rw [(submitBatch_existing env hkey hi).2]

/-- An instance that is there is kept, and any other one is started by the first call that is
accepted for it. -/
theorem submitAll_eq (calls : List SubmitCall) (batchId : String) (instances : Instances φ) :
    submitAll env float layout writer.repr instances calls batchId =
      (instances batchId).or
        ((calls.find? fun call => call.idempotencyKey = batchId ∧ call.body.batchId = batchId).map
          fun call => .started
            (mergeTrace call.correlationId call.traceparent (.obj call.body.dump)) call.now) := by
  induction calls generalizing instances with
  | nil => exact (Option.or_none).symm
  | cons call calls ih =>
    rw [submitAll, ih]
    by_cases hkey : call.idempotencyKey = call.body.batchId
    · rw [if_pos hkey, httpStart_received writer layout call hkey, Option.or_assoc]
      by_cases hb : call.body.batchId = batchId
      · rw [if_pos hb, List.find?_cons_of_pos (by simpa using ⟨hkey.trans hb, hb⟩)]
        rfl
      · rw [if_neg hb, List.find?_cons_of_neg (by simpa using fun _ => hb)]
        rfl
    · have hnot : ¬ (call.idempotencyKey = batchId ∧ call.body.batchId = batchId) :=
        fun h => hkey (h.1.trans h.2.symm)
      rw [if_neg hkey, List.find?_cons_of_neg (by simpa using hnot)]

end Submissions

end WireSubmissionLemmas

open WireSubmissionLemmas

/-- After any submissions, there is an instance for a `batchId` exactly when one of them was
accepted for it, and its orchestrator reads the batch of the first of these, with the trace
headers of that call. -/
theorem submitted_input_read {float : String → φ} (writer : FloatWriter float)
    (layout stored : Layout) (env : Env φ) (calls : List SubmitCall) (batchId : String) :
    (submitAll env float layout writer.repr (fun _ => none) calls batchId).map
        (DurableInstance.readBatch env float stored writer.repr) =
      (calls.find? fun call => call.idempotencyKey = batchId ∧ call.body.batchId = batchId).map
        fun call => some (call.body.payload call.correlationId call.traceparent) := by
  rw [submitAll_eq writer layout calls batchId, Option.none_or, Option.map_map]
  refine congrArg (fun f => Option.map f _) (funext fun call => ?_)
  show (Json.loads float (Json.text stored writer.repr
    (mergeTrace call.correlationId call.traceparent (.obj call.body.dump)))).toOption.bind _ = _
  rw [Json.loads_dumps writer stored (keyed_mergeTrace _ _ _)]
  exact readBatchPayload_mergeTrace call.body call.correlationId call.traceparent

/-- `dispatch_run` reads the input of each run as the orchestrator built it, and `finalize_batch`
reads from the dictionaries of any events what they carry, with the application and the index of
their runs. A run id that is unknown is a `KeyError` on both sides. -/
theorem activity_inputs_read {float : String → φ} (writer : FloatWriter float) (layout : Layout)
    (lax : LaxMode φ) (uuid5 : String → String) (payload : BatchPayload) :
    (∀ inp : DispatchRunInput,
      (Json.loads float (Json.text layout writer.repr (.obj inp.fields))).toOption.bind
        (validateDispatchRunInput lax) = some inp) ∧
      ∀ (o : OrchState) (deliveries : List Delivery),
        (runResultsFields (runIndexMap uuid5 payload) (deliveries.map Delivery.eventFields)).map
            (fun entries => (Json.loads float (Json.text layout writer.repr
              (.obj (finalizeInputFields payload.batchId payload.cvs entries)))).toOption.bind
                readFinalizeInput) =
          (finalizeInput uuid5 payload
            { o with runResults := deliveries.map Delivery.eventPayload }).map fun entries =>
              some (payload.batchId, payload.cvs, entries) := by
  refine ⟨fun inp => ?_, fun o deliveries => ?_⟩
  · rw [Json.loads_dumps writer layout (keyed_dispatchFields inp)]
    exact validateDispatchRunInput_fields lax inp
  · rw [runResultsFields_eq, finalizeInput_matchEvents, Option.map_map, Option.map_map]
    refine congrArg (fun f => Option.map f _) (funext fun matched => ?_)
    show (Json.loads float (Json.text layout writer.repr (.obj (finalizeInputFields payload.batchId
      payload.cvs (matched.map fun p => entryFields p.1.eventFields p.2.1 p.2.2))))).toOption.bind
        readFinalizeInput = _
    rw [Json.loads_dumps writer layout (keyed_finalizeInputFields ..)]
    exact readFinalizeInput_fields payload.batchId payload.cvs matched

end TalentMatch
