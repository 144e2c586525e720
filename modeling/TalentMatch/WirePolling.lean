import TalentMatch.WireConverse
import TalentMatch.Host

/-!
# What a client reads of a batch

The texts of a poll: the output of `finalize_batch` as Durable keeps it, the blob
`batches/{batch_id}/result.json`, and the response of `http_status` that the API reads
with `resp.json()`.

Results:
1. `received_httpStatus`: the response of `http_status` survives its text.
2. `wire_batch_polled`: after any run of the platform, the document of a finished batch
   is served exactly when every application has a run that succeeded, and with 502
   otherwise; when its instance is purged, the blob gives the same answer without the
   progress.
-/

namespace TalentMatch

open Json (LoadsError Layout FloatWriter Keyed KeyedFields)

variable {φ : Type}

/-! ## 1. Responses and results as texts -/

section Texts
variable (float : String → φ) (layout : Layout) (repr : φ → String)

/-- A response as the client gets it: a JSON body is read from its text. -/
def HttpResponse.received (resp : HttpResponse φ) : HttpResponse φ :=
  match resp.body with
  | .json v =>
    match Json.loads float (Json.text layout repr v) with
    | .ok v' => ⟨resp.statusCode, .json v'⟩
    | .error _ => ⟨resp.statusCode, .text (Json.text layout repr v)⟩
  | _ => resp

end Texts

/-- `get_batch_status` of the API, once the host has answered. -/
def answerStatus (env : Env φ) (blob : Option String) (submissionId : String)
    (resp : HttpResponse φ) : Except ApiError (BatchStatusResponse φ) :=
  match clientGetBatchStatus env resp with
  | .ok raw => toStatusResponse env.lax env.isZero submissionId raw
  | .error (.client (.durableClientError 404 _)) =>
    match readBatchResultFromBlob env blob with
    | .ok (some result) => toStatusResponse env.lax env.isZero submissionId (blobStatus result)
    | .ok none => .error (notFound submissionId)
    | .error e => .error (upstreamError env e)
  | .error e => .error (upstreamError env e)

section Finished
variable (env : WireEnv φ)

/-- The API and the host, which read JSON like the other parties. -/
def WireEnv.host (host : Env φ) : Env φ := { host with loads := Json.loads env.float }

/-- What a client gets for a poll. -/
def WireEnv.answer (host : Env φ) (layout : Layout) (instances : Instances φ)
    (blob : Option String) (submissionId : String) : Except ApiError (BatchStatusResponse φ) :=
  answerStatus (env.host host) blob submissionId
    ((httpStatus (env.host host) instances submissionId).received env.float layout env.writer.repr)

/-- The blob that `finalize_batch` writes. -/
def WireEnv.resultBlob (document : List (CvBlock (Option (CvAggregate φ)))) : String :=
  Json.text .dumps env.writer.repr (resultDocument document)

/-- The instance of a batch that is finished, where `base` has what a poll does not read. Durable
gives the output as a dictionary or as text. -/
def WireEnv.completed (base : DurableInstance φ) (layout : Layout) (asText : Bool) (o : OrchState)
    (document : List (CvBlock (Option (CvAggregate φ)))) : DurableInstance φ :=
  { base with
    runtimeStatus := .completed
    customStatus := some o.progress
    output :=
      if asText then .str (Json.text layout env.writer.repr (resultDocument document))
      else resultDocument document }

/-- The response that shows a document as it is. -/
def servedResponse (submissionId : String) (progress : Progress)
    (document : List (CvBlock (Option (CvAggregate φ)))) : BatchStatusResponse φ where
  submissionId := submissionId
  status := .completed
  progress := some progress.served
  estimatedCompletionSeconds := none
  retryAfterSeconds := none
  result := some (document.map CvBlock.served)
  error := none

/-- What a client gets for a batch that is finished, from its instance and from its blob. -/
structure PolledSound (submissionId : String) (cvs : List CvRef) (progress : Progress)
    (document : List (CvBlock (Option (CvAggregate φ))))
    (polled purged : Except ApiError (BatchStatusResponse φ)) : Prop where
  completed : ServesCompleted cvs polled ↔ ∀ block ∈ document, block.succeeded ≠ []
  served : (∀ block ∈ document, block.succeeded ≠ []) →
    polled = .ok (servedResponse submissionId progress document)
  refused : (∃ block ∈ document, block.succeeded = []) → ∃ detail,
    polled = .error (.problemDetail 502 "Upstream contract error" detail)
  purged : purged = polled.map fun response => { response with progress := none }

end Finished

namespace WirePollingLemmas

open EngineContractLemmas WireTextsLemmas

/-! ## 2. Keys of the documents -/

theorem keyed_run (run : Run) : Keyed (φ := φ) run.toJson := by
  have hnames : Keyed (φ := φ) (.arr (run.artifactNames.map .str)) := keyed_arr_map fun _ _ => trivial
  unfold Run.toJson
  cases run.details with
  | none =>
    exact ⟨show ["runId", "runIndex", "status", "dispatchedAt", "completedAt", "artifactCount",
      "artifactNames", "errorMessage"].Nodup by decide, trivial, trivial, trivial, keyed_str _,
      keyed_str _, trivial, hnames, keyed_str _, trivial⟩
  | some d =>
    exact ⟨show ["runId", "runIndex", "status", "dispatchedAt", "completedAt", "artifactCount",
      "artifactNames", "errorMessage", "durationMs", "tokensPrompt", "tokensCompletion",
      "correlationId", "traceparent", "artifacts"].Nodup by decide, trivial, trivial, trivial,
      keyed_str _, keyed_str _, trivial, hnames, keyed_str _, trivial, trivial, trivial,
      keyed_str _, keyed_str _, keyed_arr_map fun a _ => keyed_artifactItem a, trivial⟩

theorem keyed_application (application : Application) :
    Keyed (φ := φ) (.obj application.fields) :=
  ⟨show ["applicationId", "documentId", "status", "runsCompleted", "runsTotal", "lastUpdatedAt",
    "runs"].Nodup by decide, trivial, trivial, trivial, trivial, trivial, trivial,
    keyed_arr_map fun run _ => keyed_run run, trivial⟩

theorem keyed_progress (progress : Progress) : Keyed (φ := φ) (.obj progress.fields) :=
  ⟨show ["submissionId", "batchId", "jobId", "status", "cvsCompleted", "cvsTotal",
    "runsCompleted", "runsDispatched", "runsTotal", "lastUpdatedAt", "applications"].Nodup by
      decide, trivial, trivial, trivial, trivial, trivial, trivial, trivial, trivial, trivial,
    trivial, keyed_arr_map fun a _ => keyed_application a, trivial⟩

theorem keyed_runPayload (r : RunPayload) : Keyed (φ := φ) r.toJson :=
  ⟨show ["runId", "runIndex", "documentId", "status", "durationMs", "tokensPrompt",
    "tokensCompletion", "correlationId", "traceparent", "artifacts", "errorMessage"].Nodup by
      decide, trivial, trivial, trivial, trivial, trivial, trivial, trivial, keyed_str _,
    keyed_str _, keyed_artifacts _, keyed_str _, trivial⟩

theorem keyed_aggregate (a : CvAggregate φ) : Keyed a.toJson := by
  refine ⟨show ["finalScore", "variance", "finalDecision", "mustHaveResult", "sourceArtifacts",
    "runsCount"].Nodup by decide, keyed_nullable fun _ _ => trivial, trivial, keyed_str _, trivial,
    keyed_arr_map fun s _ => ?_, trivial, trivial⟩
  exact ⟨show ["name", "blob_uri", "sha256"].Nodup by decide, trivial, trivial, keyed_str _,
    trivial⟩

theorem keyed_error (message : String) : Keyed (φ := φ) (.obj (runFailed message)) :=
  ⟨show ["code", "message"].Nodup by decide, trivial, trivial, trivial⟩

theorem keyed_document (document : List (CvBlock (Option (CvAggregate φ)))) :
    Keyed (resultDocument document) := by
  refine ⟨show ["cvs"].Nodup by decide, keyed_arr_map fun b _ => ?_, trivial⟩
  exact ⟨show ["applicationId", "documentId", "runs", "aggregated", "error"].Nodup by decide,
    trivial, trivial, keyed_arr_map fun r _ => keyed_runPayload r,
    keyed_nullable fun a _ => keyed_aggregate a, keyed_nullable fun m _ => keyed_error m, trivial⟩

/-! ## 3. The status document -/

section Status
variable {float : String → φ} {s : DurableStatus φ}

theorem keyed_normalizedResult {v : Json φ} (houtput : Keyed s.output)
    (h : normalizedResult (Json.loads float) s = .ok v) : Keyed v := by
  unfold normalizedResult at h
  split at h
  · cases hout : s.output with
    | null =>
      rw [hout] at h
      cases h
      trivial
    | obj fields =>
      rw [hout] at h houtput
      cases h
      exact houtput
    | str text =>
      rw [hout] at h
      exact Json.keyed_of_loads h
    | bool => rw [hout] at h; cases h
    | int => rw [hout] at h; cases h
    | float => rw [hout] at h; cases h
    | arr => rw [hout] at h; cases h
  · cases h
    trivial

/-- The status document of an instance has distinct keys. -/
theorem keyed_normalizeStatus {i : DurableInstance φ} {raw : Fields φ} (houtput : Keyed i.output)
    (h : normalizeStatus (Json.loads float) i.statusObject.durable = .ok raw) :
    Keyed (.obj raw) := by
  unfold normalizeStatus at h
  split at h
  · cases h
  · next v hresult =>
    have hv : Keyed v := keyed_normalizedResult houtput hresult
    cases h
    refine ⟨show ["status", "progress", "result", "error", "retryAfterSeconds"].Nodup by decide,
      trivial, ?_, hv, ?_, ?_, trivial⟩
    · simp only [DurableInstance.statusObject, StatusObject.durable]
      cases i.customStatus with
      | none => trivial
      | some p => exact keyed_progress p
    · split
      · exact ⟨show ["code", "message"].Nodup by decide, trivial, trivial, trivial⟩
      · trivial
    · split <;> trivial

end Status

section Received
variable {float : String → φ} (writer : FloatWriter float) (layout : Layout)

theorem received_json {v : Json φ} (h : Keyed v) (statusCode : Nat) :
    HttpResponse.received float layout writer.repr ⟨statusCode, .json v⟩ = ⟨statusCode, .json v⟩ := by
  simp only [HttpResponse.received, Json.loads_dumps writer layout h]

/-- The response of `http_status` survives its text. -/
theorem received_httpStatus {env : Env φ} (hloads : env.loads = Json.loads float)
    {instances : Instances φ} {submissionId : String}
    (houtput : ∀ i, instances submissionId = some i → Keyed i.output) :
    (httpStatus env instances submissionId).received float layout writer.repr =
      httpStatus env instances submissionId := by
  cases hi : instances submissionId with
  | none =>
    rw [httpStatus_missing hi]
    rfl
  | some i =>
    rw [httpStatus_instance hi, hloads]
    cases hraw : normalizeStatus (Json.loads float) i.statusObject.durable with
    | error e => rfl
    | ok raw => exact received_json writer layout (keyed_normalizeStatus (houtput i hi) hraw) 200

end Received

/-! ## 4. The document of a finished batch -/

section Document
variable {env : WireEnv φ} {w : WireState φ}

/-- What `finalize_batch` returned for a batch. -/
def FinalizedAs (env : WireEnv φ) (batchId : String)
    (document : List (CvBlock (Option (CvAggregate φ)))) : Prop :=
  ∃ payload readObject entries, findBatch env.batches batchId = some payload ∧
    finalizeDocument env.num env.str env.order readObject payload.cvs entries = .ok document

theorem instances_store (w : WireState φ) (artifact : Option (String × String)) :
    (w.store artifact).instances = w.instances := by
  cases artifact <;> rfl

/-- The document of every instance that is finished was returned by `finalize_batch`. -/
theorem finalizedAs_run {as : List (WireAction φ)}
    (h : Transition.exec (wireStep env) WireState.initial as = some w) :
    ∀ batchId o document, w.instances batchId = some (.finished o document) →
      FinalizedAs env batchId document := by
  refine Transition.exec_invariant (I := fun v : WireState φ => ∀ batchId o document,
    v.instances batchId = some (.finished o document) → FinalizedAs env batchId document) ?_
    (fun _ _ _ h => by cases h) h
  intro v a v' hi hstep
  cases WirePlatformLemmas.wireSteps_of_step hstep with
  | startBatch | awaitResults =>
    intro batchId' o' document hfin
    rcases WireRunsLemmas.instances_setInstance hfin with ⟨-, heq⟩ | hold
    · cases heq
    · exact hi _ _ _ hold
  | consume =>
    intro batchId' o' document hfin
    rcases WireRunsLemmas.instances_setInstance hfin with ⟨-, heq⟩ | hold
    · cases heq
    · exact hi _ _ _ hold
  | @finish batchId finishedAt payload o o' document hp _ _ hdoc _ =>
    intro batchId' o₁ document₁ hfin
    rcases WireRunsLemmas.instances_setInstance hfin with ⟨rfl, heq⟩ | hold
    · cases heq
      obtain ⟨entries, -, hdocument⟩ := Option.bind_eq_some_iff.mp hdoc
      exact ⟨payload, _, entries, hp, Search.eq_ok_of_toOption hdocument⟩
    · exact hi _ _ _ hold
  | fakeRun | fakeStop =>
    intro batchId o document hfin
    exact hi batchId o document ((congrFun (instances_store v _) batchId).symm.trans hfin)
  | _ => exact hi

end Document

/-! ## 5. The two answers for a finished batch -/

section Answers
variable {env : WireEnv φ} (host : Env φ) (layout stored : Layout) (asText : Bool)
  (base : DurableInstance φ) (others : Instances φ) (blob : Option String) (batchId : String)
  (o : OrchState) (document : List (CvBlock (Option (CvAggregate φ))))

theorem isOutput_completed :
    IsOutput (Json.loads env.float) (env.completed base stored asText o document).output
      (resultDocument document) := by
  cases asText with
  | false => exact .inl rfl
  | true => exact .inr ⟨_, rfl, Json.loads_dumps env.writer stored (keyed_document document)⟩

/-- The answer while Durable has the instance. -/
theorem answer_completed :
    env.answer host layout
        (Function.update others batchId (some (env.completed base stored asText o document)))
        blob batchId =
      poll host.lax (Json.loads env.float) host.isZero batchId
        (completedStatus (some o.progress) (env.completed base stored asText o document).output) := by
  have hself : Function.update others batchId (some (env.completed base stored asText o document))
      batchId = some (env.completed base stored asText o document) := Function.update_self ..
  have hkeyed : ∀ i, Function.update others batchId
      (some (env.completed base stored asText o document)) batchId = some i → Keyed i.output := by
    intro i hi
    cases hself.symm.trans hi
    cases asText with
    | false => exact keyed_document document
    | true => trivial
  have hloads : (env.host host).loads = Json.loads env.float := rfl
  rw [WireEnv.answer, received_httpStatus env.writer layout hloads hkeyed]
  exact getBatchStatus_completed blob hself rfl
    (isOutput_completed stored asText base o document)

/-- The answer once it is purged. -/
theorem answer_purged (haccount : host.blobAccount ≠ "") :
    env.answer host layout (Function.update others batchId none)
        (some (env.resultBlob document)) batchId =
      poll host.lax (Json.loads env.float) host.isZero batchId
        (completedStatus none (resultDocument document)) := by
  have hself : Function.update others batchId none batchId = none := Function.update_self ..
  have hkeyed : ∀ i, Function.update others batchId none batchId = some i → Keyed i.output := by
    intro i hi
    cases hself.symm.trans hi
  have hblob : Json.loads env.float (env.resultBlob document) = .ok (resultDocument document) :=
    Json.loads_dumps env.writer .dumps (keyed_document document)
  have hloads : (env.host host).loads = Json.loads env.float := rfl
  have haccount' : (env.host host).blobAccount ≠ "" := haccount
  rw [WireEnv.answer, received_httpStatus env.writer layout hloads hkeyed]
  exact getBatchStatus_blob hself haccount' hblob

end Answers

end WirePollingLemmas

open WirePollingLemmas

/-- After any run of the platform, a client that polls a finished batch is served its document when
every application has a run that succeeded, and gets 502 otherwise, whichever way Durable gives the
output. When the instance is purged, the blob gives the same without the progress. -/
theorem wire_batch_polled {env : WireEnv φ} (hu : Uuid5Spec env.uuid5)
    (hb : DistinctBatches env.batches) (hid : UuidBatchIds env.batches)
    {as : List (WireAction φ)} {w : WireState φ}
    (h : Transition.exec (wireStep env) WireState.initial as = some w) {batchId : String}
    {o : OrchState} {document : List (CvBlock (Option (CvAggregate φ)))}
    (hfinished : w.instances batchId = some (.finished o document)) (host : Env φ)
    (haccount : host.blobAccount ≠ "") :
    ∃ payload, findBatch env.batches batchId = some payload ∧
      ∀ (layout stored : Layout) (asText : Bool) (base : DurableInstance φ)
        (others : Instances φ) (blob : Option String),
        PolledSound batchId payload.cvs o.progress document
          (env.answer host layout
            (Function.update others batchId (some (env.completed base stored asText o document)))
            blob batchId)
          (env.answer host layout (Function.update others batchId none)
            (some (env.resultBlob document)) batchId) := by
  obtain ⟨payload, readObject, entries, hp, hdocument⟩ := finalizedAs_run h batchId o document
    hfinished
  refine ⟨payload, hp, fun layout stored asText base others blob => ?_⟩
  rw [answer_completed, answer_purged host layout others batchId document haccount,
    poll_completed _ _ (isOutput_completed stored asText base o document),
    poll_completed _ _ (.inl rfl)]
  -- a block has a score exactly when one of its runs succeeded
  obtain ⟨payload', hp', hsound⟩ := (WireRunsLemmas.engineInv_run hu hb hid h).1.documents batchId
    o document hfinished
  cases hp.symm.trans hp'
  have hscore : ∀ block ∈ document, HasScore block.aggregated ↔ block.succeeded ≠ [] :=
    fun block hblock => (hsound block hblock).score
  have hdecision : ∀ b ∈ document, ∀ a, b.aggregated = some a → a.finalDecision.isSome :=
    fun b hb' a ha => aggregateRuns_decision (ha ▸ (block_finalizeDocument hdocument hb').1)
  rcases checkDocument_cases hdecision with ⟨hok, hall⟩ | ⟨⟨detail, herror⟩, block, hblock, hnone⟩
  · rw [hok]
    have hsucceeded : ∀ block ∈ document, block.succeeded ≠ [] :=
      fun block hblock => (hscore block hblock).mp (hall block hblock)
    have hids : (document.map CvBlock.served).map CvResult.applicationId =
        payload.cvs.map CvRef.applicationId := by
      rw [List.map_map, ← applicationIds_finalizeDocument hdocument]
      rfl
    refine ⟨⟨fun _ => hsucceeded, fun _ => ⟨_, _, rfl, rfl, rfl, hids⟩⟩, fun _ => rfl, ?_, rfl⟩
    rintro ⟨block, hblock, hnil⟩
    exact absurd hnil (hsucceeded block hblock)
  · rw [herror]
    have hnil : ¬ block.succeeded ≠ [] := fun h' => hnone ((hscore block hblock).mpr h')
    refine ⟨⟨?_, fun hall => absurd (hall block hblock) hnil⟩,
      fun hall => absurd (hall block hblock) hnil, fun _ => ⟨detail, rfl⟩, rfl⟩
    rintro ⟨response, results, hanswer, -⟩
    cases hanswer

namespace Sample

/-- The API and the host of the sample platform. -/
def wireHost : Env ℤ where
  isZero := wireEnv.num.isZero
  loads _ := .error .decode
  dumps _ := ""
  lax :=
    { int := fun v => match v with | .int i => some i | _ => none
      float := fun v => match v with | .float x => some x | _ => none
      bool := fun v => match v with | .bool b => some b | _ => none
      int_int := fun _ => rfl
      float_float := fun _ => rfl
      bool_bool := fun _ => rfl }
  repr := id
  str := wireEnv.str
  crashText := ""
  blobAccount := "awrstore"
  unknown := none
  unknown_placeholder := trivial

/-- What Durable has beside the output. -/
def durableBase : DurableInstance ℤ where
  input := .null
  runtimeStatus := .completed
  customStatus := none
  output := .null
  createdTime := "t0"
  lastUpdatedTime := "t4"

end Sample

/-- The theorem on a run of the sample platform that finishes a batch. -/
theorem wire_batch_polled_sample : ∃ o document,
    PolledSound Sample.batch1 (Sample.payload Sample.batch1 ["app-1"] 0).cvs o.progress document
      (Sample.wireEnv.answer Sample.wireHost .compact
        (Function.update (fun _ => none) Sample.batch1
          (some (Sample.wireEnv.completed Sample.durableBase .dumps true o document)))
        none Sample.batch1)
      (Sample.wireEnv.answer Sample.wireHost .compact
        (Function.update (fun _ => none) Sample.batch1 none)
        (some (Sample.wireEnv.resultBlob document)) Sample.batch1) := by
  obtain ⟨as, w, o, document, hw, hfinished⟩ := Sample.wireEnv_finishes
  have hu : Uuid5Spec Sample.wireEnv.uuid5 := Sample.uuid5_spec
  obtain ⟨payload, hp, hpolled⟩ := wire_batch_polled hu (by decide) (by decide) hw hfinished
    Sample.wireHost (by decide)
  have hpayload : findBatch Sample.wireEnv.batches Sample.batch1 =
      some (Sample.payload Sample.batch1 ["app-1"] 0) := rfl
  obtain rfl := Option.some.inj (hpayload.symm.trans hp)
  exact ⟨o, document, hpolled .compact .dumps true Sample.durableBase (fun _ => none) none⟩

end TalentMatch
