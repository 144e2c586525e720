import TalentMatch.WirePlatform

/-!
# Runs of the platform on the wire

What the texts mean in every state that a run of `WirePlatform` reaches, however its
parties interleave and however often the fake engine works on a message.

Results:
1. `wire_run_sound`: each text is read by its reader as what its writer meant,
   completions carry the correlation id and the trace of their batch, and a CV has a
   score exactly when one of its runs succeeded.
-/

namespace TalentMatch

open Json (Layout Keyed)
open ClaimOnce IntakeState WirePlatformLemmas

variable {φ : Type}

/-! ## 1. What the texts mean -/

section Meaning
variable (env : WireEnv φ)

/-- An input of `dispatch_run` in one of the batches. -/
def WireEnv.Dispatched (inp : DispatchRunInput) : Prop :=
  ∃ payload ∈ env.batches,
    inp ∈ payload.dispatchInputs env.uuid5 (env.promptBlobUri payload.batchId)

/-- The input blob has the digest that was submitted. -/
def WireEnv.Verified (inp : DispatchRunInput) : Prop :=
  verifyInputBlobSha256 env.readBlob env.sha256 inp.blobUri inp.sha256 = .ok ()

/-- The completion of a run by one execution of the fake engine. -/
def WireEnv.completion (inp : DispatchRunInput) (draw : FakeDraw φ) : Delivery :=
  .serviceBus (fakeMessage env.settings draw inp.runId (orText inp.correlationId inp.batchId))
    inp.traceparent

/-- What the execution does. -/
def WireEnv.output (inp : DispatchRunInput) (draw : FakeDraw φ) : FakeOutput φ :=
  fakeOutput env.str env.writer.repr env.num.zero env.settings draw (.str inp.runId)
    (.str (orText inp.correlationId inp.batchId)) inp.traceparent

/-- The text of the output. -/
def WireEnv.outputText (inp : DispatchRunInput) (draw : FakeDraw φ) : String :=
  Json.text .dumps env.writer.repr (.obj (buildOutput env.num.zero (.str inp.runId) draw))

/-- The output of a run in the store. -/
def WireState.outputOf (w : WireState φ) (inp : DispatchRunInput) : Option String :=
  w.artifacts (env.settings.outputUrl inp.runId)

/-- The delivery is the completion of a run that was dispatched, and its output is in the store
when the run succeeded. -/
def WireState.IsCompletion (w : WireState φ) (d : Delivery) : Prop :=
  ∃ inp draw, env.Dispatched inp ∧ env.Verified inp ∧ d = env.completion inp draw ∧
    (draw.fail = false → (w.outputOf env inp).isSome)

/-- An entry of a result document for a run of the batch: its completion carries the correlation
id and the trace of the batch. -/
structure BatchPayload.HasRun (payload : BatchPayload) (run : RunPayload) : Prop where
  minted : run.runId ∈ payload.mintedIds env.uuid5
  status : run.status = "Succeeded" ∨ run.status = "Failed"
  correlationId : run.correlationId = some (orText payload.correlationId payload.batchId)
  traceparent : run.traceparent =
    if payload.traceparent = "" then none else some payload.traceparent

/-- The runs of a block that succeeded. -/
def CvBlock.succeeded {A : Type*} (block : CvBlock A) : List RunPayload :=
  succeededRuns block.runs

/-- A block of a result document: it aggregates the outputs of all runs that succeeded, and has an
error when a run did not. -/
structure BatchPayload.BlockSound (payload : BatchPayload)
    (block : CvBlock (Option (CvAggregate φ))) : Prop where
  runs : ∀ run ∈ block.runs, payload.HasRun env run
  score : HasScore block.aggregated ↔ block.succeeded ≠ []
  count : ∀ a ∈ block.aggregated, a.runsCount = block.succeeded.length
  error : block.error =
    if block.succeeded = block.runs then none else some "fake-engine synthetic failure"

/-- What every text says. -/
structure EngineInv (w : WireState φ) : Prop where
  dispatches : ∀ x ∈ w.dispatches,
    env.Dispatched x.input ∧ (x.pc ≠ .started → env.Verified x.input)
  engineRuns : ∀ m ∈ w.engineRuns, ∃ inp messageId dispatchedAt, env.Dispatched inp ∧
    env.Verified inp ∧ m = (inp.runMessage messageId dispatchedAt).queued env.writer.repr
  engineResults : ∀ m ∈ w.engineResults, ∃ d, w.IsCompletion env d ∧
    ∀ asBytes, env.readCompletion asBytes m = some d
  handled : ∀ x ∈ w.intake.workers, w.IsCompletion env x.job
  artifacts : ∀ url text, w.artifacts url = some text → ∃ inp draw, env.Dispatched inp ∧
    url = env.settings.outputUrl inp.runId ∧ text = env.outputText inp draw
  documents : ∀ batchId o document, w.instances batchId = some (.finished o document) →
    ∃ payload, findBatch env.batches batchId = some payload ∧
      ∀ block ∈ document, payload.BlockSound env block

end Meaning

namespace WireRunsLemmas

variable {env : WireEnv φ} {w w' : WireState φ} {s s' : PlatformState Unit} {a : WireAction φ}
  {inp : DispatchRunInput} {draw : FakeDraw φ} {asBytes : Bool}

/-! ## 2. An execution of the fake engine -/

theorem queued_properties (inp : DispatchRunInput) (messageId dispatchedAt : String) :
    ((inp.runMessage messageId dispatchedAt).queued env.writer.repr).properties =
      traceProperties (.str (orText inp.correlationId inp.batchId)) (.str inp.runId)
        inp.traceparent := by
  simp only [RunMessage.queued, DispatchRunInput.runMessage, traceProperties]
  by_cases ht : inp.traceparent = ""
  · rw [if_pos ht, if_pos ht]
    rfl
  · rw [if_neg ht, if_neg ht]
    rfl

theorem runId_ne (hu : Uuid5Spec env.uuid5) (h : env.Dispatched inp) : inp.runId ≠ "" := by
  obtain ⟨payload, -, hinp⟩ := h
  obtain ⟨p, -, rfl⟩ := List.mem_map.mp hinp
  exact hu.nonempty _

/-- What an execution does with the message of `dispatch_run`. -/
theorem runEngine_queued (hu : Uuid5Spec env.uuid5) (hinp : env.Dispatched inp)
    (ht : draw.transient = false) (messageId dispatchedAt : String) :
    env.runEngine draw asBytes ((inp.runMessage messageId dispatchedAt).queued env.writer.repr) =
      .ok (env.output inp draw) := by
  have hvalid : modelValidateJson env.float
      ((inp.runMessage messageId dispatchedAt).queued env.writer.repr).body = _ :=
    modelValidateJson_queued (inp.runMessage messageId dispatchedAt)
  have hrunId : orText inp.runId draw.newRunId = inp.runId := if_neg (runId_ne hu hinp)
  rw [WireEnv.runEngine, FakeEngineLemmas.fakeEngineRun_valid env.num env.str env.writer.repr
      env.settings draw hvalid ht,
    FakeEngineLemmas.traceProperty_received asBytes (queued_properties inp messageId dispatchedAt)]
  show Except.ok (fakeOutput _ _ _ _ _ (.str (orText inp.runId draw.newRunId)) _ _) = _
  rw [hrunId]
  rfl

/-- Intake reads what it sends. -/
theorem readCompletion_output (env : WireEnv φ) (inp : DispatchRunInput) (draw : FakeDraw φ)
    (asBytes : Bool) :
    env.readCompletion asBytes (env.output inp draw).result = some (env.completion inp draw) :=
  FakeEngineLemmas.sbDelivery_fakeOutput env.writer env.num.isZero env.str env.num.zero env.settings
    draw _ _ _ asBytes

theorem artifact_output (env : WireEnv φ) (inp : DispatchRunInput) {draw : FakeDraw φ}
    (h : draw.fail = false) :
    (env.output inp draw).artifact =
      some (env.settings.outputUrl inp.runId, env.outputText inp draw) :=
  FakeEngineLemmas.artifact_fakeOutput env.writer env.str env.num.zero env.settings draw h _ _ _

/-- The artifact of an execution is the output of its run, or there is none. -/
theorem artifact_cases (env : WireEnv φ) (inp : DispatchRunInput) (draw : FakeDraw φ) :
    (env.output inp draw).artifact = none ∨
      (env.output inp draw).artifact =
        some (env.settings.outputUrl inp.runId, env.outputText inp draw) := by
  cases hfail : draw.fail with
  | true => exact Or.inl (by simp only [WireEnv.output, fakeOutput, hfail, if_true])
  | false => exact Or.inr (artifact_output env inp hfail)

/-! ## 3. The store only grows -/

theorem isSome_store {artifact : Option (String × String)} {url : String}
    (h : (w.artifacts url).isSome) : ((w.store artifact).artifacts url).isSome := by
  cases artifact with
  | none => exact h
  | some p =>
    simp only [WireState.store, Function.update_apply]
    split
    · rfl
    · exact h

theorem IsCompletion.mono {d : Delivery}
    (hle : ∀ url, (w.artifacts url).isSome → (w'.artifacts url).isSome)
    (h : w.IsCompletion env d) : w'.IsCompletion env d := by
  obtain ⟨inp, draw, hinp, hv, hd, hout⟩ := h
  exact ⟨inp, draw, hinp, hv, hd, fun hfail => hle _ (hout hfail)⟩

/-! ## 4. The blocks of a document -/

section Aggregate
variable {num : Numerics φ} {str : Json φ → String} {order : SetOrder}
  {readObject : String → Option (Fields φ)}

theorem runsCount_aggregateSignals {parsed : List (CvSignal φ)}
    {sourceArtifacts : List SourceArtifact} {a : CvAggregate φ}
    (h : aggregateSignals num order parsed sourceArtifacts = .ok a) :
    a.runsCount = parsed.length := by
  simp only [aggregateSignals] at h
  split at h
  · cases h
  · cases h
    rfl

/-- When the output of every run that succeeded gives a signal, the aggregate counts these runs. -/
theorem runsCount_aggregateRuns {runs : List RunPayload} {a : CvAggregate φ}
    (h : aggregateRuns num str order readObject runs = .ok (some a))
    (hall : ∀ r ∈ runs, r.status = "Succeeded" → ∃ output,
      readOutputArtifact readObject (r.artifacts.getD []) = some output ∧
        GivesScore num str output) :
    a.runsCount = (succeededRuns runs).length := by
  rw [aggregateRuns_eq] at h
  obtain ⟨signals, hm, hcases⟩ := aggregateCvScoring_cases h
  obtain ⟨-, ha⟩ | ⟨-, a', ha', haggregate⟩ := hcases
  · cases ha
  cases ha'
  have hread : (succeededOutputs readObject runs).length = (succeededRuns runs).length := by
    refine List.filterMap_length_eq_length.mpr fun r hr => ?_
    obtain ⟨hmem, hstatus⟩ := List.mem_filter.mp hr
    obtain ⟨output, ho, -⟩ := hall r hmem (by simpa using hstatus)
    rw [ho]
    rfl
  have hsignal : (signals.filterMap id).length = signals.length := by
    refine List.filterMap_length_eq_length.mpr fun o ho => ?_
    have hmap : (Except.ok o : Except AggregateError _) ∈
        (succeededOutputs readObject runs).map (extractCvSignal num str) := by
      rw [Search.map_of_mapM_ok hm]
      exact List.mem_map_of_mem ho
    obtain ⟨output, houtput, hextract⟩ := List.mem_map.mp hmap
    obtain ⟨r, hr, hstatus, hreads⟩ := mem_succeededOutputs.mp houtput
    obtain ⟨output', ho', signal, hsignal, -⟩ := hall r hr hstatus
    rw [hreads] at ho'
    cases ho'
    rw [hextract] at hsignal
    cases hsignal
    rfl
  have hlen : signals.length = (succeededOutputs readObject runs).length := by
    have hmap := congrArg List.length (Search.map_of_mapM_ok hm)
    simpa using hmap.symm
  rw [runsCount_aggregateSignals haggregate, hsignal, hlen, hread]

end Aggregate

/-- The first error of runs that fail with one message. -/
theorem firstError_eq {runs : List RunEntry} {message : String} (hne : message ≠ "")
    (hall : ∀ e ∈ runs, e.result.status ≠ "Succeeded" → e.result.errorMessage = some message) :
    firstError runs =
      if ∀ e ∈ runs, e.result.status = "Succeeded" then none else some message := by
  unfold firstError
  induction runs with
  | nil => rfl
  | cons e runs ih =>
    by_cases he : e.result.status = "Succeeded"
    · have hhead : (e.result.status != "Succeeded" && e.result.errorMessage.getD "" != "") = false := by
        simp [he]
      rw [List.findSome?_cons, hhead, ih fun e' he' => hall e' (List.mem_cons_of_mem _ he')]
      simp only [Bool.false_eq_true, if_false, List.forall_mem_cons, he, true_and]
    · have hmessage := hall e List.mem_cons_self he
      have hhead : (e.result.status != "Succeeded" && e.result.errorMessage.getD "" != "") = true := by
        simp [he, hmessage, hne]
      rw [List.findSome?_cons, hhead, if_pos rfl, hmessage, if_neg fun h => he (h e List.mem_cons_self)]

/-- The input of the activity that minted a run id is that of its batch. -/
theorem input_of_minted (hu : Uuid5Spec env.uuid5) (hb : DistinctBatches env.batches)
    (hid : UuidBatchIds env.batches) {payload : BatchPayload} (hp : payload ∈ env.batches)
    {cv : CvRef} (hcv : cv ∈ payload.cvs) {index : Nat} (hindex : index < payload.runCount)
    (hinp : env.Dispatched inp) (hrun : payload.runId env.uuid5 cv index = inp.runId) :
    inp.batchId = payload.batchId ∧ inp.correlationId = payload.correlationId ∧
      inp.traceparent = payload.traceparent := by
  obtain ⟨payload', hp', hmem⟩ := hinp
  have hminted := mintedFor_of_input hp' hmem ""
  have hlineage := Lineage.unique hu hb hid hminted ⟨payload, hp, cv, hcv, index, hindex, hrun, rfl⟩
  have hbatch : inp.batchId = payload.batchId := congrArg Lineage.batchId hlineage
  obtain ⟨slot, -, rfl⟩ := List.mem_map.mp hmem
  obtain rfl := hb.ext hp' hp hbatch
  exact ⟨rfl, rfl, rfl⟩

theorem outputUrl_ne (settings : FakeSettings) (runId : String) : settings.outputUrl runId ≠ "" := by
  intro h
  have hlist := congrArg String.toList h
  simp only [FakeSettings.outputUrl, String.toList_append] at hlist
  simp at hlist

/-- The output of a run that succeeded is read from the store and has a score. -/
theorem givesScore_of_stored (hi : EngineInv env w) {runId : String}
    (h : (w.artifacts (env.settings.outputUrl runId)).isSome) :
    ∃ output, readOutputArtifact (readStored env.float w.artifacts)
        [⟨"output.json", env.settings.outputUrl runId, some "application/json", none, none⟩] =
          some output ∧ GivesScore env.num env.str output := by
  obtain ⟨text, htext⟩ := Option.isSome_iff_exists.mp h
  obtain ⟨inp, draw, -, -, rfl⟩ := hi.artifacts _ _ htext
  have hread := FakeEngineLemmas.readObjectText_output env.writer .dumps
    (FakeEngineLemmas.keyed_buildOutput env.num.zero inp.runId draw) ""
  rw [String.append_empty] at hread
  refine ⟨buildOutput env.num.zero (.str inp.runId) draw, ?_, _,
    FakeEngineLemmas.extractCvSignal_buildOutput env.num env.str env.num.zero _ draw, rfl⟩
  have hfind : [(⟨"output.json", env.settings.outputUrl runId, some "application/json", none,
      none⟩ : ArtifactItem)].find? (fun a => a.name == "output.json" && a.blobUri != "") =
        some ⟨"output.json", env.settings.outputUrl runId, some "application/json", none, none⟩ :=
    List.find?_cons_of_pos (by simp [outputUrl_ne])
  rw [readOutputArtifact, hfind, Option.bind_some, readStored, htext, Option.bind_some,
    WireEnv.outputText, hread]

section Entry
variable (hu : Uuid5Spec env.uuid5) (hb : DistinctBatches env.batches)
  (hid : UuidBatchIds env.batches) (hi : EngineInv env w)
include hu hb hid

/-- An entry of a result document that a completion was recorded in. -/
theorem hasRun_of_completion {payload : BatchPayload} (hp : payload ∈ env.batches) {cv : CvRef}
    (hcv : cv ∈ payload.cvs) {index : Nat} (hindex : index < payload.runCount)
    (hinp : env.Dispatched inp)
    (hrun : payload.runId env.uuid5 cv index = (env.completion inp draw).eventPayload.runId)
    (applicationId documentId : String) :
    payload.HasRun env
      ((⟨(env.completion inp draw).eventPayload, applicationId, index⟩ : RunEntry).payload
        documentId) := by
  obtain ⟨hbatch, hcorrelation, htrace⟩ := input_of_minted hu hb hid hp hcv hindex hinp hrun
  refine ⟨?_, ?_, ?_, ?_⟩
  · exact BatchPayload.mem_mintedIds.mpr ⟨cv, hcv, index, hindex, hrun⟩
  · show (if draw.fail then "Failed" else "Succeeded") = "Succeeded" ∨
      (if draw.fail then "Failed" else "Succeeded") = "Failed"
    cases draw.fail
    · exact Or.inl rfl
    · exact Or.inr rfl
  · rw [← hbatch, ← hcorrelation]
    rfl
  · rw [← htrace]
    rfl

omit hu hb hid

/-- The entry of a run that succeeded leads to an output with a score. -/
theorem givesScore_of_completion (hi : EngineInv env w)
    (hout : draw.fail = false → (w.outputOf env inp).isSome)
    (hstatus : (env.completion inp draw).eventPayload.status = "Succeeded") :
    ∃ output, readOutputArtifact (readStored env.float w.artifacts)
        ((env.completion inp draw).eventPayload.artifacts.getD []) = some output ∧
      GivesScore env.num env.str output := by
  cases hfail : draw.fail with
  | true =>
    have hfailed : (env.completion inp draw).eventPayload.status = "Failed" := by
      show (if draw.fail then "Failed" else "Succeeded") = "Failed"
      rw [hfail]
      rfl
    rw [hfailed] at hstatus
    exact absurd hstatus (by decide)
  | false =>
    have hartifacts : (env.completion inp draw).eventPayload.artifacts =
        some [⟨"output.json", env.settings.outputUrl inp.runId, some "application/json", none,
          none⟩] := by
      show (if draw.fail then none else _) = _
      rw [hfail]
      rfl
    rw [hartifacts]
    exact givesScore_of_stored hi (hout hfail)

/-- The entry of one that did not has the error of the engine. -/
theorem errorMessage_of_completion
    (hstatus : (env.completion inp draw).eventPayload.status ≠ "Succeeded") :
    (env.completion inp draw).eventPayload.errorMessage = some "fake-engine synthetic failure" := by
  cases hfail : draw.fail with
  | false =>
    refine absurd ?_ hstatus
    show (if draw.fail then "Failed" else "Succeeded") = "Succeeded"
    rw [hfail]
    rfl
  | true =>
    show (if draw.fail then some "fake-engine synthetic failure" else none) = _
    rw [hfail]
    rfl

end Entry

/-- The blocks of a document whose results are completions of runs of the batch. -/
theorem blockSound_of_finalize (hu : Uuid5Spec env.uuid5) (hb : DistinctBatches env.batches)
    (hid : UuidBatchIds env.batches) (hi : EngineInv env w) {payload : BatchPayload}
    {o o' : OrchState} {document : List (CvBlock (Option (CvAggregate φ)))}
    (hdoc : env.finalize w payload o = some document) (hp : payload ∈ env.batches)
    (hr : Recorded (fun _ => ()) env.uuid5 w.intake payload
      (.finished o' (document.map CvBlock.forget)))
    {block : CvBlock (Option (CvAggregate φ))} (hblock : block ∈ document) :
    payload.BlockSound env block := by
  obtain ⟨entries, hentries, hdocument⟩ := Option.bind_eq_some_iff.mp hdoc
  obtain ⟨haggregate, cv₀, -, -, hruns, herror⟩ :=
    block_finalizeDocument (Search.eq_ok_of_toOption hdocument) hblock
  -- every entry was recorded from the completion of an execution
  have hentry : ∀ run ∈ block.runs, ∃ inp draw applicationId documentId index, ∃ cv ∈ payload.cvs,
      index < payload.runCount ∧ env.Dispatched inp ∧
      (draw.fail = false → (w.outputOf env inp).isSome) ∧
      payload.runId env.uuid5 cv index = (env.completion inp draw).eventPayload.runId ∧
      run = (⟨(env.completion inp draw).eventPayload, applicationId, index⟩ : RunEntry).payload
        documentId := by
    intro run hrun
    obtain ⟨rr, ⟨n, d, -, hd, rfl⟩, cv, hcv, index, hindex, hrunId, -, -, hrunEq⟩ :=
      PlatformLemmas.run_of_recorded hu (hb.applications payload hp) hr
        (List.mem_map_of_mem (f := CvBlock.forget) hblock) hrun
    obtain ⟨x, hx, rfl⟩ := Option.map_eq_some_iff.mp hd
    obtain ⟨inp, draw, hinp, -, hjob, hout⟩ := hi.handled x (List.mem_of_getElem? hx)
    rw [hjob] at hrunId hrunEq
    exact ⟨inp, draw, _, _, index, cv, hcv, hindex, hinp, hout, hrunId, hrunEq⟩
  have hscored : ∀ r ∈ block.runs, r.status = "Succeeded" → ∃ output,
      readOutputArtifact (readStored env.float w.artifacts) (r.artifacts.getD []) = some output ∧
        GivesScore env.num env.str output := by
    intro run hrun hstatus
    obtain ⟨inp, draw, _, _, index, cv, -, -, -, hout, -, rfl⟩ := hentry run hrun
    exact givesScore_of_completion hi hout hstatus
  have hsucceeded : ∀ run, run ∈ block.succeeded ↔ run ∈ block.runs ∧ run.status = "Succeeded" := by
    intro run
    simp [CvBlock.succeeded, succeededRuns, List.mem_filter]
  refine ⟨fun run hrun => ?_, ?_, fun a ha => ?_, ?_⟩
  · obtain ⟨inp, draw, _, _, index, cv, hcv, hindex, hinp, -, hrunId, rfl⟩ := hentry run hrun
    exact hasRun_of_completion hu hb hid hp hcv hindex hinp hrunId _ _
  · rw [aggregateRuns_score_iff haggregate]
    constructor
    · rintro ⟨run, hrun, hstatus, -⟩
      exact List.ne_nil_of_mem ((hsucceeded run).mpr ⟨hrun, hstatus⟩)
    · intro hne
      obtain ⟨run, hrun⟩ := List.exists_mem_of_ne_nil _ hne
      obtain ⟨hmem, hstatus⟩ := (hsucceeded run).mp hrun
      exact ⟨run, hmem, hstatus, hscored run hmem hstatus⟩
  · have hsome : block.aggregated = some a := ha
    rw [hsome] at haggregate
    exact runsCount_aggregateRuns haggregate hscored
  · have hmem : ∀ e ∈ GroupSort.groupSorted RunEntry.applicationId RunEntry.runIndex
        cv₀.applicationId entries, e.payload cv₀.documentId ∈ block.runs := by
      intro e he
      rw [hruns]
      exact List.mem_map_of_mem he
    have hall : (∀ e ∈ GroupSort.groupSorted RunEntry.applicationId RunEntry.runIndex
        cv₀.applicationId entries, e.result.status = "Succeeded") ↔
          block.succeeded = block.runs := by
      rw [CvBlock.succeeded, succeededRuns, List.filter_eq_self, hruns, List.forall_mem_map]
      simp only [beq_iff_eq]
      rfl
    rw [herror, firstError_eq (show "fake-engine synthetic failure" ≠ "" by decide)
      fun e he hstatus => ?_]
    · simp only [hall]
    · obtain ⟨inp, draw, _, _, index, cv, -, -, -, -, -, heq⟩ := hentry _ (hmem e he)
      have hresult : e.result = (env.completion inp draw).eventPayload :=
        congrArg (fun r : RunPayload => (r.entry "").result) heq
      rw [hresult] at hstatus ⊢
      exact errorMessage_of_completion hstatus

/-! ## 5. One step -/

theorem engineInv_initial : EngineInv env (WireState.initial : WireState φ) where
  dispatches := by simp [WireState.initial]
  engineRuns := by simp [WireState.initial]
  engineResults := by simp [WireState.initial]
  handled := by simp [WireState.initial, State.initial]
  artifacts := fun _ _ h => by cases h
  documents := fun _ _ _ h => by cases h

theorem instances_setInstance {batchId batchId' : String}
    {inst inst' : Instance (Option (CvAggregate φ))}
    (h : (w.setInstance batchId inst).instances batchId' = some inst') :
    (batchId' = batchId ∧ inst' = inst) ∨ w.instances batchId' = some inst' := by
  have hset : (w.setInstance batchId inst).instances =
      Function.update w.instances batchId (some inst) := rfl
  rw [hset, Function.update_apply] at h
  split at h
  · next heq =>
    cases h
    exact Or.inl ⟨heq, rfl⟩
  · exact Or.inr h

/-- An instance moves on, to a document that is sound when it is finished. -/
theorem EngineInv.setInstance (hi : EngineInv env w) {batchId : String}
    {inst : Instance (Option (CvAggregate φ))}
    (hdoc : ∀ o document, inst = .finished o document → ∃ payload,
      findBatch env.batches batchId = some payload ∧
        ∀ block ∈ document, payload.BlockSound env block) :
    EngineInv env (w.setInstance batchId inst) := by
  refine ⟨hi.dispatches, hi.engineRuns, hi.engineResults, hi.handled, hi.artifacts,
    fun batchId' o document h => ?_⟩
  rcases instances_setInstance h with ⟨rfl, heq⟩ | hold
  · exact hdoc o document heq.symm
  · exact hi.documents batchId' o document hold

/-- An output is stored. -/
theorem EngineInv.store (hi : EngineInv env w) (hinp : env.Dispatched inp) (draw : FakeDraw φ) :
    EngineInv env (w.store (env.output inp draw).artifact) := by
  rcases artifact_cases env inp draw with hnone | hsome
  · rw [hnone]
    exact hi
  · rw [hsome]
    refine ⟨hi.dispatches, hi.engineRuns, fun m hm => ?_, fun x hx => ?_, fun url text h => ?_,
      hi.documents⟩
    · obtain ⟨d, hd, hread⟩ := hi.engineResults m hm
      exact ⟨d, IsCompletion.mono (fun _ => isSome_store) hd, hread⟩
    · exact IsCompletion.mono (fun _ => isSome_store) (hi.handled x hx)
    · have h' : Function.update w.artifacts (env.settings.outputUrl inp.runId)
          (some (env.outputText inp draw)) url = some text := h
      rw [Function.update_apply] at h'
      split at h'
      · next heq =>
        cases h'
        exact ⟨inp, draw, hinp, heq, rfl⟩
      · exact hi.artifacts url text h'

/-- What a step preserves, when the typed platform follows it. -/
theorem engineInv_step (hu : Uuid5Spec env.uuid5) (hb : DistinctBatches env.batches)
    (hid : UuidBatchIds env.batches) (hi : EngineInv env w) (hstep : WireSteps env w a w')
    (hrep : Represents env w' s') (hrec : RecordInv (fun _ => ()) env.uuid5 env.batches s') :
    EngineInv env w' := by
  cases hstep with
  | startBatch hp hnone => exact EngineInv.setInstance hi fun _ _ h => by cases h
  | @dispatch batchId position payload inp inst hp hinst hinp =>
    obtain ⟨hmem, rfl⟩ := PlatformLemmas.findBatch_eq_some hp
    refine ⟨fun x hx => ?_, hi.engineRuns, hi.engineResults, hi.handled, hi.artifacts, hi.documents⟩
    rcases List.mem_append.mp hx with hx | hx
    · exact hi.dispatches x hx
    · cases List.mem_singleton.mp hx
      exact ⟨⟨payload, hmem, List.mem_of_getElem? hinp⟩, fun hpc => absurd rfl hpc⟩
  | @writeIndex n dispatchedAt inp hn hv =>
    refine ⟨fun x hx => ?_, hi.engineRuns, hi.engineResults, hi.handled, hi.artifacts, hi.documents⟩
    rcases List.mem_or_eq_of_mem_set hx with hx | rfl
    · exact hi.dispatches x hx
    · exact ⟨(hi.dispatches _ (List.mem_of_getElem? hn)).1, fun _ => hv⟩
  | @sendRun n messageId dispatchedAt inp hn =>
    obtain ⟨hinp, hv⟩ := hi.dispatches _ (List.mem_of_getElem? hn)
    have hverified : env.Verified inp := hv (by simp)
    refine ⟨fun x hx => ?_, fun m hm => ?_, hi.engineResults, hi.handled, hi.artifacts,
      hi.documents⟩
    · rcases List.mem_or_eq_of_mem_set hx with hx | rfl
      · exact hi.dispatches x hx
      · exact ⟨hinp, fun _ => hverified⟩
    · rcases List.mem_append.mp hm with hm | hm
      · exact hi.engineRuns m hm
      · exact ⟨inp, messageId, dispatchedAt, hinp, hverified, List.mem_singleton.mp hm⟩
  | awaitResults hp hinst hsent ho => exact EngineInv.setInstance hi fun _ _ h => by cases h
  | completeRun hn =>
    exact ⟨hi.dispatches, fun m hm => hi.engineRuns m (List.mem_of_mem_eraseIdx hm),
      hi.engineResults, hi.handled, hi.artifacts, hi.documents⟩
  | @fakeRun n draw asBytes m out hm hout =>
    obtain ⟨inp, messageId, dispatchedAt, hinp, hv, rfl⟩ :=
      hi.engineRuns m (List.mem_of_getElem? hm)
    rw [runEngine_queued hu hinp (transient_of_ok hout)] at hout
    cases hout
    have hstore := EngineInv.store hi hinp draw
    refine ⟨hstore.dispatches, hstore.engineRuns, fun m hm => ?_, hstore.handled, hstore.artifacts,
      hstore.documents⟩
    rcases List.mem_append.mp hm with hm | hm
    · obtain ⟨d, hd, hread⟩ := hi.engineResults m hm
      exact ⟨d, IsCompletion.mono (fun _ => isSome_store) hd, hread⟩
    · cases List.mem_singleton.mp hm
      refine ⟨env.completion inp draw, ⟨inp, draw, hinp, hv, rfl, fun hfail => ?_⟩,
        readCompletion_output env inp draw⟩
      simp only [WireState.outputOf, artifact_output env inp hfail, WireState.store,
        Function.update_self, Option.isSome_some]
  | @fakeStop n draw asBytes m out hm hout =>
    obtain ⟨inp, messageId, dispatchedAt, hinp, -, rfl⟩ :=
      hi.engineRuns m (List.mem_of_getElem? hm)
    rw [runEngine_queued hu hinp (transient_of_ok hout)] at hout
    cases hout
    exact EngineInv.store hi hinp draw
  | @deliver n asBytes m d i hm hd hi' =>
    refine ⟨hi.dispatches, hi.engineRuns, hi.engineResults, fun x hx => ?_, hi.artifacts,
      hi.documents⟩
    rcases job_of_step (steps_of_step hi') hx with ⟨y, hy, hjob⟩ | hdeliver
    · exact hjob ▸ hi.handled y hy
    · obtain ⟨d', hd', hread⟩ := hi.engineResults m (List.mem_of_getElem? hm)
      rw [hread] at hd
      cases hd
      cases hdeliver
      exact hd'
  | @intake b i hready hi' =>
    refine ⟨hi.dispatches, hi.engineRuns, hi.engineResults, fun x hx => ?_, hi.artifacts,
      hi.documents⟩
    rcases job_of_step (steps_of_step hi') hx with ⟨y, hy, hjob⟩ | rfl
    · exact hjob ▸ hi.handled y hy
    · cases hready
  | @consume n batchId occurredAt asText d payload rr o o' hpub hd hp hinst hn hrr ho =>
    have hset : EngineInv env (w.setInstance batchId (.waiting o')) :=
      EngineInv.setInstance hi fun _ _ h => by cases h
    exact ⟨hset.dispatches, hset.engineRuns, hset.engineResults, hset.handled, hset.artifacts,
      hset.documents⟩
  | @finish batchId finishedAt payload o o' document hp hinst hpend hdoc ho =>
    obtain ⟨payload', hp', hr⟩ := hrec.instances batchId _
      (instances_eq hrep (Function.update_self ..))
    rw [hp] at hp'
    cases hp'
    rw [← hrep.intake] at hr
    refine EngineInv.setInstance hi fun o₁ document₁ h => ⟨payload, hp, fun block hblock => ?_⟩
    cases h
    exact blockSound_of_finalize hu hb hid hi hdoc (PlatformLemmas.findBatch_eq_some hp).1 hr hblock

/-- What a run keeps: the typed platform follows it, and the texts say what they should. -/
theorem engineInv_run (hu : Uuid5Spec env.uuid5) (hb : DistinctBatches env.batches)
    (hid : UuidBatchIds env.batches) {as : List (WireAction φ)}
    (h : Transition.exec (wireStep env) WireState.initial as = some w) :
    EngineInv env w ∧ ∃ s : PlatformState Unit, Represents env w s ∧
      RouteInv env.uuid5 env.promptBlobUri env.batches s ∧
      RecordInv (fun _ => ()) env.uuid5 env.batches s := by
  refine Transition.exec_invariant
    (I := fun v => EngineInv env v ∧ ∃ s : PlatformState Unit, Represents env v s ∧
      RouteInv env.uuid5 env.promptBlobUri env.batches s ∧
      RecordInv (fun _ => ()) env.uuid5 env.batches s) ?_
    ⟨engineInv_initial, PlatformState.initial, represents_initial,
      PlatformLemmas.routeInv_initial, PlatformLemmas.recordInv_initial⟩ h
  rintro v a v' ⟨hi, s, hrep, hroute, hrec⟩ hstep
  have hsteps := wireSteps_of_step hstep
  rcases represents_step hu hrep hroute hsteps with hrep' | ⟨b, s', htyped, hb', hrep'⟩
  · exact ⟨engineInv_step hu hb hid hi hsteps hrep' hrec, s, hrep', hroute, hrec⟩
  · have hsteps' := PlatformLemmas.platformSteps_of_step hb'
    have hrec' := PlatformLemmas.recordInv_step hrec hsteps'
    exact ⟨engineInv_step hu hb hid hi hsteps hrep' hrec', s', hrep',
      PlatformLemmas.routeInv_step hroute (TypedAs.ne_inject htyped) hsteps', hrec'⟩

end WireRunsLemmas

open WireRunsLemmas

/-! ## 6. Whole runs -/

/-- No reader fails on what was written for it: a lookup finds the batch that minted the run id,
the fake engine accepts every message, intake reads a completion as the one of that run, the
orchestrator reads the result that intake raised, and the blocks of every document are sound. -/
structure WireSound (env : WireEnv φ) (w : WireState φ) : Prop where
  lookups : ∀ r, (w.runIndex r = none ∧ w.lookupBatchId env r = .ok none) ∨
    ∃ batchId, w.lookupBatchId env r = .ok (some batchId) ∧
      MintedBy env.uuid5 env.batches r batchId
  engineRuns : ∀ m ∈ w.engineRuns, ∃ inp, env.Dispatched inp ∧ env.Verified inp ∧
    ∀ draw asBytes, draw.transient = false → ∃ out, env.runEngine draw asBytes m = .ok out ∧
      ∀ asBytes, env.readCompletion asBytes out.result = some (env.completion inp draw)
  engineResults : ∀ m ∈ w.engineResults, ∃ d, w.IsCompletion env d ∧
    ∀ asBytes, env.readCompletion asBytes m = some d
  events : ∀ n batchId, (n, batchId) ∈ w.intake.published → ∃ d, w.intake.jobOf n = some d ∧
    w.IsCompletion env d ∧ MintedBy env.uuid5 env.batches d.runId batchId ∧
    ∀ asText, env.readEvent asText d = some d.eventPayload
  once : ∀ r, (raisedFor w.intake r).length ≤ 1
  documents : ∀ batchId o document, w.instances batchId = some (.finished o document) →
    ∃ payload, findBatch env.batches batchId = some payload ∧
      ∀ block ∈ document, payload.BlockSound env block

/-- In every state that a run reaches. -/
theorem wire_run_sound {env : WireEnv φ} (hu : Uuid5Spec env.uuid5)
    (hb : DistinctBatches env.batches) (hid : UuidBatchIds env.batches)
    {as : List (WireAction φ)} {w : WireState φ}
    (h : Transition.exec (wireStep env) WireState.initial as = some w) : WireSound env w := by
  obtain ⟨hi, s, hrep, hroute, hrec⟩ := engineInv_run hu hb hid h
  refine ⟨fun r => ?_, fun m hm => ?_, hi.engineResults, fun n batchId hpub => ?_, fun r => ?_,
    hi.documents⟩
  · rw [lookupBatchId_eq hrep, hrep.runIndex, PlatformState.lookupBatchId]
    cases he : s.runIndex r with
    | none => exact Or.inl ⟨rfl, rfl⟩
    | some e => exact Or.inr ⟨e.batchId, rfl, e.lineage, hroute.lineage r e he, rfl⟩
  · obtain ⟨inp, messageId, dispatchedAt, hinp, hv, rfl⟩ := hi.engineRuns m hm
    exact ⟨inp, hinp, hv, fun draw asBytes ht => ⟨_,
      runEngine_queued hu hinp ht messageId dispatchedAt, readCompletion_output env inp draw⟩⟩
  · rw [hrep.intake] at hpub ⊢
    obtain ⟨d, hd, l, hl, hbatch⟩ :=
      hroute.targets.attempt n batchId (hrec.intake.published.subset hpub)
    obtain ⟨x, hx, hjob⟩ := Option.map_eq_some_iff.mp hd
    have hcompletion := hi.handled x (hrep.intake ▸ List.mem_of_getElem? hx)
    exact ⟨d, hd, hjob ▸ hcompletion, ⟨l, hl, hbatch⟩, fun asText => readEvent_eq asText d⟩
  · rw [hrep.intake]
    exact length_raisedFor_le_one hrec.intake r

end TalentMatch
