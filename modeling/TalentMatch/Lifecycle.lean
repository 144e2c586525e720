import TalentMatch.Submissions

/-!
# The life of a submission

What Durable and the result container hold for a submission, and what can happen to
it: `batch_orchestrator` starts, reports progress, calls `finalize_batch`, projects
its last event and returns; an activity fails; a client cancels; Durable terminates
and purges. An activity that was called before its instance is terminated still runs
to its end.

Results:
1. `slotInv_exec`: an instance has one of five statuses, and a completed one the
   document of `finalize_batch` as its output.
2. `poll_of_ne_completed_instance`, `poll_of_completed`, `poll_of_written`,
   `status_of_poll_missing`: what the API answers a poll.
-/

namespace TalentMatch

open Json (LoadsError)

variable {φ : Type}

/-! ## 1. The store -/

/-- A call of `finalize_batch`: its document, the blob that it writes and the output
of the orchestrator that returns it. -/
structure FinalResult (env : Env φ) (num : Numerics φ) (order : SetOrder) where
  readObject : String → Option (Fields φ)
  cvs : List CvRef
  runResults : List RunEntry
  document : List (CvBlock (Option (CvAggregate φ)))
  text : String
  output : Json φ
  finalized : finalizeDocument num env.str order readObject cvs runResults = .ok document
  loads_text : env.loads text = .ok (resultDocument document)
  isOutput : IsOutput env.loads output (resultDocument document)

/-- How far the orchestrator of an instance is. -/
inductive Stage (R : Type) where
  | collecting
  | finalizing (result : R)
  | announcing (result : R)
  | returned (result : R)

/-- The call of `finalize_batch` that is under way. -/
def Stage.pending {R : Type} : Stage R → List R
  | .finalizing result => [result]
  | _ => []

variable (env : Env φ) (num : Numerics φ) (order : SetOrder)

/-- What there is for one submission: its instance, how far the orchestrator is, the
reason of a termination that was asked for, the result blob, and the calls of
`finalize_batch` that outlived their instance. -/
structure Slot where
  current : Option (DurableInstance φ)
  stage : Stage (FinalResult env num order)
  terminating : Option (Json φ)
  written : Option (FinalResult env num order)
  orphans : List (FinalResult env num order)

/-- What can happen to a submission. Starting is the `start_new` of `http_start`: a
submission that finds an instance changes nothing. -/
inductive SlotAction where
  | start (input : Json φ) (now : String)
  | begin (progress : Progress)
  | setCustomStatus (progress : Progress)
  | callFinalize (result : FinalResult env num order)
  | finalized
  | complete
  | fail (message : String)
  | cancel (occurredAt : String) (req : HostRequest φ)
  | terminate
  | finalizedOrphan (n : Nat)
  | purge

variable {env num order}

/-- The result blob. -/
def Slot.blob (slot : Slot env num order) : Option String := slot.written.map FinalResult.text

/-- An instance that has not ended. -/
def DurableInstance.isOpen (i : DurableInstance φ) : Bool :=
  i.runtimeStatus = .pending || i.runtimeStatus = .running

/-- After `start_new`. -/
def Slot.started (slot : Slot env num order) (input : Json φ) (now : String) :
    Slot env num order :=
  { slot with
    current := some (.started input now)
    stage := .collecting
    terminating := none }

/-- After a call of `http_terminate`. -/
def Slot.cancel (submissionId occurredAt : String) (req : HostRequest φ)
    (slot : Slot env num order) : Slot env num order :=
  { slot with
    terminating :=
      match (httpTerminate env submissionId occurredAt req
        (env.getStatus (fun _ => slot.current) submissionId)).reason with
      | some reason => some reason
      | none => slot.terminating }

/-- A step of the submission `submissionId`. -/
def slotStep (submissionId : String) (slot : Slot env num order) :
    SlotAction env num order → Option (Slot env num order)
  | .start input now =>
    match slot.current with
    | some _ => none
    | none => some (slot.started input now)
  | .begin progress =>
    match slot.current with
    | some i =>
      if i.runtimeStatus = .pending then
        some
          { slot with
            current := some { i with runtimeStatus := .running, customStatus := some progress } }
      else none
    | none => none
  | .setCustomStatus progress =>
    match slot.current with
    | some i =>
      if i.runtimeStatus = .running then
        some { slot with current := some { i with customStatus := some progress } }
      else none
    | none => none
  | .callFinalize result =>
    match slot.current, slot.stage with
    | some i, .collecting =>
      if i.runtimeStatus = .running then some { slot with stage := .finalizing result } else none
    | _, _ => none
  | .finalized =>
    match slot.current, slot.stage with
    | some i, .finalizing result =>
      if i.runtimeStatus = .running then
        some { slot with stage := .announcing result, written := some result }
      else none
    | _, _ => none
  | .complete =>
    match slot.current, slot.stage with
    | some i, .announcing result =>
      if i.runtimeStatus = .running then
        some
          { slot with
            current := some { i with runtimeStatus := .completed, output := result.output }
            stage := .returned result }
      else none
    | _, _ => none
  | .fail message =>
    match slot.current with
    | some i =>
      if i.isOpen then
        some
          { slot with current := some { i with runtimeStatus := .failed, output := .str message } }
      else none
    | none => none
  | .cancel occurredAt req => some (slot.cancel submissionId occurredAt req)
  | .terminate =>
    match slot.current, slot.terminating with
    | some i, some reason =>
      if i.isOpen then
        some
          { slot with
            current := some { i with runtimeStatus := .terminated, output := reason }
            orphans := slot.orphans ++ slot.stage.pending }
      else none
    | _, _ => none
  | .finalizedOrphan n =>
    match slot.orphans[n]? with
    | some result =>
      some { slot with written := some result, orphans := slot.orphans.eraseIdx n }
    | none => none
  | .purge =>
    match slot.current with
    | some i => if i.isOpen then none else some { slot with current := none }
    | none => none

/-- What a step can do. -/
inductive SlotSteps (submissionId : String) (slot : Slot env num order) :
    SlotAction env num order → Slot env num order → Prop
  | started {input : Json φ} {now : String} (hnone : slot.current = none) :
      SlotSteps submissionId slot (.start input now) (slot.started input now)
  | begun {i : DurableInstance φ} {progress : Progress} (hi : slot.current = some i)
      (hs : i.runtimeStatus = .pending) :
      SlotSteps submissionId slot (.begin progress)
        { slot with
          current := some { i with runtimeStatus := .running, customStatus := some progress } }
  | reported {i : DurableInstance φ} {progress : Progress} (hi : slot.current = some i)
      (hs : i.runtimeStatus = .running) :
      SlotSteps submissionId slot (.setCustomStatus progress)
        { slot with current := some { i with customStatus := some progress } }
  | finalizing {i : DurableInstance φ} {result : FinalResult env num order}
      (hi : slot.current = some i) (hs : i.runtimeStatus = .running)
      (hstage : slot.stage = .collecting) :
      SlotSteps submissionId slot (.callFinalize result)
        { slot with stage := .finalizing result }
  | finalized {i : DurableInstance φ} {result : FinalResult env num order}
      (hi : slot.current = some i) (hs : i.runtimeStatus = .running)
      (hstage : slot.stage = .finalizing result) :
      SlotSteps submissionId slot .finalized
        { slot with stage := .announcing result, written := some result }
  | completed {i : DurableInstance φ} {result : FinalResult env num order}
      (hi : slot.current = some i) (hs : i.runtimeStatus = .running)
      (hstage : slot.stage = .announcing result) :
      SlotSteps submissionId slot .complete
        { slot with
          current := some { i with runtimeStatus := .completed, output := result.output }
          stage := .returned result }
  | failed {i : DurableInstance φ} {message : String} (hi : slot.current = some i)
      (hopen : i.isOpen = true) :
      SlotSteps submissionId slot (.fail message)
        { slot with current := some { i with runtimeStatus := .failed, output := .str message } }
  | cancelled {occurredAt : String} {req : HostRequest φ} :
      SlotSteps submissionId slot (.cancel occurredAt req)
        (slot.cancel submissionId occurredAt req)
  | terminated {i : DurableInstance φ} {reason : Json φ} (hi : slot.current = some i)
      (hreason : slot.terminating = some reason) (hopen : i.isOpen = true) :
      SlotSteps submissionId slot .terminate
        { slot with
          current := some { i with runtimeStatus := .terminated, output := reason }
          orphans := slot.orphans ++ slot.stage.pending }
  | finalizedOrphan {n : Nat} {result : FinalResult env num order}
      (hresult : slot.orphans[n]? = some result) :
      SlotSteps submissionId slot (.finalizedOrphan n)
        { slot with written := some result, orphans := slot.orphans.eraseIdx n }
  | purged {i : DurableInstance φ} (hi : slot.current = some i) (hopen : i.isOpen = false) :
      SlotSteps submissionId slot .purge { slot with current := none }

theorem slotSteps_of_step {submissionId : String} {slot slot' : Slot env num order}
    {a : SlotAction env num order} (h : slotStep submissionId slot a = some slot') :
    SlotSteps submissionId slot a slot' := by
  cases a with
  | start input now =>
    simp only [slotStep] at h
    split at h
    · cases h
    · next hnone =>
      cases h
      exact .started hnone
  | begin progress =>
    simp only [slotStep] at h
    split at h
    · next i hi =>
      split at h
      · next hs =>
        cases h
        exact .begun hi hs
      · cases h
    · cases h
  | setCustomStatus progress =>
    simp only [slotStep] at h
    split at h
    · next i hi =>
      split at h
      · next hs =>
        cases h
        exact .reported hi hs
      · cases h
    · cases h
  | callFinalize result =>
    simp only [slotStep] at h
    split at h
    · next i hi hstage =>
      split at h
      · next hs =>
        cases h
        exact .finalizing hi hs hstage
      · cases h
    · cases h
  | finalized =>
    simp only [slotStep] at h
    split at h
    · next i result hi hstage =>
      split at h
      · next hs =>
        cases h
        exact .finalized hi hs hstage
      · cases h
    · cases h
  | complete =>
    simp only [slotStep] at h
    split at h
    · next i result hi hstage =>
      split at h
      · next hs =>
        cases h
        exact .completed hi hs hstage
      · cases h
    · cases h
  | fail message =>
    simp only [slotStep] at h
    split at h
    · next i hi =>
      split at h
      · next hopen =>
        cases h
        exact .failed hi hopen
      · cases h
    · cases h
  | cancel occurredAt req =>
    cases h
    exact .cancelled
  | terminate =>
    simp only [slotStep] at h
    split at h
    · next i reason hi hreason =>
      split at h
      · next hopen =>
        cases h
        exact .terminated hi hreason hopen
      · cases h
    · cases h
  | finalizedOrphan n =>
    simp only [slotStep] at h
    split at h
    · next result hresult =>
      cases h
      exact .finalizedOrphan hresult
    · cases h
  | purge =>
    simp only [slotStep] at h
    split at h
    · next i hi =>
      split at h
      · cases h
      · next hopen =>
        cases h
        exact .purged hi (Bool.eq_false_iff.mpr hopen)
    · cases h

/-- A submission that was never started. -/
def Slot.empty : Slot env num order where
  current := none
  stage := .collecting
  terminating := none
  written := none
  orphans := []

/-- What there is for every submission. -/
abbrev Store (env : Env φ) (num : Numerics φ) (order : SetOrder) := String → Slot env num order

/-- A step of some submission. -/
abbrev storeStep :
    Store env num order → String × SlotAction env num order → Option (Store env num order) :=
  Transition.pointwise slotStep

/-- Nothing was submitted. -/
def Store.empty : Store env num order := fun _ => .empty

/-- What Durable holds. -/
def Store.instances (s : Store env num order) : Instances φ := fun id => (s id).current

/-- A call of `submit_batch` leaves the store alone or starts the submission. -/
theorem submitBatch_store (s : Store env num order) (call : SubmitCall) :
    (submitBatch env s.instances call).2 = s.instances ∨
      ∃ input t, storeStep s (call.body.batchId, .start input call.now) = some t ∧
        (submitBatch env s.instances call).2 = t.instances := by
  by_cases hkey : call.Matches
  · cases hi : (s call.body.batchId).current with
    | some i =>
      left
      rw [(SubmissionsLemmas.submitBatch_existing env hkey hi).2]
    | none =>
      right
      have hstart : ∀ input, storeStep s (call.body.batchId, .start input call.now) = some
          (Function.update s call.body.batchId
            ((s call.body.batchId).started input call.now)) := by
        intro input
        simp only [Transition.pointwise, slotStep, hi, Option.map_some]
      refine ⟨mergeTrace call.correlationId call.traceparent (.obj call.body.dump), _,
        hstart _, ?_⟩
      rw [SubmissionsLemmas.submitBatch_new env hkey hi]
      funext id
      show startNew s.instances call.body.batchId _ call.now id =
        (Function.update s call.body.batchId _ id).current
      by_cases hid : id = call.body.batchId
      · rw [hid, startNew_self, Function.update_self]
        rfl
      · rw [startNew_of_ne _ hid, Function.update_of_ne hid]
        rfl
  · left
    rw [SubmissionsLemmas.submitBatch_mismatch hkey]

/-! ## 2. What a run keeps -/

/-- The instance has one of the statuses that the steps give it, and the output of a
completed one is that of `finalize_batch`. -/
structure SlotInv (slot : Slot env num order) : Prop where
  status : ∀ i, slot.current = some i → i.runtimeStatus ∈
    [.pending, .running, .completed, .failed, .terminated]
  returned : ∀ i, slot.current = some i → i.runtimeStatus = .completed →
    ∃ result, slot.stage = .returned result ∧ i.output = result.output

theorem slotInv_empty : SlotInv (Slot.empty : Slot env num order) where
  status _ h := by cases h
  returned _ h := by cases h

/-- A step to an instance that did not complete. -/
theorem SlotInv.of_current {slot : Slot env num order} {i : DurableInstance φ}
    (hcurrent : slot.current = some i)
    (hstatus : i.runtimeStatus ∈ [.pending, .running, .failed, .terminated]) : SlotInv slot where
  status j hj := by
    rw [hcurrent] at hj
    cases hj
    revert hstatus
    cases i.runtimeStatus <;> decide
  returned j hj hcompleted := by
    rw [hcurrent] at hj
    cases hj
    rw [hcompleted] at hstatus
    exact absurd hstatus (by decide)

/-- A step that leaves the instance and the orchestrator where they are. -/
theorem SlotInv.of_eq {slot slot' : Slot env num order} (h : SlotInv slot)
    (hcurrent : slot'.current = slot.current) (hstage : slot'.stage = slot.stage) :
    SlotInv slot' where
  status i hi := h.status i (hcurrent ▸ hi)
  returned i hi hcompleted := hstage ▸ h.returned i (hcurrent ▸ hi) hcompleted

theorem slotInv_step {submissionId : String} {slot slot' : Slot env num order}
    {a : SlotAction env num order} (h : SlotInv slot)
    (hstep : slotStep submissionId slot a = some slot') : SlotInv slot' := by
  cases slotSteps_of_step hstep with
  | started hnone => exact .of_current rfl (by simp [DurableInstance.started])
  | begun hi hs => exact .of_current rfl (by simp)
  | reported hi hs => exact .of_current rfl (by simp [hs])
  | finalizing hi hs hstage => exact .of_current hi (by simp [hs])
  | finalized hi hs hstage => exact .of_current hi (by simp [hs])
  | @completed i result hi hs hstage =>
    refine ⟨fun j hj => ?_, fun j hj _ => ⟨result, rfl, ?_⟩⟩
    · cases hj
      simp
    · cases hj
      rfl
  | failed hi hopen => exact .of_current rfl (by simp)
  | cancelled => exact h.of_eq rfl rfl
  | terminated hi hreason hopen => exact .of_current rfl (by simp)
  | finalizedOrphan hresult => exact h.of_eq rfl rfl
  | purged hi hopen =>
    refine ⟨fun j hj => ?_, fun j hj => ?_⟩
    · cases hj
    · cases hj

/-- The invariant holds of every submission after every run. -/
theorem slotInv_exec {run : List (String × SlotAction env num order)} {s : Store env num order}
    (h : Transition.exec storeStep Store.empty run = some s) (submissionId : String) :
    SlotInv (s submissionId) := by
  have hrun := Transition.exec_localRun h submissionId
  exact Transition.exec_invariant (I := SlotInv) (fun _ _ _ hinv hstep => slotInv_step hinv hstep)
    slotInv_empty hrun

/-! ## 3. Polls -/

/-- What the API answers a poll. -/
def Store.poll (s : Store env num order) (submissionId : String) :
    Except ApiError (BatchStatusResponse φ) :=
  getBatchStatus env s.instances (s submissionId).blob submissionId

/-- Every application of the batch has a run that succeeded with an output that gives
a score. -/
def FinalResult.Scored (result : FinalResult env num order) : Prop :=
  ∀ cv ∈ result.cvs, ScoredApplication num env.str result.readObject result.runResults
    cv.applicationId

/-- A poll that shows the document of `finalize_batch` is answered 'completed' when
the batch is scored, and 502 otherwise. -/
theorem FinalResult.poll_iff (result : FinalResult env num order) {output : Json φ}
    (houtput : IsOutput env.loads output (resultDocument result.document))
    (progress : Option Progress) (submissionId : String) :
    (result.Scored → ∃ response, TalentMatch.poll env.lax env.loads env.isZero submissionId
        (completedStatus progress output) = .ok response ∧ response.status = .completed) ∧
      (¬ result.Scored → ∃ detail, TalentMatch.poll env.lax env.loads env.isZero submissionId
        (completedStatus progress output) =
          .error (.problemDetail 502 "Upstream contract error" detail)) := by
  have hdecision : ∀ b ∈ result.document, ∀ a, b.aggregated = some a → a.finalDecision.isSome :=
    fun b hb a ha => aggregateRuns_decision (ha ▸ (block_finalizeDocument result.finalized hb).1)
  rw [poll_completed progress submissionId houtput]
  unfold FinalResult.Scored
  rw [← scored_iff result.finalized]
  rcases checkDocument_cases hdecision with ⟨hok, hscored⟩ | ⟨⟨detail, herror⟩, b, hb, hnone⟩
  · rw [hok]
    exact ⟨fun _ => ⟨_, rfl, rfl⟩, fun hnot => absurd hscored hnot⟩
  · rw [herror]
    exact ⟨fun hscored => absurd (hscored b hb) hnone, fun _ => ⟨detail, rfl⟩⟩

section Polls
variable {s : Store env num order} {submissionId : String}

/-- An instance that did not complete is answered with its status. -/
theorem poll_of_ne_completed_instance {i : DurableInstance φ}
    (hi : (s submissionId).current = some i) (hne : i.runtimeStatus ≠ .completed) :
    ∃ response, s.poll submissionId = .ok response ∧
      response.status = i.runtimeStatus.batchStatus :=
  getBatchStatus_of_ne_completed _ hi hne

/-- A completed instance is answered 'completed' or 502. -/
theorem poll_of_completed {i : DurableInstance φ} {result : FinalResult env num order}
    (hi : (s submissionId).current = some i) (hcompleted : i.runtimeStatus = .completed)
    (houtput : i.output = result.output) :
    (result.Scored → ∃ response, s.poll submissionId = .ok response ∧
        response.status = .completed) ∧
      (¬ result.Scored → ∃ detail, s.poll submissionId =
        .error (.problemDetail 502 "Upstream contract error" detail)) := by
  have hisOutput : IsOutput env.loads i.output (resultDocument result.document) :=
    houtput ▸ result.isOutput
  unfold Store.poll
  rw [getBatchStatus_completed _ hi hcompleted hisOutput]
  exact result.poll_iff hisOutput i.customStatus submissionId

/-- So is a result blob without an instance, if the API can read it. -/
theorem poll_of_written {result : FinalResult env num order}
    (hnone : (s submissionId).current = none) (hwritten : (s submissionId).written = some result)
    (haccount : env.blobAccount ≠ "") :
    (result.Scored → ∃ response, s.poll submissionId = .ok response ∧
        response.status = .completed) ∧
      (¬ result.Scored → ∃ detail, s.poll submissionId =
        .error (.problemDetail 502 "Upstream contract error" detail)) := by
  unfold Store.poll Slot.blob
  rw [hwritten, Option.map_some, getBatchStatus_blob hnone haccount result.loads_text]
  exact result.poll_iff (.inl rfl) none submissionId

/-- Without an instance the only status that is answered is 'completed'. -/
theorem status_of_poll_missing {response : BatchStatusResponse φ}
    (hnone : (s submissionId).current = none) (h : s.poll submissionId = .ok response) :
    response.status = .completed :=
  status_of_getBatchStatus_missing hnone h

end Polls

/-! ## 4. A sample batch -/

namespace Sample

/-- What `finalize_batch` writes for a batch with one application that is scored. -/
def resultText : String :=
  "\x7b\"cvs\": [\x7b\"applicationId\": \"app-2\", \"documentId\": \"cv-app-2\", \"runs\": [\x7b" ++
  "\"runId\": \"0c6c49f9-bfe7-5329-ba7e-8e851db2833e\", \"runIndex\": 0, " ++
  "\"documentId\": \"cv-app-2\", \"status\": \"Succeeded\", \"durationMs\": 1200, " ++
  "\"tokensPrompt\": 310, \"tokensCompletion\": 88, \"correlationId\": null, " ++
  "\"traceparent\": null, \"artifacts\": [\x7b\"name\": \"output.json\", \"blob_uri\": " ++
  "\"https://awrstore.blob.core.windows.net/runs/app-2/output.json\", \"mime\": null, " ++
  "\"size_bytes\": null, \"sha256\": null\x7d], \"errorMessage\": null\x7d], \"aggregated\": " ++
  "\x7b\"finalScore\": 8.0, \"variance\": 0.0, \"finalDecision\": \"Approve\", " ++
  "\"mustHaveResult\": true, \"sourceArtifacts\": [\x7b\"name\": \"output.json\", \"blob_uri\": " ++
  "\"https://awrstore.blob.core.windows.net/runs/app-2/output.json\", \"sha256\": null\x7d], " ++
  "\"runsCount\": 1\x7d, \"error\": null\x7d]\x7d"

/-- Its document. -/
def scoredDocument : List (CvBlock (Option (CvAggregate ℚ))) :=
  (finalized ["app-2"]).toOption.getD []

/-- `json.loads` on that text. -/
def loadsResult (text : String) : Except LoadsError (Json ℚ) :=
  if text = resultText then .ok (resultDocument scoredDocument) else .error .decode

theorem loadsResult_resultText : loadsResult resultText = .ok (resultDocument scoredDocument) := by
  unfold loadsResult
  rw [if_pos rfl]

def hostEnv : Env ℚ := Sample.env loadsResult

theorem hostEnv_loads : hostEnv.loads = loadsResult := rfl

def finalResult : FinalResult hostEnv numerics setOrder where
  readObject := readObject
  cvs := [cv "app-2"]
  runResults := mixedEntries
  document := scoredDocument
  text := resultText
  output := resultDocument scoredDocument
  finalized := rfl
  loads_text := by rw [hostEnv_loads, loadsResult_resultText]
  isOutput := .inl rfl

theorem finalResult_scored : finalResult.Scored := by
  intro cv hcv
  rw [List.mem_singleton.mp hcv]
  refine ⟨_, List.mem_cons_of_mem _ List.mem_cons_self, rfl, rfl, _, rfl, ?_⟩
  exact ⟨⟨some 8, true, "Approve"⟩, rfl, rfl⟩

/-- The orchestrator of the batch up to its last event. -/
def upToLastEvent : List (SlotAction hostEnv numerics setOrder) :=
  [.start (.obj duplicateRequest.dump) "2025-01-01T00:00:00+00:00",
    .begin (buildInitialProgress uuid5 (payload batch1 ["app-2"] 0) "2025-01-01T00:00:05+00:00"),
    .callFinalize finalResult, .finalized]

/-- The whole of it. -/
def completedRun : List (SlotAction hostEnv numerics setOrder) := upToLastEvent ++ [.complete]

end Sample

end TalentMatch
