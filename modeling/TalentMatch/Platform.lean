import TalentMatch.Dispatch
import TalentMatch.Intake

/-!
# The platform

Batches that run at the same time, with everything between them: the dispatch
activities, the queue `engine-runs`, replies in flight over Service Bus and HTTP,
result intake with its markers, and the orchestrator instances with their progress
and result documents. The steps of all parties interleave in any order.

Activities can be executed again, a reply can be delivered any number of times,
and `inject` puts a delivery in flight that answers no message. A blob read sees
every completed write, a marker is never deleted, and Durable hands each raised
event once to the task that waits on its name.

Results:
1. `one_event_per_run`: at most one event is raised for a run id, and what a batch
   records about a run are the fields of the delivery that made its marker.
2. `routing_exact`: without injected deliveries, every message and reply has its
   run-index blob, all stores agree on the lineage of a run id, and events go to
   the batch that minted it.
-/

namespace TalentMatch

open ClaimOnce IntakeState

/-! ## 1. States and steps -/

/-- How far an execution of `dispatch_run` is. -/
inductive DispatchPc where
  | started
  | indexed (dispatchedAt : String)
  | sent
  deriving DecidableEq

/-- An execution of `dispatch_run`. -/
structure DispatchExec where
  input : DispatchRunInput
  pc : DispatchPc
  deriving DecidableEq

/-- An orchestrator instance: it dispatches, waits for results, or has finalised
its batch. -/
inductive Instance (A : Type*) where
  | dispatching (createdAt : String)
  | waiting (s : OrchState)
  | finished (s : OrchState) (document : List (CvBlock A))

/-- The state of the platform. Instances are named by their batch id; `delivered`
are the handlers whose event was handed to its task. -/
structure PlatformState (A : Type*) where
  dispatches : List DispatchExec
  runIndex : String → Option RunIndexEntry
  engineRuns : List RunMessage
  inFlight : List Delivery
  intake : IntakeState
  instances : String → Option (Instance A)
  delivered : List Nat

/-- What can happen next. -/
inductive PlatformAction where
  | startBatch (batchId createdAt : String)
  | dispatch (batchId : String) (position : Nat)
  | writeIndex (n : Nat) (dispatchedAt : String)
  | sendRun (n : Nat) (messageId : String)
  | awaitResults (batchId dispatchedAt : String)
  | takeRun (n : Nat)
  | reply (n : Nat) (d : Delivery)
  | inject (d : Delivery)
  | intake (a : IntakeAction)
  | consume (n : Nat) (occurredAt : String)
  | finish (batchId finishedAt : String)
  deriving DecidableEq

namespace PlatformState
variable {A : Type*}

def initial : PlatformState A where
  dispatches := []
  runIndex := fun _ => none
  engineRuns := []
  inFlight := []
  intake := State.initial
  instances := fun _ => none
  delivered := []

/-- `_lookup_batch_id`. -/
def lookupBatchId (s : PlatformState A) (runId : String) : Option String :=
  (s.runIndex runId).map RunIndexEntry.batchId

/-- The instance of a batch moves on. -/
def setInstance (s : PlatformState A) (batchId : String) (inst : Instance A) : PlatformState A :=
  { s with instances := Function.update s.instances batchId (some inst) }

end PlatformState

/-- The batch with the given id. -/
def findBatch (batches : List BatchPayload) (batchId : String) : Option BatchPayload :=
  batches.find? fun payload => payload.batchId = batchId

section Platform
variable {A : Type*} (aggregate : List RunPayload → A) (uuid5 : String → String)
  (promptBlobUri : String → String) (batches : List BatchPayload)

/-- Intake starts on deliveries that are in flight. -/
def intakeEnabled (s : PlatformState A) : IntakeAction → Prop
  | .deliver d => d ∈ s.inFlight
  | _ => True

instance (s : PlatformState A) : (a : IntakeAction) → Decidable (intakeEnabled s a)
  | .deliver d => inferInstanceAs (Decidable (d ∈ s.inFlight))
  | .lookup _ => isTrue trivial
  | .claim _ => isTrue trivial
  | .publish _ _ => isTrue trivial
  | .finish _ => isTrue trivial
  | .stop _ => isTrue trivial

/-- One step of some party. -/
def platformStep (s : PlatformState A) : PlatformAction → Option (PlatformState A)
  | .startBatch batchId createdAt =>
    match findBatch batches batchId, s.instances batchId with
    | some _, none => some (s.setInstance batchId (.dispatching createdAt))
    | _, _ => none
  | .dispatch batchId position =>
    match findBatch batches batchId, s.instances batchId with
    | some payload, some _ =>
      match (payload.dispatchInputs uuid5 (promptBlobUri batchId))[position]? with
      | some inp => some { s with dispatches := s.dispatches ++ [⟨inp, .started⟩] }
      | none => none
    | _, _ => none
  | .writeIndex n dispatchedAt =>
    match s.dispatches[n]? with
    | some ⟨inp, .started⟩ =>
      some { s with
        dispatches := s.dispatches.set n ⟨inp, .indexed dispatchedAt⟩
        runIndex := Function.update s.runIndex inp.runId (some (inp.indexEntry dispatchedAt)) }
    | _ => none
  | .sendRun n messageId =>
    match s.dispatches[n]? with
    | some ⟨inp, .indexed dispatchedAt⟩ =>
      some { s with
        dispatches := s.dispatches.set n ⟨inp, .sent⟩
        engineRuns := s.engineRuns ++ [inp.runMessage messageId dispatchedAt] }
    | _ => none
  | .awaitResults batchId dispatchedAt =>
    match findBatch batches batchId, s.instances batchId with
    | some payload, some (.dispatching createdAt) =>
      -- `task_all` over the dispatch activities
      if ∀ inp ∈ payload.dispatchInputs uuid5 (promptBlobUri batchId),
          ⟨inp, .sent⟩ ∈ s.dispatches then
        (start uuid5 payload createdAt dispatchedAt).map fun o =>
          s.setInstance batchId (.waiting o)
      else none
    | _, _ => none
  | .takeRun n =>
    if n < s.engineRuns.length then some { s with engineRuns := s.engineRuns.eraseIdx n } else none
  | .reply n d =>
    match s.engineRuns[n]? with
    | some m => if d.runId = m.runId then some { s with inFlight := s.inFlight ++ [d] } else none
    | none => none
  | .inject d => some { s with inFlight := s.inFlight ++ [d] }
  | .intake a =>
    if intakeEnabled s a then
      (intakeStep s.lookupBatchId s.intake a).map fun i => { s with intake := i }
    else none
  | .consume n occurredAt =>
    match s.intake.published.find? fun p => p.1 = n with
    | none => none
    | some (_, batchId) =>
      match s.intake.jobOf n, findBatch batches batchId, s.instances batchId with
      | some d, some payload, some (.waiting o) =>
        if n ∈ s.delivered then none
        else
          (consume uuid5 payload o ⟨d.eventPayload, occurredAt⟩).map fun o' =>
            { s.setInstance batchId (.waiting o') with delivered := n :: s.delivered }
      | _, _, _ => none
  | .finish batchId finishedAt =>
    match findBatch batches batchId, s.instances batchId with
    | some payload, some (.waiting o) =>
      if o.pendingEvents = [] then
        (finalDocument aggregate uuid5 payload o).bind fun document =>
          (finish payload o finishedAt).map fun o' =>
            s.setInstance batchId (.finished o' document)
      else none
    | _, _ => none

/-- What a step can do. -/
inductive PlatformSteps (s : PlatformState A) : PlatformAction → PlatformState A → Prop
  | startBatch {batchId createdAt : String} {payload : BatchPayload}
      (hp : findBatch batches batchId = some payload) (hnone : s.instances batchId = none) :
      PlatformSteps s (.startBatch batchId createdAt)
        (s.setInstance batchId (.dispatching createdAt))
  | dispatch {batchId : String} {position : Nat} {payload : BatchPayload} {inp : DispatchRunInput}
      (hp : findBatch batches batchId = some payload)
      (hinp : (payload.dispatchInputs uuid5 (promptBlobUri batchId))[position]? = some inp) :
      PlatformSteps s (.dispatch batchId position)
        { s with dispatches := s.dispatches ++ [⟨inp, .started⟩] }
  | writeIndex {n : Nat} {dispatchedAt : String} {inp : DispatchRunInput}
      (hn : s.dispatches[n]? = some ⟨inp, .started⟩) :
      PlatformSteps s (.writeIndex n dispatchedAt)
        { s with
          dispatches := s.dispatches.set n ⟨inp, .indexed dispatchedAt⟩
          runIndex := Function.update s.runIndex inp.runId (some (inp.indexEntry dispatchedAt)) }
  | sendRun {n : Nat} {messageId dispatchedAt : String} {inp : DispatchRunInput}
      (hn : s.dispatches[n]? = some ⟨inp, .indexed dispatchedAt⟩) :
      PlatformSteps s (.sendRun n messageId)
        { s with
          dispatches := s.dispatches.set n ⟨inp, .sent⟩
          engineRuns := s.engineRuns ++ [inp.runMessage messageId dispatchedAt] }
  | awaitResults {batchId dispatchedAt createdAt : String} {payload : BatchPayload} {o : OrchState}
      (hp : findBatch batches batchId = some payload)
      (hi : s.instances batchId = some (.dispatching createdAt))
      (hsent : ∀ inp ∈ payload.dispatchInputs uuid5 (promptBlobUri batchId),
        ⟨inp, .sent⟩ ∈ s.dispatches)
      (ho : start uuid5 payload createdAt dispatchedAt = some o) :
      PlatformSteps s (.awaitResults batchId dispatchedAt) (s.setInstance batchId (.waiting o))
  | takeRun (n : Nat) :
      PlatformSteps s (.takeRun n) { s with engineRuns := s.engineRuns.eraseIdx n }
  | reply {n : Nat} {d : Delivery} {m : RunMessage} (hm : s.engineRuns[n]? = some m)
      (hd : d.runId = m.runId) :
      PlatformSteps s (.reply n d) { s with inFlight := s.inFlight ++ [d] }
  | inject (d : Delivery) : PlatformSteps s (.inject d) { s with inFlight := s.inFlight ++ [d] }
  | intake {a : IntakeAction} {i : IntakeState} (hen : intakeEnabled s a)
      (hi : Steps s.lookupBatchId Delivery.runId s.intake a i) :
      PlatformSteps s (.intake a) { s with intake := i }
  | consume {n : Nat} {batchId occurredAt : String} {d : Delivery} {payload : BatchPayload}
      {o o' : OrchState} (hpub : (n, batchId) ∈ s.intake.published)
      (hd : s.intake.jobOf n = some d) (hp : findBatch batches batchId = some payload)
      (hi : s.instances batchId = some (.waiting o))
      (ho : consume uuid5 payload o ⟨d.eventPayload, occurredAt⟩ = some o') :
      PlatformSteps s (.consume n occurredAt)
        { s.setInstance batchId (.waiting o') with delivered := n :: s.delivered }
  | finish {batchId finishedAt : String} {payload : BatchPayload} {o o' : OrchState}
      {document : List (CvBlock A)} (hp : findBatch batches batchId = some payload)
      (hi : s.instances batchId = some (.waiting o)) (hpend : o.pendingEvents = [])
      (hdoc : finalDocument aggregate uuid5 payload o = some document)
      (ho : TalentMatch.finish payload o finishedAt = some o') :
      PlatformSteps s (.finish batchId finishedAt) (s.setInstance batchId (.finished o' document))

end Platform

namespace PlatformLemmas

variable {A : Type*} {aggregate : List RunPayload → A} {uuid5 : String → String}
  {promptBlobUri : String → String} {batches : List BatchPayload} {s s' : PlatformState A}
  {a : PlatformAction}

theorem platformSteps_of_step
    (h : platformStep aggregate uuid5 promptBlobUri batches s a = some s') :
    PlatformSteps aggregate uuid5 promptBlobUri batches s a s' := by
  cases a with
  | startBatch batchId createdAt =>
    simp only [platformStep] at h
    split at h
    · next payload hp hnone =>
      cases h
      exact .startBatch hp hnone
    · cases h
  | dispatch batchId position =>
    simp only [platformStep] at h
    split at h
    · next payload _ hp _ =>
      split at h
      · next inp hinp =>
        cases h
        exact .dispatch hp hinp
      · cases h
    · cases h
  | writeIndex n dispatchedAt =>
    simp only [platformStep] at h
    split at h
    · next inp hn =>
      cases h
      exact .writeIndex hn
    · cases h
  | sendRun n messageId =>
    simp only [platformStep] at h
    split at h
    · next inp dispatchedAt hn =>
      cases h
      exact .sendRun hn
    · cases h
  | awaitResults batchId dispatchedAt =>
    simp only [platformStep] at h
    split at h
    · next payload createdAt hp hi =>
      split at h
      · next hsent =>
        obtain ⟨o, ho, rfl⟩ := Option.map_eq_some_iff.mp h
        exact .awaitResults hp hi hsent ho
      · cases h
    · cases h
  | takeRun n =>
    simp only [platformStep] at h
    split at h
    · cases h
      exact .takeRun n
    · cases h
  | reply n d =>
    simp only [platformStep] at h
    split at h
    · next m hm =>
      split at h
      · next hd =>
        cases h
        exact .reply hm hd
      · cases h
    · cases h
  | inject d =>
    cases h
    exact .inject d
  | intake a =>
    simp only [platformStep] at h
    split at h
    · next hen =>
      obtain ⟨i, hi, rfl⟩ := Option.map_eq_some_iff.mp h
      exact .intake hen (steps_of_step hi)
    · cases h
  | consume n occurredAt =>
    simp only [platformStep] at h
    split at h
    · cases h
    · next m batchId hfind =>
      split at h
      · next d payload o hd hp hi =>
        split at h
        · cases h
        · obtain ⟨o', ho, rfl⟩ := Option.map_eq_some_iff.mp h
          have hm : m = n := by simpa using List.find?_some hfind
          subst hm
          exact .consume (List.mem_of_find?_eq_some hfind) hd hp hi ho
      · cases h
  | finish batchId finishedAt =>
    simp only [platformStep] at h
    split at h
    · next payload o hp hi =>
      split at h
      · next hpend =>
        obtain ⟨document, hdoc, h⟩ := Option.bind_eq_some_iff.mp h
        obtain ⟨o', ho, rfl⟩ := Option.map_eq_some_iff.mp h
        exact .finish hp hi hpend hdoc ho
      · cases h
    · cases h

theorem findBatch_eq_some {batchId : String} {payload : BatchPayload}
    (h : findBatch batches batchId = some payload) :
    payload ∈ batches ∧ payload.batchId = batchId :=
  ⟨List.mem_of_find?_eq_some h, by simpa using List.find?_some h⟩

theorem instances_setInstance {batchId batchId' : String} {inst inst' : Instance A}
    (h : (s.setInstance batchId inst).instances batchId' = some inst') :
    (batchId' = batchId ∧ inst' = inst) ∨ s.instances batchId' = some inst' := by
  have hset : (s.setInstance batchId inst).instances =
      Function.update s.instances batchId (some inst) := rfl
  rw [hset, Function.update_apply] at h
  split at h
  · next heq =>
    cases h
    exact Or.inl ⟨heq, rfl⟩
  · exact Or.inr h

end PlatformLemmas

/-! ## 2. What a batch records -/

/-- The result is the event payload of the delivery that made the marker of its
run. -/
def FromMarker (i : IntakeState) (rr : RunResult) : Prop :=
  ∃ n d, i.markers rr.runId = some n ∧ i.jobOf n = some d ∧ rr = d.eventPayload

section Recorded
variable {A : Type*} (aggregate : List RunPayload → A) (uuid5 : String → String)

/-- The progress document of an instance. -/
def Instance.progress (payload : BatchPayload) : Instance A → Progress
  | .dispatching createdAt => buildInitialProgress uuid5 payload createdAt
  | .waiting o => o.progress
  | .finished o _ => o.progress

/-- An instance is where `batch_orchestrator` can be after consuming results, all
of which come from markers. -/
def Recorded (i : IntakeState) (payload : BatchPayload) : Instance A → Prop
  | .dispatching _ => True
  | .waiting o => ∃ createdAt dispatchedAt arrivals,
      waitLoop uuid5 payload createdAt dispatchedAt arrivals = some o ∧
        ∀ a ∈ arrivals, FromMarker i a.result
  | .finished o document => ∃ createdAt dispatchedAt finishedAt arrivals o₀,
      waitLoop uuid5 payload createdAt dispatchedAt arrivals = some o₀ ∧
        (∀ a ∈ arrivals, FromMarker i a.result) ∧
        finalDocument aggregate uuid5 payload o₀ = some document ∧
        finish payload o₀ finishedAt = some o

/-- Markers, handlers and events agree, and so do the instances with them. -/
structure RecordInv (batches : List BatchPayload) (s : PlatformState A) : Prop where
  intake : Inv Delivery.runId s.intake
  instances : ∀ batchId inst, s.instances batchId = some inst →
    ∃ payload, findBatch batches batchId = some payload ∧
      Recorded aggregate uuid5 s.intake payload inst

end Recorded

namespace PlatformLemmas

variable {A : Type*} {aggregate : List RunPayload → A} {uuid5 : String → String}
  {promptBlobUri : String → String} {batches : List BatchPayload} {s s' : PlatformState A}
  {a : PlatformAction}

theorem FromMarker.mono {look : String → Option String} {i i' : IntakeState} {a : IntakeAction}
    (h : Steps look Delivery.runId i a i') {rr : RunResult} (hf : FromMarker i rr) :
    FromMarker i' rr := by
  obtain ⟨n, d, hm, hd, heq⟩ := hf
  exact ⟨n, d, markers_step h hm, jobOf_step h hd, heq⟩

theorem Recorded.mono {look : String → Option String} {i i' : IntakeState} {a : IntakeAction}
    (h : Steps look Delivery.runId i a i') {payload : BatchPayload} {inst : Instance A}
    (hr : Recorded aggregate uuid5 i payload inst) : Recorded aggregate uuid5 i' payload inst := by
  cases inst with
  | dispatching createdAt => trivial
  | waiting o =>
    obtain ⟨createdAt, dispatchedAt, arrivals, hs, hf⟩ := hr
    exact ⟨createdAt, dispatchedAt, arrivals, hs, fun a ha => FromMarker.mono h (hf a ha)⟩
  | finished o document =>
    obtain ⟨createdAt, dispatchedAt, finishedAt, arrivals, o₀, hs, hf, hrest⟩ := hr
    exact ⟨createdAt, dispatchedAt, finishedAt, arrivals, o₀, hs,
      fun a ha => FromMarker.mono h (hf a ha), hrest⟩

/-- An instance moves on to one that is recorded. -/
theorem RecordInv.setInstance (hi : RecordInv aggregate uuid5 batches s) {batchId : String}
    {payload : BatchPayload} {inst : Instance A} (hp : findBatch batches batchId = some payload)
    (hr : Recorded aggregate uuid5 s.intake payload inst) :
    RecordInv aggregate uuid5 batches (s.setInstance batchId inst) := by
  refine ⟨hi.intake, fun batchId' inst' h => ?_⟩
  rcases instances_setInstance h with ⟨rfl, rfl⟩ | hold
  · exact ⟨payload, hp, hr⟩
  · exact hi.instances batchId' inst' hold

/-- A published event carries the payload of the delivery that made its marker. -/
theorem fromMarker_of_published (hi : Inv Delivery.runId s.intake) {n : Nat} {batchId : String}
    {d : Delivery} (hpub : (n, batchId) ∈ s.intake.published) (hd : s.intake.jobOf n = some d) :
    FromMarker s.intake d.eventPayload := by
  obtain ⟨d', hd', hm⟩ := hi.attempt n (List.mem_map_of_mem (hi.published.subset hpub))
  rw [hd] at hd'
  cases hd'
  exact ⟨n, d, by rw [Delivery.runId_eventPayload]; exact hm, hd, rfl⟩

theorem recordInv_initial : RecordInv aggregate uuid5 batches (PlatformState.initial : PlatformState A) :=
  ⟨inv_initial, fun _ _ h => by cases h⟩

theorem recordInv_step (hi : RecordInv aggregate uuid5 batches s)
    (h : PlatformSteps aggregate uuid5 promptBlobUri batches s a s') :
    RecordInv aggregate uuid5 batches s' := by
  cases h with
  | startBatch hp hnone => exact RecordInv.setInstance hi hp trivial
  | dispatch hp hinp => exact ⟨hi.intake, hi.instances⟩
  | writeIndex hn => exact ⟨hi.intake, hi.instances⟩
  | sendRun hn => exact ⟨hi.intake, hi.instances⟩
  | @awaitResults batchId dispatchedAt createdAt payload o hp hinst hsent ho =>
    refine RecordInv.setInstance hi hp ⟨createdAt, dispatchedAt, [], ?_, by simp⟩
    rw [waitLoop, ho]
    rfl
  | takeRun n => exact ⟨hi.intake, hi.instances⟩
  | reply hm hd => exact ⟨hi.intake, hi.instances⟩
  | inject d => exact ⟨hi.intake, hi.instances⟩
  | intake hen hsteps =>
    refine ⟨inv_step hi.intake hsteps, fun batchId inst h => ?_⟩
    obtain ⟨payload, hp, hr⟩ := hi.instances batchId inst h
    exact ⟨payload, hp, Recorded.mono hsteps hr⟩
  | @consume n batchId occurredAt d payload o o' hpub hd hp hinst ho =>
    obtain ⟨payload', hp', createdAt, dispatchedAt, arrivals, hs, hf⟩ := hi.instances _ _ hinst
    rw [hp] at hp'
    cases hp'
    have hset : RecordInv aggregate uuid5 batches (s.setInstance batchId (.waiting o')) := by
      refine RecordInv.setInstance hi hp ⟨createdAt, dispatchedAt,
        arrivals ++ [⟨d.eventPayload, occurredAt⟩], waitLoop_snoc hs ho, fun a ha => ?_⟩
      rcases List.mem_append.mp ha with ha | ha
      · exact hf a ha
      · cases List.mem_singleton.mp ha
        exact fromMarker_of_published hi.intake hpub hd
    exact ⟨hset.intake, hset.instances⟩
  | @finish batchId finishedAt payload o o' document hp hinst hpend hdoc ho =>
    obtain ⟨payload', hp', createdAt, dispatchedAt, arrivals, hs, hf⟩ := hi.instances _ _ hinst
    rw [hp] at hp'
    cases hp'
    exact RecordInv.setInstance hi hp
      ⟨createdAt, dispatchedAt, finishedAt, arrivals, o, hs, hf, hdoc, ho⟩

/-- The applications of a recorded instance are the view of a ledger, and the
results in the ledger come from markers. -/
theorem ledger_of_recorded (hu : Uuid5Spec uuid5) {payload : BatchPayload}
    (hd : payload.DistinctApplications) {i : IntakeState} {inst : Instance A}
    (hr : Recorded aggregate uuid5 i payload inst) :
    ∃ L : Ledger, (inst.progress uuid5 payload).applications = (L.render uuid5 payload).applications ∧
      (inst.progress uuid5 payload).batchId = payload.batchId ∧
      ∀ r p, L.results r = some p → p.1.runId = r ∧ FromMarker i p.1 := by
  have hview : ∀ {createdAt dispatchedAt arrivals o},
      waitLoop uuid5 payload createdAt dispatchedAt arrivals = some o →
      (∀ a ∈ arrivals, FromMarker i a.result) →
      o.progress = (ledgerAfter uuid5 payload createdAt dispatchedAt arrivals).render uuid5 payload ∧
        ∀ r p, (ledgerAfter uuid5 payload createdAt dispatchedAt arrivals).results r = some p →
          p.1.runId = r ∧ FromMarker i p.1 := by
    intro createdAt dispatchedAt arrivals o hs hf
    have hone := (waitLoop_isSome_iff hu hd createdAt dispatchedAt).mp (by rw [hs]; rfl)
    obtain ⟨o', hs', -, hw⟩ := waitLoop_spec hu hd createdAt dispatchedAt hone
    rw [hs] at hs'
    cases hs'
    refine ⟨hw.progress_eq, fun r p hp => ?_⟩
    obtain ⟨a, ha, rfl, rfl⟩ := (results_ledgerAfter_iff hone).mp hp
    exact ⟨rfl, hf a ha⟩
  cases inst with
  | dispatching createdAt =>
    refine ⟨Ledger.initial createdAt, ?_, rfl, fun r p hp => by cases hp⟩
    rw [render_initial]
    rfl
  | waiting o =>
    obtain ⟨createdAt, dispatchedAt, arrivals, hs, hf⟩ := hr
    obtain ⟨hprogress, hresults⟩ := hview hs hf
    exact ⟨_, congrArg Progress.applications hprogress, congrArg Progress.batchId hprogress, hresults⟩
  | finished o document =>
    obtain ⟨createdAt, dispatchedAt, finishedAt, arrivals, o₀, hs, hf, hdoc, ho⟩ := hr
    obtain ⟨hprogress, hresults⟩ := hview hs hf
    obtain ⟨o', ho', hfinal⟩ := finish_eq payload o₀ finishedAt
    rw [ho] at ho'
    cases ho'
    have happs : o.progress.applications = o₀.progress.applications := by rw [hfinal]; rfl
    have hbatch : o.progress.batchId = o₀.progress.batchId := by rw [hfinal]; rfl
    exact ⟨_, happs.trans (congrArg Progress.applications hprogress),
      hbatch.trans (congrArg Progress.batchId hprogress), hresults⟩

/-- The entries of the document of a finished instance. -/
theorem run_of_recorded (hu : Uuid5Spec uuid5) {payload : BatchPayload}
    (hd : payload.DistinctApplications) {i : IntakeState} {o : OrchState}
    {document : List (CvBlock A)}
    (hr : Recorded aggregate uuid5 i payload (.finished o document)) {block : CvBlock A}
    (hblock : block ∈ document) {run : RunPayload} (hrun : run ∈ block.runs) :
    ∃ rr, FromMarker i rr ∧ ∃ cv ∈ payload.cvs, ∃ index < payload.runCount,
      payload.runId uuid5 cv index = rr.runId ∧ block.applicationId = cv.applicationId ∧
      block.documentId = cv.documentId ∧
      run = (⟨rr, cv.applicationId, index⟩ : RunEntry).payload cv.documentId := by
  obtain ⟨createdAt, dispatchedAt, finishedAt, arrivals, o₀, hs, hf, hdoc, -⟩ := hr
  have hone := (waitLoop_isSome_iff hu hd createdAt dispatchedAt).mp (by rw [hs]; rfl)
  obtain ⟨o', hs', hresults, -⟩ := waitLoop_spec hu hd createdAt dispatchedAt hone
  rw [hs] at hs'
  cases hs'
  obtain ⟨a, ha, hentry⟩ := run_of_document hu hd hone hresults hdoc hblock hrun
  exact ⟨a.result, hf a ha, hentry⟩

end PlatformLemmas

namespace Sample

/-- Two batches with the same applications. -/
def batches : List BatchPayload := [payload batch1 ["app-1"] 0, payload batch2 ["app-1"] 0]

def promptBlobUri (batchId : String) : String :=
  "https://awrstore.blob.core.windows.net/batch-results/batches/" ++ batchId ++ "/prompt.txt"

/-- The reply to the message of the first batch, over HTTP. -/
def reply : Delivery :=
  .http "c055d77e-9f11-5874-aa97-192185e2def4"
    { status := "Failed"
      durationMs := 900
      tokensPrompt := 300
      tokensCompletion := 0
      errorMessage := some "timeout"
      correlationId := none
      traceparent := none
      artifacts := none }
    "corr-1" ""

/-- Both batches are dispatched; the run of the first one is answered over both
transports, and the batch is finalised. -/
def platformRun : List PlatformAction :=
  [.startBatch batch1 "t0", .startBatch batch2 "t0", .dispatch batch1 0, .dispatch batch2 0,
    .writeIndex 1 "t1", .writeIndex 0 "t1", .sendRun 0 "m-1", .sendRun 1 "m-2",
    .awaitResults batch1 "t2", .reply 0 delivery, .reply 0 reply, .takeRun 0,
    .intake (.deliver delivery), .intake (.deliver reply), .intake (.lookup 0), .intake (.lookup 1),
    .intake (.claim 1), .intake (.claim 0), .intake (.publish 1 true), .intake (.finish 0),
    .intake (.finish 1), .consume 1 "t3", .finish batch1 "t4"]

theorem platformRun_enabled :
    (Transition.exec (platformStep List.length uuid5 promptBlobUri batches)
      PlatformState.initial platformRun).isSome = true := by
  decide +kernel

end Sample

open PlatformLemmas

section OneEvent
variable {A : Type*} (aggregate : List RunPayload → A) (uuid5 : String → String)
  (promptBlobUri : String → String) (batches : List BatchPayload)

/-- At most one event is raised for a run id, and what the progress document and
the result document show about a run are the fields of the event of the delivery
that made the marker of the run. -/
structure OneEventPerRun (s : PlatformState A) : Prop where
  once : ∀ r, (raisedFor s.intake r).length ≤ 1
  progress : ∀ batchId payload inst, findBatch batches batchId = some payload →
    s.instances batchId = some inst →
    ∀ application ∈ (inst.progress uuid5 payload).applications, ∀ run ∈ application.runs,
      run.details ≠ none → ∃ n d t, s.intake.markers run.runId = some n ∧
        s.intake.jobOf n = some d ∧ run.recorded d.eventPayload t = run
  document : ∀ batchId o document, s.instances batchId = some (.finished o document) →
    ∀ block ∈ document, ∀ run ∈ block.runs, ∃ n d, s.intake.markers run.runId = some n ∧
      s.intake.jobOf n = some d ∧ (run.entry block.applicationId).result = d.eventPayload

/-- Over any run of the platform, with any deliveries. -/
theorem one_event_per_run (hu : Uuid5Spec uuid5)
    (hd : ∀ payload ∈ batches, payload.DistinctApplications) {as : List PlatformAction}
    {s : PlatformState A}
    (h : Transition.exec (platformStep aggregate uuid5 promptBlobUri batches)
      PlatformState.initial as = some s) :
    OneEventPerRun uuid5 batches s := by
  have hi : RecordInv aggregate uuid5 batches s :=
    Transition.exec_invariant
      (fun _ _ _ hi hstep => recordInv_step hi (platformSteps_of_step hstep)) recordInv_initial h
  refine ⟨length_raisedFor_le_one hi.intake, ?_, ?_⟩
  · intro batchId payload inst hp hinst application happ run hrun hdetails
    obtain ⟨payload', hp', hr⟩ := hi.instances batchId inst hinst
    rw [hp] at hp'
    cases hp'
    obtain ⟨L, happs, -, hresults⟩ := ledger_of_recorded hu (hd payload (findBatch_eq_some hp).1) hr
    rw [happs] at happ
    obtain ⟨cv, hcv, rfl⟩ := List.mem_map.mp happ
    obtain ⟨index, -, rfl⟩ := LedgerLemmas.mem_renderRuns.mp hrun
    obtain ⟨rr, t, hresult, hsame⟩ := LedgerLemmas.renderRun_recorded hdetails
    obtain ⟨hid, n, d, hm, hjob, rfl⟩ := hresults _ _ hresult
    refine ⟨n, d, t, ?_, hjob, hsame⟩
    rw [LedgerLemmas.renderRun_runId, ← hid]
    exact hm
  · intro batchId o document hinst block hblock run hrun
    obtain ⟨payload, hp, hr⟩ := hi.instances batchId _ hinst
    obtain ⟨rr, ⟨n, d, hm, hjob, rfl⟩, cv, hcv, index, -, hid, happ, -, rfl⟩ :=
      run_of_recorded hu (hd payload (findBatch_eq_some hp).1) hr hblock hrun
    exact ⟨n, d, hm, hjob, rfl⟩

end OneEvent

/-- The theorem on that run. -/
theorem one_event_per_run_sample :
    ∃ s, Transition.exec
        (platformStep List.length Sample.uuid5 Sample.promptBlobUri Sample.batches)
        PlatformState.initial Sample.platformRun = some s ∧
      OneEventPerRun Sample.uuid5 Sample.batches s := by
  obtain ⟨s, hs⟩ := Option.isSome_iff_exists.mp Sample.platformRun_enabled
  exact ⟨s, hs, one_event_per_run List.length Sample.uuid5 Sample.promptBlobUri Sample.batches
    Sample.uuid5_spec (by decide) hs⟩

/-! ## 3. Routing -/

section Route
variable {A : Type*} (uuid5 : String → String) (promptBlobUri : String → String)
  (batches : List BatchPayload)

/-- The batch minted the run id. -/
def MintedBy (runId batchId : String) : Prop :=
  ∃ l, MintedFor uuid5 batches runId l ∧ l.batchId = batchId

/-- Executions are about minted runs and have written the blob when they are past
that; a blob names the lineage of its run; what is queued, in flight or handled has
its blob; and handlers hold the batch that minted their run. -/
structure RouteInv (s : PlatformState A) : Prop where
  input : ∀ x ∈ s.dispatches, ∃ payload ∈ batches,
    x.input ∈ payload.dispatchInputs uuid5 (promptBlobUri payload.batchId)
  indexed : ∀ x ∈ s.dispatches, x.pc ≠ .started → (s.runIndex x.input.runId).isSome
  lineage : ∀ r e, s.runIndex r = some e → MintedFor uuid5 batches r e.lineage
  queued : ∀ m ∈ s.engineRuns, (s.runIndex m.runId).isSome
  inFlight : ∀ d ∈ s.inFlight, (s.runIndex d.runId).isSome
  handled : ∀ w ∈ s.intake.workers, (s.runIndex w.job.runId).isSome
  targets : Targets Delivery.runId (MintedBy uuid5 batches) s.intake

end Route

namespace PlatformLemmas

variable {A : Type*} {aggregate : List RunPayload → A} {uuid5 : String → String}
  {promptBlobUri : String → String} {batches : List BatchPayload} {s s' : PlatformState A}
  {a : PlatformAction}

theorem routeInv_initial :
    RouteInv uuid5 promptBlobUri batches (PlatformState.initial : PlatformState A) where
  input := by simp [PlatformState.initial]
  indexed := by simp [PlatformState.initial]
  lineage := fun _ _ h => by cases h
  queued := by simp [PlatformState.initial]
  inFlight := by simp [PlatformState.initial]
  handled := by simp [PlatformState.initial, State.initial]
  targets := targets_initial

/-- A blob that is written stays, or is written again. -/
theorem isSome_update {f : String → Option RunIndexEntry} {r r' : String} {e : RunIndexEntry}
    (h : (f r').isSome) : (Function.update f r (some e) r').isSome := by
  rw [Function.update_apply]
  split
  · rfl
  · exact h

theorem routeInv_step (hi : RouteInv uuid5 promptBlobUri batches s) (hno : ∀ d, a ≠ .inject d)
    (h : PlatformSteps aggregate uuid5 promptBlobUri batches s a s') :
    RouteInv uuid5 promptBlobUri batches s' := by
  cases h with
  | startBatch hp hnone =>
    exact ⟨hi.input, hi.indexed, hi.lineage, hi.queued, hi.inFlight, hi.handled, hi.targets⟩
  | @dispatch batchId position payload inp hp hinp =>
    obtain ⟨hmem, rfl⟩ := findBatch_eq_some hp
    refine ⟨fun x hx => ?_, fun x hx hpc => ?_, hi.lineage, hi.queued, hi.inFlight, hi.handled,
      hi.targets⟩
    · rcases List.mem_append.mp hx with hx | hx
      · exact hi.input x hx
      · cases List.mem_singleton.mp hx
        exact ⟨payload, hmem, List.mem_of_getElem? hinp⟩
    · rcases List.mem_append.mp hx with hx | hx
      · exact hi.indexed x hx hpc
      · cases List.mem_singleton.mp hx
        exact absurd rfl hpc
  | @writeIndex n dispatchedAt inp hn =>
    have hold := hi.input _ (List.mem_of_getElem? hn)
    refine ⟨fun x hx => ?_, fun x hx hpc => ?_, fun r e he => ?_,
      fun m hm => isSome_update (hi.queued m hm), fun d hd => isSome_update (hi.inFlight d hd),
      fun w hw => isSome_update (hi.handled w hw), hi.targets⟩
    · rcases List.mem_or_eq_of_mem_set hx with hx | rfl
      · exact hi.input x hx
      · exact hold
    · rcases List.mem_or_eq_of_mem_set hx with hx | rfl
      · exact isSome_update (hi.indexed x hx hpc)
      · simp
    · have he' : Function.update s.runIndex inp.runId (some (inp.indexEntry dispatchedAt)) r =
          some e := he
      rw [Function.update_apply] at he'
      split at he'
      · next heq =>
        subst heq
        cases he'
        obtain ⟨payload, hp, hinp⟩ := hold
        exact mintedFor_of_input hp hinp dispatchedAt
      · exact hi.lineage r e he'
  | @sendRun n messageId dispatchedAt inp hn =>
    have hmem := List.mem_of_getElem? hn
    -- the blob was written before the message is sent
    have hindexed : (s.runIndex inp.runId).isSome := hi.indexed _ hmem (by simp)
    refine ⟨fun x hx => ?_, fun x hx hpc => ?_, hi.lineage, fun m hm => ?_, hi.inFlight, hi.handled,
      hi.targets⟩
    · rcases List.mem_or_eq_of_mem_set hx with hx | rfl
      · exact hi.input x hx
      · exact hi.input ⟨inp, .indexed dispatchedAt⟩ hmem
    · rcases List.mem_or_eq_of_mem_set hx with hx | rfl
      · exact hi.indexed x hx hpc
      · exact hindexed
    · rcases List.mem_append.mp hm with hm | hm
      · exact hi.queued m hm
      · cases List.mem_singleton.mp hm
        exact hindexed
  | awaitResults hp hinst hsent ho =>
    exact ⟨hi.input, hi.indexed, hi.lineage, hi.queued, hi.inFlight, hi.handled, hi.targets⟩
  | takeRun n =>
    exact ⟨hi.input, hi.indexed, hi.lineage, fun m hm => hi.queued m (List.mem_of_mem_eraseIdx hm),
      hi.inFlight, hi.handled, hi.targets⟩
  | @reply n d m hm hd =>
    refine ⟨hi.input, hi.indexed, hi.lineage, hi.queued, fun d' hd' => ?_, hi.handled, hi.targets⟩
    rcases List.mem_append.mp hd' with hd' | hd'
    · exact hi.inFlight d' hd'
    · cases List.mem_singleton.mp hd'
      rw [hd]
      exact hi.queued m (List.mem_of_getElem? hm)
  | inject d => exact absurd rfl (hno d)
  | @intake a i hen hsteps =>
    refine ⟨hi.input, hi.indexed, hi.lineage, hi.queued, hi.inFlight, fun w hw => ?_,
      targets_step hi.targets (fun r batchId hlook => ?_) hsteps⟩
    · rcases job_of_step hsteps hw with ⟨w', hw', hjob⟩ | rfl
      · exact hjob ▸ hi.handled w' hw'
      · exact hi.inFlight _ hen
    · obtain ⟨e, he, rfl⟩ := Option.map_eq_some_iff.mp hlook
      exact ⟨e.lineage, hi.lineage r e he, rfl⟩
  | consume hpub hd hp hinst ho =>
    exact ⟨hi.input, hi.indexed, hi.lineage, hi.queued, hi.inFlight, hi.handled, hi.targets⟩
  | finish hp hinst hpend hdoc ho =>
    exact ⟨hi.input, hi.indexed, hi.lineage, hi.queued, hi.inFlight, hi.handled, hi.targets⟩

end PlatformLemmas

section Routing
variable {A : Type*} (aggregate : List RunPayload → A) (uuid5 : String → String)
  (promptBlobUri : String → String) (batches : List BatchPayload)

/-- Every message and reply has its run-index blob, the blob names the lineage of
the run id, the entries of the progress and result documents agree with it, and
events are raised for the batch that it names. -/
structure RoutingExact (s : PlatformState A) : Prop where
  queued : ∀ m ∈ s.engineRuns, (s.runIndex m.runId).isSome
  inFlight : ∀ d ∈ s.inFlight, (s.runIndex d.runId).isSome
  handled : ∀ w ∈ s.intake.workers, (s.runIndex w.job.runId).isSome
  lineage : ∀ r e, s.runIndex r = some e → ∀ l, MintedFor uuid5 batches r l ↔ l = e.lineage
  progress : ∀ batchId payload inst, findBatch batches batchId = some payload →
    s.instances batchId = some inst →
    ∀ application ∈ (inst.progress uuid5 payload).applications, ∀ run ∈ application.runs,
      ∀ e, s.runIndex run.runId = some e →
        e.lineage = ⟨batchId, application.applicationId, application.documentId, run.runIndex⟩
  document : ∀ batchId o document, s.instances batchId = some (.finished o document) →
    ∀ block ∈ document, ∀ run ∈ block.runs, ∀ e, s.runIndex run.runId = some e →
      e.lineage = ⟨batchId, block.applicationId, block.documentId, run.runIndex⟩
  events : ∀ r, ∀ event ∈ raisedFor s.intake r, ∃ e, s.runIndex r = some e ∧
    event.instanceId = e.batchId

/-- Over any run of the platform in which all deliveries answer messages. -/
theorem routing_exact (hu : Uuid5Spec uuid5) (hb : DistinctBatches batches)
    (hid : UuidBatchIds batches) {as : List PlatformAction} (hno : ∀ d, .inject d ∉ as)
    {s : PlatformState A}
    (h : Transition.exec (platformStep aggregate uuid5 promptBlobUri batches)
      PlatformState.initial as = some s) :
    RoutingExact uuid5 batches s := by
  have hrec : RecordInv aggregate uuid5 batches s :=
    Transition.exec_invariant
      (fun _ _ _ hi hstep => recordInv_step hi (platformSteps_of_step hstep)) recordInv_initial h
  have hguard : Transition.Guarded (platformStep aggregate uuid5 promptBlobUri batches)
      (fun _ a => ∀ d, a ≠ .inject d) PlatformState.initial as :=
    Transition.guarded_of_forall fun a ha d heq => hno d (heq ▸ ha)
  have hroute : RouteInv uuid5 promptBlobUri batches s :=
    Transition.guarded_invariant
      (fun _ _ _ hi hanswers hstep => routeInv_step hi hanswers (platformSteps_of_step hstep))
      routeInv_initial hguard h
  have hsame : ∀ {r e l}, s.runIndex r = some e → MintedFor uuid5 batches r l → l = e.lineage :=
    fun he hl => Lineage.unique hu hb hid hl (hroute.lineage _ _ he)
  refine ⟨hroute.queued, hroute.inFlight, hroute.handled, fun r e he l => ?_, ?_, ?_, ?_⟩
  · constructor
    · exact hsame he
    · rintro rfl
      exact hroute.lineage r e he
  · intro batchId payload inst hp hinst application happ run hrun e he
    obtain ⟨payload', hp', hr⟩ := hrec.instances batchId inst hinst
    rw [hp] at hp'
    cases hp'
    obtain ⟨hmem, rfl⟩ := findBatch_eq_some hp
    obtain ⟨L, happs, -, -⟩ := ledger_of_recorded hu (hb.applications payload hmem) hr
    rw [happs] at happ
    exact (hsame he (filed_render hmem L application happ run hrun)).symm
  · intro batchId o document hinst block hblock run hrun e he
    obtain ⟨payload, hp, hr⟩ := hrec.instances batchId _ hinst
    obtain ⟨hmem, rfl⟩ := findBatch_eq_some hp
    obtain ⟨rr, -, cv, hcv, index, hindex, hrunId, happ, hdoc, rfl⟩ :=
      run_of_recorded hu (hb.applications payload hmem) hr hblock hrun
    refine (hsame he ⟨payload, hmem, cv, hcv, index, hindex, hrunId, ?_⟩).symm
    rw [happ, hdoc]
    rfl
  · intro r event hevent
    obtain ⟨hmem, hname⟩ := List.mem_filter.mp hevent
    obtain ⟨p, hp, hp'⟩ := List.mem_filterMap.mp hmem
    obtain ⟨d, hd, rfl⟩ := event_eq_some hp'
    obtain rfl : d.runId = r := eventName_injective (of_decide_eq_true hname)
    obtain ⟨d', hd', l, hl, hbatch⟩ := hroute.targets.attempt p.1 p.2 hp
    rw [hd] at hd'
    cases hd'
    obtain ⟨w, hw, rfl⟩ := Option.map_eq_some_iff.mp hd
    obtain ⟨e, he⟩ := Option.isSome_iff_exists.mp (hroute.handled w (List.mem_of_getElem? hw))
    refine ⟨e, he, ?_⟩
    rw [← hbatch, hsame he hl]
    rfl

end Routing

/-- The theorem on the sample run. -/
theorem routing_exact_sample :
    ∃ s, Transition.exec
        (platformStep List.length Sample.uuid5 Sample.promptBlobUri Sample.batches)
        PlatformState.initial Sample.platformRun = some s ∧
      RoutingExact Sample.uuid5 Sample.batches s := by
  obtain ⟨s, hs⟩ := Option.isSome_iff_exists.mp Sample.platformRun_enabled
  exact ⟨s, hs, routing_exact List.length Sample.uuid5 Sample.promptBlobUri Sample.batches
    Sample.uuid5_spec (by decide) (by decide) (by simp [Sample.platformRun]) hs⟩

end TalentMatch
