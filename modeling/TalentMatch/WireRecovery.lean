import TalentMatch.Recovery
import TalentMatch.WireConverse

/-!
# Finishing a batch on the wire

Over the platform with its texts, from whichever state, when a batch can be brought to
its end by the activities, the fake engine, the handlers and the orchestrator. As before,
an activity that has returned is not executed again.

A digest that does not verify fails its activity, and `statistics.pvariance` decides whether
aggregation returns: `WireEnv.Returns` says that every input verifies and that the variance
is defined.

Results:
1. `wire_batch_can_finish_iff`: exactly when each run that it waits for can complete.
2. `wire_batch_can_finish`: from every state that is reached while no handler is lost
   between its marker and its event and the engine completes a message only after it has
   sent a completion for it.
-/

namespace TalentMatch

open ClaimOnce WirePlatformLemmas WireRunsLemmas WireConverseLemmas RecoveryLemmas
open Transition (Leads Guarded)

variable {φ : Type}

/-! ## 1. Completions that can still come -/

section Recovery
variable (env : WireEnv φ) (w : WireState φ)

/-- A completion of the run was sent. -/
def WireState.HasCompletion (runId : String) : Prop :=
  ∃ result ∈ w.engineResults, ∃ d, env.readCompletion true result = some d ∧ d.runId = runId

/-- An execution of the run's activity has sent its message, and returns. -/
def WireState.Returned (runId : String) : Prop :=
  ∃ x ∈ w.dispatches, x.input.runId = runId ∧ x.pc = .sent

/-- A dispatch of the run has not sent its message, or there is a message or a completion. -/
def WireState.Underway (runId : String) : Prop :=
  (∃ x ∈ w.dispatches, x.input.runId = runId ∧ x.pc ≠ .sent) ∨
    (∃ m ∈ w.engineRuns, ∃ body, modelValidateJson env.float m.body = some body ∧
      body.runId = runId) ∨ w.HasCompletion env runId

/-- Behind the marker of each run that the batch waits for there is a handler that goes on to raise
the event, or the event; a run without a marker whose activity has returned is under way. -/
def WireState.Recoverable (payload : BatchPayload) : Prop :=
  ∀ r ∈ awaitedRuns env.uuid5 payload (w.instances payload.batchId), ¬ Blocked w.intake r ∧
    (w.Returned r → w.intake.markers r = none → w.Underway env r)

/-- An activity that has returned is not executed again. -/
def WireScheduled : WireAction φ → Prop
  | .dispatch batchId position => ∀ payload inp, findBatch env.batches batchId = some payload →
      (payload.dispatchInputs env.uuid5 (env.promptBlobUri batchId))[position]? = some inp →
      ¬ w.Returned inp.runId
  | _ => True

/-- Besides, no event is lost after its marker was made, and a message is completed after a
completion of its run was sent. -/
def WireOrderly : WireAction φ → Prop
  | .completeRun n => ∀ m body, w.engineRuns[n]? = some m →
      modelValidateJson env.float m.body = some body → w.HasCompletion env body.runId
  | .intake b => Careful w.intake b
  | a => WireScheduled env w a

end Recovery

namespace WireRecoveryLemmas

variable {env : WireEnv φ} {w w' : WireState φ} {s s' : PlatformState Unit} {a : WireAction φ}
  {b : PlatformAction}

theorem hasCompletion_iff (h : Represents env w s) (r : String) :
    w.HasCompletion env r ↔ ∃ d ∈ s.inFlight, d.runId = r := by
  constructor
  · rintro ⟨result, hresult, d, hread, hrun⟩
    obtain ⟨k, hk⟩ := List.mem_iff_getElem?.mp hresult
    exact ⟨d, mem_inFlight h hk hread, hrun⟩
  · rintro ⟨d, hd, hrun⟩
    obtain ⟨k, result, hk, hread⟩ := completion_of_inFlight h hd
    exact ⟨result, List.mem_of_getElem? hk, d, hread true, hrun⟩

theorem underway_iff (h : Represents env w s) (r : String) :
    w.Underway env r ↔ s.Underway r := by
  have hmessage : (∃ m ∈ w.engineRuns, ∃ body, modelValidateJson env.float m.body = some body ∧
      body.runId = r) ↔ ∃ m ∈ s.engineRuns, m.runId = r := by
    rw [h.engineRuns]
    constructor
    · rintro ⟨_, hqueued, body, hbody, hrun⟩
      obtain ⟨m, hm, rfl⟩ := List.mem_map.mp hqueued
      rw [modelValidateJson_queued] at hbody
      cases hbody
      exact ⟨m, hm, hrun⟩
    · rintro ⟨m, hm, hrun⟩
      exact ⟨_, List.mem_map_of_mem hm, m.modelBody, modelValidateJson_queued m, hrun⟩
  rw [WireState.Underway, PlatformState.Underway, h.dispatches, hmessage, hasCompletion_iff h]

/-- Both wait for the same runs. -/
theorem awaitedRuns_eq (h : Represents env w s) (payload : BatchPayload) :
    awaitedRuns env.uuid5 payload (w.instances payload.batchId) =
      awaitedRuns env.uuid5 payload (s.instances payload.batchId) := by
  rw [← h.instances]
  cases w.instances payload.batchId with
  | none => rfl
  | some inst => cases inst <;> rfl

theorem returned_iff (h : Represents env w s) (r : String) : w.Returned r ↔ s.Returned r := by
  rw [WireState.Returned, PlatformState.Returned, h.dispatches]

theorem recoverable_iff (h : Represents env w s) (payload : BatchPayload) :
    w.Recoverable env payload ↔ s.Recoverable env.uuid5 payload := by
  rw [WireState.Recoverable, PlatformState.Recoverable, awaitedRuns_eq h]
  refine forall₂_congr fun r _ => ?_
  rw [PlatformState.CanComplete, PlatformState.Ready, h.intake, returned_iff h, underway_iff h]

theorem wireScheduled_iff (h : Represents env w s) (ht : a.TypedAs b) :
    WireScheduled env w a ↔ Scheduled env.uuid5 env.promptBlobUri env.batches s b := by
  cases ht with
  | dispatch batchId position =>
    refine forall₂_congr fun payload inp => ?_
    rw [returned_iff h]
  | _ => exact Iff.rfl

theorem wireOrderly_iff (h : Represents env w s) (ht : a.TypedAs b) :
    WireOrderly env w a ↔ Orderly env.uuid5 env.promptBlobUri env.batches s b := by
  cases ht with
  | completeRun n =>
    constructor
    · intro ho m hm
      have hqueued : w.engineRuns[n]? = some (m.queued env.writer.repr) := by
        rw [h.engineRuns, List.getElem?_map, hm, Option.map_some]
      exact (hasCompletion_iff h _).mp (ho _ _ hqueued (modelValidateJson_queued m))
    · intro ho m body hm hbody
      obtain ⟨m', hm', rfl⟩ := engineRuns_eq h hm
      rw [modelValidateJson_queued] at hbody
      cases hbody
      exact (hasCompletion_iff h _).mpr (ho m' hm')
  | intake c => rw [WireOrderly, Orderly, h.intake]
  | deliver n asBytes d => exact Iff.rfl
  | startBatch batchId createdAt => exact Iff.rfl
  | dispatch batchId position => exact wireScheduled_iff h (.dispatch batchId position)
  | writeIndex n dispatchedAt => exact Iff.rfl
  | sendRun n messageId => exact Iff.rfl
  | awaitResults batchId dispatchedAt => exact Iff.rfl
  | fakeRun n draw asBytes d => exact Iff.rfl
  | consume n occurredAt asText => exact Iff.rfl
  | finish batchId finishedAt => exact Iff.rfl

theorem wireScheduled_of_orderly (h : WireOrderly env w a) : WireScheduled env w a := by
  cases a with
  | dispatch batchId position => exact h
  | _ => trivial

/-! ## 2. The typed platform behind an orderly run -/

/-- The typed platform that follows a run, with the invariants of its runs. -/
structure Follower (env : WireEnv φ) (s : PlatformState Unit) (w : WireState φ) : Prop where
  follows : Follows env s w
  runs : RunInv (fun _ => ()) env.uuid5 env.promptBlobUri env.batches s

theorem follower_initial :
    Follower env (PlatformState.initial : PlatformState Unit) (WireState.initial : WireState φ) :=
  ⟨follows_initial, runInv_initial⟩

/-- Both sides take a step. -/
theorem Follower.step (hu : Uuid5Spec env.uuid5) (hb : DistinctBatches env.batches)
    (hid : UuidBatchIds env.batches) (hf : Follower env s w) (ht : a.TypedAs b)
    (hs : env.typedStep s b = some s') (hw : wireStep env w a = some w')
    (hrep : Represents env w' s') : Follower env s' w' :=
  ⟨hf.follows.step hu hb hid hs hw hrep,
    runInv_step hu hb hf.runs (TypedAs.ne_inject ht) (PlatformLemmas.platformSteps_of_step hs)⟩

/-- Steps with texts are followed by the typed platform. -/
theorem follower_of_leads (hu : Uuid5Spec env.uuid5) (hb : DistinctBatches env.batches)
    (hid : UuidBatchIds env.batches) {G : WireState φ → WireAction φ → Prop}
    {H : PlatformState Unit → PlatformAction → Prop}
    (hG : ∀ {w s a b}, Represents env w s → a.TypedAs b → G w a → H s b)
    (hf : Follower env s w) (h : Leads (wireStep env) G w w') :
    ∃ s', Leads env.typedStep H s s' ∧ Follower env s' w' := by
  refine Leads.simulation (R := fun v s => Follower env s v) (fun v t a v' hR ha hstep => ?_) hf h
  obtain ⟨hrep, htexts, hrec⟩ := hR.follows
  have hsteps := wireSteps_of_step hstep
  rcases represents_step hu hrep hR.runs.route hsteps with hrep' | ⟨b, t', htyped, hb', hrep'⟩
  · have htexts' := engineInv_step hu hb hid htexts hsteps hrep' hrec
    exact ⟨t, .refl t, ⟨hrep', htexts', hrec⟩, hR.runs⟩
  · exact ⟨t', .of_step (hG hrep htyped ha) hb', hR.step hu hb hid htyped hb' hstep hrep'⟩

theorem follower_run (hu : Uuid5Spec env.uuid5) (hb : DistinctBatches env.batches)
    (hid : UuidBatchIds env.batches) {as : List (WireAction φ)}
    (h : Transition.exec (wireStep env) WireState.initial as = some w) : ∃ s, Follower env s w := by
  have hguard : Guarded (wireStep env) (fun _ _ => True) WireState.initial as :=
    Transition.guarded_of_forall fun _ _ => trivial
  obtain ⟨s, -, hf⟩ := follower_of_leads (H := fun _ _ => True) hu hb hid (fun _ _ _ => trivial)
    follower_initial ⟨as, hguard, h⟩
  exact ⟨s, hf⟩

/-! ## 3. The engine answers -/

/-- The answers that an execution gives which is not transient. -/
theorem exists_answer (env : WireEnv φ) : ∃ answer : RunMessage → Delivery,
    (∀ m, (answer m).runId = m.runId) ∧
      ∀ m, (∃ inp, env.Dispatched inp ∧ inp.runId = m.runId) →
        ∃ inp draw, env.Dispatched inp ∧ draw.transient = false ∧
          answer m = env.completion inp draw := by
  have hdraw : ∃ draw : FakeDraw φ, draw.transient = false :=
    ⟨⟨false, false, env.num.zero, env.num.zero, env.num.zero, env.num.zero, true, true, "", 0, "",
      ""⟩, rfl⟩
  obtain ⟨draw, ht⟩ := hdraw
  have hall : ∀ m : RunMessage, ∃ d : Delivery, d.runId = m.runId ∧
      ((∃ inp, env.Dispatched inp ∧ inp.runId = m.runId) →
        ∃ inp draw, env.Dispatched inp ∧ draw.transient = false ∧ d = env.completion inp draw) := by
    intro m
    by_cases hinp : ∃ inp, env.Dispatched inp ∧ inp.runId = m.runId
    · obtain ⟨inp, hmem, hrun⟩ := hinp
      exact ⟨env.completion inp draw, hrun, fun _ => ⟨inp, draw, hmem, ht, rfl⟩⟩
    · exact ⟨failedReply m, rfl, fun h => absurd h hinp⟩
  choose answer hanswer using hall
  exact ⟨answer, fun m => (hanswer m).1, fun m => (hanswer m).2⟩

section Answer
variable {answer : RunMessage → Delivery}
  (hanswer : ∀ m, (∃ inp, env.Dispatched inp ∧ inp.runId = m.runId) →
    ∃ inp draw, env.Dispatched inp ∧ draw.transient = false ∧ answer m = env.completion inp draw)
include hanswer

/-- The steps that finish a batch, when messages are answered in this way. -/
theorem isEngineAction_of_answered (h : Represents env w s) (hi : EngineInv env w)
    (ho : Answered env.uuid5 env.promptBlobUri env.batches answer s b) : env.IsEngineAction b := by
  cases b with
  | reply n d =>
    obtain ⟨m, hm, rfl⟩ := ho.2 n d rfl
    obtain ⟨inp, -, -, hinp, -, hrun⟩ := dispatched_of_queued h hi hm
    exact hanswer m ⟨inp, hinp, hrun⟩
  | inject d => exact ho.1
  | _ => trivial

/-- Such steps are taken with texts. -/
theorem follower_leads (hu : Uuid5Spec env.uuid5) (hb : DistinctBatches env.batches)
    (hid : UuidBatchIds env.batches) (hreturns : env.Returns) (hf : Follower env s w)
    (h : Served (fun _ => ()) env.uuid5 env.promptBlobUri env.batches answer s s') :
    ∃ w', Leads (wireStep env) (WireOrderly env) w w' ∧ Follower env s' w' := by
  refine h.simulation (fun t v a t' hR ho hstep => ?_) hf
  obtain ⟨hrep, htexts, hrec⟩ := hR.follows
  obtain ⟨b, v', htyped, hb', hrep'⟩ := follows_step hu hb hid hreturns hrep htexts hrec
    (isEngineAction_of_answered hanswer hrep htexts ho) hstep
  exact ⟨v', .of_step ((wireOrderly_iff hrep htyped).mpr ho.1) hb',
    hR.step hu hb hid htyped hstep hb' hrep'⟩

end Answer

/-- A batch that can be recovered is finished. -/
theorem finish_follower (hu : Uuid5Spec env.uuid5) (hb : DistinctBatches env.batches)
    (hid : UuidBatchIds env.batches) (hreturns : env.Returns) {payload : BatchPayload}
    (hp : payload ∈ env.batches) (hf : Follower env s w)
    (hrec : s.Recoverable env.uuid5 payload) :
    ∃ t o document, Leads (wireStep env) (WireOrderly env) w t ∧
      t.instances payload.batchId = some (.finished o document) := by
  obtain ⟨answer, hrun, hanswer⟩ := exists_answer env
  obtain ⟨s', o, document, hleads, hfinished⟩ :=
    finish_recoverable hu hb hid hrun hp hf.runs hrec
  obtain ⟨t, hwire, hf'⟩ := follower_leads hanswer hu hb hid hreturns hf hleads
  obtain ⟨document', hdocument⟩ := finished_of_forget hf'.follows.represents hfinished
  exact ⟨t, o, document', hwire, hdocument⟩

end WireRecoveryLemmas

open WireRecoveryLemmas

/-! ## 4. Which batches can be finished -/

/-- After any run with texts, a batch can come to its end, without a second dispatch of a run whose
activity has returned, exactly when every run that it waits for can complete. -/
theorem wire_batch_can_finish_iff {env : WireEnv φ} (hu : Uuid5Spec env.uuid5)
    (hb : DistinctBatches env.batches) (hid : UuidBatchIds env.batches) (hreturns : env.Returns)
    {as : List (WireAction φ)} {w : WireState φ}
    (h : Transition.exec (wireStep env) WireState.initial as = some w) {payload : BatchPayload}
    (hp : payload ∈ env.batches) :
    (∃ t o document, Leads (wireStep env) (WireScheduled env) w t ∧
        t.instances payload.batchId = some (.finished o document)) ↔
      w.Recoverable env payload := by
  obtain ⟨s, hf⟩ := follower_run hu hb hid h
  rw [recoverable_iff hf.follows.represents]
  constructor
  · rintro ⟨t, o, document, hleads, hfinished⟩
    obtain ⟨s', hleads', hf'⟩ := follower_of_leads hu hb hid
      (fun hrep htyped => (wireScheduled_iff hrep htyped).mp) hf hleads
    exact recoverable_of_finished hu hb hf.runs hp hleads'
      (instances_eq hf'.follows.represents hfinished)
  · intro hrec
    obtain ⟨t, o, document, hleads, hfinished⟩ := finish_follower hu hb hid hreturns hp hf hrec
    exact ⟨t, o, document, hleads.mono fun _ _ ha => wireScheduled_of_orderly ha, hfinished⟩

/-- Where the only message of a run is lost while its batch is dispatching. -/
theorem wire_batch_can_finish_iff_sample :
    ∃ as w, Transition.exec (wireStep Sample.wireEnv) WireState.initial as = some w ∧
      ¬ ∃ t o document, Leads (wireStep Sample.wireEnv) (WireScheduled Sample.wireEnv) w t ∧
        t.instances Sample.batch1 = some (.finished o document) := by
  have hu : Uuid5Spec Sample.wireEnv.uuid5 := Sample.uuid5_spec
  obtain ⟨s, hs, hstuck⟩ := Sample.lostMessage_stuck fun _ => ()
  have hactions : ∀ a ∈ Sample.lostMessage, Sample.wireEnv.IsEngineAction a := by
    intro a ha
    simp only [Sample.lostMessage, List.mem_cons, List.not_mem_nil, or_false] at ha
    rcases ha with rfl | rfl | rfl | rfl | rfl <;> trivial
  obtain ⟨as, w, hw, hfollows⟩ := follows_run hu (by decide) (by decide) Sample.wireEnv_returns
    hactions follows_initial hs
  have hp : Sample.payload Sample.batch1 ["app-1"] 0 ∈ Sample.wireEnv.batches :=
    List.mem_cons_self
  refine ⟨as, w, hw, fun hfinishes => hstuck ?_⟩
  exact (recoverable_iff hfollows.represents _).mp ((wire_batch_can_finish_iff hu (by decide)
    (by decide) Sample.wireEnv_returns hw hp).mp hfinishes)

/-- As long as no handler is lost between its marker and its event and messages are completed after
a completion was sent, every batch can come to its end in the same way. -/
theorem wire_batch_can_finish {env : WireEnv φ} (hu : Uuid5Spec env.uuid5)
    (hb : DistinctBatches env.batches) (hid : UuidBatchIds env.batches) (hreturns : env.Returns)
    {w : WireState φ} (h : Leads (wireStep env) (WireOrderly env) WireState.initial w)
    {payload : BatchPayload} (hp : payload ∈ env.batches) :
    ∃ t o document, Leads (wireStep env) (WireOrderly env) w t ∧
      t.instances payload.batchId = some (.finished o document) := by
  obtain ⟨s, hleads, hf⟩ := follower_of_leads hu hb hid
    (fun hrep htyped => (wireOrderly_iff hrep htyped).mp) follower_initial h
  obtain ⟨-, horderly⟩ := orderlyInv_leads hu hb hleads runInv_initial orderlyInv_initial
  exact finish_follower hu hb hid hreturns hp hf (recoverable_of_orderlyInv horderly payload)

/-- While the activity of the first batch is under way. -/
theorem wire_batch_can_finish_sample :
    ∃ w, Transition.exec (wireStep Sample.wireEnv) WireState.initial
        [.startBatch Sample.batch1 "t0", .dispatch Sample.batch1 0] = some w ∧
      ∃ t o document, Leads (wireStep Sample.wireEnv) (WireOrderly Sample.wireEnv) w t ∧
        t.instances Sample.batch1 = some (.finished o document) := by
  have henabled : (Transition.exec (wireStep Sample.wireEnv) WireState.initial
      [.startBatch Sample.batch1 "t0", .dispatch Sample.batch1 0]).isSome = true := by
    decide +kernel
  obtain ⟨w, hw⟩ := Option.isSome_iff_exists.mp henabled
  have hguard : Guarded (wireStep Sample.wireEnv) (WireOrderly Sample.wireEnv) WireState.initial
      [.startBatch Sample.batch1 "t0", .dispatch Sample.batch1 0] := by
    refine ⟨trivial, fun t ht => ⟨fun payload inp _ _ hreturned => ?_, fun _ _ => trivial⟩⟩
    cases ht
    obtain ⟨x, hx, -⟩ := hreturned
    cases hx
  have hp : Sample.payload Sample.batch1 ["app-1"] 0 ∈ Sample.wireEnv.batches :=
    List.mem_cons_self
  exact ⟨w, hw, wire_batch_can_finish Sample.uuid5_spec (by decide) (by decide)
    Sample.wireEnv_returns ⟨_, hguard, hw⟩ hp⟩

end TalentMatch
