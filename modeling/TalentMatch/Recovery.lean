import TalentMatch.Platform

/-!
# Which batches can still be finished

Over the platform with its interleavings: in which states a batch can still come to its
end. Whether a run can complete depends on the marker of its result: whoever made the
marker must be about to raise the event, or have raised it. While there is no marker, the
activity that dispatches the run has not returned, or a dispatch, a message or a reply of
the run is under way: Durable does not execute an activity again that has returned.

The platform compares no digests and its aggregation is total. What both do to a batch is
in `TalentMatch.WireRecovery`.

Results:
1. `batch_can_finish_iff`: in every state, a batch can be finished without dispatching a
   run again whose activity has returned exactly when each of the runs that it waits for
   can complete.
2. `orderly_batch_can_finish`: as long as no handler is lost between its marker and its
   event and messages are completed after their reply, this is so for all batches.
-/

namespace TalentMatch

open ClaimOnce IntakeState
open Transition (Leads Guarded)

/-! ## 1. Completions that can still come -/

section Recovery
variable {A : Type*} (uuid5 : String → String) (promptBlobUri : String → String)
  (batches : List BatchPayload)

/-- The runs without a consumed result. -/
def awaitedRuns (payload : BatchPayload) : Option (Instance A) → List String
  | none | some (.dispatching _) => payload.mintedIds uuid5
  | some (.waiting o) => o.pendingEvents
  | some (.finished _ _) => []

/-- An execution of the run's activity has sent its message, and returns. -/
def PlatformState.Returned (s : PlatformState A) (runId : String) : Prop :=
  ∃ x ∈ s.dispatches, x.input.runId = runId ∧ x.pc = .sent

/-- A dispatch of the run has not sent its message, or there is a message or a reply. -/
def PlatformState.Underway (s : PlatformState A) (runId : String) : Prop :=
  (∃ x ∈ s.dispatches, x.input.runId = runId ∧ x.pc ≠ .sent) ∨
    (∃ m ∈ s.engineRuns, m.runId = runId) ∨ ∃ d ∈ s.inFlight, d.runId = runId

/-- A result of the run has made its marker, or one is under way. -/
def PlatformState.Ready (s : PlatformState A) (runId : String) : Prop :=
  s.intake.markers runId = none → s.Underway runId

/-- A result of the run can still reach its batch. The activity is executed until it has returned,
and not again. -/
def PlatformState.CanComplete (s : PlatformState A) (runId : String) : Prop :=
  ¬ Blocked s.intake runId ∧ (s.Returned runId → s.Ready runId)

/-- Each run that the batch waits for can complete. -/
def PlatformState.Recoverable (s : PlatformState A) (payload : BatchPayload) : Prop :=
  ∀ r ∈ awaitedRuns uuid5 payload (s.instances payload.batchId), s.CanComplete r

/-- An activity that has returned is not executed again, and deliveries answer messages. The
activities of a batch have returned when it waits for results. -/
def Scheduled (s : PlatformState A) : PlatformAction → Prop
  | .dispatch batchId position => ∀ payload inp, findBatch batches batchId = some payload →
      (payload.dispatchInputs uuid5 (promptBlobUri batchId))[position]? = some inp →
      ¬ s.Returned inp.runId
  | .inject _ => False
  | _ => True

/-- Besides, no event is lost after its marker was made, and a message is completed after its
run was answered. -/
def Orderly (s : PlatformState A) : PlatformAction → Prop
  | .intake a => Careful s.intake a
  | .takeRun n => ∀ m, s.engineRuns[n]? = some m → ∃ d ∈ s.inFlight, d.runId = m.runId
  | a => Scheduled uuid5 promptBlobUri batches s a

variable {uuid5 promptBlobUri batches} {s : PlatformState A} {a : PlatformAction}

theorem scheduled_of_orderly (h : Orderly uuid5 promptBlobUri batches s a) :
    Scheduled uuid5 promptBlobUri batches s a := by
  cases a with
  | dispatch batchId position => exact h
  | inject d => exact h
  | _ => trivial

theorem Scheduled.ne_inject (h : Scheduled uuid5 promptBlobUri batches s a) (d : Delivery) :
    a ≠ .inject d := by
  rintro rfl
  exact h

end Recovery

/-! ## 2. Invariants -/

section Invariants
variable {A : Type*} (aggregate : List RunPayload → A) (uuid5 : String → String)
  (promptBlobUri : String → String) (batches : List BatchPayload)

/-- The event of the handler was raised for a batch that has consumed the result. -/
def PlatformState.Consumed (s : PlatformState A) (n : Nat) : Prop :=
  ∃ batchId payload d inst, (n, batchId) ∈ s.intake.published ∧
    findBatch batches batchId = some payload ∧ s.intake.jobOf n = some d ∧
    s.instances batchId = some inst ∧ d.runId ∉ awaitedRuns uuid5 payload (some inst)

/-- The invariants of records and of routing; the activities of a waiting batch have returned,
handlers work on what is in flight, and events that were handed over are consumed. -/
structure RunInv (s : PlatformState A) : Prop where
  record : RecordInv aggregate uuid5 batches s
  route : RouteInv uuid5 promptBlobUri batches s
  returned : ∀ payload ∈ batches, ∀ o, s.instances payload.batchId = some (.waiting o) →
    ∀ r ∈ payload.mintedIds uuid5, s.Returned r
  handled : ∀ w ∈ s.intake.workers, w.job ∈ s.inFlight
  consumed : ∀ n ∈ s.delivered, s.Consumed uuid5 batches n

end Invariants

namespace RecoveryLemmas

open PlatformLemmas

variable {A : Type*} {aggregate : List RunPayload → A} {uuid5 : String → String}
  {promptBlobUri : String → String} {batches : List BatchPayload} {s s' : PlatformState A}
  {a : PlatformAction}

/-- The batch of a waiting instance is at a wait point. -/
theorem atWaitPoint_of_recorded (hu : Uuid5Spec uuid5) (hb : DistinctBatches batches)
    (hi : RecordInv aggregate uuid5 batches s) {batchId : String} {payload : BatchPayload}
    (hp : findBatch batches batchId = some payload) {o : OrchState}
    (hinst : s.instances batchId = some (.waiting o)) :
    ∃ createdAt dispatchedAt arrivals, OnePerRun uuid5 payload arrivals ∧
      o.runResults = arrivals.map Arrival.result ∧
      AtWaitPoint uuid5 payload o (ledgerAfter uuid5 payload createdAt dispatchedAt arrivals) := by
  obtain ⟨payload', hp', createdAt, dispatchedAt, arrivals, hs, -⟩ := hi.instances _ _ hinst
  rw [hp] at hp'
  cases hp'
  have hd := hb.applications payload (findBatch_eq_some hp).1
  have hone := (waitLoop_isSome_iff hu hd createdAt dispatchedAt).mp (by rw [hs]; rfl)
  obtain ⟨o', hs', hresults, hw⟩ := waitLoop_spec hu hd createdAt dispatchedAt hone
  rw [hs] at hs'
  cases hs'
  exact ⟨createdAt, dispatchedAt, arrivals, hone, hresults, hw⟩

/-- The instance of a batch moves on, and waits for nothing new. -/
theorem Consumed.setInstance {n : Nat} (h : s.Consumed uuid5 batches n) {batchId : String}
    {payload : BatchPayload} {inst : Instance A} (hp : findBatch batches batchId = some payload)
    (hsub : ∀ old, s.instances batchId = some old → ∀ r ∈ awaitedRuns uuid5 payload (some inst),
      r ∈ awaitedRuns uuid5 payload (some old)) :
    (s.setInstance batchId inst).Consumed uuid5 batches n := by
  obtain ⟨batchId', payload', d, old, hpub, hp', hd, hold, hr⟩ := h
  by_cases heq : batchId' = batchId
  · subst heq
    rw [hp] at hp'
    cases hp'
    exact ⟨batchId', payload, d, inst, hpub, hp, hd, Function.update_self ..,
      fun hmem => hr (hsub old hold _ hmem)⟩
  · exact ⟨batchId', payload', d, old, hpub, hp', hd,
      (Function.update_of_ne heq ..).trans hold, hr⟩

/-- The orchestrator consumes a result of a run that it waits for. -/
theorem consume_pending (hu : Uuid5Spec uuid5) (hb : DistinctBatches batches)
    (hi : RecordInv aggregate uuid5 batches s) {batchId : String} {payload : BatchPayload}
    (hp : findBatch batches batchId = some payload) {o o' : OrchState}
    (hinst : s.instances batchId = some (.waiting o)) {arrival : Arrival}
    (ho : consume uuid5 payload o arrival = some o') :
    o.pendingEvents.Nodup ∧ o'.pendingEvents = o.pendingEvents.erase arrival.runId := by
  obtain ⟨createdAt, dispatchedAt, arrivals, -, -, hw⟩ := atWaitPoint_of_recorded hu hb hi hp hinst
  obtain ⟨o'', ho'', -, hpending, -⟩ := consume_spec hu
    (hb.applications payload (findBatch_eq_some hp).1) hw (mem_pending_of_consume ho)
  rw [ho] at ho''
  cases ho''
  exact ⟨hw.nodup_pending, hpending⟩

theorem start_pending (hu : Uuid5Spec uuid5) (hb : DistinctBatches batches) {batchId : String}
    {payload : BatchPayload} (hp : findBatch batches batchId = some payload)
    {createdAt dispatchedAt : String} {o : OrchState}
    (ho : start uuid5 payload createdAt dispatchedAt = some o) :
    o.pendingEvents = payload.mintedIds uuid5 := by
  obtain ⟨o', ho', -, hpending, -⟩ := start_spec hu
    (hb.applications payload (findBatch_eq_some hp).1) createdAt dispatchedAt
  rw [ho] at ho'
  cases ho'
  exact hpending

theorem findBatch_of_mem (hb : DistinctBatches batches) {payload : BatchPayload}
    (hp : payload ∈ batches) : findBatch batches payload.batchId = some payload := by
  have hsome : (findBatch batches payload.batchId).isSome := by
    rw [findBatch, List.find?_isSome]
    exact ⟨payload, hp, by simp⟩
  obtain ⟨payload', hp'⟩ := Option.isSome_iff_exists.mp hsome
  obtain ⟨hmem, heq⟩ := findBatch_eq_some hp'
  rw [hp', hb.ext hmem hp heq]

/-- A message that was sent stays sent. -/
theorem sent_step (h : PlatformSteps aggregate uuid5 promptBlobUri batches s a s')
    {x : DispatchExec} (hx : x ∈ s.dispatches) (hpc : x.pc = .sent) : x ∈ s'.dispatches := by
  cases h with
  | dispatch hfind hinp => exact List.mem_append_left _ hx
  | writeIndex hn =>
    refine Search.mem_set_of_ne hn _ hx ?_
    rintro rfl
    cases hpc
  | sendRun hn =>
    refine Search.mem_set_of_ne hn _ hx ?_
    rintro rfl
    cases hpc
  | _ => exact hx

theorem returned_step (h : PlatformSteps aggregate uuid5 promptBlobUri batches s a s')
    {r : String} (hr : s.Returned r) : s'.Returned r := by
  obtain ⟨x, hx, hrun, hpc⟩ := hr
  exact ⟨x, sent_step h hx hpc, hrun, hpc⟩

/-- A waiting batch was waiting before, or its activities have returned. -/
theorem waiting_of_step {batchId : String} {o : OrchState}
    (h : PlatformSteps aggregate uuid5 promptBlobUri batches s a s')
    (hwait : s'.instances batchId = some (.waiting o)) :
    (∃ o, s.instances batchId = some (.waiting o)) ∨
      ∃ payload, findBatch batches batchId = some payload ∧
        ∀ inp ∈ payload.dispatchInputs uuid5 (promptBlobUri batchId),
          ⟨inp, .sent⟩ ∈ s'.dispatches := by
  cases h with
  | startBatch hfind hnone =>
    rcases instances_setInstance hwait with ⟨-, hinst⟩ | hold
    · cases hinst
    · exact .inl ⟨o, hold⟩
  | awaitResults hfind hinst hsent ho =>
    rcases instances_setInstance hwait with ⟨rfl, -⟩ | hold
    · exact .inr ⟨_, hfind, hsent⟩
    · exact .inl ⟨o, hold⟩
  | consume hpub hd hfind hinst ho =>
    rcases instances_setInstance hwait with ⟨rfl, -⟩ | hold
    · exact .inl ⟨_, hinst⟩
    · exact .inl ⟨o, hold⟩
  | finish hfind hinst hpend hdoc ho =>
    rcases instances_setInstance hwait with ⟨-, hinst⟩ | hold
    · cases hinst
    · exact .inl ⟨o, hold⟩
  | _ => exact .inl ⟨o, hwait⟩

/-- Each run that a batch minted has its input. -/
theorem dispatchInput_of_minted {payload : BatchPayload} {r : String} (hr : r ∈ payload.mintedIds uuid5)
    (uri : String) : ∃ inp ∈ payload.dispatchInputs uuid5 uri, inp.runId = r := by
  obtain ⟨cv, hcv, i, hlt, rfl⟩ := BatchPayload.mem_mintedIds.mp hr
  exact ⟨_, List.mem_map.mpr ⟨(cv, i), BatchPayload.mem_slots.mpr ⟨hcv, hlt⟩, rfl⟩, rfl⟩

theorem returned_of_waiting (hb : DistinctBatches batches)
    (hi : RunInv aggregate uuid5 promptBlobUri batches s)
    (h : PlatformSteps aggregate uuid5 promptBlobUri batches s a s') {payload : BatchPayload}
    (hp : payload ∈ batches) {o : OrchState}
    (hwait : s'.instances payload.batchId = some (.waiting o)) {r : String}
    (hr : r ∈ payload.mintedIds uuid5) : s'.Returned r := by
  rcases waiting_of_step h hwait with ⟨o', hbefore⟩ | ⟨payload', hfind, hsent⟩
  · exact returned_step h (hi.returned payload hp o' hbefore r hr)
  · rw [findBatch_of_mem hb hp] at hfind
    cases hfind
    obtain ⟨inp, hinp, hrun⟩ := dispatchInput_of_minted hr (promptBlobUri payload.batchId)
    exact ⟨_, hsent inp hinp, hrun, rfl⟩

/-- Handlers are started on what is in flight, which stays. -/
theorem handled_step (hi : ∀ w ∈ s.intake.workers, w.job ∈ s.inFlight)
    (h : PlatformSteps aggregate uuid5 promptBlobUri batches s a s') :
    ∀ w ∈ s'.intake.workers, w.job ∈ s'.inFlight := by
  cases h with
  | reply hm hd => exact fun w hw => List.mem_append_left _ (hi w hw)
  | inject d => exact fun w hw => List.mem_append_left _ (hi w hw)
  | intake hen hsteps =>
    intro w hw
    rcases job_of_step hsteps hw with ⟨w', hw', hjob⟩ | rfl
    · exact hjob ▸ hi w' hw'
    · exact hen
  | _ => exact hi

/-- What was consumed is not awaited again. -/
theorem consumed_step (hu : Uuid5Spec uuid5) (hb : DistinctBatches batches)
    (hi : RunInv aggregate uuid5 promptBlobUri batches s)
    (h : PlatformSteps aggregate uuid5 promptBlobUri batches s a s') :
    ∀ n ∈ s'.delivered, s'.Consumed uuid5 batches n := by
  cases h with
  | startBatch hp hnone =>
    refine fun n hn => Consumed.setInstance (hi.consumed n hn) hp ?_
    intro old hold
    rw [hnone] at hold
    cases hold
  | @awaitResults batchId dispatchedAt createdAt payload o hp hinst hsent ho =>
    refine fun n hn => Consumed.setInstance (hi.consumed n hn) hp ?_
    intro old hold r hr
    rw [hinst] at hold
    cases hold
    have hr' : r ∈ o.pendingEvents := hr
    rw [start_pending hu hb hp ho] at hr'
    exact hr'
  | intake hen hsteps =>
    intro n hn
    obtain ⟨batchId, payload, d, inst, hpub, hp, hd, hinst, hr⟩ := hi.consumed n hn
    exact ⟨batchId, payload, d, inst, published_step hsteps hpub, hp, jobOf_step hsteps hd, hinst,
      hr⟩
  | @consume n batchId occurredAt d payload o o' hpub hd hp hinst ho =>
    obtain ⟨hnodup, hpending⟩ := consume_pending hu hb hi.record hp hinst ho
    have hsub : ∀ old, s.instances batchId = some old →
        ∀ r ∈ awaitedRuns uuid5 payload (some (.waiting o' : Instance A)),
          r ∈ awaitedRuns uuid5 payload (some old) := by
      intro old hold r hr
      rw [hinst] at hold
      cases hold
      have hr' : r ∈ o'.pendingEvents := hr
      rw [hpending] at hr'
      exact List.mem_of_mem_erase hr'
    intro m hm
    rcases List.mem_cons.mp hm with rfl | hold
    · refine ⟨batchId, payload, d, .waiting o', hpub, hp, hd, Function.update_self .., ?_⟩
      show d.runId ∉ o'.pendingEvents
      rw [hpending]
      exact Delivery.runId_eventPayload d ▸ hnodup.not_mem_erase
    · exact Consumed.setInstance (hi.consumed m hold) hp hsub
  | finish hp hinst hpend hdoc ho =>
    exact fun n hn => Consumed.setInstance (hi.consumed n hn) hp fun old _ => nofun
  | _ => exact hi.consumed

theorem runInv_step (hu : Uuid5Spec uuid5) (hb : DistinctBatches batches)
    (hi : RunInv aggregate uuid5 promptBlobUri batches s) (hno : ∀ d, a ≠ .inject d)
    (h : PlatformSteps aggregate uuid5 promptBlobUri batches s a s') :
    RunInv aggregate uuid5 promptBlobUri batches s' where
  record := recordInv_step hi.record h
  route := routeInv_step hi.route hno h
  returned := fun _ hp _ hwait _ hr => returned_of_waiting hb hi h hp hwait hr
  handled := handled_step hi.handled h
  consumed := consumed_step hu hb hi h

theorem runInv_initial :
    RunInv aggregate uuid5 promptBlobUri batches (PlatformState.initial : PlatformState A) :=
  ⟨recordInv_initial, routeInv_initial, by simp [PlatformState.initial],
    by simp [PlatformState.initial, State.initial], by simp [PlatformState.initial]⟩

/-! ## 3. A run that is stuck stays stuck -/

/-- The batch waits for the run, and it cannot complete. -/
def Stuck (uuid5 : String → String) (s : PlatformState A) (payload : BatchPayload)
    (runId : String) : Prop :=
  runId ∈ awaitedRuns uuid5 payload (s.instances payload.batchId) ∧
    ¬ s.CanComplete runId

/-- A batch waits for runs that it minted. -/
theorem minted_of_awaited (hu : Uuid5Spec uuid5) (hb : DistinctBatches batches)
    (hi : RecordInv aggregate uuid5 batches s) {payload : BatchPayload} (hp : payload ∈ batches)
    {r : String} (hr : r ∈ awaitedRuns uuid5 payload (s.instances payload.batchId)) :
    r ∈ payload.mintedIds uuid5 := by
  cases hinst : s.instances payload.batchId with
  | none =>
    rw [hinst] at hr
    exact hr
  | some inst =>
    rw [hinst] at hr
    cases inst with
    | dispatching createdAt => exact hr
    | waiting o =>
      obtain ⟨createdAt, dispatchedAt, arrivals, -, -, hw⟩ :=
        atWaitPoint_of_recorded hu hb hi (findBatch_of_mem hb hp) hinst
      exact ((hw.mem_pending r).mp hr).1
    | finished o document => cases hr

/-- While no event of the run is raised, the batch waits for it. -/
theorem awaited_step (hu : Uuid5Spec uuid5) (hb : DistinctBatches batches)
    (hi : RecordInv aggregate uuid5 batches s) {payload : BatchPayload} (hp : payload ∈ batches)
    (h : PlatformSteps aggregate uuid5 promptBlobUri batches s a s') {r : String}
    (hr : r ∈ awaitedRuns uuid5 payload (s.instances payload.batchId))
    (hnone : ∀ n batchId d, (n, batchId) ∈ s.intake.published → s.intake.jobOf n = some d →
      d.runId ≠ r) :
    r ∈ awaitedRuns uuid5 payload (s'.instances payload.batchId) := by
  have hset : ∀ {batchId : String} {payload' : BatchPayload} {inst : Instance A},
      findBatch batches batchId = some payload' →
      (payload'.batchId = batchId → payload' = payload →
        r ∈ awaitedRuns uuid5 payload (some inst)) →
      r ∈ awaitedRuns uuid5 payload ((s.setInstance batchId inst).instances payload.batchId) := by
    intro batchId payload' inst hfind hnew
    obtain ⟨hmem, heq⟩ := findBatch_eq_some hfind
    show r ∈ awaitedRuns uuid5 payload (Function.update s.instances batchId (some inst) _)
    rw [Function.update_apply]
    split
    · next hid => exact hnew heq (hb.ext hmem hp (heq.trans hid.symm))
    · exact hr
  cases h with
  | startBatch hfind hnoInst =>
    refine hset hfind fun hid heq => ?_
    subst heq hid
    rw [hnoInst] at hr
    exact hr
  | dispatch hfind hinp => exact hr
  | writeIndex hn => exact hr
  | sendRun hn => exact hr
  | awaitResults hfind hinst hsent ho =>
    refine hset hfind fun hid heq => ?_
    subst heq hid
    rw [hinst] at hr
    show r ∈ OrchState.pendingEvents _
    rw [start_pending hu hb hfind ho]
    exact hr
  | takeRun n => exact hr
  | reply hm hd => exact hr
  | inject d => exact hr
  | intake hen hsteps => exact hr
  | consume hpub hd hfind hinst ho =>
    refine hset hfind fun hid heq => ?_
    subst heq hid
    rw [hinst] at hr
    show r ∈ OrchState.pendingEvents _
    rw [(consume_pending hu hb hi hfind hinst ho).2]
    refine (List.mem_erase_of_ne fun heq => ?_).mpr hr
    exact hnone _ _ _ hpub hd ((Delivery.runId_eventPayload _).symm.trans heq.symm)
  | finish hfind hinst hpend hdoc ho =>
    refine hset hfind fun hid heq => ?_
    subst heq hid
    rw [hinst] at hr
    have hr' : r ∈ OrchState.pendingEvents _ := hr
    rw [hpend] at hr'
    cases hr'

/-- No event of a run is raised that is blocked, or has no marker. -/
theorem not_published (hi : Inv Delivery.runId s.intake) {r : String}
    (h : Blocked s.intake r ∨ s.intake.markers r = none) {n : Nat} {batchId : String} {d : Delivery}
    (hpub : (n, batchId) ∈ s.intake.published) (hd : s.intake.jobOf n = some d) : d.runId ≠ r := by
  rintro rfl
  rcases h with hblocked | hnone
  · exact hblocked.not_published hi hd hpub
  · obtain ⟨d', hd', hmark⟩ := hi.attempt n (List.mem_map_of_mem (hi.published.subset hpub))
    rw [hd] at hd'
    cases hd'
    rw [hnone] at hmark
    cases hmark

/-- A run id is minted by one batch. -/
theorem batchId_of_minted (hu : Uuid5Spec uuid5) (hb : DistinctBatches batches)
    (hid : UuidBatchIds batches) {payload : BatchPayload} (hp : payload ∈ batches) {r : String}
    (hr : r ∈ payload.mintedIds uuid5) {l : Lineage} (hl : MintedFor uuid5 batches r l) :
    l.batchId = payload.batchId := by
  obtain ⟨cv, hcv, i, hi, hrun⟩ := BatchPayload.mem_mintedIds.mp hr
  rw [Lineage.unique hu hb hid hl ⟨payload, hp, cv, hcv, i, hi, hrun, rfl⟩]

/-- What is under way after a step for a run whose activity has returned was under way before. -/
theorem underway_of_step {r : String} (hreturned : s.Returned r)
    (hs : Scheduled uuid5 promptBlobUri batches s a)
    (h : PlatformSteps aggregate uuid5 promptBlobUri batches s a s') (hway : s'.Underway r) :
    s.Underway r := by
  cases h with
  | startBatch hfind hnone => exact hway
  | dispatch hfind hinp =>
    rcases hway with ⟨x, hx, hrun, hpc⟩ | hrest
    · rcases List.mem_append.mp hx with hold | hnew
      · exact .inl ⟨x, hold, hrun, hpc⟩
      · -- an activity that has returned is not executed again
        cases List.mem_singleton.mp hnew
        subst hrun
        exact absurd hreturned (hs _ _ hfind hinp)
    · exact .inr hrest
  | @writeIndex n dispatchedAt inp hn =>
    rcases hway with ⟨x, hx, hrun, hpc⟩ | hrest
    · rcases List.mem_or_eq_of_mem_set hx with hold | rfl
      · exact .inl ⟨x, hold, hrun, hpc⟩
      · exact .inl ⟨_, List.mem_of_getElem? hn, hrun, by simp⟩
    · exact .inr hrest
  | @sendRun n messageId dispatchedAt inp hn =>
    have hexec : inp.runId = r → s.Underway r := fun hrun =>
      .inl ⟨_, List.mem_of_getElem? hn, hrun, by simp⟩
    rcases hway with ⟨x, hx, hrun, hpc⟩ | ⟨m, hm, hrun⟩ | hflight
    · rcases List.mem_or_eq_of_mem_set hx with hold | rfl
      · exact .inl ⟨x, hold, hrun, hpc⟩
      · exact absurd rfl hpc
    · rcases List.mem_append.mp hm with hold | hnew
      · exact .inr (.inl ⟨m, hold, hrun⟩)
      · cases List.mem_singleton.mp hnew
        exact hexec hrun
    · exact .inr (.inr hflight)
  | awaitResults hfind hinst hsent ho => exact hway
  | takeRun n =>
    rcases hway with hexec | ⟨m, hm, hrun⟩ | hflight
    · exact .inl hexec
    · exact .inr (.inl ⟨m, List.mem_of_mem_eraseIdx hm, hrun⟩)
    · exact .inr (.inr hflight)
  | @reply n d m hm hd =>
    rcases hway with hexec | hmessage | ⟨d', hd', hrun⟩
    · exact .inl hexec
    · exact .inr (.inl hmessage)
    · rcases List.mem_append.mp hd' with hold | hnew
      · exact .inr (.inr ⟨d', hold, hrun⟩)
      · cases List.mem_singleton.mp hnew
        exact .inr (.inl ⟨m, List.mem_of_getElem? hm, hd ▸ hrun⟩)
  | inject d => exact absurd hs id
  | intake hen hsteps => exact hway
  | consume hpub hd hfind hinst ho => exact hway
  | finish hfind hinst hpend hdoc ho => exact hway

/-- Only a handler of a reply makes a marker. -/
theorem marker_none_step (hi : RunInv aggregate uuid5 promptBlobUri batches s)
    (h : PlatformSteps aggregate uuid5 promptBlobUri batches s a s') {r : String}
    (hnone : s.intake.markers r = none) (hway : ¬ s.Underway r) : s'.intake.markers r = none := by
  cases h with
  | @intake b i hen hsteps =>
    cases hsteps with
    | @claimed n d t hw hm =>
      have hne : r ≠ d.runId := by
        rintro rfl
        exact hway (.inr (.inr ⟨d, hi.handled _ (List.mem_of_getElem? hw), rfl⟩))
      exact (FirstWrite.record_of_ne _ hne _).trans hnone
    | _ => exact hnone
  | _ => exact hnone

theorem stuck_step (hu : Uuid5Spec uuid5) (hb : DistinctBatches batches)
    (hi : RunInv aggregate uuid5 promptBlobUri batches s) {payload : BatchPayload}
    (hp : payload ∈ batches) (hs : Scheduled uuid5 promptBlobUri batches s a)
    (h : PlatformSteps aggregate uuid5 promptBlobUri batches s a s') {r : String}
    (hstuck : Stuck uuid5 s payload r) : Stuck uuid5 s' payload r := by
  obtain ⟨hr, hno⟩ := hstuck
  rw [PlatformState.CanComplete, not_and_or, not_not] at hno
  rcases hno with hblocked | hquiet
  · refine ⟨awaited_step hu hb hi.record hp h hr fun n batchId d hpub hd =>
      not_published hi.record.intake (.inl hblocked) hpub hd, fun hcan => hcan.1 ?_⟩
    cases h with
    | intake hen hsteps => exact blocked_step hi.record.intake hsteps hblocked
    | _ => exact hblocked
  · obtain ⟨hreturned, hready⟩ := Classical.not_imp.mp hquiet
    obtain ⟨hnone, hway⟩ := Classical.not_imp.mp hready
    refine ⟨awaited_step hu hb hi.record hp h hr fun n batchId d hpub hd =>
      not_published hi.record.intake (.inr hnone) hpub hd, fun hcan => hway ?_⟩
    exact underway_of_step hreturned hs h
      (hcan.2 (returned_step h hreturned) (marker_none_step hi h hnone hway))

/-! ## 4. Orderly steps keep what can complete -/

theorem underway_step (ho : Orderly uuid5 promptBlobUri batches s a)
    (h : PlatformSteps aggregate uuid5 promptBlobUri batches s a s') {r : String}
    (hway : s.Underway r) : s'.Underway r := by
  cases h with
  | dispatch hfind hinp =>
    rcases hway with ⟨x, hx, hrest⟩ | hrest
    · exact .inl ⟨x, List.mem_append_left _ hx, hrest⟩
    · exact .inr hrest
  | @writeIndex n dispatchedAt inp hn =>
    rcases hway with ⟨x, hx, hrun, hpc⟩ | hrest
    · by_cases hsame : x = ⟨inp, .started⟩
      · subst hsame
        exact .inl ⟨⟨inp, .indexed dispatchedAt⟩, Search.mem_set_self hn _, hrun, by simp⟩
      · exact .inl ⟨x, Search.mem_set_of_ne hn _ hx hsame, hrun, hpc⟩
    · exact .inr hrest
  | @sendRun n messageId dispatchedAt inp hn =>
    rcases hway with ⟨x, hx, hrun, hpc⟩ | ⟨m, hm, hrun⟩ | hflight
    · by_cases hsame : x = ⟨inp, .indexed dispatchedAt⟩
      · subst hsame
        exact .inr (.inl ⟨_, List.mem_append_right _ List.mem_cons_self, hrun⟩)
      · exact .inl ⟨x, Search.mem_set_of_ne hn _ hx hsame, hrun, hpc⟩
    · exact .inr (.inl ⟨m, List.mem_append_left _ hm, hrun⟩)
    · exact .inr (.inr hflight)
  | takeRun n =>
    rcases hway with hexec | ⟨m, hm, hrun⟩ | hflight
    · exact .inl hexec
    · by_cases hkeep : m ∈ s.engineRuns.eraseIdx n
      · exact .inr (.inl ⟨m, hkeep, hrun⟩)
      · obtain ⟨d, hd, hdrun⟩ := ho m (Search.getElem?_of_not_mem_eraseIdx hm hkeep)
        exact .inr (.inr ⟨d, hd, hdrun.trans hrun⟩)
    · exact .inr (.inr hflight)
  | reply hm hd =>
    rcases hway with hexec | hmessage | ⟨d', hd', hrun⟩
    · exact .inl hexec
    · exact .inr (.inl hmessage)
    · exact .inr (.inr ⟨d', List.mem_append_left _ hd', hrun⟩)
  | inject d => exact absurd ho id
  | _ => exact hway

theorem not_blocked_step (hi : Inv Delivery.runId s.intake)
    (ho : Orderly uuid5 promptBlobUri batches s a)
    (h : PlatformSteps aggregate uuid5 promptBlobUri batches s a s') {r : String}
    (hfree : ¬ Blocked s.intake r) : ¬ Blocked s'.intake r := by
  cases h with
  | intake hen hsteps => exact fun hblocked => hfree (blocked_of_step hi ho hsteps hblocked)
  | _ => exact hfree

theorem ready_step (ho : Orderly uuid5 promptBlobUri batches s a)
    (h : PlatformSteps aggregate uuid5 promptBlobUri batches s a s') {r : String}
    (hready : s.Ready r) : s'.Ready r := by
  intro hnone
  refine underway_step ho h (hready ?_)
  cases h with
  | intake hen hsteps =>
    cases hmark : s.intake.markers r with
    | none => rfl
    | some n =>
      have hnone' := markers_step hsteps hmark
      rw [hnone] at hnone'
      cases hnone'
  | _ => exact hnone

/-- An activity had returned before a step, or has sent its message in it. -/
theorem returned_of_step (h : PlatformSteps aggregate uuid5 promptBlobUri batches s a s')
    {r : String} (hr : s'.Returned r) : s.Returned r ∨ ∃ m ∈ s'.engineRuns, m.runId = r := by
  obtain ⟨x, hx, hrun, hpc⟩ := hr
  cases h with
  | dispatch hfind hinp =>
    rcases List.mem_append.mp hx with hold | hnew
    · exact .inl ⟨x, hold, hrun, hpc⟩
    · cases List.mem_singleton.mp hnew
      cases hpc
  | writeIndex hn =>
    rcases List.mem_or_eq_of_mem_set hx with hold | rfl
    · exact .inl ⟨x, hold, hrun, hpc⟩
    · cases hpc
  | sendRun hn =>
    rcases List.mem_or_eq_of_mem_set hx with hold | rfl
    · exact .inl ⟨x, hold, hrun, hpc⟩
    · exact .inr ⟨_, List.mem_append_right _ List.mem_cons_self, hrun⟩
  | _ => exact .inl ⟨x, hx, hrun, hpc⟩

theorem canComplete_step (hi : Inv Delivery.runId s.intake)
    (ho : Orderly uuid5 promptBlobUri batches s a)
    (h : PlatformSteps aggregate uuid5 promptBlobUri batches s a s') {r : String}
    (hcan : s.CanComplete r) : s'.CanComplete r := by
  refine ⟨not_blocked_step hi ho h hcan.1, fun hreturned => ?_⟩
  rcases returned_of_step h hreturned with hbefore | hmessage
  · exact ready_step ho h (hcan.2 hbefore)
  · exact fun _ => .inr (.inl hmessage)

section Answered
variable (aggregate uuid5 promptBlobUri batches) (answer : RunMessage → Delivery)

/-- Besides, messages are answered with what is given. -/
def Answered (s : PlatformState A) (a : PlatformAction) : Prop :=
  Orderly uuid5 promptBlobUri batches s a ∧
    ∀ n d, a = .reply n d → ∃ m ∈ s.engineRuns, d = answer m

/-- Such steps lead from one state to the other. -/
abbrev Served (s s' : PlatformState A) : Prop :=
  Leads (platformStep aggregate uuid5 promptBlobUri batches)
    (Answered uuid5 promptBlobUri batches answer) s s'

end Answered

section Leads
variable {answer : RunMessage → Delivery}

theorem Orderly.answered (h : Orderly uuid5 promptBlobUri batches s a)
    (hreply : ∀ n d, a ≠ .reply n d) : Answered uuid5 promptBlobUri batches answer s a :=
  ⟨h, fun n d heq => absurd heq (hreply n d)⟩

theorem runInv_leads (hu : Uuid5Spec uuid5) (hb : DistinctBatches batches)
    (h : Served aggregate uuid5 promptBlobUri batches answer s s')
    (hi : RunInv aggregate uuid5 promptBlobUri batches s) :
    RunInv aggregate uuid5 promptBlobUri batches s' :=
  h.invariant (fun _ _ _ ht ho hstep => runInv_step hu hb ht
    (scheduled_of_orderly ho.1).ne_inject (platformSteps_of_step hstep)) hi

theorem sent_leads (h : Served aggregate uuid5 promptBlobUri batches answer s s')
    {x : DispatchExec} (hx : x ∈ s.dispatches) (hpc : x.pc = .sent) : x ∈ s'.dispatches :=
  h.invariant (I := fun t => x ∈ t.dispatches)
    (fun _ _ _ ht _ hstep => sent_step (platformSteps_of_step hstep) ht hpc) hx

theorem canComplete_leads (hu : Uuid5Spec uuid5) (hb : DistinctBatches batches)
    (h : Served aggregate uuid5 promptBlobUri batches answer s s')
    (hi : RunInv aggregate uuid5 promptBlobUri batches s) {r : String} (hcan : s.CanComplete r) :
    s'.CanComplete r := by
  have hall : RunInv aggregate uuid5 promptBlobUri batches s' ∧ s'.CanComplete r := by
    refine h.invariant (I := fun t => RunInv aggregate uuid5 promptBlobUri batches t ∧
      t.CanComplete r) (fun t a t' ht ho hstep => ?_) ⟨hi, hcan⟩
    exact ⟨runInv_leads hu hb (.of_step ho hstep) ht.1,
      canComplete_step ht.1.record.intake ho.1 (platformSteps_of_step hstep) ht.2⟩
  exact hall.2

end Leads

/-! ## 5. A run that can complete is brought to its event -/

section Raise
variable {payload : BatchPayload} {r : String} {answer : RunMessage → Delivery}

theorem lookup_eq (hu : Uuid5Spec uuid5) (hb : DistinctBatches batches)
    (hid : UuidBatchIds batches) (hi : RunInv aggregate uuid5 promptBlobUri batches s)
    (hp : payload ∈ batches) (hr : r ∈ payload.mintedIds uuid5) (hindex : (s.runIndex r).isSome) :
    s.lookupBatchId r = some payload.batchId := by
  obtain ⟨e, he⟩ := Option.isSome_iff_exists.mp hindex
  rw [PlatformState.lookupBatchId, he, Option.map_some]
  exact congrArg some (batchId_of_minted hu hb hid hp hr (hi.route.lineage r e he))

/-- Events of a run are raised for the batch that minted it. -/
theorem target_eq (hu : Uuid5Spec uuid5) (hb : DistinctBatches batches)
    (hid : UuidBatchIds batches) (hi : RunInv aggregate uuid5 promptBlobUri batches s)
    (hp : payload ∈ batches) {n : Nat} {batchId : String} {d : Delivery}
    (hpub : (n, batchId) ∈ s.intake.published) (hd : s.intake.jobOf n = some d)
    (hr : d.runId ∈ payload.mintedIds uuid5) : batchId = payload.batchId := by
  obtain ⟨d', hd', l, hl, hbatch⟩ :=
    hi.route.targets.attempt n batchId (hi.record.intake.published.subset hpub)
  rw [hd] at hd'
  cases hd'
  exact hbatch.symm.trans (batchId_of_minted hu hb hid hp hr hl)

theorem intakeEnabled_intake (i : IntakeState) (b : IntakeAction) :
    intakeEnabled { s with intake := i } b ↔ intakeEnabled s b := by
  cases b with
  | deliver d => exact Iff.rfl
  | _ => exact Iff.rfl

/-- Steps of handlers. -/
theorem leads_intake {bs : List IntakeAction} {i : IntakeState}
    (hen : ∀ b ∈ bs, intakeEnabled s b)
    (hcareful : Guarded (intakeStep s.lookupBatchId) Careful s.intake bs)
    (h : Transition.exec (intakeStep s.lookupBatchId) s.intake bs = some i) :
    Served aggregate uuid5 promptBlobUri batches answer s
      { s with intake := i } := by
  induction bs generalizing s with
  | nil =>
    cases h
    exact .refl s
  | cons b bs ih =>
    rw [Transition.exec_cons] at h
    obtain ⟨j, hj, hrest⟩ := Option.bind_eq_some_iff.mp h
    have hstep : platformStep aggregate uuid5 promptBlobUri batches s (.intake b) =
        some { s with intake := j } := by
      simp only [platformStep, if_pos (hen b List.mem_cons_self), hj, Option.map_some]
    have ho : Answered uuid5 promptBlobUri batches answer s (.intake b) :=
      Orderly.answered hcareful.1 (by simp)
    exact .head ho hstep (ih (s := { s with intake := j })
      (fun b' hb' => (intakeEnabled_intake j b').mpr (hen b' (List.mem_cons_of_mem b hb')))
      (hcareful.2 j hj) hrest)

/-- A reply of a run without a marker is handled. -/
theorem raise_of_reply (hu : Uuid5Spec uuid5) (hb : DistinctBatches batches)
    (hid : UuidBatchIds batches) (hi : RunInv aggregate uuid5 promptBlobUri batches s)
    (hp : payload ∈ batches) {d : Delivery} (hr : d.runId ∈ payload.mintedIds uuid5)
    (hd : d ∈ s.inFlight) (hnone : s.intake.markers d.runId = none) :
    ∃ t n, Served aggregate uuid5 promptBlobUri batches answer s t ∧
      t.instances = s.instances ∧ (n, payload.batchId) ∈ t.intake.published ∧
      t.intake.jobOf n = some d := by
  have hlook : s.lookupBatchId d.runId = some payload.batchId :=
    lookup_eq hu hb hid hi hp hr (hi.route.inFlight d hd)
  have hexec : Transition.exec (intakeStep s.lookupBatchId) s.intake
      [.deliver d, .lookup s.intake.workers.length, .claim s.intake.workers.length,
        .publish s.intake.workers.length true] = some _ := exec_publish hlook hnone
  refine ⟨_, s.intake.workers.length, leads_intake (fun b hb => ?_) ?_ hexec, rfl, ?_, ?_⟩
  · simp only [List.mem_cons, List.not_mem_nil, or_false] at hb
    rcases hb with rfl | rfl | rfl | rfl
    · exact hd
    all_goals trivial
  · exact ⟨trivial, fun _ _ => ⟨trivial, fun _ _ => ⟨trivial, fun _ _ =>
      ⟨rfl, fun _ _ => trivial⟩⟩⟩⟩
  · exact List.mem_append_right _ List.mem_cons_self
  · simp [State.jobOf]

/-- A message is answered. -/
theorem reply_of_message (hanswer : ∀ m, (answer m).runId = m.runId) {m : RunMessage}
    (hm : m ∈ s.engineRuns) :
    Served aggregate uuid5 promptBlobUri batches answer s
      { s with inFlight := s.inFlight ++ [answer m] } := by
  obtain ⟨n, hn⟩ := List.mem_iff_getElem?.mp hm
  have ho : Answered uuid5 promptBlobUri batches answer s (.reply n (answer m)) := by
    refine ⟨trivial, fun n' d heq => ?_⟩
    cases heq
    exact ⟨m, hm, rfl⟩
  refine .of_step ho ?_
  simp only [platformStep, hn, if_pos (hanswer m)]

/-- A dispatch that is under way sends its message. -/
theorem message_of_dispatch {x : DispatchExec} (hx : x ∈ s.dispatches) (hpc : x.pc ≠ .sent) :
    ∃ t, Served aggregate uuid5 promptBlobUri batches answer s t ∧
      t.instances = s.instances ∧ t.intake = s.intake ∧ ⟨x.input, .sent⟩ ∈ t.dispatches ∧
      ∃ m ∈ t.engineRuns, m.runId = x.input.runId := by
  obtain ⟨n, hn⟩ := List.mem_iff_getElem?.mp hx
  obtain ⟨inp, pc⟩ := x
  have hsend : ∀ {u : PlatformState A} {dispatchedAt : String},
      u.dispatches[n]? = some ⟨inp, .indexed dispatchedAt⟩ →
      Served aggregate uuid5 promptBlobUri batches answer u
        { u with
          dispatches := u.dispatches.set n ⟨inp, .sent⟩
          engineRuns := u.engineRuns ++ [inp.runMessage "" dispatchedAt] } := by
    intro u dispatchedAt hget
    refine .of_step (a := .sendRun n "") (Orderly.answered trivial (by simp)) ?_
    simp only [platformStep, hget]
  cases pc with
  | sent => exact absurd rfl hpc
  | indexed dispatchedAt =>
    exact ⟨_, hsend hn, rfl, rfl, Search.mem_set_self hn _, _,
      List.mem_append_right _ List.mem_cons_self, rfl⟩
  | started =>
    have hstep : platformStep aggregate uuid5 promptBlobUri batches s (.writeIndex n "") = some
        { s with
          dispatches := s.dispatches.set n ⟨inp, .indexed ""⟩
          runIndex := Function.update s.runIndex inp.runId (some (inp.indexEntry "")) } := by
      simp only [platformStep, hn]
    have hlt := (List.getElem?_eq_some_iff.mp hn).1
    have hget : (s.dispatches.set n ⟨inp, .indexed ""⟩)[n]? = some ⟨inp, .indexed ""⟩ := by
      rw [List.getElem?_set_self hlt]
    have ha : Answered uuid5 promptBlobUri batches answer s (.writeIndex n "") := Orderly.answered trivial (by simp)
    exact ⟨_, .head ha hstep (hsend hget), rfl, rfl, Search.mem_set_self hget _, _,
      List.mem_append_right _ List.mem_cons_self, rfl⟩

/-- A run without a marker that is under way is answered, and the reply is handled. -/
theorem raise_of_underway (hu : Uuid5Spec uuid5) (hb : DistinctBatches batches)
    (hid : UuidBatchIds batches) (hanswer : ∀ m, (answer m).runId = m.runId)
    (hi : RunInv aggregate uuid5 promptBlobUri batches s) (hp : payload ∈ batches)
    (hr : r ∈ payload.mintedIds uuid5) (hway : s.Underway r) (hnone : s.intake.markers r = none) :
    ∃ t n d, Served aggregate uuid5 promptBlobUri batches answer s t ∧
      t.instances = s.instances ∧ (n, payload.batchId) ∈ t.intake.published ∧
      t.intake.jobOf n = some d ∧ d.runId = r := by
  have hreply : ∀ {u : PlatformState A}, u.instances = s.instances → u.intake = s.intake →
      Served aggregate uuid5 promptBlobUri batches answer s u →
      (∃ d ∈ u.inFlight, d.runId = r) →
      ∃ t n d, Served aggregate uuid5 promptBlobUri batches answer s t ∧
        t.instances = s.instances ∧ (n, payload.batchId) ∈ t.intake.published ∧
        t.intake.jobOf n = some d ∧ d.runId = r := by
    rintro u hinst hintake hleads ⟨d, hd, rfl⟩
    obtain ⟨t, n, htail, htinst, hpub, hjob⟩ := raise_of_reply hu hb hid
      (runInv_leads hu hb hleads hi) hp hr hd (hintake ▸ hnone)
    exact ⟨t, n, d, hleads.trans htail, htinst.trans hinst, hpub, hjob, rfl⟩
  have hmessage : ∀ {u : PlatformState A}, u.instances = s.instances → u.intake = s.intake →
      Served aggregate uuid5 promptBlobUri batches answer s u →
      (∃ m ∈ u.engineRuns, m.runId = r) →
      ∃ t n d, Served aggregate uuid5 promptBlobUri batches answer s t ∧
        t.instances = s.instances ∧ (n, payload.batchId) ∈ t.intake.published ∧
        t.intake.jobOf n = some d ∧ d.runId = r := by
    rintro u hinst hintake hleads ⟨m, hm, hrun⟩
    exact hreply (u := { u with inFlight := u.inFlight ++ [answer m] }) hinst hintake
      (hleads.trans (reply_of_message hanswer hm))
      ⟨answer m, List.mem_append_right _ List.mem_cons_self, (hanswer m).trans hrun⟩
  rcases hway with ⟨x, hx, hrun, hpc⟩ | hqueued | hflight
  · obtain ⟨u, hleads, hinst, hintake, -, m, hm, hmrun⟩ := message_of_dispatch hx hpc
    exact hmessage hinst hintake hleads ⟨m, hm, hmrun.trans hrun⟩
  · exact hmessage rfl rfl (.refl s) hqueued
  · exact hreply rfl rfl (.refl s) hflight

/-- A run that can complete is brought to its event. -/
theorem raise (hu : Uuid5Spec uuid5) (hb : DistinctBatches batches) (hid : UuidBatchIds batches)
    (hanswer : ∀ m, (answer m).runId = m.runId)
    (hi : RunInv aggregate uuid5 promptBlobUri batches s) (hp : payload ∈ batches)
    (hr : r ∈ payload.mintedIds uuid5) (hreturned : s.Returned r) (hcan : s.CanComplete r) :
    ∃ t n d, Served aggregate uuid5 promptBlobUri batches answer s t ∧
      t.instances = s.instances ∧ (n, payload.batchId) ∈ t.intake.published ∧
      t.intake.jobOf n = some d ∧ d.runId = r := by
  cases hmark : s.intake.markers r with
  | none => exact raise_of_underway hu hb hid hanswer hi hp hr (hcan.2 hreturned hmark) hmark
  | some n =>
    obtain ⟨d, hd, rfl⟩ := hi.record.intake.marker r n hmark
    have htarget : ∀ {t : PlatformState A} {batchId : String},
        RunInv aggregate uuid5 promptBlobUri batches t → (n, batchId) ∈ t.intake.published →
        t.intake.jobOf n = some d → (n, payload.batchId) ∈ t.intake.published :=
      fun ht hpub hjob => target_eq hu hb hid ht hp hpub hjob hr ▸ hpub
    rcases claimed_or_published hmark hcan.1 with ⟨job, batchId, hw⟩ | ⟨batchId, hpub⟩
    · have hexec : Transition.exec (intakeStep s.lookupBatchId) s.intake [.publish n true] =
          some _ := exec_publish_claim hw
      have hen : ∀ b ∈ ([.publish n true] : List IntakeAction), intakeEnabled s b := by
        intro b hmem
        cases List.mem_singleton.mp hmem
        trivial
      have hleads :
          Served aggregate uuid5 promptBlobUri batches answer s _ :=
        leads_intake hen ⟨rfl, fun _ _ => trivial⟩ hexec
      refine ⟨_, n, d, hleads, rfl, ?_, ?_, rfl⟩
      · refine htarget (runInv_leads hu hb hleads hi)
          (List.mem_append_right _ List.mem_cons_self) ?_
        exact (jobOf_setPc hw n).trans hd
      · exact (jobOf_setPc hw n).trans hd
    · exact ⟨s, n, d, .refl s, rfl, htarget hi hpub hd, hd, rfl⟩

end Raise

/-! ## 6. A waiting batch is finished -/

section Finish
variable {payload : BatchPayload} {r : String} {answer : RunMessage → Delivery}

/-- A raised event of a pending run is consumed. -/
theorem consume_event (hu : Uuid5Spec uuid5) (hb : DistinctBatches batches)
    (hid : UuidBatchIds batches) (hi : RunInv aggregate uuid5 promptBlobUri batches s)
    (hp : payload ∈ batches) {o : OrchState}
    (hwait : s.instances payload.batchId = some (.waiting o)) {n : Nat} {d : Delivery}
    (hpub : (n, payload.batchId) ∈ s.intake.published) (hd : s.intake.jobOf n = some d)
    (hr : d.runId ∈ o.pendingEvents) :
    ∃ t o', Served aggregate uuid5 promptBlobUri batches answer s t ∧
      t.instances payload.batchId = some (.waiting o') ∧
      o'.pendingEvents = o.pendingEvents.erase d.runId := by
  have hfind := findBatch_of_mem hb hp
  obtain ⟨createdAt, dispatchedAt, arrivals, -, -, hw⟩ :=
    atWaitPoint_of_recorded hu hb hi.record hfind hwait
  have hminted := ((hw.mem_pending _).mp hr).1
  have hpublished : s.intake.published.find? (fun p => p.1 = n) = some (n, payload.batchId) := by
    have hsome : (s.intake.published.find? fun p => p.1 = n).isSome := by
      rw [List.find?_isSome]
      exact ⟨_, hpub, by simp⟩
    obtain ⟨⟨m, batchId⟩, hm⟩ := Option.isSome_iff_exists.mp hsome
    obtain rfl : m = n := by simpa using List.find?_some hm
    rw [hm, target_eq hu hb hid hi hp (List.mem_of_find?_eq_some hm) hd hminted]
  -- the event was not handed over yet, for the run is pending
  have hnew : n ∉ s.delivered := by
    intro hn
    obtain ⟨batchId, payload', d', inst, hpub', hfind', hd', hinst, hnot⟩ := hi.consumed n hn
    rw [hd] at hd'
    cases hd'
    obtain rfl := target_eq hu hb hid hi hp hpub' hd hminted
    rw [hfind] at hfind'
    cases hfind'
    rw [hwait] at hinst
    cases hinst
    exact hnot hr
  have hpending : (⟨d.eventPayload, ""⟩ : Arrival).runId ∈ o.pendingEvents := by
    show d.eventPayload.runId ∈ o.pendingEvents
    rwa [Delivery.runId_eventPayload]
  obtain ⟨o', ho', -, herase, -⟩ := consume_spec hu (hb.applications payload hp) hw hpending
  have hstep : platformStep aggregate uuid5 promptBlobUri batches s (.consume n "") = some
      { s.setInstance payload.batchId (.waiting o') with delivered := n :: s.delivered } := by
    simp only [platformStep, hpublished, hd, hfind, hwait, if_neg hnew, ho', Option.map_some]
  have ha : Answered uuid5 promptBlobUri batches answer s (.consume n "") := Orderly.answered trivial (by simp)
  refine ⟨_, o', .of_step ha hstep, Function.update_self .., ?_⟩
  rw [herase]
  exact congrArg _ (Delivery.runId_eventPayload d)

/-- A batch that waits for nothing is finished. -/
theorem finish_batch (hu : Uuid5Spec uuid5) (hb : DistinctBatches batches)
    (hi : RunInv aggregate uuid5 promptBlobUri batches s) (hp : payload ∈ batches) {o : OrchState}
    (hwait : s.instances payload.batchId = some (.waiting o)) (hend : o.pendingEvents = []) :
    ∃ t o' document,
      Served aggregate uuid5 promptBlobUri batches answer s t ∧
      t.instances payload.batchId = some (.finished o' document) := by
  have hfind := findBatch_of_mem hb hp
  obtain ⟨createdAt, dispatchedAt, arrivals, hone, hresults, hw⟩ :=
    atWaitPoint_of_recorded hu hb hi.record hfind hwait
  obtain ⟨o', ho', -⟩ := finish_eq payload o ""
  have hdocument : ∃ document, finalDocument aggregate uuid5 payload o = some document := by
    rw [finalDocument,
      FinalizeLemmas.finalizeInput_eq hu (hb.applications payload hp) hone hresults,
      Option.map_some]
    exact ⟨_, rfl⟩
  obtain ⟨document, hdoc⟩ := hdocument
  have hstep : platformStep aggregate uuid5 promptBlobUri batches s (.finish payload.batchId "") =
      some (s.setInstance payload.batchId (.finished o' document)) := by
    simp only [platformStep, hfind, hwait, if_pos hend, hdoc, ho', Option.map_some,
      Option.bind_some]
  have ha : Answered uuid5 promptBlobUri batches answer s (.finish payload.batchId "") := Orderly.answered trivial (by simp)
  exact ⟨_, o', document, .of_step ha hstep, Function.update_self ..⟩

/-- By the number of runs that the batch waits for. -/
theorem finish_waiting (hu : Uuid5Spec uuid5) (hb : DistinctBatches batches)
    (hid : UuidBatchIds batches) (hanswer : ∀ m, (answer m).runId = m.runId)
    (hp : payload ∈ batches)
    {o : OrchState} (hi : RunInv aggregate uuid5 promptBlobUri batches s)
    (hwait : s.instances payload.batchId = some (.waiting o))
    (hcan : ∀ r ∈ o.pendingEvents, s.CanComplete r) :
    ∃ t o' document,
      Served aggregate uuid5 promptBlobUri batches answer s t ∧
      t.instances payload.batchId = some (.finished o' document) := by
  induction hlen : o.pendingEvents.length generalizing s o with
  | zero => exact finish_batch hu hb hi hp hwait (List.eq_nil_of_length_eq_zero hlen)
  | succ k ih =>
    obtain ⟨r, hr⟩ : ∃ r, r ∈ o.pendingEvents :=
      List.exists_mem_of_length_pos (by omega)
    have hminted : r ∈ payload.mintedIds uuid5 :=
      minted_of_awaited hu hb hi.record hp (by rw [hwait]; exact hr)
    obtain ⟨u, n, d, hraise, hinst, hpub, hd, rfl⟩ :=
      raise hu hb hid hanswer hi hp hminted (hi.returned payload hp o hwait r hminted) (hcan r hr)
    have hiu := runInv_leads hu hb hraise hi
    obtain ⟨v, o', hconsume, hwait', herase⟩ := consume_event hu hb hid hiu hp
      ((congrFun hinst _).trans hwait) hpub hd hr
    have hleads := hraise.trans hconsume
    have hlen' : o'.pendingEvents.length = k := by
      rw [herase, List.length_erase_of_mem hr]
      omega
    obtain ⟨t, o'', document, htail, hfinished⟩ := ih (runInv_leads hu hb hleads hi) hwait'
      (fun r' hr' =>
        canComplete_leads hu hb hleads hi (hcan r' (List.mem_of_mem_erase (herase ▸ hr')))) hlen'
    exact ⟨t, o'', document, hleads.trans htail, hfinished⟩

/-- The activity of a run has returned, or is executed. -/
theorem dispatch_run (hu : Uuid5Spec uuid5) (hb : DistinctBatches batches)
    (hid : UuidBatchIds batches) (hi : RunInv aggregate uuid5 promptBlobUri batches s)
    (hp : payload ∈ batches) {createdAt : String}
    (hinst : s.instances payload.batchId = some (.dispatching createdAt)) {inp : DispatchRunInput}
    (hinp : inp ∈ payload.dispatchInputs uuid5 (promptBlobUri payload.batchId)) :
    ∃ t, Served aggregate uuid5 promptBlobUri batches answer s t ∧
      t.instances = s.instances ∧ ⟨inp, .sent⟩ ∈ t.dispatches := by
  by_cases hreturned : s.Returned inp.runId
  · obtain ⟨⟨inp', pc⟩, hx, hrun, rfl⟩ := hreturned
    obtain ⟨payload', hp', hinp'⟩ := hi.route.input _ hx
    obtain rfl := dispatchInput_ext hu hb hid hp' hp hinp' hinp hrun
    exact ⟨s, .refl s, rfl, hx⟩
  · obtain ⟨position, hposition⟩ := List.mem_iff_getElem?.mp hinp
    have hfind := findBatch_of_mem hb hp
    have hstep : platformStep aggregate uuid5 promptBlobUri batches s
        (.dispatch payload.batchId position) =
          some { s with dispatches := s.dispatches ++ [⟨inp, .started⟩] } := by
      simp only [platformStep, hfind, hinst, hposition]
    have ho : Orderly uuid5 promptBlobUri batches s (.dispatch payload.batchId position) := by
      intro payload' inp' hfind' hposition'
      rw [hfind] at hfind'
      cases hfind'
      rw [hposition] at hposition'
      cases hposition'
      exact hreturned
    obtain ⟨t, hleads, htinst, -, hsent, -⟩ :=
      message_of_dispatch
        (s := { s with dispatches := s.dispatches ++ [⟨inp, .started⟩] }) (x := ⟨inp, .started⟩)
        (List.mem_append_right _ List.mem_cons_self) (by simp)
    exact ⟨t, .head (Orderly.answered ho (by simp)) hstep hleads, htinst, hsent⟩

/-- The activities of such a batch return. -/
theorem dispatch_runs (hu : Uuid5Spec uuid5) (hb : DistinctBatches batches)
    (hid : UuidBatchIds batches) (hi : RunInv aggregate uuid5 promptBlobUri batches s)
    (hp : payload ∈ batches) {createdAt : String}
    (hinst : s.instances payload.batchId = some (.dispatching createdAt))
    {inputs : List DispatchRunInput}
    (hinputs : ∀ inp ∈ inputs, inp ∈ payload.dispatchInputs uuid5 (promptBlobUri payload.batchId)) :
    ∃ t, Served aggregate uuid5 promptBlobUri batches answer s t ∧
      t.instances = s.instances ∧ ∀ inp ∈ inputs, ⟨inp, .sent⟩ ∈ t.dispatches := by
  induction inputs generalizing s with
  | nil => exact ⟨s, .refl s, rfl, by simp⟩
  | cons inp inputs ih =>
    obtain ⟨u, hleads, huinst, hsent⟩ :=
      dispatch_run hu hb hid hi hp hinst (hinputs inp List.mem_cons_self)
    obtain ⟨t, htail, htinst, hall⟩ := ih (runInv_leads hu hb hleads hi)
      ((congrFun huinst _).trans hinst) fun inp' h => hinputs inp' (List.mem_cons_of_mem inp h)
    refine ⟨t, hleads.trans htail, htinst.trans huinst, fun inp' h => ?_⟩
    rcases List.mem_cons.mp h with rfl | h
    · exact sent_leads htail hsent rfl
    · exact hall inp' h

/-- A batch that is dispatching is brought to its wait loop. -/
theorem await_results (hu : Uuid5Spec uuid5) (hb : DistinctBatches batches)
    (hid : UuidBatchIds batches) (hi : RunInv aggregate uuid5 promptBlobUri batches s)
    (hp : payload ∈ batches) {createdAt : String}
    (hinst : s.instances payload.batchId = some (.dispatching createdAt)) :
    ∃ t o, Served aggregate uuid5 promptBlobUri batches answer s t ∧
      t.instances payload.batchId = some (.waiting o) ∧
      o.pendingEvents = payload.mintedIds uuid5 := by
  have hfind := findBatch_of_mem hb hp
  obtain ⟨u, hleads, huinst, hsent⟩ := dispatch_runs hu hb hid hi hp hinst fun _ h => h
  have hinst' := (congrFun huinst payload.batchId).trans hinst
  obtain ⟨o, ho, -, hpending, -⟩ := start_spec hu (hb.applications payload hp) createdAt ""
  have hstep : platformStep aggregate uuid5 promptBlobUri batches u
      (.awaitResults payload.batchId "") = some (u.setInstance payload.batchId (.waiting o)) := by
    simp only [platformStep, hfind, hinst', if_pos hsent, ho, Option.map_some]
  have ha : Answered uuid5 promptBlobUri batches answer u (.awaitResults payload.batchId "") :=
    Orderly.answered trivial (by simp)
  exact ⟨_, o, hleads.trans (.of_step ha hstep), Function.update_self .., hpending⟩

theorem finish_dispatching (hu : Uuid5Spec uuid5) (hb : DistinctBatches batches)
    (hid : UuidBatchIds batches) (hanswer : ∀ m, (answer m).runId = m.runId)
    (hp : payload ∈ batches) (hi : RunInv aggregate uuid5 promptBlobUri batches s)
    {createdAt : String} (hinst : s.instances payload.batchId = some (.dispatching createdAt))
    (hcan : ∀ r ∈ payload.mintedIds uuid5, s.CanComplete r) :
    ∃ t o document, Served aggregate uuid5 promptBlobUri batches answer s t ∧
      t.instances payload.batchId = some (.finished o document) := by
  obtain ⟨u, o, hleads, hwait, hpending⟩ := await_results hu hb hid hi hp hinst
  obtain ⟨t, o', document, htail, hfinished⟩ := finish_waiting hu hb hid hanswer hp
    (runInv_leads hu hb hleads hi) hwait fun r hr =>
      canComplete_leads hu hb hleads hi (hcan r (hpending ▸ hr))
  exact ⟨t, o', document, hleads.trans htail, hfinished⟩

/-- A batch that can be recovered is finished. -/
theorem finish_recoverable (hu : Uuid5Spec uuid5) (hb : DistinctBatches batches)
    (hid : UuidBatchIds batches) (hanswer : ∀ m, (answer m).runId = m.runId)
    (hp : payload ∈ batches)
    (hi : RunInv aggregate uuid5 promptBlobUri batches s) (hrec : s.Recoverable uuid5 payload) :
    ∃ t o document, Served aggregate uuid5 promptBlobUri batches answer s t ∧
      t.instances payload.batchId = some (.finished o document) := by
  rw [PlatformState.Recoverable] at hrec
  cases hinst : s.instances payload.batchId with
  | none =>
    have hstep : platformStep aggregate uuid5 promptBlobUri batches s
        (.startBatch payload.batchId "") =
          some (s.setInstance payload.batchId (.dispatching "")) := by
      simp only [platformStep, findBatch_of_mem hb hp, hinst]
    have ha : Answered uuid5 promptBlobUri batches answer s (.startBatch payload.batchId "") :=
      Orderly.answered trivial (by simp)
    rw [hinst] at hrec
    obtain ⟨t, o, document, htail, hfinished⟩ := finish_dispatching hu hb hid hanswer hp
      (runInv_leads hu hb (.of_step ha hstep) hi) (Function.update_self ..) hrec
    exact ⟨t, o, document, .head ha hstep htail, hfinished⟩
  | some inst =>
    rw [hinst] at hrec
    cases inst with
    | dispatching createdAt => exact finish_dispatching hu hb hid hanswer hp hi hinst hrec
    | waiting o => exact finish_waiting hu hb hid hanswer hp hi hinst hrec
    | finished o document => exact ⟨s, o, document, .refl s, hinst⟩

end Finish

/-- The invariants hold in every state that a run without injected deliveries reaches. -/
theorem runInv_run (hu : Uuid5Spec uuid5) (hb : DistinctBatches batches)
    {as : List PlatformAction} (hno : ∀ d, .inject d ∉ as)
    (h : Transition.exec (platformStep aggregate uuid5 promptBlobUri batches)
      PlatformState.initial as = some s) : RunInv aggregate uuid5 promptBlobUri batches s := by
  have hguard : Guarded (platformStep aggregate uuid5 promptBlobUri batches)
      (fun _ a => ∀ d, a ≠ .inject d) PlatformState.initial as :=
    Transition.guarded_of_forall fun a ha d heq => hno d (heq ▸ ha)
  exact Transition.guarded_invariant
    (fun _ _ _ hi hanswers hstep => runInv_step hu hb hi hanswers (platformSteps_of_step hstep))
    runInv_initial hguard h

/-- A result of a run that failed. -/
def failedReply (m : RunMessage) : Delivery :=
  .http m.runId
    { status := "Failed"
      durationMs := 0
      tokensPrompt := 0
      tokensCompletion := 0
      errorMessage := some "no result"
      correlationId := none
      traceparent := none
      artifacts := none }
    m.correlationId ""

/-- What holds in orderly runs: no run is blocked, and whatever was dispatched is under way or was
answered. -/
structure OrderlyInv (s : PlatformState A) : Prop where
  free : ∀ r, ¬ Blocked s.intake r
  underway : ∀ x ∈ s.dispatches, s.Underway x.input.runId

theorem orderlyInv_initial : OrderlyInv (PlatformState.initial : PlatformState A) where
  free := by
    rintro r ⟨n, hn, -⟩
    cases hn
  underway := by simp [PlatformState.initial]

/-- Executions stay with their inputs, and new ones are under way. -/
theorem dispatches_of_step (h : PlatformSteps aggregate uuid5 promptBlobUri batches s a s') :
    ∀ x' ∈ s'.dispatches, (∃ x ∈ s.dispatches, x.input = x'.input) ∨ x'.pc = .started := by
  have hset : ∀ {n : Nat} {inp : DispatchRunInput} {pc pc' : DispatchPc},
      s.dispatches[n]? = some ⟨inp, pc⟩ →
      ∀ x' ∈ s.dispatches.set n ⟨inp, pc'⟩,
        (∃ x ∈ s.dispatches, x.input = x'.input) ∨ x'.pc = .started := by
    intro n inp pc pc' hn x' hx'
    rcases List.mem_or_eq_of_mem_set hx' with hold | rfl
    · exact .inl ⟨x', hold, rfl⟩
    · exact .inl ⟨⟨inp, pc⟩, List.mem_of_getElem? hn, rfl⟩
  cases h with
  | dispatch hfind hinp =>
    intro x' hx'
    rcases List.mem_append.mp hx' with hold | hnew
    · exact .inl ⟨x', hold, rfl⟩
    · cases List.mem_singleton.mp hnew
      exact .inr rfl
  | writeIndex hn => exact hset hn
  | sendRun hn => exact hset hn
  | _ => exact fun x' hx' => .inl ⟨x', hx', rfl⟩

theorem orderlyInv_step (hi : RunInv aggregate uuid5 promptBlobUri batches s)
    (ho : Orderly uuid5 promptBlobUri batches s a)
    (h : PlatformSteps aggregate uuid5 promptBlobUri batches s a s') (hinv : OrderlyInv s) :
    OrderlyInv s' := by
  refine ⟨fun r => not_blocked_step hi.record.intake ho h (hinv.free r), fun x' hx' => ?_⟩
  rcases dispatches_of_step h x' hx' with ⟨x, hx, hinput⟩ | hpc
  · exact hinput ▸ underway_step ho h (hinv.underway x hx)
  · exact .inl ⟨x', hx', rfl, by rw [hpc]; simp⟩

/-- A batch that comes to its end was waiting for runs that could complete. -/
theorem recoverable_of_finished (hu : Uuid5Spec uuid5) (hb : DistinctBatches batches)
    (hi : RunInv aggregate uuid5 promptBlobUri batches s) {payload : BatchPayload}
    (hp : payload ∈ batches)
    (h : Leads (platformStep aggregate uuid5 promptBlobUri batches)
      (Scheduled uuid5 promptBlobUri batches) s s') {o : OrchState} {document : List (CvBlock A)}
    (hfinished : s'.instances payload.batchId = some (.finished o document)) :
    s.Recoverable uuid5 payload := by
  intro r hr
  by_contra hcan
  have hstuck : RunInv aggregate uuid5 promptBlobUri batches s' ∧ Stuck uuid5 s' payload r := by
    refine h.invariant (I := fun t => RunInv aggregate uuid5 promptBlobUri batches t ∧
      Stuck uuid5 t payload r) (fun u a u' hu' hs hstep => ?_) ⟨hi, hr, hcan⟩
    have hsteps := platformSteps_of_step hstep
    exact ⟨runInv_step hu hb hu'.1 hs.ne_inject hsteps,
      stuck_step hu hb hu'.1 hp hs hsteps hu'.2⟩
  have hawaited := hstuck.2.1
  rw [hfinished] at hawaited
  cases hawaited

theorem orderlyInv_leads (hu : Uuid5Spec uuid5) (hb : DistinctBatches batches)
    (h : Leads (platformStep aggregate uuid5 promptBlobUri batches)
      (Orderly uuid5 promptBlobUri batches) s s')
    (hi : RunInv aggregate uuid5 promptBlobUri batches s) (hinv : OrderlyInv s) :
    RunInv aggregate uuid5 promptBlobUri batches s' ∧ OrderlyInv s' := by
  refine h.invariant (I := fun t => RunInv aggregate uuid5 promptBlobUri batches t ∧ OrderlyInv t)
    (fun u a u' hu' ho hstep => ?_) ⟨hi, hinv⟩
  have hsteps := platformSteps_of_step hstep
  exact ⟨runInv_step hu hb hu'.1 (scheduled_of_orderly ho).ne_inject hsteps,
    orderlyInv_step hu'.1 ho hsteps hu'.2⟩

/-- In an orderly run every run id can complete. -/
theorem recoverable_of_orderlyInv (hinv : OrderlyInv s) (payload : BatchPayload) :
    s.Recoverable uuid5 payload := by
  intro r _
  refine ⟨hinv.free r, fun hreturned _ => ?_⟩
  obtain ⟨x, hx, rfl, -⟩ := hreturned
  exact hinv.underway x hx

end RecoveryLemmas

open RecoveryLemmas

namespace Sample

/-- The activity of the first batch returns, and its message is taken off the queue without a
reply. -/
def lostMessage : List PlatformAction :=
  [.startBatch batch1 "t0", .dispatch batch1 0, .writeIndex 0 "t1", .sendRun 0 "m-1", .takeRun 0]

/-- The run of the first batch. -/
def firstRun : String := (payload batch1 ["app-1"] 0).runId uuid5 (cv "app-1") 0

theorem lostMessage_state {A : Type*} (aggregate : List RunPayload → A) :
    (Transition.exec (platformStep aggregate uuid5 promptBlobUri batches)
      PlatformState.initial lostMessage).map (fun s =>
        (s.dispatches.map (fun x => (x.input.runId, x.pc)),
          s.engineRuns.map RunMessage.runId ++ s.inFlight.map Delivery.runId,
          s.intake.markers firstRun,
          awaitedRuns uuid5 (payload batch1 ["app-1"] 0) (s.instances batch1))) =
      some ([(firstRun, .sent)], [], none, [firstRun]) :=
  rfl

/-- The batch waits for a run that cannot complete. -/
theorem lostMessage_stuck {A : Type*} (aggregate : List RunPayload → A) :
    ∃ s, Transition.exec (platformStep aggregate uuid5 promptBlobUri batches)
        PlatformState.initial lostMessage = some s ∧
      ¬ s.Recoverable uuid5 (payload batch1 ["app-1"] 0) := by
  obtain ⟨s, hs, hstate⟩ := Option.map_eq_some_iff.mp (lostMessage_state aggregate)
  simp only [Prod.mk.injEq] at hstate
  obtain ⟨hdispatches, hquiet, hmarker, hawaited⟩ := hstate
  obtain ⟨hmessages, hreplies⟩ := List.append_eq_nil_iff.mp hquiet
  refine ⟨s, hs, fun hrec => ?_⟩
  have hcan := hrec firstRun (hawaited ▸ List.mem_cons_self)
  have hexec : (firstRun, DispatchPc.sent) ∈ s.dispatches.map fun x => (x.input.runId, x.pc) :=
    hdispatches ▸ List.mem_cons_self
  obtain ⟨x, hx, heq⟩ := List.mem_map.mp hexec
  obtain ⟨hrun, hpc⟩ := Prod.mk.inj heq
  rcases hcan.2 ⟨x, hx, hrun, hpc⟩ hmarker with ⟨y, hy, -, hnot⟩ | ⟨m, hm, -⟩ | ⟨d, hd, -⟩
  · have hmem := List.mem_map_of_mem (f := fun x => (x.input.runId, x.pc)) hy
    rw [hdispatches] at hmem
    exact hnot (Prod.mk.inj (List.mem_singleton.mp hmem)).2
  · rw [List.map_eq_nil_iff.mp hmessages] at hm
    cases hm
  · rw [List.map_eq_nil_iff.mp hreplies] at hd
    cases hd

end Sample

section CanFinish
variable {A : Type*} {aggregate : List RunPayload → A} {uuid5 : String → String}
  {promptBlobUri : String → String} {batches : List BatchPayload} {s : PlatformState A}

/-- In every state that the platform reaches, a batch can come to its end, without a second
dispatch of a run whose activity has returned, exactly when every run that it waits for can
complete. -/
theorem batch_can_finish_iff (hu : Uuid5Spec uuid5) (hb : DistinctBatches batches)
    (hid : UuidBatchIds batches) {as : List PlatformAction} (hno : ∀ d, .inject d ∉ as)
    (h : Transition.exec (platformStep aggregate uuid5 promptBlobUri batches)
      PlatformState.initial as = some s) {payload : BatchPayload} (hp : payload ∈ batches) :
    (∃ t o document,
      Leads (platformStep aggregate uuid5 promptBlobUri batches)
          (Scheduled uuid5 promptBlobUri batches) s t ∧
        t.instances payload.batchId = some (.finished o document)) ↔
      s.Recoverable uuid5 payload := by
  have hi := runInv_run hu hb hno h
  constructor
  · rintro ⟨t, o, document, hleads, hfinished⟩
    exact recoverable_of_finished hu hb hi hp hleads hfinished
  · intro hrec
    have hanswer : ∀ m, (failedReply m).runId = m.runId := fun _ => rfl
    obtain ⟨t, o, document, hleads, hfinished⟩ := finish_recoverable hu hb hid hanswer hp hi hrec
    exact ⟨t, o, document, hleads.mono fun _ _ ha => scheduled_of_orderly ha.1, hfinished⟩

/-- Where the only message of a run is lost while its batch is dispatching. -/
theorem batch_can_finish_iff_sample :
    ∃ s, Transition.exec
        (platformStep List.length Sample.uuid5 Sample.promptBlobUri Sample.batches)
        PlatformState.initial Sample.lostMessage = some s ∧
      ¬ ∃ t o document,
        Leads (platformStep List.length Sample.uuid5 Sample.promptBlobUri Sample.batches)
            (Scheduled Sample.uuid5 Sample.promptBlobUri Sample.batches) s t ∧
          t.instances Sample.batch1 = some (.finished o document) := by
  obtain ⟨s, hs, hstuck⟩ := Sample.lostMessage_stuck List.length
  have hp : Sample.payload Sample.batch1 ["app-1"] 0 ∈ Sample.batches := by simp [Sample.batches]
  exact ⟨s, hs, fun hfinishes => hstuck ((batch_can_finish_iff Sample.uuid5_spec (by decide)
    (by decide) (by simp [Sample.lostMessage]) hs hp).mp hfinishes)⟩

/-- As long as no handler is lost between its marker and its event, and a message is completed
only after its run was answered, every batch can come to its end in the same way. -/
theorem orderly_batch_can_finish (hu : Uuid5Spec uuid5) (hb : DistinctBatches batches)
    (hid : UuidBatchIds batches)
    (h : Leads (platformStep aggregate uuid5 promptBlobUri batches)
      (Orderly uuid5 promptBlobUri batches) PlatformState.initial s) {payload : BatchPayload}
    (hp : payload ∈ batches) :
    ∃ t o document,
      Leads (platformStep aggregate uuid5 promptBlobUri batches)
          (Orderly uuid5 promptBlobUri batches) s t ∧
        t.instances payload.batchId = some (.finished o document) := by
  obtain ⟨hi, hinv⟩ := orderlyInv_leads hu hb h runInv_initial orderlyInv_initial
  have hrec : s.Recoverable uuid5 payload := recoverable_of_orderlyInv hinv payload
  have hanswer : ∀ m, (failedReply m).runId = m.runId := fun _ => rfl
  obtain ⟨t, o, document, hleads, hfinished⟩ := finish_recoverable hu hb hid hanswer hp hi hrec
  exact ⟨t, o, document, hleads.mono fun _ _ ha => ha.1, hfinished⟩

/-- While the activity of the first batch is under way. -/
theorem orderly_batch_can_finish_sample :
    ∃ s, Transition.exec
        (platformStep List.length Sample.uuid5 Sample.promptBlobUri Sample.batches)
        PlatformState.initial [.startBatch Sample.batch1 "t0", .dispatch Sample.batch1 0] =
          some s ∧
      ∃ t o document,
        Leads (platformStep List.length Sample.uuid5 Sample.promptBlobUri Sample.batches)
            (Orderly Sample.uuid5 Sample.promptBlobUri Sample.batches) s t ∧
          t.instances Sample.batch1 = some (.finished o document) := by
  have henabled : (Transition.exec
      (platformStep List.length Sample.uuid5 Sample.promptBlobUri Sample.batches)
      PlatformState.initial
      [.startBatch Sample.batch1 "t0", .dispatch Sample.batch1 0]).isSome = true := by
    decide +kernel
  obtain ⟨s, hs⟩ := Option.isSome_iff_exists.mp henabled
  have hguard : Guarded
      (platformStep List.length Sample.uuid5 Sample.promptBlobUri Sample.batches)
      (Orderly Sample.uuid5 Sample.promptBlobUri Sample.batches)
      PlatformState.initial [.startBatch Sample.batch1 "t0", .dispatch Sample.batch1 0] := by
    refine ⟨trivial, fun t ht => ⟨fun payload inp _ _ hreturned => ?_, fun _ _ => trivial⟩⟩
    cases ht
    obtain ⟨x, hx, -⟩ := hreturned
    cases hx
  have hp : Sample.payload Sample.batch1 ["app-1"] 0 ∈ Sample.batches := by simp [Sample.batches]
  exact ⟨s, hs, orderly_batch_can_finish Sample.uuid5_spec (by decide) (by decide)
    ⟨_, hguard, hs⟩ hp⟩

end CanFinish

end TalentMatch
