import TalentMatch.Completion

/-!
# The numbers of live events

`batch_orchestrator` counts its events, and `_next_event_sequence` computes from a
progress document the number that the next event should have.

Results:
1. `Numbered.project`: an event with the next number keeps the events numbered from
   1 without a gap.
2. `announceRun_spec`, `report_spec`: between the event of a run and that of its
   application the formula is ahead of the counter by the event that is due.
3. `next_event_sequence_exact`: at every wait point the formula gives the number
   after the last one, for arbitrary status strings.
-/

namespace TalentMatch

open Ledger LedgerLemmas OrchestratorLemmas

/-! ## 1. The counter -/

/-- The counter is the number of events, and they are numbered from 1. -/
structure Numbered (s : OrchState) : Prop where
  length : s.eventSequence = s.liveEvents.length
  sequences : s.liveEvents.map LiveEvent.sequence = List.range' 1 s.eventSequence

/-- `_next_event_sequence` gives the number after the last one. -/
def Announced (s : OrchState) : Prop := nextEventSequence s.progress = s.eventSequence + 1

/-- A turn of the wait loop up to the event of the run. -/
def announceRun (payload : BatchPayload) (s : OrchState) (a : Arrival) : Option OrchState :=
  let progress := recordRunResult s.progress a.result a.occurredAt
  OrchState.project
    { s with
      progress := progress
      pendingEvents := s.pendingEvents.erase a.runId
      runResults := s.runResults ++ [a.result] }
    (buildRunTerminalLiveEvent progress a.occurredAt (s.eventSequence + 1) payload.correlationId
      payload.traceparent a.result)

/-- The rest of the turn looks at the application of the run. -/
theorem consume_eq {uuid5 : String → String} {payload : BatchPayload} {s : OrchState} {a : Arrival}
    (ha : a.runId ∈ s.pendingEvents) :
    consume uuid5 payload s a =
      (announceRun payload s a).bind fun s' =>
        (Dict.get? (runIndexMap uuid5 payload) a.runId).bind fun entry =>
          reportApplication payload s' entry.1 a := by
  simp only [consume, if_pos ha, announceRun]

/-- An event with the next number, of a state with the events of `s`. -/
theorem Numbered.project {s s₀ s' : OrchState} {event : LiveEvent} (hs : Numbered s)
    (h : s₀.project (some event) = some s') (hcounter : s₀.eventSequence = s.eventSequence)
    (hevents : s₀.liveEvents = s.liveEvents) (hseq : event.sequence = s.eventSequence + 1) :
    Numbered s' := by
  cases h
  refine ⟨?_, ?_⟩
  · simp only [List.length_append, List.length_singleton, hcounter, hevents, hs.length]
  · simp only [List.map_append, List.map_singleton, hcounter, hevents, hs.sequences, hseq]
    rw [List.range'_1_concat, Nat.add_comm 1]

namespace NumberingLemmas

theorem sequence_of_build {eventType occurredAt correlationId traceparent : String}
    {progress : Progress} {sequence : Nat} {runId : Option String}
    {artifacts : Option (List ArtifactItem)} {event : LiveEvent}
    (h : buildLiveProgressEvent eventType progress occurredAt sequence correlationId traceparent runId
      artifacts = some event) : event.sequence = sequence := by
  simp only [buildLiveProgressEvent] at h
  split at h
  · cases h
  · cases h
    rfl

variable {uuid5 : String → String} {payload : BatchPayload}

/-- The formula over a view of the ledger. -/
theorem nextEventSequence_render (L : Ledger) :
    nextEventSequence (render uuid5 payload L) =
      payload.slots.countP (L.dispatched uuid5 payload) +
        payload.slots.countP (L.recorded uuid5 payload) +
        payload.cvs.countP (fun cv =>
          isApplicationTerminal (renderApplication uuid5 payload L cv)) + 1 := by
  simp [nextEventSequence, render, List.filter_map, List.countP_eq_length_filter,
    Function.comp_def]

/-- The first document of a batch has the number of its first event. -/
theorem nextEventSequence_initial (createdAt : String) :
    nextEventSequence (buildInitialProgress uuid5 payload createdAt) = 1 := by
  have hterminal : ∀ cv, isApplicationTerminal
      (renderApplication uuid5 payload (Ledger.initial createdAt) cv) = false :=
    fun cv => not_isApplicationTerminal payload.one_le_runCount rfl
  have hdispatched : (Ledger.initial createdAt).dispatched uuid5 payload = fun _ => false := rfl
  have hrecorded : (Ledger.initial createdAt).recorded uuid5 payload = fun _ => false := rfl
  rw [← render_initial, nextEventSequence_render, hdispatched, hrecorded]
  simp [hterminal]

/-- A first dispatch raises the number by one. -/
theorem nextEventSequence_recordDispatched (hu : Uuid5Spec uuid5)
    (hd : payload.DistinctApplications) {L : Ledger} {cv : CvRef} {i : Nat} (hcv : cv ∈ payload.cvs)
    (hi : i < payload.runCount) (hres : ∀ r, L.results r = none)
    (hnone : L.dispatchedAt (payload.runId uuid5 cv i) = none) (t : String) :
    nextEventSequence (render uuid5 payload
        (L.recordDispatched uuid5 payload (payload.runId uuid5 cv i) t)) =
      nextEventSequence (render uuid5 payload L) + 1 := by
  have ho := owner_eq_some hu hd hcv hi
  have hc := changedAt_recordDispatched (L := L) ho t
  have hminted : payload.runId uuid5 cv i ∈ payload.mintedIds uuid5 :=
    BatchPayload.runId_mem_mintedIds hcv hi
  have hnow := dispatchedAt_self hminted L t
  have hresults : (L.recordDispatched uuid5 payload (payload.runId uuid5 cv i) t).results =
      L.results := results_recordDispatched L _ t
  generalize L.recordDispatched uuid5 payload (payload.runId uuid5 cv i) t = L' at hc hnow hresults ⊢
  have hdispatched := hc.countP_dispatched hu hd hcv hi hnone hnow
  have hrecorded : L'.recorded uuid5 payload = L.recorded uuid5 payload := by
    funext s
    unfold recorded
    rw [hresults]
  -- no application is terminal while there is no result
  have hterminal : ∀ M : Ledger, (∀ r, M.results r = none) → ∀ cv,
      isApplicationTerminal (renderApplication uuid5 payload M cv) = false :=
    fun M hM cv => not_isApplicationTerminal payload.one_le_runCount (hM _)
  have hL' : ∀ r, L'.results r = none := fun r => by rw [hresults, hres]
  rw [nextEventSequence_render, nextEventSequence_render, hdispatched, hrecorded]
  simp only [hterminal L hres, hterminal L' hL']
  omega

/-- A first result raises the number by one, and by one more when it ends its
application. -/
theorem nextEventSequence_recordResult (hu : Uuid5Spec uuid5) (hd : payload.DistinctApplications)
    {L : Ledger} {rr : RunResult} {cv : CvRef} {i : Nat} (hcv : cv ∈ payload.cvs)
    (hi : i < payload.runCount) (hid : payload.runId uuid5 cv i = rr.runId)
    (hnone : L.results rr.runId = none) (t : String) :
    nextEventSequence (render uuid5 payload (L.recordResult uuid5 payload rr t)) =
      nextEventSequence (render uuid5 payload L) + 1 +
        if isApplicationTerminal (renderApplication uuid5 payload
          (L.recordResult uuid5 payload rr t) cv) then 1 else 0 := by
  have ho : owner uuid5 payload rr.runId = some (cv, i) := hid ▸ owner_eq_some hu hd hcv hi
  have hc := changedAt_recordResult ho hid hnone t
  have hbefore : L.results (payload.runId uuid5 cv i) = none := hid ▸ hnone
  have hnow : ((L.recordResult uuid5 payload rr t).results (payload.runId uuid5 cv i)).isSome := by
    rw [results_recordResult L ho, hid, FirstWrite.record_of_none hnone]
    rfl
  have hdisp : (L.recordResult uuid5 payload rr t).dispatchedAt = L.dispatchedAt :=
    dispatchedAt_recordResult L rr t
  generalize L.recordResult uuid5 payload rr t = L' at hc hnow hdisp ⊢
  have hdispatched : L'.dispatched uuid5 payload = L.dispatched uuid5 payload := by
    funext s
    unfold dispatched
    rw [hdisp]
  have hrecorded := hc.countP_recorded hu hd hcv hi hbefore hnow
  -- the application had a run without a result
  have hopen : isApplicationTerminal (renderApplication uuid5 payload L cv) = false :=
    not_isApplicationTerminal hi hbefore
  have hterminal : payload.cvs.countP (fun cv' =>
        isApplicationTerminal (renderApplication uuid5 payload L' cv')) =
      payload.cvs.countP (fun cv' =>
        isApplicationTerminal (renderApplication uuid5 payload L cv')) +
        if isApplicationTerminal (renderApplication uuid5 payload L' cv) then 1 else 0 := by
    have hsame := hc.application_of_ne hu hd hcv
    split
    · next hnowTerminal =>
      exact Search.countP_update hd.nodup_cvs hcv (fun cv' hcv' hne => by rw [hsame cv' hcv' hne])
        hopen hnowTerminal
    · next hstill =>
      refine List.countP_congr fun cv' hcv' => ?_
      by_cases heq : cv' = cv
      · rw [heq, hopen, Bool.eq_false_iff.mpr hstill]
      · rw [hsame cv' hcv' heq]
  rw [nextEventSequence_render, nextEventSequence_render, hdispatched, hrecorded, hterminal]
  omega

/-! ## 2. One turn of a loop -/

/-- A turn of the dispatch loop. -/
theorem recordDispatch_spec (hu : Uuid5Spec uuid5) (hd : payload.DistinctApplications) {t r : String}
    {s s' : OrchState} {L : Ledger} (hr : r ∈ payload.mintedIds uuid5)
    (hs : s.progress = render uuid5 payload L) (hres : ∀ r, L.results r = none)
    (hnone : L.dispatchedAt r = none) (h : recordDispatch payload t s r = some s') :
    s'.progress = render uuid5 payload (L.recordDispatched uuid5 payload r t) ∧
      (Numbered s → Numbered s') ∧ (Announced s → Announced s') := by
  obtain ⟨cv, hcv, i, hi, rfl⟩ := BatchPayload.mem_mintedIds.mp hr
  have hprogress : recordDispatchedRun s.progress (payload.runId uuid5 cv i) t =
      render uuid5 payload (L.recordDispatched uuid5 payload (payload.runId uuid5 cv i) t) := by
    rw [hs]
    exact render_recordDispatched hu hd (hres _) t
  obtain ⟨event, app, he, -, -, -⟩ := build_event hu hd
    (L.recordDispatched uuid5 payload (payload.runId uuid5 cv i) t) hcv hi "run.dispatched" t
    (s.eventSequence + 1) payload.correlationId payload.traceparent none
  unfold recordDispatch at h
  simp only [hprogress, he] at h
  have hp' : s'.progress = render uuid5 payload
      (L.recordDispatched uuid5 payload (payload.runId uuid5 cv i) t) := by
    cases h
    rfl
  have hseq' : s'.eventSequence = s.eventSequence + 1 := by
    cases h
    rfl
  refine ⟨hp', fun hn => ?_, fun ha => ?_⟩
  · exact hn.project h rfl rfl (sequence_of_build he)
  · show nextEventSequence s'.progress = s'.eventSequence + 1
    rw [hp', hseq', nextEventSequence_recordDispatched hu hd hcv hi hres hnone, ← hs, ha]

/-- The dispatch loop over ids that were not dispatched. -/
theorem foldlM_numbered (hu : Uuid5Spec uuid5) (hd : payload.DistinctApplications) {t : String}
    {rs : List String} (hn : rs.Nodup) (hrs : ∀ r ∈ rs, r ∈ payload.mintedIds uuid5)
    {s s' : OrchState} {L : Ledger} (hs : s.progress = render uuid5 payload L)
    (hres : ∀ r, L.results r = none) (hnone : ∀ r ∈ rs, L.dispatchedAt r = none)
    (h : rs.foldlM (recordDispatch payload t) s = some s') (hnum : Numbered s) (hann : Announced s) :
    Numbered s' ∧ Announced s' := by
  induction rs generalizing s L with
  | nil =>
    cases h
    exact ⟨hnum, hann⟩
  | cons r rs ih =>
    rw [List.foldlM_cons] at h
    obtain ⟨s₁, hs₁, hrest⟩ := Option.bind_eq_some_iff.mp h
    rw [List.nodup_cons] at hn
    have hr : r ∈ payload.mintedIds uuid5 := hrs r (by simp)
    obtain ⟨hp₁, hnum₁, hann₁⟩ := recordDispatch_spec hu hd hr hs hres (hnone r (by simp)) hs₁
    refine ih hn.2 (fun r' hr' => hrs r' (by simp [hr'])) hp₁ ?_ ?_ hrest (hnum₁ hnum) (hann₁ hann)
    · rw [results_recordDispatched]
      exact hres
    · intro r' hr'
      have hne : r' ≠ r := fun heq => hn.1 (heq ▸ hr')
      obtain ⟨cv, hcv, i, hi, rfl⟩ := BatchPayload.mem_mintedIds.mp hr
      have hc := changedAt_recordDispatched (L := L) (owner_eq_some hu hd hcv hi) t
      rw [hc.dispatchedAt r' hne]
      exact hnone r' (by simp [hr'])

/-- The event of a run: the formula is ahead by the event of its application when
that is due. -/
theorem announceRun_spec (hu : Uuid5Spec uuid5) (hd : payload.DistinctApplications)
    {s s₁ : OrchState} {L : Ledger} (hw : AtWaitPoint uuid5 payload s L) {a : Arrival} {cv : CvRef}
    {i : Nat} (hcv : cv ∈ payload.cvs) (hi : i < payload.runCount)
    (hid : payload.runId uuid5 cv i = a.runId) (hnone : L.results a.runId = none)
    (h : announceRun payload s a = some s₁) :
    s₁.progress = render uuid5 payload (L.recordResult uuid5 payload a.result a.occurredAt) ∧
      (Numbered s → Numbered s₁) ∧
      (Announced s → nextEventSequence s₁.progress = s₁.eventSequence + 1 +
        if isApplicationTerminal (renderApplication uuid5 payload
          (L.recordResult uuid5 payload a.result a.occurredAt) cv) then 1 else 0) := by
  have hprogress : recordRunResult s.progress a.result a.occurredAt =
      render uuid5 payload (L.recordResult uuid5 payload a.result a.occurredAt) := by
    rw [hw.progress_eq]
    exact render_recordResult hu hd (fun p hp => by rw [hnone] at hp; cases hp) a.occurredAt
  have hnext := nextEventSequence_recordResult hu hd hcv hi hid hnone a.occurredAt
  generalize L.recordResult uuid5 payload a.result a.occurredAt = L' at hprogress hnext ⊢
  obtain ⟨event, app, he, -, -, -⟩ := build_event hu hd L' hcv hi
    (terminalRunEventType a.result.status) a.occurredAt (s.eventSequence + 1)
    (orDefault a.result.correlationId payload.correlationId)
    (orDefault a.result.traceparent payload.traceparent) (some a.result.artifactList)
  rw [hid] at he
  unfold announceRun buildRunTerminalLiveEvent at h
  simp only [hprogress, he] at h
  have hp₁ : s₁.progress = render uuid5 payload L' := by
    cases h
    rfl
  have hseq₁ : s₁.eventSequence = s.eventSequence + 1 := by
    cases h
    rfl
  refine ⟨hp₁, fun hn => ?_, fun ha => ?_⟩
  · exact hn.project h rfl rfl (sequence_of_build he)
  · have ha' : nextEventSequence (render uuid5 payload L) = s.eventSequence + 1 := by
      rw [← hw.progress_eq]
      exact ha
    rw [hp₁, hseq₁, hnext, ha']

/-- The event of an application. -/
theorem report_spec (hu : Uuid5Spec uuid5) (hd : payload.DistinctApplications) {s s' : OrchState}
    {L : Ledger} (hs : s.progress = render uuid5 payload L) {cv : CvRef} (hcv : cv ∈ payload.cvs)
    (hnew : cv.applicationId ∉ s.emittedApplicationEvents) {a : Arrival}
    (h : reportApplication payload s cv.applicationId a = some s') :
    s'.progress = s.progress ∧ (Numbered s → Numbered s') ∧
      s'.eventSequence = s.eventSequence +
        if isApplicationTerminal (renderApplication uuid5 payload L cv) then 1 else 0 := by
  simp only [reportApplication, hs, findApplication_render hd L hcv] at h
  cases hterminal : isApplicationTerminal (renderApplication uuid5 payload L cv) with
  | false =>
    rw [hterminal] at h
    cases h
    exact ⟨rfl, id, rfl⟩
  | true =>
    obtain ⟨event, app, he, -, -, -⟩ := build_application_event hu hd L hcv a.occurredAt
      (s.eventSequence + 1) (orDefault a.result.correlationId payload.correlationId)
      (orDefault a.result.traceparent payload.traceparent)
    have hcontains : s.emittedApplicationEvents.contains cv.applicationId = false := by
      simpa using hnew
    have hseq : event.sequence = s.eventSequence + 1 := by
      unfold buildApplicationTerminalLiveEvent at he
      rw [findApplication_render hd L hcv] at he
      exact sequence_of_build he
    simp only [hterminal, hcontains, he, Bool.not_false, Bool.and_self, if_true] at h
    refine ⟨?_, fun hn => ?_, ?_⟩
    · cases h
      exact hs.symm
    · exact hn.project h rfl rfl hseq
    · cases h
      rfl

/-- A turn of the wait loop. -/
theorem consume_numbered (hu : Uuid5Spec uuid5) (hd : payload.DistinctApplications)
    {s s' : OrchState} {L : Ledger} (hw : AtWaitPoint uuid5 payload s L) {a : Arrival}
    (h : consume uuid5 payload s a = some s') (hnum : Numbered s) (hann : Announced s) :
    Numbered s' ∧ Announced s' := by
  have ha := mem_pending_of_consume h
  obtain ⟨hminted, hnone⟩ := (hw.mem_pending _).mp ha
  obtain ⟨cv, hcv, i, hi, hid⟩ := BatchPayload.mem_mintedIds.mp hminted
  rw [consume_eq ha, get?_runIndexMap hu hd hcv hi hid] at h
  obtain ⟨s₁, hs₁, hreport⟩ := Option.bind_eq_some_iff.mp h
  obtain ⟨hp₁, hnum₁, hann₁⟩ := announceRun_spec hu hd hw hcv hi hid hnone hs₁
  have hnew : cv.applicationId ∉ s₁.emittedApplicationEvents := by
    have hemitted : s₁.emittedApplicationEvents = s.emittedApplicationEvents := by
      unfold announceRun OrchState.project at hs₁
      obtain ⟨event, -, rfl⟩ := Option.map_eq_some_iff.mp hs₁
      rfl
    rw [hemitted, hw.emitted cv hcv, not_isApplicationTerminal hi (by rw [hid, hnone])]
    decide
  obtain ⟨hp', hnum', hseq'⟩ := report_spec hu hd hp₁ hcv hnew hreport
  refine ⟨hnum' (hnum₁ hnum), ?_⟩
  show nextEventSequence s'.progress = s'.eventSequence + 1
  rw [hp', hseq', hann₁ hann]
  omega

end NumberingLemmas

open NumberingLemmas

/-! ## 3. The wait points -/

section WaitPoints
variable {uuid5 : String → String} {payload : BatchPayload}

/-- The first wait point. -/
theorem start_numbered (hu : Uuid5Spec uuid5) (hd : payload.DistinctApplications)
    {createdAt dispatchedAt : String} {s : OrchState}
    (h : start uuid5 payload createdAt dispatchedAt = some s) : Numbered s ∧ Announced s := by
  unfold start at h
  exact foldlM_numbered hu hd (BatchPayload.nodup_mintedIds hu hd) (fun _ h => h)
    (render_initial createdAt).symm (fun _ => rfl) (fun _ _ => rfl) h ⟨rfl, rfl⟩
    (nextEventSequence_initial createdAt)

/-- The wait loop from a wait point. -/
theorem exec_numbered (hu : Uuid5Spec uuid5) (hd : payload.DistinctApplications) {s s' : OrchState}
    {L : Ledger} (hw : AtWaitPoint uuid5 payload s L) {arrivals : List Arrival}
    (h : Transition.exec (consume uuid5 payload) s arrivals = some s') (hnum : Numbered s)
    (hann : Announced s) : Numbered s' ∧ Announced s' := by
  induction arrivals generalizing s L with
  | nil =>
    cases h
    exact ⟨hnum, hann⟩
  | cons a arrivals ih =>
    rw [Transition.exec_cons] at h
    obtain ⟨s₁, hs₁, hrest⟩ := Option.bind_eq_some_iff.mp h
    obtain ⟨s₂, hs₂, -, -, hw₂⟩ := consume_spec hu hd hw (mem_pending_of_consume hs₁)
    cases hs₁.symm.trans hs₂
    obtain ⟨hnum₁, hann₁⟩ := consume_numbered hu hd hw hs₁ hnum hann
    exact ih hw₂ hrest hnum₁ hann₁

/-- At every wait point of the wait loop, the last one included, the orchestrator
has numbered its events from 1, and `_next_event_sequence` gives the number after
the last one. The status strings are arbitrary. -/
theorem next_event_sequence_exact (hu : Uuid5Spec uuid5) (hd : payload.DistinctApplications)
    (createdAt dispatchedAt : String) {arrivals : List Arrival}
    (h : OnePerRun uuid5 payload arrivals) :
    ∃ s, waitLoop uuid5 payload createdAt dispatchedAt arrivals = some s ∧
      s.eventSequence = s.liveEvents.length ∧
      s.liveEvents.map LiveEvent.sequence = List.range' 1 s.eventSequence ∧
      nextEventSequence s.progress = s.eventSequence + 1 := by
  obtain ⟨s, hs, -, -⟩ := waitLoop_spec hu hd createdAt dispatchedAt h
  obtain ⟨s₀, hs₀, hrun⟩ := Option.bind_eq_some_iff.mp hs
  obtain ⟨s₁, hs₁, -, -, hw₁⟩ := start_spec hu hd createdAt dispatchedAt
  cases hs₀.symm.trans hs₁
  obtain ⟨hnum₀, hann₀⟩ := start_numbered hu hd hs₀
  obtain ⟨hnum, hann⟩ := exec_numbered hu hd hw₁ hrun hnum₀ hann₀
  exact ⟨s, hs, hnum.length, hnum.sequences, hann⟩

end WaitPoints

/-- Two runs of two applications, one of them with a status that is not terminal. -/
theorem next_event_sequence_exact_sample :
    ∃ s, waitLoop Sample.uuid5 (Sample.payload Sample.batch1 ["app-1", "app-2"] 1)
        "2025-01-01T00:00:00+00:00" "2025-01-01T00:00:10+00:00" Sample.mixedArrivals = some s ∧
      s.eventSequence = s.liveEvents.length ∧
      s.liveEvents.map LiveEvent.sequence = List.range' 1 s.eventSequence ∧
      nextEventSequence s.progress = s.eventSequence + 1 :=
  next_event_sequence_exact Sample.uuid5_spec (by decide) _ _ (by decide)

end TalentMatch
