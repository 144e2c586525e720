import TalentMatch.Numbering

/-!
# The yields of the orchestrator

`batch_orchestrator` from one yield to the next. `start` and `consume` go over the
yields on `project_live_progress`; here each of them is a step of its own, since
other code of the fanout app runs while the orchestrator waits there.

Results:
1. `refines_resume`: a step from one yield to the next is a part of `start`,
   `consume` or `finish`.
2. `sequences_of_refines`: at every yield the events are numbered from 1 without a gap.
3. `lt_nextSequence_of_refines`, `nextSequence_of_closing`: before its last event the
   formula of `_next_event_sequence` is ahead of all events, and at the last one it
   gives the number of that event.
4. `nextSequence_of_isBehind`: so it is with the custom status that Durable has
   published, but for the loop over the dispatched runs.
-/

namespace TalentMatch

/-! ## 1. Yields -/

/-- Where `batch_orchestrator` is suspended: before it began, on `prepare_prompt_blob`
and the dispatches, on the event of a dispatched run with the runs that are left, at
the top of the wait loop, on the event of a run, and on the last event. The activity
that the wait loop called before its top may still be under way. -/
inductive YieldPoint where
  | notStarted
  | staging (s : OrchState)
  | dispatching (s : OrchState) (dispatchedAt : String) (rest : List String)
  | waiting (s : OrchState)
  | reporting (s : OrchState) (a : Arrival)
  | closing (s : OrchState)

/-- What the orchestrator is resumed with: activities that returned, and the time
then, or the event of a run. -/
inductive Resumption where
  | activities (now : String)
  | runEvent (a : Arrival)

/-- The live events that were handed to `project_live_progress`. -/
def YieldPoint.events : YieldPoint → List LiveEvent
  | .notStarted => []
  | .staging s | .dispatching s _ _ | .waiting s | .reporting s _ | .closing s => s.liveEvents

/-- `progress`, once there is one. -/
def YieldPoint.progress? : YieldPoint → Option Progress
  | .notStarted => none
  | .staging s | .dispatching s _ _ | .waiting s | .reporting s _ | .closing s => some s.progress

/-- In the loop over `dispatched_runs`. -/
def YieldPoint.isDispatching : YieldPoint → Bool
  | .dispatching _ _ _ => true
  | _ => false

/-- At the last event. -/
def YieldPoint.isClosing : YieldPoint → Bool
  | .closing _ => true
  | _ => false

/-- The number that `_next_event_sequence` gives for a custom status. -/
def nextSequence (customStatus : Option Progress) : Nat := customStatus.elim 1 nextEventSequence

theorem nextSequence_pos (customStatus : Option Progress) : 0 < nextSequence customStatus := by
  cases customStatus with
  | none => exact Nat.one_pos
  | some progress => exact Nat.succ_pos _

section Resume
variable (uuid5 : String → String) (payload : BatchPayload)

/-- The state of the orchestrator at its first yield. -/
def OrchState.initial (createdAt : String) : OrchState where
  progress := buildInitialProgress uuid5 payload createdAt
  eventSequence := 0
  emittedApplicationEvents := []
  pendingEvents := eventTasks uuid5 payload
  runResults := []
  liveEvents := []

/-- The loop over `dispatched_runs` up to its next yield, or from its end to the top
of the wait loop. -/
def dispatchNext (dispatchedAt : String) (s : OrchState) :
    List String → Option (YieldPoint × Option Progress)
  | [] => some (.waiting s, some s.progress)
  | r :: rest =>
    (recordDispatch payload dispatchedAt s r).map fun s' => (.dispatching s' dispatchedAt rest, none)

/-- `batch_orchestrator` from a yield to the next one, with what it hands to
`set_custom_status` on the way. -/
def resume : YieldPoint → Resumption → Option (YieldPoint × Option Progress)
  | .notStarted, .activities now =>
    some (.staging (.initial uuid5 payload now), some (buildInitialProgress uuid5 payload now))
  | .staging s, .activities now => dispatchNext payload now s (payload.mintedIds uuid5)
  | .dispatching s dispatchedAt rest, .activities _ => dispatchNext payload dispatchedAt s rest
  | .waiting s, .runEvent a =>
    if a.runId ∈ s.pendingEvents then
      (announceRun payload s a).map fun s' => (.reporting s' a, some s'.progress)
    else none
  | .reporting s a, .activities _ =>
    (Dict.get? (runIndexMap uuid5 payload) a.runId).bind fun entry =>
      (reportApplication payload s entry.1 a).map fun s' => (.waiting s', none)
  -- without pending events the loop ends, and `finalize_batch` is called
  | .waiting s, .activities now =>
    if s.pendingEvents = [] then
      (finish payload s now).map fun s' => (.closing s', some s'.progress)
    else none
  | _, _ => none

/-- The orchestrator hands an event to `project_live_progress` when it is resumed. -/
def YieldPoint.Announces : YieldPoint → Prop
  | .notStarted => False
  | .staging _ => payload.mintedIds uuid5 ≠ []
  | .dispatching _ _ rest => rest ≠ []
  | .waiting _ => True
  | .reporting s a => ∃ entry application,
    Dict.get? (runIndexMap uuid5 payload) a.runId = some entry ∧
      findApplication s.progress entry.1 = some application ∧
      isApplicationTerminal application = true ∧ entry.1 ∉ s.emittedApplicationEvents
  | .closing _ => False

/-- What the orchestrator does from one yield to the next. -/
inductive Resumes : YieldPoint → YieldPoint → Option Progress → Prop
  | begun (now : String) :
      Resumes .notStarted (.staging (.initial uuid5 payload now))
        (some (buildInitialProgress uuid5 payload now))
  | noRuns {s : OrchState} (hids : payload.mintedIds uuid5 = []) :
      Resumes (.staging s) (.waiting s) (some s.progress)
  | firstRun {s s' : OrchState} {now r : String} {rest : List String}
      (hids : payload.mintedIds uuid5 = r :: rest) (hs : recordDispatch payload now s r = some s') :
      Resumes (.staging s) (.dispatching s' now rest) none
  | nextRun {s s' : OrchState} {dispatchedAt r : String} {rest : List String}
      (hs : recordDispatch payload dispatchedAt s r = some s') :
      Resumes (.dispatching s dispatchedAt (r :: rest)) (.dispatching s' dispatchedAt rest) none
  | lastRun {s : OrchState} {dispatchedAt : String} :
      Resumes (.dispatching s dispatchedAt []) (.waiting s) (some s.progress)
  | arrived {s s' : OrchState} {a : Arrival} (ha : a.runId ∈ s.pendingEvents)
      (hs : announceRun payload s a = some s') :
      Resumes (.waiting s) (.reporting s' a) (some s'.progress)
  | reported {s s' : OrchState} {a : Arrival} {entry : String × Nat}
      (hentry : Dict.get? (runIndexMap uuid5 payload) a.runId = some entry)
      (hs : reportApplication payload s entry.1 a = some s') :
      Resumes (.reporting s a) (.waiting s') none
  | finished {s s' : OrchState} {now : String} (hpending : s.pendingEvents = [])
      (hs : finish payload s now = some s') :
      Resumes (.waiting s) (.closing s') (some s'.progress)

/-- What the orchestrator has done at a yield, in terms of `start`, `waitLoop` and
`finish`. -/
inductive Refines : YieldPoint → Prop
  | notStarted : Refines .notStarted
  | staging (createdAt : String) : Refines (.staging (.initial uuid5 payload createdAt))
  | dispatching {createdAt dispatchedAt : String} {ids rest : List String} {s : OrchState}
      (hids : payload.mintedIds uuid5 = ids ++ rest) (hne : ids ≠ [])
      (hs : ids.foldlM (recordDispatch payload dispatchedAt) (.initial uuid5 payload createdAt) =
        some s) :
      Refines (.dispatching s dispatchedAt rest)
  | waiting {createdAt dispatchedAt : String} {arrivals : List Arrival} {s : OrchState}
      (hs : waitLoop uuid5 payload createdAt dispatchedAt arrivals = some s) :
      Refines (.waiting s)
  | reporting {createdAt dispatchedAt : String} {arrivals : List Arrival} {s s' : OrchState}
      {a : Arrival} (hs : waitLoop uuid5 payload createdAt dispatchedAt arrivals = some s)
      (ha : a.runId ∈ s.pendingEvents) (hs' : announceRun payload s a = some s') :
      Refines (.reporting s' a)
  | closing {createdAt dispatchedAt now : String} {arrivals : List Arrival} {s s' : OrchState}
      (hs : waitLoop uuid5 payload createdAt dispatchedAt arrivals = some s)
      (hs' : finish payload s now = some s') :
      Refines (.closing s')

end Resume

namespace YieldPointLemmas

variable {uuid5 : String → String} {payload : BatchPayload}

theorem resumes_of_resume {p p' : YieldPoint} {r : Resumption} {customStatus : Option Progress}
    (h : resume uuid5 payload p r = some (p', customStatus)) :
    Resumes uuid5 payload p p' customStatus := by
  cases p with
  | notStarted =>
    cases r with
    | activities now =>
      cases h
      exact .begun now
    | runEvent a => cases h
  | staging s =>
    cases r with
    | activities now =>
      simp only [resume] at h
      cases hids : payload.mintedIds uuid5 with
      | nil =>
        rw [hids] at h
        cases h
        exact .noRuns hids
      | cons id rest =>
        rw [hids] at h
        obtain ⟨s', hs', heq⟩ := Option.map_eq_some_iff.mp h
        cases heq
        exact .firstRun hids hs'
    | runEvent a => cases h
  | dispatching s dispatchedAt rest =>
    cases r with
    | activities now =>
      cases rest with
      | nil =>
        cases h
        exact .lastRun
      | cons id rest =>
        obtain ⟨s', hs', heq⟩ := Option.map_eq_some_iff.mp h
        cases heq
        exact .nextRun hs'
    | runEvent a => cases h
  | waiting s =>
    cases r with
    | activities now =>
      simp only [resume] at h
      split at h
      · next hpending =>
        obtain ⟨s', hs', heq⟩ := Option.map_eq_some_iff.mp h
        cases heq
        exact .finished hpending hs'
      · cases h
    | runEvent a =>
      simp only [resume] at h
      split at h
      · next ha =>
        obtain ⟨s', hs', heq⟩ := Option.map_eq_some_iff.mp h
        cases heq
        exact .arrived ha hs'
      · cases h
  | reporting s a =>
    cases r with
    | activities now =>
      obtain ⟨entry, hentry, hreport⟩ := Option.bind_eq_some_iff.mp h
      obtain ⟨s', hs', heq⟩ := Option.map_eq_some_iff.mp hreport
      cases heq
      exact .reported hentry hs'
    | runEvent a => cases h
  | closing s =>
    cases r with
    | activities now => cases h
    | runEvent a => cases h

/-! ## 2. The macro steps -/

/-- The dispatch loop ends at the first wait point. -/
theorem waitLoop_of_dispatched {createdAt dispatchedAt : String} {s : OrchState}
    (hs : (payload.mintedIds uuid5).foldlM (recordDispatch payload dispatchedAt)
      (.initial uuid5 payload createdAt) = some s) :
    waitLoop uuid5 payload createdAt dispatchedAt [] = some s := by
  have hstart : start uuid5 payload createdAt dispatchedAt = some s := hs
  rw [waitLoop, hstart]
  rfl

/-- One more turn of the dispatch loop. -/
theorem refines_nextRun {createdAt dispatchedAt r : String} {ids rest : List String}
    {s s' : OrchState} (hids : payload.mintedIds uuid5 = ids ++ r :: rest)
    (hs : ids.foldlM (recordDispatch payload dispatchedAt) (.initial uuid5 payload createdAt) =
      some s) (hs' : recordDispatch payload dispatchedAt s r = some s') :
    Refines uuid5 payload (.dispatching s' dispatchedAt rest) := by
  have hids' : payload.mintedIds uuid5 = (ids ++ [r]) ++ rest := by
    rw [hids]
    simp
  have hs'' : (ids ++ [r]).foldlM (recordDispatch payload dispatchedAt)
      (.initial uuid5 payload createdAt) = some s' := by
    rw [List.foldlM_append, hs]
    show (List.foldlM (recordDispatch payload dispatchedAt) s [r]) = some s'
    rw [List.foldlM_cons, hs']
    rfl
  exact .dispatching hids' (by simp) hs''

end YieldPointLemmas

open YieldPointLemmas

variable {uuid5 : String → String} {payload : BatchPayload}

/-- From yield to yield the orchestrator makes the steps of `start`, `consume` and
`finish`. -/
theorem refines_resume {p p' : YieldPoint} {customStatus : Option Progress}
    (h : Resumes uuid5 payload p p' customStatus) (hp : Refines uuid5 payload p) :
    Refines uuid5 payload p' := by
  cases h with
  | begun now => exact .staging now
  | noRuns hids =>
    cases hp with
    | staging createdAt =>
      have hs : (payload.mintedIds uuid5).foldlM (recordDispatch payload createdAt)
          (.initial uuid5 payload createdAt) = some (.initial uuid5 payload createdAt) := by
        rw [hids]
        rfl
      exact .waiting (waitLoop_of_dispatched hs)
  | firstRun hids hs =>
    cases hp with
    | staging createdAt =>
      rw [← List.nil_append (_ :: _)] at hids
      exact refines_nextRun hids rfl hs
  | nextRun hs =>
    cases hp with
    | dispatching hids hne hs₀ => exact refines_nextRun hids hs₀ hs
  | lastRun =>
    cases hp with
    | dispatching hids hne hs₀ =>
      rw [List.append_nil] at hids
      rw [← hids] at hs₀
      exact .waiting (waitLoop_of_dispatched hs₀)
  | arrived ha hs =>
    cases hp with
    | waiting hs₀ => exact .reporting hs₀ ha hs
  | @reported s s' a entry hentry hs =>
    cases hp with
    | reporting hs₀ ha hs₁ =>
      refine .waiting (waitLoop_snoc hs₀ (a := a) ?_)
      rw [consume_eq ha, hs₁, Option.bind_some, hentry]
      exact hs
  | finished hpending hs =>
    cases hp with
    | waiting hs₀ => exact .closing hs₀ hs

/-! ## 3. The numbers at a yield -/

namespace YieldPointLemmas
open NumberingLemmas LedgerLemmas

/-- A state that an event was added to. -/
theorem liveEvents_of_project {s s₀ s' : OrchState} {event : Option LiveEvent}
    (h : s₀.project event = some s') (hs : s₀.liveEvents = s.liveEvents) :
    ∃ e, s'.liveEvents = s.liveEvents ++ [e] := by
  obtain ⟨e, -, rfl⟩ := Option.map_eq_some_iff.mp h
  exact ⟨e, by rw [hs]⟩

/-- The end of a turn of the wait loop has an event exactly when there is one due. -/
theorem reportApplication_cases {s s' : OrchState} {applicationId : String} {a : Arrival}
    (h : reportApplication payload s applicationId a = some s') :
    s'.progress = s.progress ∧
      ((∃ application, findApplication s.progress applicationId = some application ∧
          isApplicationTerminal application = true ∧
          applicationId ∉ s.emittedApplicationEvents) ∧
          (∃ e, s'.liveEvents = s.liveEvents ++ [e]) ∨
        (¬ ∃ application, findApplication s.progress applicationId = some application ∧
          isApplicationTerminal application = true ∧
          applicationId ∉ s.emittedApplicationEvents) ∧ s'.liveEvents = s.liveEvents) := by
  unfold reportApplication at h
  cases hfind : findApplication s.progress applicationId with
  | none =>
    rw [hfind] at h
    cases h
    refine ⟨rfl, .inr ⟨?_, rfl⟩⟩
    rintro ⟨application, hsome, -⟩
    cases hsome
  | some application =>
    rw [hfind] at h
    simp only at h
    split at h
    · next hdue =>
      simp only [Bool.and_eq_true, Bool.not_eq_true', List.contains_eq_mem,
        decide_eq_false_iff_not] at hdue
      refine ⟨?_, .inl ⟨⟨application, rfl, hdue⟩, liveEvents_of_project h rfl⟩⟩
      obtain ⟨e, -, rfl⟩ := Option.map_eq_some_iff.mp h
      rfl
    · next hdue =>
      cases h
      refine ⟨rfl, .inr ⟨?_, rfl⟩⟩
      rintro ⟨application', hsome, hterminal, hnew⟩
      cases hsome
      exact hdue (by simp [hterminal, hnew])

/-- The numbers after some turns of the dispatch loop. -/
theorem numbered_of_dispatched (hu : Uuid5Spec uuid5) (hd : payload.DistinctApplications)
    {createdAt dispatchedAt : String} {ids rest : List String} {s : OrchState}
    (hids : payload.mintedIds uuid5 = ids ++ rest)
    (hs : ids.foldlM (recordDispatch payload dispatchedAt) (.initial uuid5 payload createdAt) =
      some s) : Numbered s ∧ Announced s := by
  have hn := BatchPayload.nodup_mintedIds hu hd
  rw [hids] at hn
  have hmem : ∀ r ∈ ids, r ∈ payload.mintedIds uuid5 := fun r hr => by
    rw [hids]
    exact List.mem_append_left _ hr
  exact foldlM_numbered hu hd hn.of_append_left hmem (render_initial createdAt).symm
    (fun _ => rfl) (fun _ _ => rfl) hs ⟨rfl, rfl⟩ (nextEventSequence_initial createdAt)

/-- A turn of the dispatch loop has an event. -/
theorem events_of_dispatched {createdAt dispatchedAt : String} {ids : List String} {s : OrchState}
    (hne : ids ≠ [])
    (hs : ids.foldlM (recordDispatch payload dispatchedAt) (.initial uuid5 payload createdAt) =
      some s) : s.liveEvents ≠ [] := by
  obtain ⟨ids', r, rfl⟩ := List.eq_nil_or_concat' ids |>.resolve_left hne
  rw [List.foldlM_append] at hs
  obtain ⟨s₁, -, hlast⟩ := Option.bind_eq_some_iff.mp hs
  rw [List.foldlM_cons] at hlast
  obtain ⟨s₂, hs₂, hnil⟩ := Option.bind_eq_some_iff.mp hlast
  cases hnil
  obtain ⟨e, he⟩ := liveEvents_of_project hs₂ rfl
  rw [he]
  simp

/-- What holds at a wait point of the wait loop. -/
theorem atWaitPoint_of_waitLoop (hu : Uuid5Spec uuid5) (hd : payload.DistinctApplications)
    {createdAt dispatchedAt : String} {arrivals : List Arrival} {s : OrchState}
    (hs : waitLoop uuid5 payload createdAt dispatchedAt arrivals = some s) :
    ∃ L, AtWaitPoint uuid5 payload s L ∧ Numbered s ∧ Announced s := by
  have h : OnePerRun uuid5 payload arrivals := by
    rw [← waitLoop_isSome_iff hu hd createdAt dispatchedAt, hs]
    rfl
  obtain ⟨s₁, hs₁, -, hw⟩ := waitLoop_spec hu hd createdAt dispatchedAt h
  cases hs.symm.trans hs₁
  obtain ⟨s₀, hs₀, hrun⟩ := Option.bind_eq_some_iff.mp hs
  obtain ⟨s₂, hs₂, -, -, hw₂⟩ := start_spec hu hd createdAt dispatchedAt
  cases hs₀.symm.trans hs₂
  obtain ⟨hnum₀, hann₀⟩ := start_numbered hu hd hs₀
  obtain ⟨hnum, hann⟩ := exec_numbered hu hd hw₂ hrun hnum₀ hann₀
  exact ⟨_, hw, hnum, hann⟩

/-- The last event has the next number, and the formula does not count it. -/
theorem finish_numbered {s s' : OrchState} {now : String} (hnum : Numbered s) (hann : Announced s)
    (h : finish payload s now = some s') :
    Numbered s' ∧ nextEventSequence s'.progress = s'.eventSequence := by
  unfold finish at h
  cases hevent : buildBatchTerminalLiveEvent (finalProgress s.progress now) now
      (s.eventSequence + 1) payload.correlationId payload.traceparent with
  | none =>
    simp only [hevent] at h
    cases h
  | some event =>
    simp only [hevent] at h
    refine ⟨hnum.project h rfl rfl (sequence_of_build hevent), ?_⟩
    cases h
    exact hann

/-- The state at a yield after the first one. -/
theorem numbered_of_refines (hu : Uuid5Spec uuid5) (hd : payload.DistinctApplications)
    {p : YieldPoint} (hp : Refines uuid5 payload p) :
    p = .notStarted ∨ ∃ s, p.events = s.liveEvents ∧ p.progress? = some s.progress ∧ Numbered s ∧
      (p.isClosing = false → s.eventSequence < nextEventSequence s.progress) ∧
      (p.isClosing = true → nextEventSequence s.progress = s.eventSequence) := by
  have hlt : ∀ {s : OrchState}, Announced s → s.eventSequence < nextEventSequence s.progress := by
    intro s hann
    have heq : nextEventSequence s.progress = s.eventSequence + 1 := hann
    omega
  cases hp with
  | notStarted => exact .inl rfl
  | staging createdAt =>
    exact .inr ⟨_, rfl, rfl, ⟨rfl, rfl⟩, fun _ => hlt (nextEventSequence_initial createdAt), nofun⟩
  | dispatching hids hne hs =>
    obtain ⟨hnum, hann⟩ := numbered_of_dispatched hu hd hids hs
    exact .inr ⟨_, rfl, rfl, hnum, fun _ => hlt hann, nofun⟩
  | waiting hs =>
    obtain ⟨L, hw, hnum, hann⟩ := atWaitPoint_of_waitLoop hu hd hs
    exact .inr ⟨_, rfl, rfl, hnum, fun _ => hlt hann, nofun⟩
  | @reporting _ _ _ s s' a hs ha hs' =>
    obtain ⟨L, hw, hnum, hann⟩ := atWaitPoint_of_waitLoop hu hd hs
    obtain ⟨hminted, hnone⟩ := (hw.mem_pending _).mp ha
    obtain ⟨cv, hcv, i, hi, hid⟩ := BatchPayload.mem_mintedIds.mp hminted
    obtain ⟨-, hnum', hann'⟩ := announceRun_spec hu hd hw hcv hi hid hnone hs'
    refine .inr ⟨_, rfl, rfl, hnum' hnum, fun _ => ?_, nofun⟩
    have hnext := hann' hann
    omega
  | closing hs hs' =>
    obtain ⟨L, hw, hnum, hann⟩ := atWaitPoint_of_waitLoop hu hd hs
    obtain ⟨hnum', hnext⟩ := finish_numbered hnum hann hs'
    exact .inr ⟨_, rfl, rfl, hnum', nofun, fun _ => hnext⟩

end YieldPointLemmas

/-- At every yield the events of the orchestrator are numbered from 1. -/
theorem sequences_of_refines (hu : Uuid5Spec uuid5) (hd : payload.DistinctApplications)
    {p : YieldPoint} (hp : Refines uuid5 payload p) :
    p.events.map LiveEvent.sequence = List.range' 1 p.events.length := by
  rcases numbered_of_refines hu hd hp with rfl | ⟨s, hevents, -, hnum, -, -⟩
  · rfl
  · rw [hevents, hnum.sequences, hnum.length]

/-- Before the last event the formula is ahead of the events. -/
theorem lt_nextSequence_of_refines (hu : Uuid5Spec uuid5) (hd : payload.DistinctApplications)
    {p : YieldPoint} (hp : Refines uuid5 payload p) (hclosing : p.isClosing = false) :
    p.events.length < nextSequence p.progress? := by
  rcases numbered_of_refines hu hd hp with rfl | ⟨s, hevents, hprogress, hnum, hlt, -⟩
  · show 0 < 1
    omega
  · rw [hevents, hprogress, ← hnum.length]
    exact hlt hclosing

/-- At the last event it gives the number of that event. -/
theorem nextSequence_of_closing (hu : Uuid5Spec uuid5) (hd : payload.DistinctApplications)
    {p : YieldPoint} (hp : Refines uuid5 payload p) (hclosing : p.isClosing = true) :
    nextSequence p.progress? = p.events.length := by
  rcases numbered_of_refines hu hd hp with rfl | ⟨s, hevents, hprogress, hnum, -, heq⟩
  · cases hclosing
  · rw [hevents, hprogress, ← hnum.length]
    exact heq hclosing

/-- A resumption either announces an event, or leaves the events and the next number
alone. -/
theorem events_resume {p p' : YieldPoint} {customStatus : Option Progress}
    (h : Resumes uuid5 payload p p' customStatus) :
    p.Announces uuid5 payload ∧ (∃ e, p'.events = p.events ++ [e]) ∨
      ¬ p.Announces uuid5 payload ∧ p'.events = p.events ∧ p'.isDispatching = false ∧
        nextSequence p'.progress? = nextSequence p.progress? := by
  cases h with
  | begun now => exact .inr ⟨id, rfl, rfl, NumberingLemmas.nextEventSequence_initial now⟩
  | noRuns hids => exact .inr ⟨fun hne => hne hids, rfl, rfl, rfl⟩
  | firstRun hids hs =>
    refine .inl ⟨?_, liveEvents_of_project hs rfl⟩
    show payload.mintedIds uuid5 ≠ []
    rw [hids]
    simp
  | nextRun hs => exact .inl ⟨by simp [YieldPoint.Announces], liveEvents_of_project hs rfl⟩
  | lastRun => exact .inr ⟨fun hne => hne rfl, rfl, rfl, rfl⟩
  | arrived ha hs => exact .inl ⟨trivial, liveEvents_of_project hs rfl⟩
  | @reported s s' a entry hentry hs =>
    obtain ⟨hprogress, hcases⟩ := reportApplication_cases hs
    rcases hcases with ⟨⟨application, hdue⟩, hevents⟩ | ⟨hnot, hevents⟩
    · exact .inl ⟨⟨entry, application, hentry, hdue⟩, hevents⟩
    · refine .inr ⟨?_, hevents, rfl, ?_⟩
      · rintro ⟨entry', application, hentry', hdue⟩
        rw [hentry] at hentry'
        cases hentry'
        exact hnot ⟨application, hdue⟩
      · show nextEventSequence s'.progress = nextEventSequence s.progress
        rw [hprogress]
  | finished hpending hs => exact .inl ⟨trivial, liveEvents_of_project hs rfl⟩

/-! ## 4. The custom status -/

/-- The custom status after a resumption. Durable publishes it when the orchestrator
yields; with `copied` it holds what `set_custom_status` was given, and otherwise the
document that the orchestrator has changed since. -/
def publish (copied : Bool) (p : YieldPoint) (given old : Option Progress) : Option Progress :=
  if copied then given.or old else p.progress?

variable (uuid5 payload) in
/-- The custom status at a yield. In the loop over `dispatched_runs` a copy is still
the first document. -/
def Published (copied : Bool) (p : YieldPoint) (customStatus : Option Progress) : Prop :=
  if copied && p.isDispatching then
    ∃ createdAt, customStatus = some (buildInitialProgress uuid5 payload createdAt)
  else customStatus = p.progress?

theorem published_resume {copied : Bool} {p p' : YieldPoint} {given customStatus : Option Progress}
    (h : Resumes uuid5 payload p p' given) (hp : Refines uuid5 payload p)
    (hpub : Published uuid5 payload copied p customStatus) :
    Published uuid5 payload copied p' (publish copied p' given customStatus) := by
  cases copied with
  | false => exact rfl
  | true =>
    cases h with
    | begun now => exact rfl
    | noRuns hids => exact rfl
    | firstRun hids hs =>
      cases hp with
      | staging createdAt => exact ⟨createdAt, hpub⟩
    | nextRun hs => exact hpub
    | lastRun => exact rfl
    | arrived ha hs => exact rfl
    | @reported s s' a entry hentry hs =>
      have hprogress := (reportApplication_cases hs).1
      show customStatus = some s'.progress
      rw [hprogress]
      exact hpub
    | finished hpending hs => exact rfl

/-- The number computed from the custom status is not ahead of the events: it does
not count the last event, and a copy does not count the dispatched runs. -/
def YieldPoint.isBehind (copied : Bool) (p : YieldPoint) : Bool :=
  p.isClosing || copied && p.isDispatching

theorem progress_of_published {copied : Bool} {p : YieldPoint} {customStatus : Option Progress}
    (hpub : Published uuid5 payload copied p customStatus) (hbehind : p.isBehind copied = false) :
    customStatus = p.progress? := by
  have hnot : (copied && p.isDispatching) = false := (Bool.or_eq_false_iff.mp hbehind).2
  unfold Published at hpub
  rw [hnot] at hpub
  exact hpub

/-- While it is behind, the number is that of an event. -/
theorem nextSequence_of_isBehind (hu : Uuid5Spec uuid5) (hd : payload.DistinctApplications)
    {copied : Bool} {p : YieldPoint} {customStatus : Option Progress}
    (hp : Refines uuid5 payload p) (hpub : Published uuid5 payload copied p customStatus)
    (hbehind : p.isBehind copied = true) :
    nextSequence customStatus ≤ p.events.length := by
  cases hp with
  | notStarted => cases copied <;> cases hbehind
  | staging createdAt => cases copied <;> cases hbehind
  | waiting hs => cases copied <;> cases hbehind
  | reporting hs ha hs' => cases copied <;> cases hbehind
  | dispatching hids hne hs =>
    cases copied with
    | false => cases hbehind
    | true =>
      obtain ⟨createdAt, rfl⟩ := hpub
      have hpos := List.length_pos_of_ne_nil (events_of_dispatched hne hs)
      show nextEventSequence (buildInitialProgress uuid5 payload createdAt) ≤ _
      rw [NumberingLemmas.nextEventSequence_initial]
      exact hpos
  | @closing _ _ _ _ s s' hs hs' =>
    have heq : customStatus = some s'.progress := by
      cases copied <;> exact hpub
    rw [heq]
    exact (nextSequence_of_closing hu hd (.closing hs hs') rfl).le

end TalentMatch
