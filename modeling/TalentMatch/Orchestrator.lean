import TalentMatch.Lib.Dict
import TalentMatch.Lib.Transition
import TalentMatch.LiveEvent
import TalentMatch.Ledger

/-!
# The batch orchestrator

`batch_orchestrator` from its start to its last live event. The state between
two yields is `OrchState`. `start` runs to the first wait point, `consume` goes
from one wait point to the next and `finish` is what follows the wait loop.

The task that waits on the event `run-{run_id}` is represented by the run id.
Durable completes it with the payload of one event of that name, and intake
raises the event under the run id that its payload carries.

Results:
1. `start_spec`: the first wait point exists, and its document is the view of the
   ledger in which every run is dispatched.
2. `consume_spec`: a result for a pending run leads to the next wait point.
3. `waitLoop_spec`: the same for all results of a run of the wait loop.
-/

namespace TalentMatch

/-! ## 1. The orchestrator -/

/-- The state of the orchestrator between two yields. -/
structure OrchState where
  progress : Progress
  eventSequence : Nat
  emittedApplicationEvents : List String
  pendingEvents : List String
  runResults : List RunResult
  liveEvents : List LiveEvent

/-- A completed event task: its payload, and the time of the orchestrator when it
sees it. -/
structure Arrival where
  result : RunResult
  occurredAt : String
  deriving DecidableEq

/-- The run id whose event the arrival is. -/
abbrev Arrival.runId (a : Arrival) : String := a.result.runId

/-- `yield context.call_activity("project_live_progress", event)`. -/
def OrchState.project (s : OrchState) (event : Option LiveEvent) : Option OrchState :=
  event.map fun e =>
    { s with eventSequence := s.eventSequence + 1, liveEvents := s.liveEvents ++ [e] }

section Orchestrator
variable (uuid5 : String → String) (payload : BatchPayload)

/-- The assignments to `run_index_map` in the dispatch loop. -/
def runIndexPairs : List (String × (String × Nat)) :=
  payload.slots.map fun s => (payload.runId uuid5 s.1 s.2, (s.1.applicationId, s.2))

/-- `run_index_map`. -/
def runIndexMap : List (String × (String × Nat)) :=
  Dict.ofPairs (runIndexPairs uuid5 payload)

/-- The events that the dispatch loop creates a task for. -/
def eventTasks : List String := payload.mintedIds uuid5

/-- One turn of the loop over `dispatched_runs`. -/
def recordDispatch (dispatchedAt : String) (s : OrchState) (runId : String) : Option OrchState :=
  let progress := recordDispatchedRun s.progress runId dispatchedAt
  OrchState.project { s with progress := progress }
    (buildLiveProgressEvent "run.dispatched" progress dispatchedAt (s.eventSequence + 1)
      payload.correlationId payload.traceparent (some runId) none)

/-- `batch_orchestrator` up to the wait loop. -/
def start (createdAt dispatchedAt : String) : Option OrchState :=
  (payload.mintedIds uuid5).foldlM (recordDispatch payload dispatchedAt)
    { progress := buildInitialProgress uuid5 payload createdAt
      eventSequence := 0
      emittedApplicationEvents := []
      pendingEvents := eventTasks uuid5 payload
      runResults := []
      liveEvents := [] }

/-- The end of the body of the wait loop: the event of an application that is
terminal now and was not reported. -/
def reportApplication (s : OrchState) (applicationId : String) (a : Arrival) : Option OrchState :=
  match findApplication s.progress applicationId with
  | none => some s
  | some application =>
    if isApplicationTerminal application && !s.emittedApplicationEvents.contains applicationId then
      OrchState.project
        { s with emittedApplicationEvents := s.emittedApplicationEvents ++ [applicationId] }
        (buildApplicationTerminalLiveEvent s.progress a.occurredAt (s.eventSequence + 1)
          (orDefault a.result.correlationId payload.correlationId)
          (orDefault a.result.traceparent payload.traceparent) applicationId)
    else some s

/-- One turn of the wait loop. A run id outside `run_index_map` is a `KeyError`. -/
def consume (s : OrchState) (a : Arrival) : Option OrchState :=
  if a.runId ∈ s.pendingEvents then
    let progress := recordRunResult s.progress a.result a.occurredAt
    let s' : OrchState :=
      { s with
        progress := progress
        pendingEvents := s.pendingEvents.erase a.runId
        runResults := s.runResults ++ [a.result] }
    (s'.project (buildRunTerminalLiveEvent progress a.occurredAt (s.eventSequence + 1)
        payload.correlationId payload.traceparent a.result)).bind fun s' =>
      (Dict.get? (runIndexMap uuid5 payload) a.runId).bind fun entry =>
        reportApplication payload s' entry.1 a
  else none

/-- The wait loop, up to the wait point after the given arrivals. -/
def waitLoop (createdAt dispatchedAt : String) (arrivals : List Arrival) : Option OrchState :=
  (start uuid5 payload createdAt dispatchedAt).bind fun s =>
    Transition.exec (consume uuid5 payload) s arrivals

/-- The document after `finalize_batch`. -/
def finalProgress (progress : Progress) (finishedAt : String) : Progress :=
  { progress with
    status := if isCancelledBatch progress then "cancelled" else "completed"
    lastUpdatedAt := finishedAt }

/-- What follows `finalize_batch`. -/
def finish (s : OrchState) (finishedAt : String) : Option OrchState :=
  let progress := finalProgress s.progress finishedAt
  OrchState.project { s with progress := progress }
    (buildBatchTerminalLiveEvent progress finishedAt (s.eventSequence + 1) payload.correlationId
      payload.traceparent)

/-- The final event can always be built: it is about no run. -/
theorem finish_eq (s : OrchState) (finishedAt : String) :
    ∃ s', finish payload s finishedAt = some s' ∧
      s'.progress = finalProgress s.progress finishedAt := by
  simp [finish, buildBatchTerminalLiveEvent, buildLiveProgressEvent, findEventRun, orDefault,
    orText, OrchState.project]

/-! ## 2. What holds at a wait point -/

/-- The 'application.completed' events about an application. -/
def completedEvents (s : OrchState) (applicationId : String) : Nat :=
  s.liveEvents.countP fun e =>
    e.eventType == "application.completed" &&
      e.application.map EventApplication.applicationId == some applicationId

/-- The ledger at the first wait point. -/
def dispatchedLedger (createdAt dispatchedAt : String) : Ledger :=
  (payload.mintedIds uuid5).foldl
    (fun L r => L.recordDispatched uuid5 payload r dispatchedAt) (Ledger.initial createdAt)

/-- The ledger after arrivals. -/
def Ledger.recordArrivals (L : Ledger) (arrivals : List Arrival) : Ledger :=
  arrivals.foldl (fun L a => L.recordResult uuid5 payload a.result a.occurredAt) L

/-- The state at a wait point in terms of the ledger: the document is its view,
a run is pending as long as it has no result, and the applications reported are
the terminal ones. -/
structure AtWaitPoint (s : OrchState) (L : Ledger) : Prop where
  progress_eq : s.progress = L.render uuid5 payload
  nodup_pending : s.pendingEvents.Nodup
  mem_pending : ∀ r, r ∈ s.pendingEvents ↔ r ∈ payload.mintedIds uuid5 ∧ L.results r = none
  dispatched : ∀ r ∈ payload.mintedIds uuid5, (L.dispatchedAt r).isSome
  emitted : ∀ cv ∈ payload.cvs, cv.applicationId ∈ s.emittedApplicationEvents ↔
    isApplicationTerminal (L.renderApplication uuid5 payload cv) = true
  events : ∀ cv ∈ payload.cvs, completedEvents s cv.applicationId =
    if isApplicationTerminal (L.renderApplication uuid5 payload cv) then 1 else 0

end Orchestrator

namespace OrchestratorLemmas
open Ledger LedgerLemmas

variable {uuid5 : String → String} {payload : BatchPayload}

/-! ## 3. Events -/

/-- Appending an event of another type. -/
theorem completedEvents_project_of_ne {s s' : OrchState} {event : LiveEvent}
    (h : s.project (some event) = some s') (ht : event.eventType ≠ "application.completed")
    (applicationId : String) : completedEvents s' applicationId = completedEvents s applicationId := by
  cases h
  simp [completedEvents, List.countP_append, ht]

/-- An event about a minted run can be built, and names the application the run
was minted for. -/
theorem build_event (hu : Uuid5Spec uuid5) (hd : payload.DistinctApplications) (L : Ledger)
    {cv : CvRef} {i : Nat} (hcv : cv ∈ payload.cvs) (hi : i < payload.runCount)
    (eventType occurredAt : String) (sequence : Nat) (correlationId traceparent : String)
    (artifacts : Option (List ArtifactItem)) :
    ∃ event app, buildLiveProgressEvent eventType (render uuid5 payload L) occurredAt sequence
        correlationId traceparent (some (payload.runId uuid5 cv i)) artifacts = some event ∧
      event.eventType = eventType ∧ event.application = some app ∧
      app.applicationId = cv.applicationId := by
  obtain ⟨n, _, hfind⟩ := find_render hu hd L hcv hi
  obtain ⟨event, he, ht, happ⟩ := buildLiveProgressEvent_of_found
    (BatchPayload.runId_ne_empty hu cv i) hfind
    eventType occurredAt sequence correlationId traceparent artifacts
  exact ⟨event, _, he, ht, happ, rfl⟩

/-- `_find_application` finds the application of a CV. -/
theorem findApplication_render (hd : payload.DistinctApplications) (L : Ledger) {cv : CvRef}
    (hcv : cv ∈ payload.cvs) :
    findApplication (render uuid5 payload L) cv.applicationId =
      some (renderApplication uuid5 payload L cv) := by
  have hsome : (findApplication (render uuid5 payload L) cv.applicationId).isSome := by
    rw [findApplication, List.find?_isSome]
    exact ⟨_, List.mem_map_of_mem hcv, by simp [renderApplication]⟩
  obtain ⟨application, h⟩ := Option.isSome_iff_exists.mp hsome
  obtain ⟨cv', hcv', rfl⟩ := List.mem_map.mp (List.mem_of_find?_eq_some h)
  have heq : cv'.applicationId = cv.applicationId := by
    have hp := List.find?_some h
    exact of_decide_eq_true hp
  rw [h, hd.cv_ext hcv' hcv heq]

/-- The event of an application names its first run. -/
theorem build_application_event (hu : Uuid5Spec uuid5) (hd : payload.DistinctApplications)
    (L : Ledger) {cv : CvRef} (hcv : cv ∈ payload.cvs) (occurredAt : String) (sequence : Nat)
    (correlationId traceparent : String) :
    ∃ event app, buildApplicationTerminalLiveEvent (render uuid5 payload L) occurredAt sequence
        correlationId traceparent cv.applicationId = some event ∧
      event.eventType = "application.completed" ∧ event.application = some app ∧
      app.applicationId = cv.applicationId := by
  have hone := payload.one_le_runCount
  have hfirst : (renderRuns uuid5 payload L cv).find? (fun run => run.runId != "") =
      some (renderRun uuid5 payload L cv 0) := by
    obtain ⟨n, hn⟩ := Nat.exists_eq_add_of_le' hone
    rw [renderRuns, hn, List.range_succ_eq_map, List.map_cons, List.find?_cons_of_pos]
    simpa using BatchPayload.runId_ne_empty hu cv 0
  have hid : ((renderApplication uuid5 payload L cv).runs.find? fun run => run.runId != "").map
      Run.runId = some (payload.runId uuid5 cv 0) := by
    simp only [renderApplication, hfirst, Option.map_some, renderRun_runId]
  simp only [buildApplicationTerminalLiveEvent, findApplication_render hd L hcv, hid]
  exact build_event hu hd L hcv hone _ _ _ _ _ _

/-! ## 4. The dispatch loop -/

theorem keys_runIndexPairs : Dict.keys (runIndexPairs uuid5 payload) = payload.mintedIds uuid5 := by
  simp [Dict.keys, runIndexPairs, BatchPayload.mintedIds]

/-- `run_index_map` holds what each run id was minted for. -/
theorem get?_runIndexMap (hu : Uuid5Spec uuid5) (hd : payload.DistinctApplications) {cv : CvRef}
    {i : Nat} (hcv : cv ∈ payload.cvs) (hi : i < payload.runCount) {r : String}
    (hr : payload.runId uuid5 cv i = r) :
    Dict.get? (runIndexMap uuid5 payload) r = some (cv.applicationId, i) := by
  have hn : (Dict.keys (runIndexPairs uuid5 payload)).Nodup :=
    keys_runIndexPairs ▸ BatchPayload.nodup_mintedIds hu hd
  rw [runIndexMap, Dict.ofPairs_of_nodup hn]
  refine Dict.get?_of_mem hn ?_
  exact List.mem_map.mpr ⟨(cv, i), BatchPayload.mem_slots.mpr ⟨hcv, hi⟩, by rw [hr]⟩

theorem results_recordDispatched (L : Ledger) (r t : String) :
    (L.recordDispatched uuid5 payload r t).results = L.results := by
  unfold recordDispatched
  split <;> rfl

theorem dispatchedAt_mono {L : Ledger} {r : String} (h : (L.dispatchedAt r).isSome) (r' t : String) :
    ((L.recordDispatched uuid5 payload r' t).dispatchedAt r).isSome := by
  unfold recordDispatched
  split
  · exact h
  · by_cases hr : r = r'
    · simp [hr]
    · simpa [Function.update_of_ne hr, touch] using h

theorem dispatchedAt_self {r : String} (hr : r ∈ payload.mintedIds uuid5) (L : Ledger) (t : String) :
    ((L.recordDispatched uuid5 payload r t).dispatchedAt r).isSome := by
  cases ho : owner uuid5 payload r with
  | none => exact absurd hr (owner_eq_none_iff.mp ho)
  | some s => simp [recordDispatched, ho]

theorem results_recordResult (L : Ledger) {rr : RunResult} {s : CvRef × Nat}
    (ho : owner uuid5 payload rr.runId = some s) (t : String) :
    (L.recordResult uuid5 payload rr t).results = FirstWrite.record L.results rr.runId (rr, t) := by
  simp only [recordResult, ho]
  split
  · next h => exact (FirstWrite.record_of_isSome h _).symm
  · rfl

theorem dispatchedAt_recordResult (L : Ledger) (rr : RunResult) (t : String) :
    (L.recordResult uuid5 payload rr t).dispatchedAt = L.dispatchedAt := by
  unfold recordResult
  split
  · rfl
  · split <;> rfl

variable (uuid5 payload) in
/-- What the dispatch loop does to the ledger. -/
theorem foldl_recordDispatched (t : String) (rs : List String) (L : Ledger) :
    (rs.foldl (fun L r => L.recordDispatched uuid5 payload r t) L).results = L.results ∧
      ∀ r ∈ payload.mintedIds uuid5, r ∈ rs ∨ (L.dispatchedAt r).isSome →
        ((rs.foldl (fun L r => L.recordDispatched uuid5 payload r t) L).dispatchedAt r).isSome := by
  induction rs generalizing L with
  | nil => simp
  | cons r' rs ih =>
    obtain ⟨h1, h2⟩ := ih (L.recordDispatched uuid5 payload r' t)
    refine ⟨h1.trans (results_recordDispatched L r' t), fun r hr h => h2 r hr ?_⟩
    rcases h with h | h
    · rcases List.mem_cons.mp h with rfl | h
      · exact Or.inr (dispatchedAt_self hr L t)
      · exact Or.inl h
    · exact Or.inr (dispatchedAt_mono h r' t)

/-- The loop over the dispatched runs: each of them has its event, and the
document stays the view of the ledger. -/
theorem foldlM_recordDispatch (hu : Uuid5Spec uuid5) (hd : payload.DistinctApplications) (t : String)
    {rs : List String} (hrs : ∀ r ∈ rs, r ∈ payload.mintedIds uuid5) {s : OrchState} {L : Ledger}
    (hs : s.progress = render uuid5 payload L) (hL : ∀ r, L.results r = none) :
    ∃ s', rs.foldlM (recordDispatch payload t) s = some s' ∧
      s'.progress = render uuid5 payload
        (rs.foldl (fun L r => L.recordDispatched uuid5 payload r t) L) ∧
      s'.pendingEvents = s.pendingEvents ∧ s'.runResults = s.runResults ∧
      s'.emittedApplicationEvents = s.emittedApplicationEvents ∧
      ∀ a, completedEvents s' a = completedEvents s a := by
  induction rs generalizing s L with
  | nil => exact ⟨s, rfl, hs, rfl, rfl, rfl, fun _ => rfl⟩
  | cons r rs ih =>
    obtain ⟨cv, hcv, i, hi, rfl⟩ := BatchPayload.mem_mintedIds.mp (hrs r (by simp))
    have hprogress := render_recordDispatched hu hd (hL (payload.runId uuid5 cv i)) t
    have hL₁ : ∀ r, (L.recordDispatched uuid5 payload (payload.runId uuid5 cv i) t).results r = none := by
      rw [results_recordDispatched]
      exact hL
    rw [List.foldl_cons]
    generalize L.recordDispatched uuid5 payload (payload.runId uuid5 cv i) t = L₁ at hprogress hL₁ ⊢
    obtain ⟨event, app, he, ht, -, -⟩ := build_event hu hd L₁ hcv hi "run.dispatched" t
      (s.eventSequence + 1) payload.correlationId payload.traceparent none
    have hstep : recordDispatch payload t s (payload.runId uuid5 cv i) =
        OrchState.project { s with progress := render uuid5 payload L₁ } (some event) := by
      simp only [recordDispatch, hs, hprogress, he]
    obtain ⟨s₁, hs₁⟩ : ∃ s₁, recordDispatch payload t s (payload.runId uuid5 cv i) = some s₁ :=
      ⟨_, hstep⟩
    have hs₁' := hstep.symm.trans hs₁
    have hfields : s₁.progress = render uuid5 payload L₁ ∧
        s₁.pendingEvents = s.pendingEvents ∧ s₁.runResults = s.runResults ∧
        s₁.emittedApplicationEvents = s.emittedApplicationEvents := by
      cases hs₁'
      exact ⟨rfl, rfl, rfl, rfl⟩
    have hevents := completedEvents_project_of_ne hs₁' (by rw [ht]; decide)
    obtain ⟨s', h1, h2, h3, h4, h5, h6⟩ := ih (fun r hr => hrs r (by simp [hr])) hfields.1 hL₁
    refine ⟨s', ?_, h2, h3.trans hfields.2.1, h4.trans hfields.2.2.1, h5.trans hfields.2.2.2,
      fun a => (h6 a).trans (hevents a)⟩
    rw [List.foldlM_cons, hs₁]
    exact h1

end OrchestratorLemmas

open Ledger LedgerLemmas OrchestratorLemmas

/-! ## 5. The wait loop -/

section WaitLoop
variable {uuid5 : String → String} {payload : BatchPayload}

/-- The orchestrator reaches its first wait point, with every run dispatched and
no result. -/
theorem start_spec (hu : Uuid5Spec uuid5) (hd : payload.DistinctApplications)
    (createdAt dispatchedAt : String) :
    ∃ s, start uuid5 payload createdAt dispatchedAt = some s ∧ s.runResults = [] ∧
      s.pendingEvents = eventTasks uuid5 payload ∧
      AtWaitPoint uuid5 payload s (dispatchedLedger uuid5 payload createdAt dispatchedAt) := by
  have hminted : ∀ r ∈ payload.mintedIds uuid5, r ∈ payload.mintedIds uuid5 := fun _ h => h
  obtain ⟨s, h1, h2, h3, h4, h5, h6⟩ := foldlM_recordDispatch hu hd dispatchedAt hminted
    (s := { progress := buildInitialProgress uuid5 payload createdAt
            eventSequence := 0
            emittedApplicationEvents := []
            pendingEvents := eventTasks uuid5 payload
            runResults := []
            liveEvents := [] })
    (L := Ledger.initial createdAt) (render_initial createdAt).symm (fun _ => rfl)
  obtain ⟨hresults, hdispatched⟩ := foldl_recordDispatched uuid5 payload dispatchedAt
    (payload.mintedIds uuid5) (Ledger.initial createdAt)
  have hnone : ∀ r, (dispatchedLedger uuid5 payload createdAt dispatchedAt).results r = none := by
    intro r
    rw [dispatchedLedger, hresults]
    rfl
  have hterminal : ∀ cv, isApplicationTerminal (renderApplication uuid5 payload
      (dispatchedLedger uuid5 payload createdAt dispatchedAt) cv) = false :=
    fun cv => not_isApplicationTerminal payload.one_le_runCount (hnone _)
  refine ⟨s, h1, h4, h3, h2, ?_, ?_, ?_, ?_, ?_⟩
  · rw [h3]
    exact BatchPayload.nodup_mintedIds hu hd
  · intro r
    rw [h3]
    simp [eventTasks, hnone]
  · exact fun r hr => hdispatched r hr (Or.inl hr)
  · intro cv _
    rw [h5, hterminal]
    simp
  · intro cv _
    rw [h6, hterminal]
    rfl

/-- The end of a turn of the wait loop: the application is reported if and only
if it is terminal. -/
theorem reportApplication_spec (hu : Uuid5Spec uuid5) (hd : payload.DistinctApplications)
    {s : OrchState} {L : Ledger} (hs : s.progress = render uuid5 payload L) {cv : CvRef}
    (hcv : cv ∈ payload.cvs) (hnew : cv.applicationId ∉ s.emittedApplicationEvents) (a : Arrival) :
    ∃ s', reportApplication payload s cv.applicationId a = some s' ∧ s'.progress = s.progress ∧
      s'.pendingEvents = s.pendingEvents ∧ s'.runResults = s.runResults ∧
      (∀ app, app ∈ s'.emittedApplicationEvents ↔ app ∈ s.emittedApplicationEvents ∨
        app = cv.applicationId ∧ isApplicationTerminal (renderApplication uuid5 payload L cv) = true) ∧
      ∀ app, completedEvents s' app = completedEvents s app +
        if cv.applicationId = app ∧
          isApplicationTerminal (renderApplication uuid5 payload L cv) = true then 1 else 0 := by
  simp only [reportApplication, hs, findApplication_render hd L hcv]
  cases hterminal : isApplicationTerminal (renderApplication uuid5 payload L cv) with
  | false => exact ⟨s, rfl, hs, rfl, rfl, by simp, by simp⟩
  | true =>
    obtain ⟨event, app, he, ht, happ, hid⟩ := build_application_event hu hd L hcv a.occurredAt
      (s.eventSequence + 1) (orDefault a.result.correlationId payload.correlationId)
      (orDefault a.result.traceparent payload.traceparent)
    have hcontains : s.emittedApplicationEvents.contains cv.applicationId = false := by
      simpa using hnew
    rw [he, hcontains]
    refine ⟨_, rfl, rfl, rfl, rfl, fun app' => by simp, fun app' => ?_⟩
    simp [completedEvents, List.countP_append, List.countP_cons, ht, happ, hid]

/-- A result for a pending run leads to the next wait point. -/
theorem consume_spec (hu : Uuid5Spec uuid5) (hd : payload.DistinctApplications) {s : OrchState}
    {L : Ledger} (h : AtWaitPoint uuid5 payload s L) {a : Arrival} (ha : a.runId ∈ s.pendingEvents) :
    ∃ s', consume uuid5 payload s a = some s' ∧ s'.runResults = s.runResults ++ [a.result] ∧
      s'.pendingEvents = s.pendingEvents.erase a.runId ∧
      AtWaitPoint uuid5 payload s' (L.recordResult uuid5 payload a.result a.occurredAt) := by
  obtain ⟨hminted, hnone⟩ := (h.mem_pending _).mp ha
  obtain ⟨cv, hcv, i, hi, hid⟩ := BatchPayload.mem_mintedIds.mp hminted
  have ho : owner uuid5 payload a.runId = some (cv, i) := hid ▸ owner_eq_some hu hd hcv hi
  have hc := changedAt_recordResult ho hid hnone a.occurredAt
  have hprogress : recordRunResult s.progress a.result a.occurredAt =
      render uuid5 payload (L.recordResult uuid5 payload a.result a.occurredAt) := by
    rw [h.progress_eq]
    exact render_recordResult hu hd (fun p hp => by rw [hnone] at hp; cases hp) a.occurredAt
  have hresults := results_recordResult L ho a.occurredAt
  have hdisp : (L.recordResult uuid5 payload a.result a.occurredAt).dispatchedAt = L.dispatchedAt :=
    dispatchedAt_recordResult L a.result a.occurredAt
  generalize L.recordResult uuid5 payload a.result a.occurredAt = L' at hc hprogress hresults hdisp ⊢
  -- the event of the run
  obtain ⟨event, app, he, ht, -, -⟩ := build_event hu hd L' hcv hi
    (terminalRunEventType a.result.status) a.occurredAt (s.eventSequence + 1)
    (orDefault a.result.correlationId payload.correlationId)
    (orDefault a.result.traceparent payload.traceparent) (some a.result.artifactList)
  rw [hid] at he
  let s₁ : OrchState :=
    { progress := render uuid5 payload L'
      eventSequence := s.eventSequence + 1
      emittedApplicationEvents := s.emittedApplicationEvents
      pendingEvents := s.pendingEvents.erase a.runId
      runResults := s.runResults ++ [a.result]
      liveEvents := s.liveEvents ++ [event] }
  have hs₁ : consume uuid5 payload s a = reportApplication payload s₁ cv.applicationId a := by
    simp only [consume, if_pos ha, hprogress, buildRunTerminalLiveEvent, he, OrchState.project,
      Option.map_some, Option.bind_some, get?_runIndexMap hu hd hcv hi hid, s₁]
  have hevents : ∀ app, completedEvents s₁ app = completedEvents s app := by
    intro app
    have hne : event.eventType ≠ "application.completed" := ht ▸ terminalRunEventType_ne _
    simp [completedEvents, s₁, List.countP_append, hne]
  -- the application of the run had a pending run, so it was not reported
  have hbefore : isApplicationTerminal (renderApplication uuid5 payload L cv) = false :=
    not_isApplicationTerminal hi (by rw [hid]; exact hnone)
  have hnew : cv.applicationId ∉ s₁.emittedApplicationEvents := by
    rw [h.emitted cv hcv, hbefore]
    decide
  obtain ⟨s', hs', hp, hpend, hres, hemit, hev⟩ :=
    reportApplication_spec (s := s₁) (L := L') hu hd rfl hcv hnew a
  have hothers := hc.application_of_ne hu hd hcv
  have hids : ∀ cv' ∈ payload.cvs, cv'.applicationId = cv.applicationId ↔ cv' = cv := fun cv' hcv' =>
    ⟨hd.cv_ext hcv' hcv, congrArg _⟩
  refine ⟨s', hs₁.trans hs', hres, hpend, hp, ?_, ?_, ?_, ?_, ?_⟩
  · rw [hpend]
    exact h.nodup_pending.erase _
  · intro r
    rw [hpend, h.nodup_pending.mem_erase_iff, h.mem_pending, hresults]
    by_cases hr : r = a.runId
    · subst hr
      simp [FirstWrite.record_of_none hnone]
    · simp [hr, FirstWrite.record_of_ne _ hr]
  · intro r hr
    rw [hdisp]
    exact h.dispatched r hr
  · intro cv' hcv'
    rw [hemit, hids cv' hcv']
    by_cases heq : cv' = cv
    · subst heq
      simp [hnew]
    · rw [hothers cv' hcv' heq, ← h.emitted cv' hcv']
      simp [heq, s₁]
  · intro cv' hcv'
    rw [hev, hevents, h.events cv' hcv']
    by_cases heq : cv' = cv
    · subst heq
      simp [hbefore]
    · have hne : cv.applicationId ≠ cv'.applicationId := fun h => heq ((hids cv' hcv').mp h.symm)
      rw [hothers cv' hcv' heq]
      simp [hne]

theorem mem_pending_of_consume {s s' : OrchState} {a : Arrival}
    (h : consume uuid5 payload s a = some s') : a.runId ∈ s.pendingEvents := by
  unfold consume at h
  split at h
  · next ha => exact ha
  · cases h

/-- A run of the wait loop, from a wait point with ledger `L`. -/
theorem exec_consume (hu : Uuid5Spec uuid5) (hd : payload.DistinctApplications) {s : OrchState}
    {L : Ledger} (h : AtWaitPoint uuid5 payload s L) {arrivals : List Arrival}
    (hn : (arrivals.map Arrival.runId).Nodup) (hp : ∀ a ∈ arrivals, a.runId ∈ s.pendingEvents) :
    ∃ s', Transition.exec (consume uuid5 payload) s arrivals = some s' ∧
      s'.runResults = s.runResults ++ arrivals.map Arrival.result ∧
      AtWaitPoint uuid5 payload s' (L.recordArrivals uuid5 payload arrivals) := by
  induction arrivals generalizing s L with
  | nil => exact ⟨s, rfl, by simp, h⟩
  | cons a arrivals ih =>
    rw [List.map_cons, List.nodup_cons] at hn
    obtain ⟨s₁, hs₁, hr₁, hp₁, h₁⟩ := consume_spec hu hd h (hp a (by simp))
    have hpend : ∀ b ∈ arrivals, b.runId ∈ s₁.pendingEvents := by
      intro b hb
      rw [hp₁, h.nodup_pending.mem_erase_iff]
      refine ⟨fun heq => hn.1 (heq ▸ List.mem_map_of_mem hb), hp b (by simp [hb])⟩
    obtain ⟨s', hs', hr', h'⟩ := ih h₁ hn.2 hpend
    refine ⟨s', ?_, ?_, h'⟩
    · rw [Transition.exec_cons, hs₁]
      exact hs'
    · rw [hr', hr₁]
      simp

/-- Whatever the wait loop consumes are results of distinct pending runs. -/
theorem onePerRun_of_exec (hu : Uuid5Spec uuid5) (hd : payload.DistinctApplications) {s s' : OrchState}
    {L : Ledger} (h : AtWaitPoint uuid5 payload s L) {arrivals : List Arrival}
    (hs : Transition.exec (consume uuid5 payload) s arrivals = some s') :
    (arrivals.map Arrival.runId).Nodup ∧ ∀ a ∈ arrivals, a.runId ∈ s.pendingEvents := by
  induction arrivals generalizing s L with
  | nil => simp
  | cons a arrivals ih =>
    rw [Transition.exec_cons] at hs
    cases hs₁ : consume uuid5 payload s a with
    | none => rw [hs₁] at hs; cases hs
    | some s₁ =>
      rw [hs₁] at hs
      have ha := mem_pending_of_consume hs₁
      obtain ⟨s₂, hs₂, -, hp, h₂⟩ := consume_spec hu hd h ha
      cases hs₁.symm.trans hs₂
      obtain ⟨hn, hmem⟩ := ih h₂ hs
      have herase : ∀ b ∈ arrivals, b.runId ≠ a.runId ∧ b.runId ∈ s.pendingEvents := fun b hb =>
        h.nodup_pending.mem_erase_iff.mp (hp ▸ hmem b hb)
      refine ⟨?_, ?_⟩
      · rw [List.map_cons, List.nodup_cons]
        refine ⟨fun hm => ?_, hn⟩
        obtain ⟨b, hb, heq⟩ := List.mem_map.mp hm
        exact (herase b hb).1 heq
      · rintro b hb
        rcases List.mem_cons.mp hb with rfl | hb
        · exact ha
        · exact (herase b hb).2

/-- Arrivals of at most one result for each run of the batch. -/
structure OnePerRun (uuid5 : String → String) (payload : BatchPayload) (arrivals : List Arrival) :
    Prop where
  nodup : (arrivals.map Arrival.runId).Nodup
  minted : ∀ a ∈ arrivals, a.runId ∈ payload.mintedIds uuid5

instance (arrivals : List Arrival) : Decidable (OnePerRun uuid5 payload arrivals) :=
  decidable_of_iff ((arrivals.map Arrival.runId).Nodup ∧
      ∀ a ∈ arrivals, a.runId ∈ payload.mintedIds uuid5)
    ⟨fun h => ⟨h.1, h.2⟩, fun h => ⟨h.nodup, h.minted⟩⟩

/-- The ledger at the wait point after the given arrivals. -/
def ledgerAfter (uuid5 : String → String) (payload : BatchPayload) (createdAt dispatchedAt : String)
    (arrivals : List Arrival) : Ledger :=
  (dispatchedLedger uuid5 payload createdAt dispatchedAt).recordArrivals uuid5 payload arrivals

/-- The wait loop consumes one result for each run in any order. -/
theorem waitLoop_spec (hu : Uuid5Spec uuid5) (hd : payload.DistinctApplications)
    (createdAt dispatchedAt : String) {arrivals : List Arrival}
    (h : OnePerRun uuid5 payload arrivals) :
    ∃ s, waitLoop uuid5 payload createdAt dispatchedAt arrivals = some s ∧
      s.runResults = arrivals.map Arrival.result ∧
      AtWaitPoint uuid5 payload s (ledgerAfter uuid5 payload createdAt dispatchedAt arrivals) := by
  obtain ⟨s₀, hs₀, hr₀, hp₀, h₀⟩ := start_spec hu hd createdAt dispatchedAt
  obtain ⟨s, hs, hr, hw⟩ := exec_consume hu hd h₀ h.nodup
    (fun a ha => hp₀ ▸ h.minted a ha)
  refine ⟨s, ?_, ?_, hw⟩
  · rw [waitLoop, hs₀]
    exact hs
  · rw [hr, hr₀, List.nil_append]

/-- The wait loop goes on from a wait point. -/
theorem waitLoop_snoc {createdAt dispatchedAt : String} {arrivals : List Arrival} {s s' : OrchState}
    {a : Arrival} (h : waitLoop uuid5 payload createdAt dispatchedAt arrivals = some s)
    (ha : consume uuid5 payload s a = some s') :
    waitLoop uuid5 payload createdAt dispatchedAt (arrivals ++ [a]) = some s' := by
  unfold waitLoop at h ⊢
  obtain ⟨s₀, hs₀, hrun⟩ := Option.bind_eq_some_iff.mp h
  rw [hs₀]
  exact Transition.exec_snoc hrun ha

/-- It consumes nothing else. -/
theorem waitLoop_isSome_iff (hu : Uuid5Spec uuid5) (hd : payload.DistinctApplications)
    (createdAt dispatchedAt : String) {arrivals : List Arrival} :
    (waitLoop uuid5 payload createdAt dispatchedAt arrivals).isSome ↔
      OnePerRun uuid5 payload arrivals := by
  constructor
  · intro h
    obtain ⟨s, hs⟩ := Option.isSome_iff_exists.mp h
    obtain ⟨s₀, hs₀, -, hp₀, h₀⟩ := start_spec hu hd createdAt dispatchedAt
    rw [waitLoop, hs₀] at hs
    obtain ⟨hn, hm⟩ := onePerRun_of_exec hu hd h₀ hs
    rw [hp₀] at hm
    exact ⟨hn, hm⟩
  · intro h
    obtain ⟨s, hs, -⟩ := waitLoop_spec hu hd createdAt dispatchedAt h
    rw [hs]
    rfl

/-! ## 6. The ledger after the arrivals -/

theorem results_dispatchedLedger (createdAt dispatchedAt : String) (r : String) :
    (dispatchedLedger uuid5 payload createdAt dispatchedAt).results r = none := by
  rw [dispatchedLedger, (foldl_recordDispatched uuid5 payload _ _ _).1]
  rfl

/-- The results in the ledger are the first writes of the arrivals. -/
theorem results_recordArrivals {arrivals : List Arrival}
    (hm : ∀ a ∈ arrivals, a.runId ∈ payload.mintedIds uuid5) (L : Ledger) :
    (L.recordArrivals uuid5 payload arrivals).results =
      FirstWrite.recordAll L.results
        (arrivals.map fun a => (a.runId, (a.result, a.occurredAt))) := by
  induction arrivals generalizing L with
  | nil => rfl
  | cons a arrivals ih =>
    have ha : a.result.runId ∈ payload.mintedIds uuid5 := hm a (by simp)
    obtain ⟨s, ho⟩ := Option.ne_none_iff_exists'.mp fun h => owner_eq_none_iff.mp h ha
    refine (ih (fun b hb => hm b (by simp [hb])) _).trans ?_
    rw [results_recordResult L ho]
    rfl

section After
variable {createdAt dispatchedAt : String} {arrivals : List Arrival}

theorem keys_writes : (arrivals.map fun a => (a.runId, (a.result, a.occurredAt))).map Prod.fst =
    arrivals.map Arrival.runId := by
  simp

/-- A run has the result that arrived for it. -/
theorem results_ledgerAfter (h : OnePerRun uuid5 payload arrivals) {a : Arrival}
    (ha : a ∈ arrivals) :
    (ledgerAfter uuid5 payload createdAt dispatchedAt arrivals).results a.runId =
      some (a.result, a.occurredAt) := by
  rw [ledgerAfter, results_recordArrivals h.minted]
  exact FirstWrite.recordAll_of_mem (keys_writes ▸ h.nodup) (List.mem_map_of_mem ha)
    (results_dispatchedLedger _ _ _)

/-- A run for which nothing arrived has no result. -/
theorem results_ledgerAfter_eq_none (h : OnePerRun uuid5 payload arrivals) {r : String}
    (hr : r ∉ arrivals.map Arrival.runId) :
    (ledgerAfter uuid5 payload createdAt dispatchedAt arrivals).results r = none := by
  rw [ledgerAfter, results_recordArrivals h.minted, FirstWrite.recordAll_of_not_mem]
  · exact results_dispatchedLedger _ _ _
  · rwa [keys_writes]

/-- The results in the ledger are those that arrived. -/
theorem results_ledgerAfter_iff (h : OnePerRun uuid5 payload arrivals) {r : String}
    {p : RunResult × String} :
    (ledgerAfter uuid5 payload createdAt dispatchedAt arrivals).results r = some p ↔
      ∃ a ∈ arrivals, a.runId = r ∧ (a.result, a.occurredAt) = p := by
  constructor
  · intro hp
    by_cases hr : r ∈ arrivals.map Arrival.runId
    · obtain ⟨a, ha, rfl⟩ := List.mem_map.mp hr
      rw [results_ledgerAfter h ha] at hp
      exact ⟨a, ha, rfl, Option.some.inj hp⟩
    · rw [results_ledgerAfter_eq_none h hr] at hp
      cases hp
  · rintro ⟨a, ha, rfl, rfl⟩
    exact results_ledgerAfter h ha

theorem isSome_results_ledgerAfter (h : OnePerRun uuid5 payload arrivals) (r : String) :
    ((ledgerAfter uuid5 payload createdAt dispatchedAt arrivals).results r).isSome ↔
      r ∈ arrivals.map Arrival.runId := by
  simp only [Option.isSome_iff_exists, results_ledgerAfter_iff h, List.mem_map]
  constructor
  · rintro ⟨_, a, ha, hr, _⟩
    exact ⟨a, ha, hr⟩
  · rintro ⟨a, ha, hr⟩
    exact ⟨_, a, ha, hr, rfl⟩

end After

end WaitLoop

end TalentMatch
