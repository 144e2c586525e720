import TalentMatch.Lib.FirstWrite
import TalentMatch.Progress

/-!
# The ledger of a batch, and the progress document as its view

What the progress document is for: it shows, for every run of the batch, whether
it was dispatched and the first result it got. The ledger is that content, keyed
by run id. `render` computes the whole document from it.

Results:
1. `render_initial`: the initial document is the view of the empty ledger.
2. `render_recordDispatched`: `_record_dispatched_run` on the view is the view of
   the ledger with the dispatch, when the run has no result yet.
3. `render_recordResult`: `_record_run_result` on the view is the view of the
   ledger with the result, unless the run has a result with a non-terminal
   status.

Outside these two conditions the document stops being a view of the ledger: a
late dispatch or a second result overwrites what the first result wrote.
-/

namespace TalentMatch

/-! ## 1. The ledger -/

/-- What is known about the runs of a batch. `touchedAt` is the time of the last
change, for each application id. -/
structure Ledger where
  dispatchedAt : String → Option String
  results : String → Option (RunResult × String)
  touchedAt : String → String
  lastUpdatedAt : String
  started : Bool

namespace Ledger

/-- Nothing dispatched, no result. -/
def initial (updatedAt : String) : Ledger where
  dispatchedAt := fun _ => none
  results := fun _ => none
  touchedAt := fun _ => updatedAt
  lastUpdatedAt := updatedAt
  started := false

variable (uuid5 : String → String) (payload : BatchPayload)

/-- The CV and the run index that a run id was minted for. -/
def owner (runId : String) : Option (CvRef × Nat) :=
  payload.slots.find? fun s => payload.runId uuid5 s.1 s.2 = runId

/-- The ledger after a change to a run of `cv` at `updatedAt`. -/
def touch (L : Ledger) (cv : CvRef) (updatedAt : String) : Ledger :=
  { L with
    touchedAt := Function.update L.touchedAt cv.applicationId updatedAt
    lastUpdatedAt := updatedAt
    started := true }

/-- The run was dispatched. -/
def recordDispatched (L : Ledger) (runId updatedAt : String) : Ledger :=
  match owner uuid5 payload runId with
  | none => L
  | some s =>
    { L.touch s.1 updatedAt with
      dispatchedAt := Function.update L.dispatchedAt runId (some updatedAt) }

/-- A result arrived. Only the first one for a run counts. -/
def recordResult (L : Ledger) (runResult : RunResult) (updatedAt : String) : Ledger :=
  match owner uuid5 payload runResult.runId with
  | none => L
  | some s =>
    if (L.results runResult.runId).isSome then L
    else
      { L.touch s.1 updatedAt with
        results := FirstWrite.record L.results runResult.runId (runResult, updatedAt) }

/-! ## 2. The view -/

/-- The entry of a run. -/
def renderRun (L : Ledger) (cv : CvRef) (runIndex : Nat) : Run :=
  let runId := payload.runId uuid5 cv runIndex
  let run :=
    match L.dispatchedAt runId with
    | none => queuedRun runId runIndex
    | some updatedAt => (queuedRun runId runIndex).dispatched updatedAt
  match L.results runId with
  | none => run
  | some (runResult, updatedAt) => run.recorded runResult updatedAt

/-- Whether a run has a result. -/
def recorded (L : Ledger) (s : CvRef × Nat) : Bool :=
  (L.results (payload.runId uuid5 s.1 s.2)).isSome

/-- Whether a run was dispatched. -/
def dispatched (L : Ledger) (s : CvRef × Nat) : Bool :=
  (L.dispatchedAt (payload.runId uuid5 s.1 s.2)).isSome

/-- The runs of an application. -/
def renderRuns (L : Ledger) (cv : CvRef) : List Run :=
  (List.range payload.runCount).map (renderRun uuid5 payload L cv)

/-- The entry of an application. -/
def renderApplication (L : Ledger) (cv : CvRef) : Application where
  applicationId := cv.applicationId
  documentId := cv.documentId
  status := summarizeApplicationStatus ((renderRuns uuid5 payload L cv).map Run.status)
  runsCompleted :=
    (List.range payload.runCount).countP fun runIndex => L.recorded uuid5 payload (cv, runIndex)
  runsTotal := payload.runCount
  lastUpdatedAt := L.touchedAt cv.applicationId
  runs := renderRuns uuid5 payload L cv

/-- The document. -/
def render (L : Ledger) : Progress where
  submissionId := payload.batchId
  batchId := payload.batchId
  jobId := payload.jobId
  status := if L.started then "running" else "queued"
  cvsCompleted := payload.cvs.countP fun cv => isApplicationTerminal (renderApplication uuid5 payload L cv)
  cvsTotal := payload.cvs.length
  runsCompleted := payload.slots.countP (L.recorded uuid5 payload)
  runsDispatched := payload.slots.countP (L.dispatched uuid5 payload)
  runsTotal := payload.cvs.length * payload.runCount
  lastUpdatedAt := L.lastUpdatedAt
  applications := payload.cvs.map (renderApplication uuid5 payload L)

end Ledger

namespace LedgerLemmas
open Ledger

variable {uuid5 : String → String} {payload : BatchPayload}

/-! ## 3. Small facts about the view -/

theorem owner_eq_some (hu : Uuid5Spec uuid5) (hd : payload.DistinctApplications) {cv : CvRef}
    {i : Nat} (hcv : cv ∈ payload.cvs) (hi : i < payload.runCount) :
    owner uuid5 payload (payload.runId uuid5 cv i) = some (cv, i) := by
  have hsome : (owner uuid5 payload (payload.runId uuid5 cv i)).isSome := by
    rw [owner, List.find?_isSome]
    exact ⟨(cv, i), BatchPayload.mem_slots.mpr ⟨hcv, hi⟩, by simp⟩
  obtain ⟨⟨cv', i'⟩, hs⟩ := Option.isSome_iff_exists.mp hsome
  have hmem := BatchPayload.mem_slots.mp (List.mem_of_find?_eq_some hs)
  have heq : payload.runId uuid5 cv' i' = payload.runId uuid5 cv i := by
    simpa using List.find?_some hs
  obtain ⟨rfl, rfl⟩ := BatchPayload.runId_inj hu hd hmem.1 hcv heq
  exact hs

theorem of_owner_eq_some {r : String} {s : CvRef × Nat} (h : owner uuid5 payload r = some s) :
    s.1 ∈ payload.cvs ∧ s.2 < payload.runCount ∧ payload.runId uuid5 s.1 s.2 = r := by
  have hmem := BatchPayload.mem_slots.mp (List.mem_of_find?_eq_some h)
  exact ⟨hmem.1, hmem.2, by simpa using List.find?_some h⟩

theorem owner_eq_none_iff {r : String} :
    owner uuid5 payload r = none ↔ r ∉ payload.mintedIds uuid5 := by
  simp [owner, List.find?_eq_none, BatchPayload.mintedIds]

@[simp] theorem renderRun_runId (L : Ledger) (cv : CvRef) (i : Nat) :
    (renderRun uuid5 payload L cv i).runId = payload.runId uuid5 cv i := by
  simp only [renderRun]
  split <;> split <;> rfl

@[simp] theorem renderRun_runIndex (L : Ledger) (cv : CvRef) (i : Nat) :
    (renderRun uuid5 payload L cv i).runIndex = i := by
  simp only [renderRun]
  split <;> split <;> rfl

/-- The status of a run without a result is not terminal. -/
theorem renderRun_status_of_none {L : Ledger} {cv : CvRef} {i : Nat}
    (h : L.results (payload.runId uuid5 cv i) = none) :
    (renderRun uuid5 payload L cv i).status =
      if (L.dispatchedAt (payload.runId uuid5 cv i)).isSome then "dispatched" else "queued" := by
  simp only [renderRun, h]
  split
  · next hd => simp [hd, queuedRun]
  · next hd => simp [hd, Run.dispatched]

theorem renderRun_status_of_some {L : Ledger} {cv : CvRef} {i : Nat} {p : RunResult × String}
    (h : L.results (payload.runId uuid5 cv i) = some p) :
    (renderRun uuid5 payload L cv i).status = p.1.status := by
  simp [renderRun, h, Run.recorded]

/-- The entry of a run with details shows the result in the ledger. -/
theorem renderRun_recorded {L : Ledger} {cv : CvRef} {i : Nat}
    (h : (renderRun uuid5 payload L cv i).details ≠ none) :
    ∃ rr t, L.results (payload.runId uuid5 cv i) = some (rr, t) ∧
      (renderRun uuid5 payload L cv i).recorded rr t = renderRun uuid5 payload L cv i := by
  unfold renderRun at h ⊢
  cases hr : L.results (payload.runId uuid5 cv i) with
  | none =>
    refine absurd ?_ h
    simp only [hr]
    cases L.dispatchedAt (payload.runId uuid5 cv i) <;> rfl
  | some p =>
    refine ⟨p.1, p.2, rfl, ?_⟩
    simp only [hr]
    rfl

theorem isTerminal_of_none {L : Ledger} {cv : CvRef} {i : Nat}
    (h : L.results (payload.runId uuid5 cv i) = none) :
    isTerminalRunStatus (renderRun uuid5 payload L cv i).status = false := by
  rw [renderRun_status_of_none h]
  split
  · exact isTerminalRunStatus_dispatched
  · exact isTerminalRunStatus_queued

/-- The entry of a run depends on what the ledger knows about that run only. -/
theorem renderRun_congr {L L' : Ledger} {cv : CvRef} {i : Nat}
    (hdisp : L'.dispatchedAt (payload.runId uuid5 cv i) = L.dispatchedAt (payload.runId uuid5 cv i))
    (hres : L'.results (payload.runId uuid5 cv i) = L.results (payload.runId uuid5 cv i)) :
    renderRun uuid5 payload L' cv i = renderRun uuid5 payload L cv i := by
  simp only [renderRun, hdisp, hres]

theorem mem_renderRuns {L : Ledger} {cv : CvRef} {run : Run} :
    run ∈ renderRuns uuid5 payload L cv ↔
      ∃ i < payload.runCount, renderRun uuid5 payload L cv i = run := by
  simp [renderRuns]

theorem isApplicationTerminal_render {L : Ledger} {cv : CvRef} :
    isApplicationTerminal (renderApplication uuid5 payload L cv) = true ↔
      ∀ i < payload.runCount, isTerminalRunStatus (renderRun uuid5 payload L cv i).status = true := by
  simp [isApplicationTerminal, renderApplication, renderRuns]

/-! ## 4. Finding a run in the view -/

/-- `_find_application_run` finds a minted id at the place it was minted for. -/
theorem find_render (hu : Uuid5Spec uuid5) (hd : payload.DistinctApplications) (L : Ledger)
    {cv : CvRef} {i : Nat} (hcv : cv ∈ payload.cvs) (hi : i < payload.runCount) :
    ∃ n, payload.cvs[n]? = some cv ∧
      findApplicationRun (render uuid5 payload L) (payload.runId uuid5 cv i) =
        some (n, renderApplication uuid5 payload L cv, i, renderRun uuid5 payload L cv i, ()) := by
  obtain ⟨n, hn⟩ := List.mem_iff_getElem?.mp hcv
  refine ⟨n, hn, ?_⟩
  refine Search.findFirst_eq_some (by simp [render, hn]) ?_ ?_
  · -- inside its application, the run is the one with its index
    refine Search.findFirst_eq_some (by simp [renderApplication, renderRuns, hi]) (by simp) ?_
    intro j run hj hrun
    have hj' : j < payload.runCount := Nat.lt_trans hj hi
    simp only [renderApplication, renderRuns, List.getElem?_map, List.getElem?_range hj',
      Option.map_some, Option.some.injEq] at hrun
    subst hrun
    rw [renderRun_runId, if_neg]
    intro h
    exact absurd (BatchPayload.runId_inj hu hd hcv hcv h).2 (Nat.ne_of_lt hj)
  · -- no application before it has a run with the id
    intro m application hm happ
    simp only [render, List.getElem?_map, Option.map_eq_some_iff] at happ
    obtain ⟨cv', hcv', rfl⟩ := happ
    refine Search.findFirst_eq_none fun run hrun => ?_
    obtain ⟨j, _, rfl⟩ := mem_renderRuns.mp hrun
    rw [renderRun_runId, if_neg]
    intro h
    obtain ⟨rfl, _⟩ := BatchPayload.runId_inj hu hd (List.mem_of_getElem? hcv') hcv h
    exact absurd ((List.getElem?_inj (List.getElem?_eq_some_iff.mp hcv').1 hd.nodup_cvs).mp
      (hcv'.trans hn.symm)) (Nat.ne_of_lt hm)

/-- `_find_application_run` finds nothing for an id the batch did not mint. -/
theorem find_render_eq_none (L : Ledger) {r : String} (hr : r ∉ payload.mintedIds uuid5) :
    findApplicationRun (render uuid5 payload L) r = none := by
  refine Search.findFirst_eq_none fun application happ => ?_
  obtain ⟨cv, hcv, rfl⟩ := List.mem_map.mp happ
  refine Search.findFirst_eq_none fun run hrun => ?_
  obtain ⟨i, hi, rfl⟩ := mem_renderRuns.mp hrun
  rw [renderRun_runId, if_neg]
  rintro rfl
  exact hr (BatchPayload.runId_mem_mintedIds hcv hi)

/-- An application none of whose runs changed has the same entry. -/
theorem renderApplication_congr {L L' : Ledger} {cv : CvRef}
    (hruns : ∀ j < payload.runCount,
      L'.dispatchedAt (payload.runId uuid5 cv j) = L.dispatchedAt (payload.runId uuid5 cv j) ∧
      L'.results (payload.runId uuid5 cv j) = L.results (payload.runId uuid5 cv j))
    (htouched : L'.touchedAt cv.applicationId = L.touchedAt cv.applicationId) :
    renderApplication uuid5 payload L' cv = renderApplication uuid5 payload L cv := by
  have hr : renderRuns uuid5 payload L' cv = renderRuns uuid5 payload L cv := by
    refine List.map_congr_left fun j hj => ?_
    have h := hruns j (List.mem_range.mp hj)
    exact renderRun_congr h.1 h.2
  have hc : (List.range payload.runCount).countP (fun j => L'.recorded uuid5 payload (cv, j)) =
      (List.range payload.runCount).countP (fun j => L.recorded uuid5 payload (cv, j)) := by
    refine List.countP_congr fun j hj => ?_
    simp only [recorded, (hruns j (List.mem_range.mp hj)).2]
  simp only [renderApplication, hr, hc, htouched]

/-- The ids of the terminal applications are as many as the terminal
applications: the ids are distinct. -/
theorem length_completedIds (hd : payload.DistinctApplications) (L : Ledger) :
    (completedIds (render uuid5 payload L).applications).length =
      (render uuid5 payload L).cvsCompleted := by
  have hids : (render uuid5 payload L).applications.map Application.applicationId =
      payload.cvs.map CvRef.applicationId := by
    simp [render, renderApplication, Function.comp_def]
  have hsub : (((render uuid5 payload L).applications.filter isApplicationTerminal).map
      Application.applicationId).Nodup := by
    refine List.Nodup.sublist (List.Sublist.map _ List.filter_sublist) ?_
    rw [hids]
    exact hd
  rw [completedIds, hsub.dedup]
  simp [render, List.filter_map, List.countP_eq_length_filter, Function.comp_def]

/-- `L'` is `L` after a change at `updatedAt` to run `i` of `cv`. -/
structure ChangedAt (uuid5 : String → String) (payload : BatchPayload) (L L' : Ledger) (cv : CvRef)
    (i : Nat) (updatedAt : String) : Prop where
  dispatchedAt : ∀ r, r ≠ payload.runId uuid5 cv i → L'.dispatchedAt r = L.dispatchedAt r
  results : ∀ r, r ≠ payload.runId uuid5 cv i → L'.results r = L.results r
  touchedAt : L'.touchedAt = Function.update L.touchedAt cv.applicationId updatedAt
  lastUpdatedAt : L'.lastUpdatedAt = updatedAt
  started : L'.started = true

section ChangedAt
variable {L L' : Ledger} {cv : CvRef} {i : Nat} {updatedAt : String}

theorem ChangedAt.ne_runId (hu : Uuid5Spec uuid5) (hd : payload.DistinctApplications)
    (hcv : cv ∈ payload.cvs) {s : CvRef × Nat} (hs : s ∈ payload.slots) (hne : s ≠ (cv, i)) :
    payload.runId uuid5 s.1 s.2 ≠ payload.runId uuid5 cv i := by
  intro h
  obtain ⟨h1, h2⟩ := BatchPayload.runId_inj hu hd (BatchPayload.mem_slots.mp hs).1 hcv h
  exact hne (Prod.ext h1 h2)

/-- Writing back the changed run at its place gives the runs of the changed
ledger. -/
theorem ChangedAt.set_run (hc : ChangedAt uuid5 payload L L' cv i updatedAt) (hu : Uuid5Spec uuid5)
    (hd : payload.DistinctApplications) (hcv : cv ∈ payload.cvs) (hi : i < payload.runCount) :
    (renderRuns uuid5 payload L cv).set i (renderRun uuid5 payload L' cv i) =
      renderRuns uuid5 payload L' cv := by
  refine Search.map_set_eq (f := renderRun uuid5 payload L cv) (g := renderRun uuid5 payload L' cv)
    List.nodup_range (by simp [hi]) fun j hj hne => ?_
  have hr : payload.runId uuid5 cv j ≠ payload.runId uuid5 cv i :=
    ne_runId hu hd hcv (s := (cv, j)) (BatchPayload.mem_slots.mpr ⟨hcv, List.mem_range.mp hj⟩)
      fun h => hne (Prod.mk.inj h).2
  exact renderRun_congr (hc.dispatchedAt _ hr) (hc.results _ hr)

/-- The entries of the other applications do not change. -/
theorem ChangedAt.application_of_ne (hc : ChangedAt uuid5 payload L L' cv i updatedAt)
    (hu : Uuid5Spec uuid5) (hd : payload.DistinctApplications) (hcv : cv ∈ payload.cvs) :
    ∀ cv' ∈ payload.cvs, cv' ≠ cv →
      renderApplication uuid5 payload L' cv' = renderApplication uuid5 payload L cv' := by
  intro cv' hcv' hne
  refine renderApplication_congr (fun j hj => ?_) ?_
  · have hr : payload.runId uuid5 cv' j ≠ payload.runId uuid5 cv i :=
      ne_runId hu hd hcv (s := (cv', j)) (BatchPayload.mem_slots.mpr ⟨hcv', hj⟩)
        fun h => hne (Prod.mk.inj h).1
    exact ⟨hc.dispatchedAt _ hr, hc.results _ hr⟩
  · rw [hc.touchedAt, Function.update_of_ne]
    exact fun h => hne (hd.cv_ext hcv' hcv h)

/-- Writing back the changed application at its place gives the applications of
the changed ledger. -/
theorem ChangedAt.set_application (hc : ChangedAt uuid5 payload L L' cv i updatedAt)
    (hu : Uuid5Spec uuid5) (hd : payload.DistinctApplications) {n : Nat}
    (hn : payload.cvs[n]? = some cv) :
    (render uuid5 payload L).applications.set n (renderApplication uuid5 payload L' cv) =
      (render uuid5 payload L').applications :=
  Search.map_set_eq (f := renderApplication uuid5 payload L)
    (g := renderApplication uuid5 payload L') hd.nodup_cvs hn
    (hc.application_of_ne hu hd (List.mem_of_getElem? hn))

/-- The completed applications are the same when the changed one is terminal
neither before nor after. -/
theorem ChangedAt.cvsCompleted (hc : ChangedAt uuid5 payload L L' cv i updatedAt)
    (hu : Uuid5Spec uuid5) (hd : payload.DistinctApplications) (hcv : cv ∈ payload.cvs)
    (h : isApplicationTerminal (renderApplication uuid5 payload L cv) = false)
    (h' : isApplicationTerminal (renderApplication uuid5 payload L' cv) = false) :
    (render uuid5 payload L').cvsCompleted = (render uuid5 payload L).cvsCompleted := by
  refine List.countP_congr fun cv' hcv' => ?_
  by_cases he : cv' = cv
  · rw [he, h, h']
  · rw [hc.application_of_ne hu hd hcv cv' hcv' he]

/-- The run counters after a run that was not counted is counted. -/
theorem countP_slots (hd : payload.DistinctApplications) {p q : CvRef × Nat → Bool}
    (hcv : cv ∈ payload.cvs) (hi : i < payload.runCount)
    (hother : ∀ s ∈ payload.slots, s ≠ (cv, i) → q s = p s) (hp : p (cv, i) = false)
    (hq : q (cv, i) = true) : payload.slots.countP q = payload.slots.countP p + 1 :=
  Search.countP_update (BatchPayload.nodup_slots hd.nodup_cvs)
    (BatchPayload.mem_slots.mpr ⟨hcv, hi⟩) hother hp hq

/-- One more run has a result. -/
theorem ChangedAt.countP_recorded (hc : ChangedAt uuid5 payload L L' cv i updatedAt)
    (hu : Uuid5Spec uuid5) (hd : payload.DistinctApplications) (hcv : cv ∈ payload.cvs)
    (hi : i < payload.runCount) (hbefore : L.results (payload.runId uuid5 cv i) = none)
    (hnow : (L'.results (payload.runId uuid5 cv i)).isSome) :
    payload.slots.countP (L'.recorded uuid5 payload) =
      payload.slots.countP (L.recorded uuid5 payload) + 1 := by
  refine countP_slots hd hcv hi (fun s hs hne => ?_) ?_ hnow
  · show (L'.results _).isSome = (L.results _).isSome
    rw [hc.results _ (ne_runId hu hd hcv hs hne)]
  · show (L.results _).isSome = false
    rw [hbefore]
    rfl

/-- One more run is dispatched. -/
theorem ChangedAt.countP_dispatched (hc : ChangedAt uuid5 payload L L' cv i updatedAt)
    (hu : Uuid5Spec uuid5) (hd : payload.DistinctApplications) (hcv : cv ∈ payload.cvs)
    (hi : i < payload.runCount) (hbefore : L.dispatchedAt (payload.runId uuid5 cv i) = none)
    (hnow : (L'.dispatchedAt (payload.runId uuid5 cv i)).isSome) :
    payload.slots.countP (L'.dispatched uuid5 payload) =
      payload.slots.countP (L.dispatched uuid5 payload) + 1 := by
  refine countP_slots hd hcv hi (fun s hs hne => ?_) ?_ hnow
  · show (L'.dispatchedAt _).isSome = (L.dispatchedAt _).isSome
    rw [hc.dispatchedAt _ (ne_runId hu hd hcv hs hne)]
  · show (L.dispatchedAt _).isSome = false
    rw [hbefore]
    rfl

/-- An application with a run without a result is not terminal. -/
theorem not_isApplicationTerminal (hi : i < payload.runCount)
    (h : L.results (payload.runId uuid5 cv i) = none) :
    isApplicationTerminal (renderApplication uuid5 payload L cv) = false := by
  rw [Bool.eq_false_iff, ne_eq, isApplicationTerminal_render]
  intro hall
  have hrun := hall i hi
  rw [isTerminal_of_none h] at hrun
  cases hrun

/-- The counter of dispatched runs after a dispatch: a run that was dispatched before does
not count again. -/
theorem ChangedAt.runsDispatched (hc : ChangedAt uuid5 payload L L' cv i updatedAt)
    (hu : Uuid5Spec uuid5) (hd : payload.DistinctApplications) (hcv : cv ∈ payload.cvs)
    (hi : i < payload.runCount) (hr : L.results (payload.runId uuid5 cv i) = none)
    (hnow : (L'.dispatchedAt (payload.runId uuid5 cv i)).isSome) :
    (render uuid5 payload L').runsDispatched =
      if (renderRun uuid5 payload L cv i).status = "queued"
      then (render uuid5 payload L).runsDispatched + 1
      else (render uuid5 payload L).runsDispatched := by
  rw [renderRun_status_of_none hr]
  split
  · next hbefore =>
    rw [if_neg (by decide)]
    refine List.countP_congr fun s hs => ?_
    by_cases he : s = (cv, i)
    · rw [he, dispatched, dispatched, hnow, hbefore]
    · rw [dispatched, dispatched, hc.dispatchedAt _ (ne_runId hu hd hcv hs he)]
  · next hbefore =>
    rw [if_pos rfl]
    have hnone : L.dispatchedAt (payload.runId uuid5 cv i) = none := by
      simpa using hbefore
    exact hc.countP_dispatched hu hd hcv hi hnone hnow

/-- One more run of the application has a result. -/
theorem ChangedAt.runsCompleted_application (hc : ChangedAt uuid5 payload L L' cv i updatedAt)
    (hu : Uuid5Spec uuid5) (hd : payload.DistinctApplications) (hcv : cv ∈ payload.cvs)
    (hi : i < payload.runCount) (hbefore : L.results (payload.runId uuid5 cv i) = none)
    (hnow : (L'.results (payload.runId uuid5 cv i)).isSome) :
    (renderApplication uuid5 payload L' cv).runsCompleted =
      (renderApplication uuid5 payload L cv).runsCompleted + 1 := by
  refine Search.countP_update List.nodup_range (List.mem_range.mpr hi) (fun j hj hne => ?_) ?_ hnow
  · have hslot : (cv, j) ∈ payload.slots :=
      BatchPayload.mem_slots.mpr ⟨hcv, List.mem_range.mp hj⟩
    show (L'.results _).isSome = (L.results _).isSome
    rw [hc.results _ (ne_runId hu hd hcv hslot fun h => hne (Prod.mk.inj h).2)]
  · show (L.results _).isSome = false
    rw [hbefore]
    rfl

/-- The counter of completed applications after a first result: it is counted anew where
the application is terminal now. -/
theorem ChangedAt.cvsCompleted_of_result (hc : ChangedAt uuid5 payload L L' cv i updatedAt)
    (hu : Uuid5Spec uuid5) (hd : payload.DistinctApplications) (hcv : cv ∈ payload.cvs)
    (hi : i < payload.runCount) (hbefore : L.results (payload.runId uuid5 cv i) = none) :
    (render uuid5 payload L').cvsCompleted =
      if isApplicationTerminal (renderApplication uuid5 payload L' cv)
      then (completedIds (render uuid5 payload L').applications).length
      else (render uuid5 payload L).cvsCompleted := by
  split
  · exact (length_completedIds hd L').symm
  · next hterminal =>
    exact hc.cvsCompleted hu hd hcv (not_isApplicationTerminal hi hbefore)
      (by simpa using hterminal)

/-- The entry of an application that was changed, from the entry before. -/
theorem ChangedAt.application_eq (hc : ChangedAt uuid5 payload L L' cv i updatedAt) :
    renderApplication uuid5 payload L' cv =
      { renderApplication uuid5 payload L cv with
        runs := renderRuns uuid5 payload L' cv
        runsCompleted := (renderApplication uuid5 payload L' cv).runsCompleted
        status := summarizeApplicationStatus ((renderRuns uuid5 payload L' cv).map Run.status)
        lastUpdatedAt := updatedAt } := by
  simp only [renderApplication, hc.touchedAt, Function.update_self]

/-- The document after a change, from the document before. -/
theorem ChangedAt.render_eq (hc : ChangedAt uuid5 payload L L' cv i updatedAt) :
    render uuid5 payload L' =
      { render uuid5 payload L with
        applications := (render uuid5 payload L').applications
        cvsCompleted := (render uuid5 payload L').cvsCompleted
        runsCompleted := (render uuid5 payload L').runsCompleted
        runsDispatched := (render uuid5 payload L').runsDispatched
        status := "running"
        lastUpdatedAt := updatedAt } := by
  simp only [render, hc.started, hc.lastUpdatedAt, if_true]

end ChangedAt

end LedgerLemmas

open Ledger LedgerLemmas

section Refinement
variable {uuid5 : String → String} {payload : BatchPayload}

/-! ## 5. The updates of the document are updates of the ledger -/

/-- The initial document is the view of the empty ledger. -/
theorem render_initial (updatedAt : String) :
    render uuid5 payload (Ledger.initial updatedAt) =
      buildInitialProgress uuid5 payload updatedAt := by
  have hruns : ∀ cv, renderRuns uuid5 payload (Ledger.initial updatedAt) cv =
      (List.range payload.runCount).map fun i => queuedRun (payload.runId uuid5 cv i) i := by
    intro cv
    rfl
  have hone := payload.one_le_runCount
  have hstatus : ∀ cv, summarizeApplicationStatus
      ((renderRuns uuid5 payload (Ledger.initial updatedAt) cv).map Run.status) = "queued" := by
    intro cv
    refine summarize_of_queued ?_ ?_
    · rw [hruns]
      simp
      omega
    · rw [hruns]
      intro s hs
      simp only [List.map_map, List.mem_map, List.mem_range] at hs
      obtain ⟨_, _, rfl⟩ := hs
      rfl
  have hterminal : ∀ cv,
      isApplicationTerminal (renderApplication uuid5 payload (Ledger.initial updatedAt) cv) = false :=
    fun cv => not_isApplicationTerminal hone rfl
  have hcount : ∀ cv, (List.range payload.runCount).countP
      (fun i => (Ledger.initial updatedAt).recorded uuid5 payload (cv, i)) = 0 := by
    intro cv
    simp [recorded, Ledger.initial]
  have happs : ∀ cv, renderApplication uuid5 payload (Ledger.initial updatedAt) cv =
      { applicationId := cv.applicationId
        documentId := cv.documentId
        status := "queued"
        runsCompleted := 0
        runsTotal := payload.runCount
        lastUpdatedAt := updatedAt
        runs := (List.range payload.runCount).map fun i =>
          queuedRun (payload.runId uuid5 cv i) i } := by
    intro cv
    rw [renderApplication, hstatus, hruns, hcount]
    rfl
  have hcvs : (payload.cvs.countP fun cv =>
      isApplicationTerminal (renderApplication uuid5 payload (Ledger.initial updatedAt) cv)) = 0 := by
    simp [hterminal]
  have hrecorded : payload.slots.countP ((Ledger.initial updatedAt).recorded uuid5 payload) = 0 := by
    simp [recorded, Ledger.initial]
  have hdispatched :
      payload.slots.countP ((Ledger.initial updatedAt).dispatched uuid5 payload) = 0 := by
    simp [dispatched, Ledger.initial]
  rw [render, hcvs, hrecorded, hdispatched, List.map_congr_left fun cv _ => happs cv]
  rfl

/-- A dispatch changes the ledger at the dispatched run only. -/
theorem changedAt_recordDispatched {L : Ledger} {cv : CvRef} {i : Nat}
    (ho : owner uuid5 payload (payload.runId uuid5 cv i) = some (cv, i)) (updatedAt : String) :
    ChangedAt uuid5 payload L
      (L.recordDispatched uuid5 payload (payload.runId uuid5 cv i) updatedAt) cv i updatedAt := by
  simp only [recordDispatched, ho]
  exact ⟨fun r hr => Function.update_of_ne hr _ _, fun _ _ => rfl, rfl, rfl, rfl⟩

/-- A first result changes the ledger at its run only. -/
theorem changedAt_recordResult {L : Ledger} {rr : RunResult} {cv : CvRef} {i : Nat}
    (ho : owner uuid5 payload rr.runId = some (cv, i)) (hr : payload.runId uuid5 cv i = rr.runId)
    (hnone : L.results rr.runId = none) (updatedAt : String) :
    ChangedAt uuid5 payload L (L.recordResult uuid5 payload rr updatedAt) cv i updatedAt := by
  simp only [recordResult, ho, hnone, Option.isSome_none, Bool.false_eq_true, if_false]
  refine ⟨fun _ _ => rfl, fun r hne => ?_, rfl, rfl, rfl⟩
  exact FirstWrite.record_of_ne _ (hr ▸ hne) _

/-- `_record_dispatched_run` on a run without a result. -/
theorem render_recordDispatched (hu : Uuid5Spec uuid5) (hd : payload.DistinctApplications)
    {L : Ledger} {r : String} (hr : L.results r = none) (updatedAt : String) :
    recordDispatchedRun (render uuid5 payload L) r updatedAt =
      render uuid5 payload (L.recordDispatched uuid5 payload r updatedAt) := by
  cases ho : owner uuid5 payload r with
  | none =>
    rw [recordDispatchedRun, find_render_eq_none L (owner_eq_none_iff.mp ho)]
    simp [recordDispatched, ho]
  | some s =>
    obtain ⟨cv, i⟩ := s
    obtain ⟨hcv, hi, rfl⟩ := of_owner_eq_some ho
    obtain ⟨n, hn, hfind⟩ := find_render hu hd L hcv hi
    dsimp only at hr hcv hi hfind ho
    have hc := changedAt_recordDispatched (L := L) ho updatedAt
    have hL : L.recordDispatched uuid5 payload (payload.runId uuid5 cv i) updatedAt =
        { L.touch cv updatedAt with
          dispatchedAt := Function.update L.dispatchedAt (payload.runId uuid5 cv i)
            (some updatedAt) } := by
      rw [recordDispatched, ho]
    generalize hL' : L.recordDispatched uuid5 payload (payload.runId uuid5 cv i) updatedAt = L'
      at hc hL ⊢
    have hresults : L'.results = L.results := by rw [hL]; rfl
    have hdispatchedAt : L'.dispatchedAt (payload.runId uuid5 cv i) = some updatedAt := by
      rw [hL]
      exact Function.update_self _ _ _
    have hrun : (renderRun uuid5 payload L cv i).dispatched updatedAt =
        renderRun uuid5 payload L' cv i := by
      simp only [renderRun, hresults, hr, hdispatchedAt]
      split <;> rfl
    have hruns := hc.set_run hu hd hcv hi
    have hrecorded : L'.recorded uuid5 payload = L.recorded uuid5 payload := by
      funext s
      simp only [recorded, hresults]
    have hstatus : summarizeApplicationStatus ((renderRuns uuid5 payload L' cv).map Run.status) =
        "running" := by
      refine summarize_of_dispatched ?_
      refine List.mem_map.mpr ⟨_, mem_renderRuns.mpr ⟨i, hi, rfl⟩, ?_⟩
      rw [renderRun_status_of_none (hresults ▸ hr), hdispatchedAt]
      rfl
    have happ : { renderApplication uuid5 payload L cv with
          runs := renderRuns uuid5 payload L' cv
          status := "running"
          lastUpdatedAt := updatedAt } = renderApplication uuid5 payload L' cv := by
      rw [hc.application_eq, hstatus]
      simp only [renderApplication, hrecorded]
    have hcvs : (render uuid5 payload L').cvsCompleted = (render uuid5 payload L).cvsCompleted :=
      hc.cvsCompleted hu hd hcv (not_isApplicationTerminal hi hr)
        (not_isApplicationTerminal hi (hresults ▸ hr))
    have hcompleted : (render uuid5 payload L').runsCompleted =
        (render uuid5 payload L).runsCompleted := by
      simp only [render, hrecorded]
    have hdispatched := hc.runsDispatched hu hd hcv hi hr (by rw [hdispatchedAt]; rfl)
    rw [hc.render_eq, ← hc.set_application hu hd hn, ← happ, hcvs, hcompleted, hdispatched, ← hruns,
      ← hrun]
    simp only [recordDispatchedRun, hfind]
    rfl

/-- `_record_run_result`, unless the run has a result whose status is not
terminal. -/
theorem render_recordResult (hu : Uuid5Spec uuid5) (hd : payload.DistinctApplications)
    {L : Ledger} {rr : RunResult}
    (hr : ∀ p, L.results rr.runId = some p → isTerminalRunStatus p.1.status = true)
    (updatedAt : String) :
    recordRunResult (render uuid5 payload L) rr updatedAt =
      render uuid5 payload (L.recordResult uuid5 payload rr updatedAt) := by
  cases ho : owner uuid5 payload rr.runId with
  | none =>
    simp only [recordRunResult, find_render_eq_none L (owner_eq_none_iff.mp ho), recordResult, ho]
    split <;> rfl
  | some s =>
    obtain ⟨cv, i⟩ := s
    obtain ⟨hcv, hi, hid⟩ := of_owner_eq_some ho
    dsimp only at hcv hi hid
    obtain ⟨n, hn, hfind⟩ := find_render hu hd L hcv hi
    have hne : rr.runId ≠ "" := hid ▸ BatchPayload.runId_ne_empty hu cv i
    rw [hid] at hfind
    cases hres : L.results rr.runId with
    | some p =>
      have hstatus : isTerminalRunStatus (renderRun uuid5 payload L cv i).status = true := by
        rw [renderRun_status_of_some (by rw [hid, hres])]
        exact hr p hres
      simp only [recordRunResult, if_neg hne, hfind, hstatus, if_true, recordResult, ho, hres,
        Option.isSome_some]
    | none =>
      have hnone : L.results (payload.runId uuid5 cv i) = none := by rw [hid, hres]
      have hc := changedAt_recordResult ho hid hres updatedAt
      have hL : L.recordResult uuid5 payload rr updatedAt =
          { L.touch cv updatedAt with
            results := FirstWrite.record L.results rr.runId (rr, updatedAt) } := by
        simp only [recordResult, ho, hres, Option.isSome_none, Bool.false_eq_true, if_false]
      generalize hL' : L.recordResult uuid5 payload rr updatedAt = L' at hc hL ⊢
      have hdispatchedAt : L'.dispatchedAt = L.dispatchedAt := by rw [hL]; rfl
      have hresult : L'.results (payload.runId uuid5 cv i) = some (rr, updatedAt) := by
        rw [hL, hid]
        exact FirstWrite.record_of_none hres _
      have hrun : (renderRun uuid5 payload L cv i).recorded rr updatedAt =
          renderRun uuid5 payload L' cv i := by
        simp only [renderRun, hdispatchedAt, hnone, hresult]
      have hruns := hc.set_run hu hd hcv hi
      have hdispatched : (render uuid5 payload L').runsDispatched =
          (render uuid5 payload L).runsDispatched := by
        have : L'.dispatched uuid5 payload = L.dispatched uuid5 payload := by
          funext s
          simp only [dispatched, hdispatchedAt]
        simp only [render, this]
      have hnow : (L'.results (payload.runId uuid5 cv i)).isSome := by
        rw [hresult]
        rfl
      have hcompleted : (render uuid5 payload L').runsCompleted =
          (render uuid5 payload L).runsCompleted + 1 :=
        hc.countP_recorded hu hd hcv hi hnone hnow
      have happCompleted := hc.runsCompleted_application hu hd hcv hi hnone hnow
      have happs := hc.set_application hu hd hn
      have hcvs := hc.cvsCompleted_of_result hu hd hcv hi hnone
      have happ : { renderApplication uuid5 payload L cv with
            runs := (renderRuns uuid5 payload L cv).set i
              ((renderRun uuid5 payload L cv i).recorded rr updatedAt)
            runsCompleted := (renderApplication uuid5 payload L cv).runsCompleted + 1
            status := summarizeApplicationStatus (((renderRuns uuid5 payload L cv).set i
              ((renderRun uuid5 payload L cv i).recorded rr updatedAt)).map Run.status)
            lastUpdatedAt := updatedAt } = renderApplication uuid5 payload L' cv := by
        rw [hrun, hruns, ← happCompleted]
        exact hc.application_eq.symm
      have hpending : isTerminalRunStatus (renderRun uuid5 payload L cv i).status = false :=
        isTerminal_of_none hnone
      rw [hc.render_eq, hcvs, hcompleted, hdispatched, ← happs, ← happ]
      simp only [recordRunResult, if_neg hne, hfind, hpending, Bool.false_eq_true, if_false]
      rfl

end Refinement

end TalentMatch
