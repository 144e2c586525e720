import TalentMatch.Orchestrator

/-!
# Counters and completion of a batch

What the progress document shows at the wait points of `batch_orchestrator`, and
when the wait loop leaves a complete batch behind.

Results:
1. `counters_exact`: at every wait point the counters are what their names say,
   and no counter decreases from one wait point to the next, for arbitrary
   status strings.
2. `complete_iff_no_partial`: after one result for each run, with statuses of the
   wire contract, the batch is complete exactly when no result is 'Partial'. The
   terminal test has no word for that status, so its run never ends.
-/

namespace TalentMatch

open Ledger LedgerLemmas OrchestratorLemmas

/-! ## 1. Counters -/

/-- The results of the runs of an application. -/
def ownResults (uuid5 : String → String) (payload : BatchPayload) (applicationId : String)
    (results : List RunResult) : List RunResult :=
  results.filter fun rr =>
    rr.runId ∈ (List.range payload.runCount).map (mintRunId uuid5 payload.batchId applicationId)

/-- The counters of the document are exact. -/
structure CountersExact (uuid5 : String → String) (payload : BatchPayload) (s : OrchState) : Prop where
  runsDispatched : s.progress.runsDispatched = payload.cvs.length * payload.runCount
  runsTotal : s.progress.runsTotal = payload.cvs.length * payload.runCount
  runsCompleted : s.progress.runsCompleted = s.runResults.length
  sum : (s.progress.applications.map Application.runsCompleted).sum = s.runResults.length
  applicationIds : s.progress.applications.map Application.applicationId =
    payload.cvs.map CvRef.applicationId
  application : ∀ app ∈ s.progress.applications,
    app.runsCompleted = (ownResults uuid5 payload app.applicationId s.runResults).length ∧
      app.runsTotal = payload.runCount ∧ app.runsCompleted ≤ app.runsTotal
  cvsTotal : s.progress.cvsTotal = payload.cvs.length
  cvsCompleted : s.progress.cvsCompleted =
    (s.progress.applications.filter isApplicationTerminal).length

/-- No counter of the first application is above that of the second. -/
structure Application.CountersLe (app app' : Application) : Prop where
  applicationId : app.applicationId = app'.applicationId
  runsCompleted : app.runsCompleted ≤ app'.runsCompleted
  runsTotal : app.runsTotal ≤ app'.runsTotal

/-- No counter of the first document is above that of the second. -/
structure Progress.CountersLe (p p' : Progress) : Prop where
  cvsCompleted : p.cvsCompleted ≤ p'.cvsCompleted
  cvsTotal : p.cvsTotal ≤ p'.cvsTotal
  runsCompleted : p.runsCompleted ≤ p'.runsCompleted
  runsDispatched : p.runsDispatched ≤ p'.runsDispatched
  runsTotal : p.runsTotal ≤ p'.runsTotal
  applications : List.Forall₂ Application.CountersLe p.applications p'.applications

namespace Sample

/-- The only run of a batch of one application ends as 'Partial'. -/
def partialArrivals : List Arrival :=
  [{ result := result "c055d77e-9f11-5874-aa97-192185e2def4" "Partial"
     occurredAt := "2025-01-01T00:01:00+00:00" }]

/-- Three of the four runs of a batch of two applications. -/
def mixedArrivals : List Arrival :=
  [{ result := result "0c6c49f9-bfe7-5329-ba7e-8e851db2833e" "Succeeded"
     occurredAt := "2025-01-01T00:01:00+00:00" },
   { result := result "c055d77e-9f11-5874-aa97-192185e2def4" "throttled"
     occurredAt := "2025-01-01T00:02:00+00:00" },
   { result := result "9cdfe89d-791a-5f78-99d5-7554098157ca" "FAILED "
     occurredAt := "2025-01-01T00:03:00+00:00" }]

end Sample

namespace CompletionLemmas

variable {uuid5 : String → String} {payload : BatchPayload} {createdAt dispatchedAt : String}
  {arrivals : List Arrival}

theorem runIds_nodup (hu : Uuid5Spec uuid5) (cv : CvRef) :
    ((List.range payload.runCount).map (payload.runId uuid5 cv)).Nodup :=
  List.nodup_range.map fun _ _ h => (mintRunId_inj hu h).2

/-- Counting the runs of a list of ids that have a result. -/
theorem countP_recorded (h : OnePerRun uuid5 payload arrivals) {ids : List String} (hn : ids.Nodup) :
    ids.countP (fun r =>
        ((ledgerAfter uuid5 payload createdAt dispatchedAt arrivals).results r).isSome) =
      (arrivals.map Arrival.runId).countP fun r => r ∈ ids := by
  rw [← Search.countP_mem_comm hn h.nodup]
  refine List.countP_congr fun r _ => ?_
  rw [isSome_results_ledgerAfter h, decide_eq_true_eq]

/-- The document counts the consumed results. -/
theorem runsCompleted_render (hu : Uuid5Spec uuid5) (hd : payload.DistinctApplications)
    (h : OnePerRun uuid5 payload arrivals) :
    (render uuid5 payload (ledgerAfter uuid5 payload createdAt dispatchedAt arrivals)).runsCompleted =
      arrivals.length := by
  have hslots : payload.slots.countP ((ledgerAfter uuid5 payload createdAt dispatchedAt
        arrivals).recorded uuid5 payload) =
      (payload.mintedIds uuid5).countP fun r =>
        ((ledgerAfter uuid5 payload createdAt dispatchedAt arrivals).results r).isSome := by
    rw [BatchPayload.mintedIds, List.countP_map]
    rfl
  have hall : (arrivals.map Arrival.runId).countP (fun r => r ∈ payload.mintedIds uuid5) =
      (arrivals.map Arrival.runId).length := by
    refine List.countP_eq_length.mpr fun r hr => ?_
    obtain ⟨a, ha, rfl⟩ := List.mem_map.mp hr
    simpa using h.minted a ha
  exact hslots.trans ((countP_recorded h (BatchPayload.nodup_mintedIds hu hd)).trans
    (hall.trans (List.length_map _)))

/-- An application counts the consumed results of its own runs. -/
theorem runsCompleted_renderApplication (hu : Uuid5Spec uuid5) (h : OnePerRun uuid5 payload arrivals)
    (cv : CvRef) :
    (renderApplication uuid5 payload
        (ledgerAfter uuid5 payload createdAt dispatchedAt arrivals) cv).runsCompleted =
      (ownResults uuid5 payload cv.applicationId (arrivals.map Arrival.result)).length := by
  have hruns : (List.range payload.runCount).countP (fun i =>
        (ledgerAfter uuid5 payload createdAt dispatchedAt arrivals).recorded uuid5 payload (cv, i)) =
      ((List.range payload.runCount).map (payload.runId uuid5 cv)).countP fun r =>
        ((ledgerAfter uuid5 payload createdAt dispatchedAt arrivals).results r).isSome := by
    rw [List.countP_map]
    rfl
  rw [renderApplication, hruns, countP_recorded h (runIds_nodup hu cv), ownResults,
    ← List.countP_eq_length_filter, List.countP_map, List.countP_map]
  rfl

/-- The counters of the applications add up. -/
theorem sum_runsCompleted (L : Ledger) :
    ((render uuid5 payload L).applications.map Application.runsCompleted).sum =
      (render uuid5 payload L).runsCompleted := by
  simp only [render, BatchPayload.slots, List.countP_flatMap, List.map_map]
  congr 1
  refine List.map_congr_left fun cv _ => ?_
  simp only [Function.comp_apply, List.countP_map]
  rfl

theorem runsCompleted_le (L : Ledger) (cv : CvRef) :
    (renderApplication uuid5 payload L cv).runsCompleted ≤ payload.runCount := by
  simpa [renderApplication] using List.countP_le_length (p := fun i =>
    L.recorded uuid5 payload (cv, i)) (l := List.range payload.runCount)

/-- At a wait point every run is counted as dispatched. -/
theorem runsDispatched_render {s : OrchState} {L : Ledger} (h : AtWaitPoint uuid5 payload s L) :
    (render uuid5 payload L).runsDispatched = payload.cvs.length * payload.runCount := by
  rw [← BatchPayload.length_slots]
  refine List.countP_eq_length.mpr fun p hp => ?_
  obtain ⟨hcv, hi⟩ := BatchPayload.mem_slots.mp hp
  exact h.dispatched _ (BatchPayload.runId_mem_mintedIds hcv hi)

/-- The wait points after arrivals have exact counters. -/
theorem countersExact (hu : Uuid5Spec uuid5) (hd : payload.DistinctApplications)
    (h : OnePerRun uuid5 payload arrivals) {s : OrchState}
    (hr : s.runResults = arrivals.map Arrival.result)
    (hw : AtWaitPoint uuid5 payload s (ledgerAfter uuid5 payload createdAt dispatchedAt arrivals)) :
    CountersExact uuid5 payload s where
  runsDispatched := hw.progress_eq ▸ runsDispatched_render hw
  runsTotal := hw.progress_eq ▸ rfl
  runsCompleted := by
    rw [hw.progress_eq, runsCompleted_render hu hd h, hr, List.length_map]
  sum := by
    rw [hw.progress_eq, sum_runsCompleted, runsCompleted_render hu hd h, hr, List.length_map]
  applicationIds := by
    rw [hw.progress_eq]
    simp [render, renderApplication, Function.comp_def]
  application := by
    rw [hw.progress_eq]
    intro app happ
    obtain ⟨cv, -, rfl⟩ := List.mem_map.mp happ
    refine ⟨?_, rfl, runsCompleted_le _ cv⟩
    rw [runsCompleted_renderApplication hu h, hr]
    rfl
  cvsTotal := hw.progress_eq ▸ rfl
  cvsCompleted := by
    rw [hw.progress_eq]
    simp [render, List.filter_map, List.countP_eq_length_filter, Function.comp_def]

/-- `L'` knows everything that `L` knows. -/
structure Extends (L L' : Ledger) : Prop where
  results : ∀ r p, L.results r = some p → L'.results r = some p
  dispatchedAt : ∀ r, (L.dispatchedAt r).isSome → (L'.dispatchedAt r).isSome

theorem extends_recordResult (L : Ledger) (rr : RunResult) (t : String) :
    Extends L (L.recordResult uuid5 payload rr t) where
  results := by
    intro r p hp
    cases ho : owner uuid5 payload rr.runId with
    | none => simpa only [recordResult, ho] using hp
    | some s =>
      rw [results_recordResult L ho]
      exact FirstWrite.record_of_some hp _ _
  dispatchedAt := fun r hr => by rwa [dispatchedAt_recordResult]

/-- A terminal run has a result, so it stays terminal. -/
theorem isApplicationTerminal_mono {L L' : Ledger} (h : Extends L L') {cv : CvRef}
    (ht : isApplicationTerminal (renderApplication uuid5 payload L cv) = true) :
    isApplicationTerminal (renderApplication uuid5 payload L' cv) = true := by
  rw [isApplicationTerminal_render] at ht ⊢
  intro i hi
  have hrun := ht i hi
  cases hr : L.results (payload.runId uuid5 cv i) with
  | none =>
    rw [isTerminal_of_none hr] at hrun
    cases hrun
  | some p =>
    have hr' : L'.results (payload.runId uuid5 cv i) = some p := h.results _ _ hr
    rw [renderRun_status_of_some hr] at hrun
    rw [renderRun_status_of_some hr']
    exact hrun

theorem recorded_mono {L L' : Ledger} (h : Extends L L') (s : CvRef × Nat)
    (hs : L.recorded uuid5 payload s = true) : L'.recorded uuid5 payload s = true := by
  obtain ⟨p, hp⟩ := Option.isSome_iff_exists.mp hs
  simp [recorded, h.results _ _ hp]

/-- The counters grow with the ledger. -/
theorem countersLe_render {L L' : Ledger} (h : Extends L L') :
    (render uuid5 payload L).CountersLe (render uuid5 payload L') where
  cvsCompleted := List.countP_mono_left fun _ _ => isApplicationTerminal_mono h
  cvsTotal := le_rfl
  runsCompleted := List.countP_mono_left fun s _ => recorded_mono h s
  runsDispatched := List.countP_mono_left fun _ _ => h.dispatchedAt _
  runsTotal := le_rfl
  applications := by
    simp only [render, List.forall₂_map_left_iff, List.forall₂_map_right_iff, List.forall₂_same]
    intro cv _
    exact ⟨rfl, List.countP_mono_left fun i _ => recorded_mono h (cv, i), le_rfl⟩

end CompletionLemmas

open CompletionLemmas

section Counters
variable {uuid5 : String → String} {payload : BatchPayload}

/-- At every wait point the counters are exact, and they do not decrease until the
next wait point. The arrivals are any results of distinct runs in any order: the
status and the artifacts are arbitrary. -/
theorem counters_exact (hu : Uuid5Spec uuid5) (hd : payload.DistinctApplications)
    (createdAt dispatchedAt : String) {arrivals : List Arrival}
    (h : OnePerRun uuid5 payload arrivals) :
    ∃ s, waitLoop uuid5 payload createdAt dispatchedAt arrivals = some s ∧
      s.runResults = arrivals.map Arrival.result ∧ CountersExact uuid5 payload s ∧
      ∀ a s', consume uuid5 payload s a = some s' → s.progress.CountersLe s'.progress := by
  obtain ⟨s, hs, hr, hw⟩ := waitLoop_spec hu hd createdAt dispatchedAt h
  refine ⟨s, hs, hr, countersExact hu hd h hr hw, fun _ s' hs' => ?_⟩
  obtain ⟨s₁, hs₁, -, -, hw₁⟩ := consume_spec hu hd hw (mem_pending_of_consume hs')
  cases hs'.symm.trans hs₁
  rw [hw.progress_eq, hw₁.progress_eq]
  exact countersLe_render (extends_recordResult _ _ _)

end Counters

/-- Two runs of two applications, with a status that no classification knows. -/
theorem counters_exact_sample :
    ∃ s, waitLoop Sample.uuid5 (Sample.payload Sample.batch1 ["app-1", "app-2"] 1)
        "2025-01-01T00:00:00+00:00" "2025-01-01T00:00:10+00:00" Sample.mixedArrivals = some s ∧
      s.runResults = Sample.mixedArrivals.map Arrival.result ∧
      CountersExact Sample.uuid5 (Sample.payload Sample.batch1 ["app-1", "app-2"] 1) s ∧
      ∀ a s', consume Sample.uuid5 (Sample.payload Sample.batch1 ["app-1", "app-2"] 1) s a =
        some s' → s.progress.CountersLe s'.progress :=
  counters_exact Sample.uuid5_spec (by decide) _ _ (by decide)

/-! ## 2. Completion -/

section Completion
variable {uuid5 : String → String} {payload : BatchPayload}

/-- A batch after its wait loop in which everything is finished. -/
structure Complete (payload : BatchPayload) (s : OrchState) : Prop where
  terminal : ∀ app ∈ s.progress.applications, isApplicationTerminal app = true
  cvs : s.progress.cvsCompleted = s.progress.cvsTotal
  runs : s.progress.runsCompleted = s.progress.runsTotal
  events : ∀ cv ∈ payload.cvs, completedEvents s cv.applicationId = 1

namespace CompletionLemmas

variable {createdAt dispatchedAt : String} {arrivals : List Arrival}

/-- One result for each run of the batch, in any order. -/
theorem onePerRun_of_perm (hu : Uuid5Spec uuid5) (hd : payload.DistinctApplications)
    (hall : (arrivals.map Arrival.runId).Perm (payload.mintedIds uuid5)) :
    OnePerRun uuid5 payload arrivals where
  nodup := hall.nodup_iff.mpr (BatchPayload.nodup_mintedIds hu hd)
  minted := fun _ ha => hall.mem_iff.mp (List.mem_map_of_mem ha)

/-- With a result for each run, the applications are terminal exactly when the
results are. -/
theorem all_terminal_iff (h : OnePerRun uuid5 payload arrivals)
    (hall : (arrivals.map Arrival.runId).Perm (payload.mintedIds uuid5)) :
    (∀ cv ∈ payload.cvs, isApplicationTerminal (renderApplication uuid5 payload
        (ledgerAfter uuid5 payload createdAt dispatchedAt arrivals) cv) = true) ↔
      ∀ a ∈ arrivals, isTerminalRunStatus a.result.status = true := by
  constructor
  · intro hterminal a ha
    obtain ⟨cv, hcv, i, hi, hid⟩ := BatchPayload.mem_mintedIds.mp (h.minted a ha)
    have hrun := isApplicationTerminal_render.mp (hterminal cv hcv) i hi
    rwa [renderRun_status_of_some (hid ▸ results_ledgerAfter h ha)] at hrun
  · intro hstatus cv hcv
    rw [isApplicationTerminal_render]
    intro i hi
    have hminted : payload.runId uuid5 cv i ∈ payload.mintedIds uuid5 :=
      BatchPayload.runId_mem_mintedIds hcv hi
    obtain ⟨a, ha, hid⟩ := List.mem_map.mp (hall.mem_iff.mpr hminted)
    rw [renderRun_status_of_some (hid ▸ results_ledgerAfter h ha)]
    exact hstatus a ha

/-- With a result for each run nothing is pending. -/
theorem pending_eq_nil {s : OrchState} (h : OnePerRun uuid5 payload arrivals)
    (hall : (arrivals.map Arrival.runId).Perm (payload.mintedIds uuid5))
    (hw : AtWaitPoint uuid5 payload s (ledgerAfter uuid5 payload createdAt dispatchedAt arrivals)) :
    s.pendingEvents = [] := by
  rw [List.eq_nil_iff_forall_not_mem]
  intro r hr
  obtain ⟨hm, hnone⟩ := (hw.mem_pending r).mp hr
  have hsome : ((ledgerAfter uuid5 payload createdAt dispatchedAt arrivals).results r).isSome :=
    (isSome_results_ledgerAfter h r).mpr (hall.mem_iff.mpr hm)
  rw [hnone] at hsome
  cases hsome

/-- Everything that completion asks for follows from the applications being
terminal. -/
theorem complete_iff {s : OrchState} (hu : Uuid5Spec uuid5) (hd : payload.DistinctApplications)
    (h : OnePerRun uuid5 payload arrivals)
    (hall : (arrivals.map Arrival.runId).Perm (payload.mintedIds uuid5))
    (hw : AtWaitPoint uuid5 payload s (ledgerAfter uuid5 payload createdAt dispatchedAt arrivals)) :
    Complete payload s ↔ ∀ cv ∈ payload.cvs, isApplicationTerminal (renderApplication uuid5 payload
        (ledgerAfter uuid5 payload createdAt dispatchedAt arrivals) cv) = true := by
  constructor
  · intro hc cv hcv
    refine hc.terminal _ ?_
    rw [hw.progress_eq]
    exact List.mem_map_of_mem hcv
  · intro hterminal
    refine ⟨?_, ?_, ?_, ?_⟩
    · rw [hw.progress_eq]
      intro app happ
      obtain ⟨cv, hcv, rfl⟩ := List.mem_map.mp happ
      exact hterminal cv hcv
    · rw [hw.progress_eq]
      exact List.countP_eq_length.mpr hterminal
    · rw [hw.progress_eq, runsCompleted_render hu hd h, ← List.length_map Arrival.runId,
        hall.length_eq, BatchPayload.length_mintedIds]
      rfl
    · intro cv hcv
      rw [hw.events cv hcv, hterminal cv hcv]
      rfl

end CompletionLemmas

/-- After one result for each run, in any order and with statuses of the wire
contract, the wait loop ends, and the batch is complete exactly when no result is
'Partial'. -/
theorem complete_iff_no_partial (hu : Uuid5Spec uuid5) (hd : payload.DistinctApplications)
    (createdAt dispatchedAt : String) {arrivals : List Arrival}
    (hall : (arrivals.map Arrival.runId).Perm (payload.mintedIds uuid5))
    (hwire : ∀ a ∈ arrivals, IsWireStatus a.result.status) :
    ∃ s, waitLoop uuid5 payload createdAt dispatchedAt arrivals = some s ∧ s.pendingEvents = [] ∧
      (Complete payload s ↔ ∀ a ∈ arrivals, PyText.lower a.result.status ≠ "partial") := by
  have h := onePerRun_of_perm hu hd hall
  obtain ⟨s, hs, -, hw⟩ := waitLoop_spec hu hd createdAt dispatchedAt h
  refine ⟨s, hs, pending_eq_nil h hall hw, ?_⟩
  rw [complete_iff hu hd h hall hw, all_terminal_iff h hall]
  exact forall₂_congr fun a ha => (hwire a ha).isTerminal_iff

end Completion

/-- A batch of one run whose result is 'Partial': the wait loop ends, and the batch
is not complete. -/
theorem partial_batch_not_complete :
    Uuid5Spec Sample.uuid5 ∧ (Sample.payload Sample.batch1 ["app-1"] 0).DistinctApplications ∧
      (Sample.partialArrivals.map Arrival.runId).Perm
        ((Sample.payload Sample.batch1 ["app-1"] 0).mintedIds Sample.uuid5) ∧
      (∀ a ∈ Sample.partialArrivals, IsWireStatus a.result.status) ∧
      ∃ s, waitLoop Sample.uuid5 (Sample.payload Sample.batch1 ["app-1"] 0)
          "2025-01-01T00:00:00+00:00" "2025-01-01T00:00:10+00:00" Sample.partialArrivals = some s ∧
        s.pendingEvents = [] ∧ s.progress.cvsCompleted ≠ s.progress.cvsTotal ∧
        ¬ Complete (Sample.payload Sample.batch1 ["app-1"] 0) s := by
  have hrun : (waitLoop Sample.uuid5 (Sample.payload Sample.batch1 ["app-1"] 0)
      "2025-01-01T00:00:00+00:00" "2025-01-01T00:00:10+00:00" Sample.partialArrivals).map
      (fun s => (s.pendingEvents, s.progress.cvsCompleted, s.progress.cvsTotal)) =
        some ([], 0, 1) := by decide
  obtain ⟨s, hs, hvalues⟩ := Option.map_eq_some_iff.mp hrun
  simp only [Prod.mk.injEq] at hvalues
  obtain ⟨hpending, hcompleted, htotal⟩ := hvalues
  have hne : s.progress.cvsCompleted ≠ s.progress.cvsTotal := by rw [hcompleted, htotal]; decide
  exact ⟨Sample.uuid5_spec, by decide, by decide, by decide, s, hs, hpending, hne,
    fun hc => hne hc.cvs⟩

/-- The theorem on that batch. -/
theorem complete_iff_no_partial_sample :
    ∃ s, waitLoop Sample.uuid5 (Sample.payload Sample.batch1 ["app-1"] 0)
        "2025-01-01T00:00:00+00:00" "2025-01-01T00:00:10+00:00" Sample.partialArrivals = some s ∧
      s.pendingEvents = [] ∧
      (Complete (Sample.payload Sample.batch1 ["app-1"] 0) s ↔
        ∀ a ∈ Sample.partialArrivals, PyText.lower a.result.status ≠ "partial") :=
  complete_iff_no_partial Sample.uuid5_spec (by decide) _ _ (by decide) (by decide)

end TalentMatch
