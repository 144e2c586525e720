import TalentMatch.Numbering
import TalentMatch.Polling

/-!
# How a batch ended

When `batch_orchestrator` returns, the outcome of the batch is told three times: by
the status that `_normalize_status` derives from the runtime status, by the
published progress document and by the type of the last live event.

Results:
1. `isCancelledBatch_render`: `_is_cancelled_batch` holds exactly when there is a CV
   and every result is a cancellation.
2. `reports_agree_iff`: the three name the same outcome exactly when there is no CV
   or some result is no cancellation. The runtime status knows nothing about the
   results.
-/

namespace TalentMatch

open Json (LoadsError)
open Ledger LedgerLemmas OrchestratorLemmas CompletionLemmas

/-! ## 1. Three reports -/

/-- How a batch can end. -/
inductive BatchOutcome where
  | completed
  | cancelled
  deriving DecidableEq

/-- The outcome that a status names. -/
def statusOutcome : String → Option BatchOutcome
  | "completed" => some .completed
  | "cancelled" => some .cancelled
  | _ => none

/-- The outcome that the type of a live event names. -/
def eventOutcome : String → Option BatchOutcome
  | "batch.completed" => some .completed
  | "batch.cancelled" => some .cancelled
  | _ => none

section Returns
variable {φ : Type}

/-- `batch_orchestrator` returned `document` in state `s'`, after the given arrivals. -/
def Returns (num : Numerics φ) (str : Json φ → String) (order : SetOrder)
    (readObject : String → Option (Fields φ)) (uuid5 : String → String) (payload : BatchPayload)
    (createdAt dispatchedAt finishedAt : String) (arrivals : List Arrival)
    (document : List (CvBlock (Option (CvAggregate φ)))) (s' : OrchState) : Prop :=
  ∃ s entries, waitLoop uuid5 payload createdAt dispatchedAt arrivals = some s ∧
    s.pendingEvents = [] ∧ finalizeInput uuid5 payload s = some entries ∧
    finalizeDocument num str order readObject payload.cvs entries = .ok document ∧
    finish payload s finishedAt = some s'

/-- The status that `_normalize_status` reports for a completed instance with this
custom status and output. -/
def topLevelStatus (loads : String → Except LoadsError (Json φ)) (progress : Progress)
    (output : Json φ) : Option String :=
  match normalizeStatus loads (completedStatus (some progress) output) with
  | .error _ => none
  | .ok raw => strictStr (valueAt raw "status")

/-- The three reports name one outcome. -/
def ReportsAgree (loads : String → Except LoadsError (Json φ)) (s' : OrchState) (output : Json φ) :
    Prop :=
  ∃ outcome, (topLevelStatus loads s'.progress output).bind statusOutcome = some outcome ∧
    statusOutcome s'.progress.status = some outcome ∧
    s'.liveEvents.getLast?.bind (fun e => eventOutcome e.eventType) = some outcome

end Returns

/-- The result is a cancellation. -/
def IsCancellation (status : String) : Prop := statusKey status ∈ ["cancelled", "canceled"]

instance (status : String) : Decidable (IsCancellation status) :=
  inferInstanceAs (Decidable (_ ∈ _))

/-! ## 2. Cancelled applications and batches -/

namespace ReportsLemmas

/-- An application is summarised as cancelled exactly when all its runs are. -/
theorem summarize_cancelled_iff {statuses : List String} (hne : statuses ≠ []) :
    IsCancellation (summarizeApplicationStatus statuses) ↔ ∀ s ∈ statuses, IsCancellation s := by
  have hkeys : (∀ s ∈ statuses, IsCancellation s) ↔
      (statuses.map statusKey).all (fun s => ["cancelled", "canceled"].contains s) = true := by
    simp [IsCancellation]
  rw [hkeys]
  have hne' : statuses.map statusKey ≠ [] := by simpa using hne
  unfold summarizeApplicationStatus
  generalize statuses.map statusKey = keys at hne' ⊢
  obtain ⟨k, hk⟩ := List.exists_mem_of_ne_nil keys hne'
  -- a word outside the two words of cancellations ends the test
  have hno : ∀ words : List String, (∀ w ∈ words, ["cancelled", "canceled"].contains w = false) →
      keys.all (fun s => words.contains s) = true →
      keys.all (fun s => ["cancelled", "canceled"].contains s) = false := by
    intro words hwords hall
    rw [List.all_eq_true] at hall
    have hw := hwords k (List.contains_iff_mem.mp (hall k hk))
    exact List.all_eq_false.mpr ⟨k, hk, fun h => Bool.noConfusion (hw.symm.trans h)⟩
  simp only
  split
  · next hpending =>
    obtain ⟨s, hs, hword⟩ := List.any_eq_true.mp hpending
    have hfalse : keys.all (fun s => ["cancelled", "canceled"].contains s) = false := by
      refine List.all_eq_false.mpr ⟨s, hs, ?_⟩
      have hwords : ∀ w ∈ ["queued", "dispatched", "running", ""],
          ¬ ["cancelled", "canceled"].contains w = true := by decide
      exact hwords s (List.contains_iff_mem.mp hword)
    rw [hfalse]
    split <;> decide
  · split
    · next hall =>
      rw [hno _ (by decide) hall]
      decide
    · split
      · next hall =>
        rw [hno _ (by decide) hall]
        decide
      · split
        · next hall =>
          rw [hall]
          decide
        · next hnot =>
          rw [Bool.eq_false_iff.mpr hnot]
          decide

variable {uuid5 : String → String} {payload : BatchPayload}

/-- A view shows a cancelled batch exactly when it has a CV and all runs are
cancelled. -/
theorem isCancelledBatch_render (L : Ledger) :
    isCancelledBatch (render uuid5 payload L) = true ↔
      payload.cvs ≠ [] ∧ ∀ cv ∈ payload.cvs, ∀ i < payload.runCount,
        IsCancellation (renderRun uuid5 payload L cv i).status := by
  have happ : ∀ cv, ["cancelled", "canceled"].contains
        (statusKey (renderApplication uuid5 payload L cv).status) = true ↔
      ∀ i < payload.runCount, IsCancellation (renderRun uuid5 payload L cv i).status := by
    intro cv
    rw [List.contains_iff_mem]
    have hne : (renderRuns uuid5 payload L cv).map Run.status ≠ [] := by
      have hone := payload.one_le_runCount
      simp only [renderRuns, ne_eq, List.map_eq_nil_iff, List.range_eq_nil]
      omega
    refine (summarize_cancelled_iff hne).trans ?_
    simp [mem_renderRuns]
  simp only [isCancelledBatch, render, Bool.and_eq_true, List.all_map, List.all_eq_true,
    Function.comp_apply, happ]
  simp

end ReportsLemmas

open ReportsLemmas

/-! ## 3. When the reports agree -/

section Agreement
variable {φ : Type} {num : Numerics φ} {str : Json φ → String} {order : SetOrder}
variable {readObject : String → Option (Fields φ)} {loads : String → Except LoadsError (Json φ)}
variable {uuid5 : String → String} {payload : BatchPayload}
variable {createdAt dispatchedAt finishedAt : String} {arrivals : List Arrival}

/-- With nothing pending there was one result for each run. -/
theorem perm_of_pending_nil (hu : Uuid5Spec uuid5) (hd : payload.DistinctApplications)
    {s : OrchState} (hs : waitLoop uuid5 payload createdAt dispatchedAt arrivals = some s)
    (hend : s.pendingEvents = []) :
    (arrivals.map Arrival.runId).Perm (payload.mintedIds uuid5) := by
  have h : OnePerRun uuid5 payload arrivals := by
    rw [← waitLoop_isSome_iff hu hd createdAt dispatchedAt, hs]
    rfl
  obtain ⟨s₁, hs₁, -, hw⟩ := waitLoop_spec hu hd createdAt dispatchedAt h
  cases hs.symm.trans hs₁
  refine (List.perm_ext_iff_of_nodup h.nodup (BatchPayload.nodup_mintedIds hu hd)).mpr fun r => ?_
  constructor
  · intro hr
    obtain ⟨a, ha, rfl⟩ := List.mem_map.mp hr
    exact h.minted a ha
  · intro hr
    have hne : (ledgerAfter uuid5 payload createdAt dispatchedAt arrivals).results r ≠ none := by
      intro hnone
      have hpending := (hw.mem_pending r).mpr ⟨hr, hnone⟩
      rw [hend] at hpending
      cases hpending
    exact (isSome_results_ledgerAfter h r).mp (Option.isSome_iff_ne_none.mpr hne)

/-- The batch counts as cancelled exactly when it has a CV and every result is a
cancellation. -/
theorem isCancelledBatch_iff (hu : Uuid5Spec uuid5) (hd : payload.DistinctApplications)
    {s : OrchState} (hs : waitLoop uuid5 payload createdAt dispatchedAt arrivals = some s)
    (hend : s.pendingEvents = []) :
    isCancelledBatch s.progress = true ↔
      payload.cvs ≠ [] ∧ ∀ a ∈ arrivals, IsCancellation a.result.status := by
  have hall := perm_of_pending_nil hu hd hs hend
  have h := onePerRun_of_perm hu hd hall
  obtain ⟨s₁, hs₁, -, hw⟩ := waitLoop_spec hu hd createdAt dispatchedAt h
  cases hs.symm.trans hs₁
  rw [hw.progress_eq, isCancelledBatch_render]
  refine and_congr_right fun _ => ?_
  constructor
  · intro hruns a ha
    obtain ⟨cv, hcv, i, hi, hid⟩ := BatchPayload.mem_mintedIds.mp (h.minted a ha)
    have hrun := hruns cv hcv i hi
    rwa [renderRun_status_of_some (hid ▸ results_ledgerAfter h ha)] at hrun
  · intro harrivals cv hcv i hi
    have hminted : payload.runId uuid5 cv i ∈ payload.mintedIds uuid5 :=
      BatchPayload.runId_mem_mintedIds hcv hi
    obtain ⟨a, ha, hid⟩ := List.mem_map.mp (hall.mem_iff.mpr hminted)
    rw [renderRun_status_of_some (hid ▸ results_ledgerAfter h ha)]
    exact harrivals a ha

/-- The last event and the document at the end. -/
theorem finish_reports {s s' : OrchState} (h : finish payload s finishedAt = some s') :
    s'.progress.status = (if isCancelledBatch s.progress then "cancelled" else "completed") ∧
      s'.liveEvents.getLast?.map LiveEvent.eventType =
        some (if isCancelledBatch s.progress then "batch.cancelled" else "batch.completed") := by
  have hsame : isCancelledBatch (finalProgress s.progress finishedAt) =
      isCancelledBatch s.progress := rfl
  simp only [finish, buildBatchTerminalLiveEvent, hsame, buildLiveProgressEvent, findEventRun,
    orDefault, orText, OrchState.project, Option.map_none, Option.getD_none] at h
  cases h
  refine ⟨rfl, ?_⟩
  simp

/-- The reports agree exactly when there is no CV or some result is no cancellation:
the instance completes in any case. -/
theorem reports_agree_iff (hu : Uuid5Spec uuid5) (hd : payload.DistinctApplications)
    {document : List (CvBlock (Option (CvAggregate φ)))} {s' : OrchState}
    (h : Returns num str order readObject uuid5 payload createdAt dispatchedAt finishedAt arrivals
      document s')
    {output : Json φ} (houtput : IsOutput loads output (resultDocument document)) :
    ReportsAgree loads s' output ↔
      payload.cvs = [] ∨ ∃ a ∈ arrivals, ¬ IsCancellation a.result.status := by
  obtain ⟨s, entries, hs, hend, -, -, hfinish⟩ := h
  obtain ⟨hstatus, hevent⟩ := finish_reports hfinish
  have htop : topLevelStatus loads s'.progress output = some "completed" := by
    unfold topLevelStatus
    rw [normalizeStatus_completed _ houtput]
    rfl
  have hcancelled := isCancelledBatch_iff hu hd hs hend
  have hcond : (payload.cvs = [] ∨ ∃ a ∈ arrivals, ¬ IsCancellation a.result.status) ↔
      isCancelledBatch s.progress = false := by
    rw [← Bool.not_eq_true, hcancelled]
    simp only [not_and_or, ne_eq, not_not, not_forall, exists_prop]
  obtain ⟨last, hlast, htype⟩ := Option.map_eq_some_iff.mp hevent
  rw [hcond]
  unfold ReportsAgree
  rw [htop, hstatus, hlast]
  cases hc : isCancelledBatch s.progress with
  | false =>
    rw [hc] at htype
    simp only [Bool.false_eq_true, if_false] at htype
    simp only [Option.bind_some, htype, Bool.false_eq_true, if_false, iff_true]
    exact ⟨.completed, rfl, rfl, rfl⟩
  | true =>
    simp only [Option.bind_some, if_true, Bool.true_eq_false, iff_false]
    rintro ⟨outcome, h1, h2, -⟩
    cases h1
    cases h2

end Agreement

namespace Sample

/-- The only run of a batch of one application was cancelled. -/
def cancelledArrivals : List Arrival :=
  [{ result := result "c055d77e-9f11-5874-aa97-192185e2def4" "Cancelled"
     occurredAt := "2025-01-01T00:01:00+00:00" }]

/-- The batch of one application and one run returned after the given arrivals. -/
def returned (arrivals : List Arrival) (document : List (CvBlock (Option (CvAggregate ℚ))))
    (s' : OrchState) : Prop :=
  Returns numerics str setOrder readObject uuid5 (payload batch1 ["app-1"] 0)
    "2025-01-01T00:00:00+00:00" "2025-01-01T00:00:10+00:00" "2025-01-01T00:02:00+00:00" arrivals
    document s'

end Sample

/-- The batch of one cancelled run: the instance is 'completed', the progress document
and the last event say 'cancelled'. -/
theorem cancelled_batch_reported_completed :
    Uuid5Spec Sample.uuid5 ∧ (Sample.payload Sample.batch1 ["app-1"] 0).DistinctApplications ∧
      ∃ document s', Sample.returned Sample.cancelledArrivals document s' ∧
        topLevelStatus (fun _ => .error .other) s'.progress (resultDocument document) =
          some "completed" ∧
        s'.progress.status = "cancelled" ∧
        s'.liveEvents.getLast?.map LiveEvent.eventType = some "batch.cancelled" ∧
        ¬ ReportsAgree (fun _ => .error .other) s' (resultDocument document) := by
  refine ⟨Sample.uuid5_spec, by decide, _, _, ⟨_, _, rfl, rfl, rfl, rfl, rfl⟩, rfl, rfl, rfl, ?_⟩
  rintro ⟨outcome, htop, hprogress, -⟩
  cases htop
  cases hprogress

/-- The same batch with a run that is 'Partial'. -/
theorem reports_agree_iff_sample :
    ∃ document s', Sample.returned Sample.partialArrivals document s' ∧
      (ReportsAgree (fun _ => .error .other) s' (resultDocument document) ↔
        (Sample.payload Sample.batch1 ["app-1"] 0).cvs = [] ∨
          ∃ a ∈ Sample.partialArrivals, ¬ IsCancellation a.result.status) := by
  obtain ⟨document, s', h⟩ : ∃ document s', Sample.returned Sample.partialArrivals document s' :=
    ⟨_, _, _, _, rfl, rfl, rfl, rfl, rfl⟩
  exact ⟨document, s', h, reports_agree_iff Sample.uuid5_spec (by decide) h (.inl rfl)⟩

end TalentMatch
