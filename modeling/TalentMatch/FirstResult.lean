import TalentMatch.Completion

/-!
# Is the first recorded result final?

Arbitrary sequences of `_record_dispatched_run` and `_record_run_result` calls on
the initial document, in any order and with repetitions.

Results:
1. `applyCalls_eq_render`: while no call touches a run with a result that it can
   overwrite, the document is the view of the ledger, which keeps first results.
2. `first_result_final_iff`: the first results are final exactly for the call
   sequences without such a call. There are two kinds: a dispatch of a run that
   has a result, since the dispatch writes the status unconditionally, and a
   second result for a run that ended as 'Partial', since the guard against
   duplicates tests the status.
-/

namespace TalentMatch

open Ledger LedgerLemmas OrchestratorLemmas CompletionLemmas

/-! ## 1. Sequences of calls -/

/-- A call that updates the document. -/
inductive Call where
  | dispatched (runId updatedAt : String)
  | result (runResult : RunResult) (updatedAt : String)
  deriving DecidableEq

/-- The run that a call is about. -/
def Call.runId : Call → String
  | .dispatched runId _ => runId
  | .result runResult _ => runResult.runId

/-- The status of a result is one of the wire contract. -/
def Call.IsWire : Call → Prop
  | .dispatched _ _ => True
  | .result runResult _ => IsWireStatus runResult.status

instance (call : Call) : Decidable call.IsWire :=
  match call with
  | .dispatched _ _ => inferInstanceAs (Decidable True)
  | .result runResult _ => inferInstanceAs (Decidable (IsWireStatus runResult.status))

/-- The document after a call. -/
def applyCall (progress : Progress) : Call → Progress
  | .dispatched runId updatedAt => recordDispatchedRun progress runId updatedAt
  | .result runResult updatedAt => recordRunResult progress runResult updatedAt

/-- The document after a sequence of calls. -/
def applyCalls (progress : Progress) (calls : List Call) : Progress :=
  calls.foldl applyCall progress

/-- The result of a call, when it is one for the given run. -/
def Call.resultFor (runId : String) : Call → Option (RunResult × String)
  | .dispatched _ _ => none
  | .result runResult updatedAt =>
    if runResult.runId = runId then some (runResult, updatedAt) else none

/-- The first result for a run in a sequence of calls. -/
def firstResult (calls : List Call) (runId : String) : Option (RunResult × String) :=
  calls.findSome? (Call.resultFor runId)

/-- What a result writes into the entry of a run. -/
structure RecordedFields where
  status : String
  completedAt : Option String
  artifactCount : Nat
  artifactNames : List String
  errorMessage : Option String
  details : Option RunDetails
  deriving DecidableEq

def Run.recordedFields (run : Run) : RecordedFields where
  status := run.status
  completedAt := run.completedAt
  artifactCount := run.artifactCount
  artifactNames := run.artifactNames
  errorMessage := run.errorMessage
  details := run.details

/-- These fields of the entry of a run, and the count of its application. -/
def readRun (progress : Progress) (runId : String) : Option (RecordedFields × Nat) :=
  (findApplicationRun progress runId).map fun m => (m.2.2.2.1.recordedFields, m.2.1.runsCompleted)

section Calls
variable (uuid5 : String → String) (payload : BatchPayload) (createdAt : String)

/-- The document after calls on the initial document. -/
def documentAfter (calls : List Call) : Progress :=
  applyCalls (buildInitialProgress uuid5 payload createdAt) calls

/-- Once a run has a result, no later call changes its entry or counts it again,
and the counts stay within their totals. -/
structure FirstResultFinal (calls : List Call) : Prop where
  fields : ∀ before later, before ++ later <+: calls → ∀ r ∈ payload.mintedIds uuid5,
    (firstResult before r).isSome →
      (readRun (documentAfter uuid5 payload createdAt (before ++ later)) r).map Prod.fst =
        (readRun (documentAfter uuid5 payload createdAt before) r).map Prod.fst
  count : ∀ before call, before ++ [call] <+: calls → call.runId ∈ payload.mintedIds uuid5 →
    (firstResult before call.runId).isSome →
      (documentAfter uuid5 payload createdAt (before ++ [call])).runsCompleted =
        (documentAfter uuid5 payload createdAt before).runsCompleted ∧
      (readRun (documentAfter uuid5 payload createdAt (before ++ [call])) call.runId).map Prod.snd =
        (readRun (documentAfter uuid5 payload createdAt before) call.runId).map Prod.snd
  bounds : ∀ before, before <+: calls →
    (documentAfter uuid5 payload createdAt before).runsCompleted ≤
      (documentAfter uuid5 payload createdAt before).runsTotal ∧
    ∀ app ∈ (documentAfter uuid5 payload createdAt before).applications,
      app.runsCompleted ≤ app.runsTotal

/-- A call may follow the calls before it: a run of the batch that has a result
is not dispatched, and gets another result only if the first was not 'Partial'. -/
def Admissible (before : List Call) (call : Call) : Prop :=
  call.runId ∈ payload.mintedIds uuid5 → ∀ p, firstResult before call.runId = some p →
    (∃ runResult updatedAt, call = .result runResult updatedAt) ∧
      PyText.lower p.1.status ≠ "partial"

/-- Every call of the sequence may follow the calls before it. -/
def AdmissibleCalls (calls : List Call) : Prop :=
  ∀ before call, before ++ [call] <+: calls → Admissible uuid5 payload before call

/-- The ledger after calls. -/
def ledgerAfterCalls (calls : List Call) : Ledger :=
  calls.foldl
    (fun L call =>
      match call with
      | .dispatched runId updatedAt => L.recordDispatched uuid5 payload runId updatedAt
      | .result runResult updatedAt => L.recordResult uuid5 payload runResult updatedAt)
    (Ledger.initial createdAt)

end Calls

namespace FirstResultLemmas

variable {uuid5 : String → String} {payload : BatchPayload} {createdAt : String}

/-! ## 2. The ledger keeps first results -/

theorem firstResult_concat (calls : List Call) (call : Call) (r : String) :
    firstResult (calls ++ [call]) r = (firstResult calls r).or (call.resultFor r) := by
  simp [firstResult, List.findSome?_append]

theorem ledgerAfterCalls_concat (calls : List Call) (call : Call) :
    ledgerAfterCalls uuid5 payload createdAt (calls ++ [call]) =
      match call with
      | .dispatched runId updatedAt =>
        (ledgerAfterCalls uuid5 payload createdAt calls).recordDispatched uuid5 payload runId updatedAt
      | .result runResult updatedAt =>
        (ledgerAfterCalls uuid5 payload createdAt calls).recordResult uuid5 payload runResult
          updatedAt := by
  simp [ledgerAfterCalls, List.foldl_append]

/-- The ledger holds the first result of every run of the batch, and no other. -/
theorem results_ledgerAfterCalls (calls : List Call) (r : String) :
    (ledgerAfterCalls uuid5 payload createdAt calls).results r =
      if r ∈ payload.mintedIds uuid5 then firstResult calls r else none := by
  induction calls using List.reverseRecOn with
  | nil => simp [ledgerAfterCalls, Ledger.initial, firstResult]
  | append_singleton calls call ih =>
    rw [ledgerAfterCalls_concat, firstResult_concat]
    cases call with
    | dispatched r' t =>
      simp only [results_recordDispatched, ih, Call.resultFor, Option.or_none]
    | result rr t =>
      simp only [Call.resultFor]
      cases ho : owner uuid5 payload rr.runId with
      | none =>
        -- a result for a run outside the batch
        have hout := owner_eq_none_iff.mp ho
        simp only [recordResult, ho, ih]
        split
        · next hr =>
          have hne : rr.runId ≠ r := by
            rintro rfl
            exact hout hr
          simp [hne]
        · rfl
      | some s =>
        have hin : rr.runId ∈ payload.mintedIds uuid5 := by
          by_contra h
          rw [owner_eq_none_iff.mpr h] at ho
          cases ho
        rw [results_recordResult _ ho]
        by_cases hr : r = rr.runId
        · subst hr
          rw [if_pos hin] at ih
          cases hfirst : firstResult calls rr.runId with
          | none => simp [FirstWrite.record_of_none (ih.trans hfirst), hin]
          | some p => simp [FirstWrite.record_of_some (ih.trans hfirst), hin]
        · rw [FirstWrite.record_of_ne _ hr, ih]
          simp [Ne.symm hr]

theorem firstResult_mem {calls : List Call} {r : String} {p : RunResult × String}
    (h : firstResult calls r = some p) : Call.result p.1 p.2 ∈ calls ∧ p.1.runId = r := by
  obtain ⟨call, hmem, hcall⟩ := List.exists_of_findSome?_eq_some h
  cases call with
  | dispatched => cases hcall
  | result rr t =>
    simp only [Call.resultFor] at hcall
    split at hcall
    · next hr =>
      cases hcall
      exact ⟨hmem, hr⟩
    · cases hcall

theorem firstResult_append_of_isSome {before later : List Call} {r : String}
    (h : (firstResult before r).isSome) :
    firstResult (before ++ later) r = firstResult before r := by
  rw [firstResult, List.findSome?_append]
  exact Option.or_of_isSome h

theorem documentAfter_concat (calls : List Call) (call : Call) :
    documentAfter uuid5 payload createdAt (calls ++ [call]) =
      applyCall (documentAfter uuid5 payload createdAt calls) call := by
  simp [documentAfter, applyCalls, List.foldl_append]

/-! ## 3. The document is the view of the ledger -/

theorem admissibleCalls_mono {calls before : List Call} (hb : before <+: calls)
    (h : AdmissibleCalls uuid5 payload calls) : AdmissibleCalls uuid5 payload before :=
  fun b c hbc => h b c (hbc.trans hb)

/-- A run without a first result has no result in the ledger. -/
theorem results_eq_none_of_admissible {calls : List Call} {r t : String}
    (h : Admissible uuid5 payload calls (.dispatched r t)) :
    (ledgerAfterCalls uuid5 payload createdAt calls).results r = none := by
  rw [results_ledgerAfterCalls]
  split
  · next hr =>
    cases hfirst : firstResult calls r with
    | none => rfl
    | some p =>
      obtain ⟨⟨rr, u, hcall⟩, -⟩ := h hr p hfirst
      cases hcall
  · rfl

/-- A first result that a later result may follow has a terminal status. -/
theorem isTerminal_of_admissible {calls : List Call} {rr : RunResult} {t : String}
    (hwire : ∀ call ∈ calls, call.IsWire)
    (h : Admissible uuid5 payload calls (.result rr t)) {p : RunResult × String}
    (hp : (ledgerAfterCalls uuid5 payload createdAt calls).results rr.runId = some p) :
    isTerminalRunStatus p.1.status = true := by
  rw [results_ledgerAfterCalls] at hp
  split at hp
  · next hr =>
    have hnot := (h hr p hp).2
    exact (hwire _ (firstResult_mem hp).1 : IsWireStatus p.1.status).isTerminal_iff.mpr hnot
  · cases hp

end FirstResultLemmas

open FirstResultLemmas

section Final
variable {uuid5 : String → String} {payload : BatchPayload}

/-- After admissible calls the document is the view of the ledger. -/
theorem applyCalls_eq_render (hu : Uuid5Spec uuid5) (hd : payload.DistinctApplications)
    (createdAt : String) {calls : List Call}
    (hwire : ∀ call ∈ calls, call.IsWire)
    (h : AdmissibleCalls uuid5 payload calls) :
    documentAfter uuid5 payload createdAt calls =
      render uuid5 payload (ledgerAfterCalls uuid5 payload createdAt calls) := by
  induction calls using List.reverseRecOn with
  | nil => exact (render_initial createdAt).symm
  | append_singleton calls call ih =>
    have hbefore := ih (fun c hm => hwire c (by simp [hm])) (admissibleCalls_mono (by simp) h)
    have hcall := h calls call List.prefix_rfl
    rw [documentAfter_concat, hbefore, ledgerAfterCalls_concat]
    cases call with
    | dispatched r t => exact render_recordDispatched hu hd (results_eq_none_of_admissible hcall) t
    | result rr t =>
      exact render_recordResult hu hd
        (fun p hp => isTerminal_of_admissible (fun c hm => hwire c (by simp [hm])) hcall hp) t

namespace FirstResultLemmas

variable {createdAt : String}

/-! ## 4. Admissible calls keep first results -/

/-- The view of a run with a result, from the result alone. -/
theorem readRun_render (hu : Uuid5Spec uuid5) (hd : payload.DistinctApplications) {L : Ledger}
    {r : String} (hr : r ∈ payload.mintedIds uuid5) {p : RunResult × String}
    (hp : L.results r = some p) :
    (readRun (render uuid5 payload L) r).map Prod.fst =
      some ((queuedRun r 0).recorded p.1 p.2).recordedFields := by
  obtain ⟨cv, hcv, i, hi, rfl⟩ := BatchPayload.mem_mintedIds.mp hr
  obtain ⟨n, -, hfind⟩ := find_render hu hd L hcv hi
  rw [readRun, hfind]
  simp only [Option.map_some, renderRun, hp]
  rfl

/-- A second result for a run that has one changes nothing in the ledger. -/
theorem recordResult_of_isSome {L : Ledger} {rr : RunResult} (h : (L.results rr.runId).isSome)
    (t : String) : L.recordResult uuid5 payload rr t = L := by
  unfold recordResult
  split
  · rfl
  · rw [if_pos h]

theorem final_of_admissible (hu : Uuid5Spec uuid5) (hd : payload.DistinctApplications)
    {calls : List Call} (hwire : ∀ call ∈ calls, call.IsWire)
    (h : AdmissibleCalls uuid5 payload calls) :
    FirstResultFinal uuid5 payload createdAt calls := by
  have hdoc : ∀ before, before <+: calls → documentAfter uuid5 payload createdAt before =
      render uuid5 payload (ledgerAfterCalls uuid5 payload createdAt before) := fun before hb =>
    applyCalls_eq_render hu hd createdAt (fun c hm => hwire c (hb.subset hm)) (admissibleCalls_mono hb h)
  refine ⟨?_, ?_, ?_⟩
  · intro before later hl r hr hfirst
    obtain ⟨p, hp⟩ := Option.isSome_iff_exists.mp hfirst
    have hp₁ : (ledgerAfterCalls uuid5 payload createdAt before).results r = some p := by
      rw [results_ledgerAfterCalls, if_pos hr, hp]
    have hp₂ : (ledgerAfterCalls uuid5 payload createdAt (before ++ later)).results r = some p := by
      rw [results_ledgerAfterCalls, if_pos hr, firstResult_append_of_isSome hfirst, hp]
    rw [hdoc _ hl, hdoc _ ((List.prefix_append _ _).trans hl), readRun_render hu hd hr hp₁,
      readRun_render hu hd hr hp₂]
  · intro before call hb hr hfirst
    obtain ⟨p, hp⟩ := Option.isSome_iff_exists.mp hfirst
    obtain ⟨⟨rr, t, rfl⟩, -⟩ := h before call hb hr p hp
    have hsame : ledgerAfterCalls uuid5 payload createdAt (before ++ [Call.result rr t]) =
        ledgerAfterCalls uuid5 payload createdAt before := by
      have hin : rr.runId ∈ payload.mintedIds uuid5 := hr
      have hsome : ((ledgerAfterCalls uuid5 payload createdAt before).results rr.runId).isSome := by
        rw [results_ledgerAfterCalls, if_pos hin]
        exact hfirst
      rw [ledgerAfterCalls_concat]
      exact recordResult_of_isSome hsome t
    rw [hdoc _ hb, hdoc _ ((List.prefix_append _ _).trans hb), hsame]
    exact ⟨rfl, rfl⟩
  · intro before hb
    rw [hdoc _ hb]
    refine ⟨?_, ?_⟩
    · refine le_trans List.countP_le_length ?_
      rw [BatchPayload.length_slots]
      exact le_rfl
    · intro app happ
      obtain ⟨cv, -, rfl⟩ := List.mem_map.mp happ
      exact runsCompleted_le _ cv

/-! ## 5. Other calls do not -/

/-- A dispatch writes the status of the run whatever it was. -/
theorem readRun_recordDispatchedRun {progress : Progress} {r t : String}
    {x : RecordedFields} (h : (readRun progress r).map Prod.fst = some x) :
    (readRun (recordDispatchedRun progress r t) r).map Prod.fst =
      some { x with status := "dispatched" } := by
  simp only [readRun, Option.map_map, Option.map_eq_some_iff, Function.comp_apply] at h
  obtain ⟨⟨i, application, j, run, ⟨⟩⟩, hfind, rfl⟩ := h
  let application' : Application :=
    { application with
      runs := application.runs.set j (run.dispatched t)
      status := "running"
      lastUpdatedAt := t }
  have hfind' : findApplicationRun (recordDispatchedRun progress r t) r =
      some (i, application', j, run.dispatched t, ()) := by
    have hruns : application'.runs = application.runs.set j (run.dispatched t) := rfl
    refine find_of_set hfind rfl hruns ?_
    simp only [recordDispatchedRun, hfind]
    rfl
  rw [readRun, hfind']
  rfl

/-- A result for a run that is not terminal counts it. -/
theorem runsCompleted_recordRunResult {progress : Progress} {rr : RunResult} {i j : Nat}
    {application : Application} {run : Run} (hne : rr.runId ≠ "")
    (hfind : findApplicationRun progress rr.runId = some (i, application, j, run, ()))
    (hpending : isTerminalRunStatus run.status = false) (t : String) :
    (recordRunResult progress rr t).runsCompleted = progress.runsCompleted + 1 := by
  simp only [recordRunResult, if_neg hne, hfind, hpending, Bool.false_eq_true, if_false]

/-- A call after admissible ones that is not admissible changes the status of its
run or counts it again. -/
theorem admissible_last (hu : Uuid5Spec uuid5) (hd : payload.DistinctApplications)
    {calls : List Call} {call : Call}
    (hwire : ∀ call ∈ calls, call.IsWire)
    (hcalls : AdmissibleCalls uuid5 payload calls)
    (h : FirstResultFinal uuid5 payload createdAt (calls ++ [call])) :
    Admissible uuid5 payload calls call := by
  intro hr p hp
  have hdoc := applyCalls_eq_render hu hd createdAt hwire hcalls
  have hres : (ledgerAfterCalls uuid5 payload createdAt calls).results call.runId = some p := by
    rw [results_ledgerAfterCalls, if_pos hr, hp]
  have hstatus : IsWireStatus p.1.status := hwire _ (firstResult_mem hp).1
  have hsome : (firstResult calls call.runId).isSome := by
    rw [hp]
    rfl
  cases call with
  | dispatched r t =>
    exfalso
    dsimp only [Call.runId] at hr hp hres hsome
    have hfields := h.fields calls [.dispatched r t] List.prefix_rfl r hr hsome
    have hread := readRun_render hu hd hr hres
    rw [documentAfter_concat, hdoc, applyCall, readRun_recordDispatchedRun hread, hread,
      Option.some.injEq] at hfields
    have heq : "dispatched" = p.1.status := congrArg RecordedFields.status hfields
    rw [← heq] at hstatus
    exact absurd hstatus (by decide)
  | result rr t =>
    refine ⟨⟨rr, t, rfl⟩, fun hpartial => ?_⟩
    dsimp only [Call.runId] at hr hp hres hsome
    have hcount := (h.count calls (.result rr t) List.prefix_rfl hr hsome).1
    obtain ⟨cv, hcv, i, hi, hid⟩ := BatchPayload.mem_mintedIds.mp hr
    obtain ⟨n, -, hfind⟩ := find_render hu hd (ledgerAfterCalls uuid5 payload createdAt calls) hcv hi
    have hpending : isTerminalRunStatus (renderRun uuid5 payload
        (ledgerAfterCalls uuid5 payload createdAt calls) cv i).status = false := by
      rw [renderRun_status_of_some (hid ▸ hres), Bool.eq_false_iff, ne_eq, hstatus.isTerminal_iff]
      exact fun hnot => hnot hpartial
    have hne : rr.runId ≠ "" := hid ▸ BatchPayload.runId_ne_empty hu cv i
    rw [hid] at hfind
    rw [documentAfter_concat, hdoc, applyCall,
      runsCompleted_recordRunResult hne hfind hpending] at hcount
    omega

/-- Calls that leave first results final are admissible. -/
theorem admissible_of_final (hu : Uuid5Spec uuid5) (hd : payload.DistinctApplications)
    {calls : List Call} (hwire : ∀ call ∈ calls, call.IsWire)
    (h : FirstResultFinal uuid5 payload createdAt calls) : AdmissibleCalls uuid5 payload calls := by
  induction calls using List.reverseRecOn with
  | nil =>
    intro before call hb
    simp at hb
  | append_singleton calls call ih =>
    have hwire' : ∀ c ∈ calls, c.IsWire := fun c hm => hwire c (by simp [hm])
    have hcalls : calls <+: calls ++ [call] := List.prefix_append _ _
    have hadm := ih hwire'
      ⟨fun before later hb => h.fields before later (hb.trans hcalls),
        fun before c hb => h.count before c (hb.trans hcalls),
        fun before hb => h.bounds before (hb.trans hcalls)⟩
    intro before c hb
    rcases List.prefix_concat_iff.mp hb with heq | hb
    · obtain ⟨hbefore, hc⟩ := List.append_inj' heq rfl
      cases hbefore
      cases hc
      exact admissible_last hu hd hwire' hadm h
    · exact hadm before c hb

end FirstResultLemmas

/-- For results with statuses of the wire contract, the first results are final
exactly when no call dispatches a run that has a result and no run whose first
result is 'Partial' gets another one. -/
theorem first_result_final_iff (hu : Uuid5Spec uuid5) (hd : payload.DistinctApplications)
    (createdAt : String) {calls : List Call}
    (hwire : ∀ call ∈ calls, call.IsWire) :
    FirstResultFinal uuid5 payload createdAt calls ↔ AdmissibleCalls uuid5 payload calls :=
  ⟨admissible_of_final hu hd hwire, final_of_admissible hu hd hwire⟩

end Final

namespace Sample

/-- A result, and then the dispatch of its run. -/
def lateDispatch : List Call :=
  [.result (result "c055d77e-9f11-5874-aa97-192185e2def4" "Succeeded") "2025-01-01T00:01:00+00:00",
   .dispatched "c055d77e-9f11-5874-aa97-192185e2def4" "2025-01-01T00:02:00+00:00"]

/-- The same 'Partial' result twice. -/
def partialTwice : List Call :=
  [.dispatched "c055d77e-9f11-5874-aa97-192185e2def4" "2025-01-01T00:00:30+00:00",
   .result (result "c055d77e-9f11-5874-aa97-192185e2def4" "Partial") "2025-01-01T00:01:00+00:00",
   .result (result "c055d77e-9f11-5874-aa97-192185e2def4" "Partial") "2025-01-01T00:02:00+00:00"]

end Sample

/-- Both kinds of call break finality in a batch of one run: the late dispatch
takes the status back, and the second 'Partial' completes two runs of one. -/
theorem first_result_not_final :
    Uuid5Spec Sample.uuid5 ∧ (Sample.payload Sample.batch1 ["app-1"] 0).DistinctApplications ∧
      (∀ call ∈ Sample.lateDispatch ++ Sample.partialTwice, call.IsWire) ∧
      ¬ FirstResultFinal Sample.uuid5 (Sample.payload Sample.batch1 ["app-1"] 0)
        "2025-01-01T00:00:00+00:00" Sample.lateDispatch ∧
      ¬ FirstResultFinal Sample.uuid5 (Sample.payload Sample.batch1 ["app-1"] 0)
        "2025-01-01T00:00:00+00:00" Sample.partialTwice := by
  refine ⟨Sample.uuid5_spec, by decide, by decide, fun h => ?_, fun h => ?_⟩
  · exact absurd (h.fields (Sample.lateDispatch.take 1) (Sample.lateDispatch.drop 1) (by decide)
      "c055d77e-9f11-5874-aa97-192185e2def4" (by decide) (by decide)) (by decide)
  · exact absurd (h.bounds Sample.partialTwice (by decide)).1 (by decide)

/-- The theorem on the late dispatch. -/
theorem first_result_final_iff_sample :
    FirstResultFinal Sample.uuid5 (Sample.payload Sample.batch1 ["app-1"] 0)
        "2025-01-01T00:00:00+00:00" Sample.lateDispatch ↔
      AdmissibleCalls Sample.uuid5 (Sample.payload Sample.batch1 ["app-1"] 0) Sample.lateDispatch :=
  first_result_final_iff Sample.uuid5_spec (by decide) _ (by decide)

end TalentMatch
