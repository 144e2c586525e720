import TalentMatch.Lib.GroupSort
import TalentMatch.Completion

/-!
# The result document

`finalize_batch` of `orchestrator/functions/fanout/__init__.py`, with the
aggregation of a list of runs as a parameter, and the input that the orchestrator
builds for it.

Results:
1. `finalizeBatch_exact`: the document has one block per CV, and its blocks
   together hold the given results, each once, sorted by run index.
2. `finalDocument_perm`, `finish_perm`: the document does not depend on the order
   in which the results were consumed, and the final progress document depends on
   it in its times only.
-/

namespace TalentMatch

open Ledger LedgerLemmas OrchestratorLemmas CompletionLemmas

/-! ## 1. Finalisation -/

/-- An entry of `run_results` in the input: a run result with `_application_id`
and `_run_index`. -/
structure RunEntry where
  result : RunResult
  applicationId : String
  runIndex : Nat
  deriving DecidableEq

/-- An entry of `runs` in a block. -/
structure RunPayload where
  runId : String
  runIndex : Nat
  documentId : String
  status : String
  durationMs : Int
  tokensPrompt : Int
  tokensCompletion : Int
  correlationId : Option String
  traceparent : Option String
  artifacts : Option (List ArtifactItem)
  errorMessage : Option String
  deriving DecidableEq

/-- An entry of `cvs` in the document. The error is the message of the block
with code `RUN_FAILED`. -/
structure CvBlock (A : Type*) where
  applicationId : String
  documentId : String
  runs : List RunPayload
  aggregated : A
  error : Option String
  deriving DecidableEq

/-- The entry of `runs` for a run result. -/
def RunEntry.payload (e : RunEntry) (documentId : String) : RunPayload where
  runId := e.result.runId
  runIndex := e.runIndex
  documentId := documentId
  status := e.result.status
  durationMs := e.result.durationMs
  tokensPrompt := e.result.tokensPrompt
  tokensCompletion := e.result.tokensCompletion
  correlationId := e.result.correlationId
  traceparent := e.result.traceparent
  artifacts := e.result.artifacts
  errorMessage := e.result.errorMessage

/-- The run result that an entry of `runs` was made from. -/
def RunPayload.entry (r : RunPayload) (applicationId : String) : RunEntry where
  result :=
    { runId := r.runId
      status := r.status
      durationMs := r.durationMs
      tokensPrompt := r.tokensPrompt
      tokensCompletion := r.tokensCompletion
      errorMessage := r.errorMessage
      correlationId := r.correlationId
      traceparent := r.traceparent
      artifacts := r.artifacts }
  applicationId := applicationId
  runIndex := r.runIndex

/-- `first_error`: the first non-empty message of a run that did not succeed. -/
def firstError (runs : List RunEntry) : Option String :=
  runs.findSome? fun e =>
    if e.result.status != "Succeeded" && e.result.errorMessage.getD "" != "" then
      e.result.errorMessage
    else none

/-- `finalize_batch`. -/
def finalizeBatch {A : Type*} (aggregate : List RunPayload → A) (cvs : List CvRef)
    (runResults : List RunEntry) : List (CvBlock A) :=
  cvs.map fun cv =>
    let runs := GroupSort.groupSorted RunEntry.applicationId RunEntry.runIndex cv.applicationId
      runResults
    let runPayloads := runs.map fun e => e.payload cv.documentId
    { applicationId := cv.applicationId
      documentId := cv.documentId
      runs := runPayloads
      aggregated := aggregate runPayloads
      error := firstError runs }

/-- The `run_results` of the input that the orchestrator builds. -/
def finalizeInput (uuid5 : String → String) (payload : BatchPayload) (s : OrchState) :
    Option (List RunEntry) :=
  s.runResults.mapM fun rr =>
    (Dict.get? (runIndexMap uuid5 payload) rr.runId).map fun entry => ⟨rr, entry.1, entry.2⟩

/-- The document of a batch whose wait loop ended in `s`. -/
def finalDocument {A : Type*} (aggregate : List RunPayload → A) (uuid5 : String → String)
    (payload : BatchPayload) (s : OrchState) : Option (List (CvBlock A)) :=
  (finalizeInput uuid5 payload s).map (finalizeBatch aggregate payload.cvs)

/-! ## 2. Nothing is lost -/

/-- The document holds the given results: one block per CV in their order, every
result once and in the block of its application, sorted by run index. -/
structure FinalizeExact {A : Type*} (aggregate : List RunPayload → A) (cvs : List CvRef)
    (runResults : List RunEntry) (document : List (CvBlock A)) : Prop where
  blocks : document.map (fun b => (b.applicationId, b.documentId)) =
    cvs.map fun cv => (cv.applicationId, cv.documentId)
  runs : (document.flatMap fun b => b.runs.map fun r => r.entry b.applicationId).Perm runResults
  sorted : ∀ b ∈ document, b.runs.Pairwise fun r r' => r.runIndex < r'.runIndex
  aggregated : ∀ b ∈ document, b.aggregated = aggregate b.runs

/-- The entries of the input are about different runs. -/
def DistinctEntries (runResults : List RunEntry) : Prop :=
  GroupSort.KeyIndexDistinct RunEntry.applicationId RunEntry.runIndex runResults

instance (runResults : List RunEntry) : Decidable (DistinctEntries runResults) :=
  inferInstanceAs (Decidable (List.Nodup _))

section Exact
variable {A : Type*} (aggregate : List RunPayload → A)

theorem finalizeBatch_exact {cvs : List CvRef} (hcvs : (cvs.map CvRef.applicationId).Nodup)
    {runResults : List RunEntry} (hd : DistinctEntries runResults)
    (happ : ∀ e ∈ runResults, e.applicationId ∈ cvs.map CvRef.applicationId) :
    FinalizeExact aggregate cvs runResults (finalizeBatch aggregate cvs runResults) where
  blocks := by simp [finalizeBatch, Function.comp_def]
  runs := by
    -- reading back the entries of a block gives the group it was made from
    have hgroup : ∀ cv : CvRef,
        ((GroupSort.groupSorted RunEntry.applicationId RunEntry.runIndex cv.applicationId
          runResults).map fun e => e.payload cv.documentId).map
            (fun r => r.entry cv.applicationId) =
          GroupSort.groupSorted RunEntry.applicationId RunEntry.runIndex cv.applicationId
            runResults := by
      intro cv
      rw [List.map_map]
      refine (List.map_congr_left fun e he => ?_).trans (List.map_id _)
      rw [Function.comp_apply, ← (GroupSort.mem_groupSorted.mp he).2]
      rfl
    have hread : ((finalizeBatch aggregate cvs runResults).flatMap fun b =>
        b.runs.map fun r => r.entry b.applicationId) =
        (cvs.map CvRef.applicationId).flatMap fun k =>
          GroupSort.groupSorted RunEntry.applicationId RunEntry.runIndex k runResults := by
      simp only [finalizeBatch, List.flatMap_map, hgroup]
    rw [hread]
    exact GroupSort.flatMap_groupSorted_perm hd hcvs happ
  sorted := by
    intro b hb
    obtain ⟨cv, -, rfl⟩ := List.mem_map.mp hb
    exact List.pairwise_map.mpr (GroupSort.pairwise_groupSorted hd)
  aggregated := by
    intro b hb
    obtain ⟨cv, -, rfl⟩ := List.mem_map.mp hb
    rfl

/-- The document does not depend on the order of the results. -/
theorem finalizeBatch_perm (cvs : List CvRef) {runResults runResults' : List RunEntry}
    (hd : DistinctEntries runResults) (hp : runResults.Perm runResults') :
    finalizeBatch aggregate cvs runResults = finalizeBatch aggregate cvs runResults' := by
  refine List.map_congr_left fun cv _ => ?_
  simp only [GroupSort.groupSorted_perm hd hp]

end Exact

/-! ## 3. The order of arrival is forgotten -/

/-- The entry with its times blanked out. -/
def Run.eraseTimes (run : Run) : Run :=
  { run with
    dispatchedAt := run.dispatchedAt.map fun _ => ""
    completedAt := run.completedAt.map fun _ => "" }

def Application.eraseTimes (application : Application) : Application :=
  { application with
    lastUpdatedAt := ""
    runs := application.runs.map Run.eraseTimes }

def Progress.eraseTimes (progress : Progress) : Progress :=
  { progress with
    lastUpdatedAt := ""
    applications := progress.applications.map Application.eraseTimes }

namespace FinalizeLemmas

variable {uuid5 : String → String} {payload : BatchPayload}

/-- The entry of the input for a run result. -/
def entryOf (uuid5 : String → String) (payload : BatchPayload) (rr : RunResult) : RunEntry :=
  match owner uuid5 payload rr.runId with
  | none => ⟨rr, "", 0⟩
  | some s => ⟨rr, s.1.applicationId, s.2⟩

theorem entryOf_spec (hu : Uuid5Spec uuid5) (hd : payload.DistinctApplications) {rr : RunResult}
    (h : rr.runId ∈ payload.mintedIds uuid5) :
    (entryOf uuid5 payload rr).applicationId ∈ payload.cvs.map CvRef.applicationId ∧
      mintRunId uuid5 payload.batchId (entryOf uuid5 payload rr).applicationId
        (entryOf uuid5 payload rr).runIndex = rr.runId ∧
      Dict.get? (runIndexMap uuid5 payload) rr.runId =
        some ((entryOf uuid5 payload rr).applicationId, (entryOf uuid5 payload rr).runIndex) := by
  obtain ⟨cv, hcv, i, hi, hid⟩ := BatchPayload.mem_mintedIds.mp h
  have ho : owner uuid5 payload rr.runId = some (cv, i) := hid ▸ owner_eq_some hu hd hcv hi
  simp only [entryOf, ho]
  exact ⟨List.mem_map_of_mem hcv, hid, get?_runIndexMap hu hd hcv hi hid⟩

theorem finalizeInput_eq (hu : Uuid5Spec uuid5) (hd : payload.DistinctApplications)
    {arrivals : List Arrival} (h : OnePerRun uuid5 payload arrivals) {s : OrchState}
    (hs : s.runResults = arrivals.map Arrival.result) :
    finalizeInput uuid5 payload s =
      some ((arrivals.map Arrival.result).map (entryOf uuid5 payload)) := by
  rw [finalizeInput, hs]
  refine Search.mapM_eq_some_map fun rr hrr => ?_
  obtain ⟨a, ha, rfl⟩ := List.mem_map.mp hrr
  rw [(entryOf_spec hu hd (h.minted a ha)).2.2, Option.map_some, entryOf]
  split <;> rfl

theorem distinctEntries (hu : Uuid5Spec uuid5) (hd : payload.DistinctApplications)
    {arrivals : List Arrival} (h : OnePerRun uuid5 payload arrivals) :
    DistinctEntries ((arrivals.map Arrival.result).map (entryOf uuid5 payload)) := by
  refine List.Nodup.of_map (fun p => mintRunId uuid5 payload.batchId p.1 p.2) ?_
  have hids : (((arrivals.map Arrival.result).map (entryOf uuid5 payload)).map fun e =>
      (e.applicationId, e.runIndex)).map (fun p => mintRunId uuid5 payload.batchId p.1 p.2) =
      arrivals.map Arrival.runId := by
    simp only [List.map_map]
    refine List.map_congr_left fun a ha => ?_
    exact (entryOf_spec hu hd (h.minted a ha)).2.1
  rw [hids]
  exact h.nodup

/-- The ledgers differ in times only, and every run is dispatched in both. -/
structure SameUpToTimes (uuid5 : String → String) (payload : BatchPayload) (L L' : Ledger) : Prop where
  dispatched : ∀ r ∈ payload.mintedIds uuid5, (L.dispatchedAt r).isSome
  dispatched' : ∀ r ∈ payload.mintedIds uuid5, (L'.dispatchedAt r).isSome
  results : ∀ r, (L.results r).map Prod.fst = (L'.results r).map Prod.fst

theorem eraseTimes_renderRun {L L' : Ledger} (h : SameUpToTimes uuid5 payload L L') {cv : CvRef}
    {i : Nat} (hcv : cv ∈ payload.cvs) (hi : i < payload.runCount) :
    (renderRun uuid5 payload L cv i).eraseTimes = (renderRun uuid5 payload L' cv i).eraseTimes := by
  have hminted : payload.runId uuid5 cv i ∈ payload.mintedIds uuid5 :=
    BatchPayload.runId_mem_mintedIds hcv hi
  obtain ⟨t, ht⟩ := Option.isSome_iff_exists.mp (h.dispatched _ hminted)
  obtain ⟨t', ht'⟩ := Option.isSome_iff_exists.mp (h.dispatched' _ hminted)
  have hres := h.results (payload.runId uuid5 cv i)
  simp only [renderRun, ht, ht']
  cases hr : L.results (payload.runId uuid5 cv i) with
  | none =>
    rw [hr, Option.map_none, eq_comm, Option.map_eq_none_iff] at hres
    rw [hres]
    rfl
  | some p =>
    rw [hr, Option.map_some, eq_comm, Option.map_eq_some_iff] at hres
    obtain ⟨p', hr', heq⟩ := hres
    rw [hr']
    simp only [← heq]
    rfl

theorem recorded_congr {L L' : Ledger} (h : SameUpToTimes uuid5 payload L L') :
    L.recorded uuid5 payload = L'.recorded uuid5 payload := by
  funext s
  have hres := congrArg Option.isSome (h.results (payload.runId uuid5 s.1 s.2))
  simpa only [recorded, Option.isSome_map] using hres

theorem eraseTimes_renderApplication {L L' : Ledger} (h : SameUpToTimes uuid5 payload L L')
    {cv : CvRef} (hcv : cv ∈ payload.cvs) :
    (renderApplication uuid5 payload L cv).eraseTimes =
      (renderApplication uuid5 payload L' cv).eraseTimes := by
  have hruns : (renderRuns uuid5 payload L cv).map Run.eraseTimes =
      (renderRuns uuid5 payload L' cv).map Run.eraseTimes := by
    simp only [renderRuns, List.map_map]
    exact List.map_congr_left fun i hi => eraseTimes_renderRun h hcv (List.mem_range.mp hi)
  have hstatus : (renderRuns uuid5 payload L cv).map Run.status =
      (renderRuns uuid5 payload L' cv).map Run.status := by
    have hs := congrArg (List.map Run.status) hruns
    simpa only [List.map_map, Function.comp_def, Run.eraseTimes] using hs
  simp only [Application.eraseTimes, renderApplication, hstatus, recorded_congr h, hruns]

theorem isApplicationTerminal_eraseTimes (application : Application) :
    isApplicationTerminal application.eraseTimes = isApplicationTerminal application := by
  simp only [isApplicationTerminal, Application.eraseTimes, List.all_map, Function.comp_def,
    Run.eraseTimes]

theorem isCancelledBatch_eraseTimes (progress : Progress) :
    isCancelledBatch progress.eraseTimes = isCancelledBatch progress := by
  simp only [isCancelledBatch, Progress.eraseTimes, List.isEmpty_map, List.all_map,
    Function.comp_def, Application.eraseTimes]

theorem cvsCompleted_render (L : Ledger) :
    (render uuid5 payload L).cvsCompleted =
      ((render uuid5 payload L).applications.map Application.eraseTimes).countP
        isApplicationTerminal := by
  simp only [render, List.countP_map, Function.comp_def, isApplicationTerminal_eraseTimes]

theorem runsDispatched_eq {L : Ledger} (h : ∀ r ∈ payload.mintedIds uuid5, (L.dispatchedAt r).isSome) :
    (render uuid5 payload L).runsDispatched = payload.slots.length := by
  refine List.countP_eq_length.mpr fun p hp => ?_
  obtain ⟨hcv, hi⟩ := BatchPayload.mem_slots.mp hp
  exact h _ (BatchPayload.runId_mem_mintedIds hcv hi)

/-- Up to times, the final document depends on the dispatches and the results. -/
theorem eraseTimes_finalProgress {L L' : Ledger} (h : SameUpToTimes uuid5 payload L L')
    (t t' : String) :
    (finalProgress (render uuid5 payload L) t).eraseTimes =
      (finalProgress (render uuid5 payload L') t').eraseTimes := by
  have happs : (render uuid5 payload L).applications.map Application.eraseTimes =
      (render uuid5 payload L').applications.map Application.eraseTimes := by
    simp only [render, List.map_map]
    exact List.map_congr_left fun cv hcv => eraseTimes_renderApplication h hcv
  have hcancelled : isCancelledBatch (render uuid5 payload L) =
      isCancelledBatch (render uuid5 payload L') := by
    rw [← isCancelledBatch_eraseTimes, ← isCancelledBatch_eraseTimes (render uuid5 payload L')]
    simp only [isCancelledBatch, Progress.eraseTimes, happs]
  have hcvs : (render uuid5 payload L).cvsCompleted = (render uuid5 payload L').cvsCompleted := by
    rw [cvsCompleted_render, cvsCompleted_render, happs]
  have hruns : (render uuid5 payload L).runsCompleted = (render uuid5 payload L').runsCompleted := by
    simp only [render, recorded_congr h]
  have hdisp : (render uuid5 payload L).runsDispatched =
      (render uuid5 payload L').runsDispatched := by
    rw [runsDispatched_eq h.dispatched, runsDispatched_eq h.dispatched']
  simp only [Progress.eraseTimes, finalProgress, happs, hcancelled, hcvs, hruns, hdisp]
  rfl

/-- Arrivals of the same results in another order and at other times. -/
theorem onePerRun_perm {arrivals arrivals' : List Arrival}
    (hp : (arrivals.map Arrival.result).Perm (arrivals'.map Arrival.result))
    (h : OnePerRun uuid5 payload arrivals) : OnePerRun uuid5 payload arrivals' := by
  have hids : (arrivals.map Arrival.runId).Perm (arrivals'.map Arrival.runId) := by
    have hmap := hp.map RunResult.runId
    rw [List.map_map, List.map_map] at hmap
    exact hmap
  refine ⟨hids.nodup_iff.mp h.nodup, fun a ha => ?_⟩
  obtain ⟨b, hb, heq⟩ := List.mem_map.mp (hids.mem_iff.mpr (List.mem_map_of_mem ha))
  exact heq ▸ h.minted b hb

theorem results_fst_iff {arrivals : List Arrival} (h : OnePerRun uuid5 payload arrivals)
    {createdAt dispatchedAt r : String} {rr : RunResult} :
    ((ledgerAfter uuid5 payload createdAt dispatchedAt arrivals).results r).map Prod.fst = some rr ↔
      rr ∈ arrivals.map Arrival.result ∧ rr.runId = r := by
  simp only [Option.map_eq_some_iff, results_ledgerAfter_iff h, List.mem_map]
  constructor
  · rintro ⟨_, ⟨a, ha, hr, rfl⟩, rfl⟩
    exact ⟨⟨a, ha, rfl⟩, hr⟩
  · rintro ⟨⟨a, ha, rfl⟩, hr⟩
    exact ⟨_, ⟨a, ha, hr, rfl⟩, rfl⟩

theorem sameUpToTimes {arrivals arrivals' : List Arrival}
    (hp : (arrivals.map Arrival.result).Perm (arrivals'.map Arrival.result))
    (h : OnePerRun uuid5 payload arrivals) {createdAt dispatchedAt createdAt' dispatchedAt' : String}
    {s s' : OrchState}
    (hw : AtWaitPoint uuid5 payload s (ledgerAfter uuid5 payload createdAt dispatchedAt arrivals))
    (hw' : AtWaitPoint uuid5 payload s'
      (ledgerAfter uuid5 payload createdAt' dispatchedAt' arrivals')) :
    SameUpToTimes uuid5 payload (ledgerAfter uuid5 payload createdAt dispatchedAt arrivals)
      (ledgerAfter uuid5 payload createdAt' dispatchedAt' arrivals') where
  dispatched := hw.dispatched
  dispatched' := hw'.dispatched
  results := fun r => Option.ext fun rr => by
    rw [results_fst_iff h, results_fst_iff (onePerRun_perm hp h), hp.mem_iff]

end FinalizeLemmas

open FinalizeLemmas

/-- What a batch leaves behind when its wait loop consumes `arrivals`: the input
of `finalize_batch`, its document and the final progress document. -/
def Outcome {A : Type*} (aggregate : List RunPayload → A) (uuid5 : String → String)
    (payload : BatchPayload) (createdAt dispatchedAt finishedAt : String) (arrivals : List Arrival)
    (entries : List RunEntry) (document : List (CvBlock A)) (progress : Progress) : Prop :=
  ∃ s s', waitLoop uuid5 payload createdAt dispatchedAt arrivals = some s ∧
    finalizeInput uuid5 payload s = some entries ∧
    finalDocument aggregate uuid5 payload s = some document ∧
    finish payload s finishedAt = some s' ∧ s'.progress = progress

section Confluence
variable {A : Type*} (aggregate : List RunPayload → A)

/-- The results that the orchestrator passes on are about different runs of its
CVs, and the document has them all. -/
theorem outcome_of_onePerRun {uuid5 : String → String} {payload : BatchPayload}
    (hu : Uuid5Spec uuid5) (hd : payload.DistinctApplications) {arrivals : List Arrival}
    (h : OnePerRun uuid5 payload arrivals) (createdAt dispatchedAt finishedAt : String) :
    Outcome aggregate uuid5 payload createdAt dispatchedAt finishedAt arrivals
      ((arrivals.map Arrival.result).map (entryOf uuid5 payload))
      (finalizeBatch aggregate payload.cvs
        ((arrivals.map Arrival.result).map (entryOf uuid5 payload)))
      (finalProgress (render uuid5 payload (ledgerAfter uuid5 payload createdAt dispatchedAt arrivals))
        finishedAt) := by
  obtain ⟨s, hs, hr, hw⟩ := waitLoop_spec hu hd createdAt dispatchedAt h
  obtain ⟨s', hs', hp⟩ := finish_eq payload s finishedAt
  have hinput := finalizeInput_eq hu hd h hr
  refine ⟨s, s', hs, hinput, ?_, hs', ?_⟩
  · rw [finalDocument, hinput]
    rfl
  · rw [hp, hw.progress_eq]

/-- Finalisation loses nothing, and the order in which the wait loop consumes the
results changes neither the document nor, up to its times, the final progress. -/
theorem finalize_exact_and_confluent :
    (∀ (cvs : List CvRef) (runResults : List RunEntry), (cvs.map CvRef.applicationId).Nodup →
      DistinctEntries runResults →
      (∀ e ∈ runResults, e.applicationId ∈ cvs.map CvRef.applicationId) →
        FinalizeExact aggregate cvs runResults (finalizeBatch aggregate cvs runResults)) ∧
    ∀ (uuid5 : String → String) (payload : BatchPayload), Uuid5Spec uuid5 →
      payload.DistinctApplications → ∀ arrivals arrivals' : List Arrival,
      OnePerRun uuid5 payload arrivals →
      (arrivals.map Arrival.result).Perm (arrivals'.map Arrival.result) →
      ∀ createdAt dispatchedAt finishedAt createdAt' dispatchedAt' finishedAt' : String,
        ∃ entries entries' document progress progress',
          Outcome aggregate uuid5 payload createdAt dispatchedAt finishedAt arrivals entries document
            progress ∧
          Outcome aggregate uuid5 payload createdAt' dispatchedAt' finishedAt' arrivals' entries'
            document progress' ∧
          FinalizeExact aggregate payload.cvs entries document ∧
          progress.eraseTimes = progress'.eraseTimes := by
  refine ⟨fun cvs runResults hcvs hd happ => finalizeBatch_exact aggregate hcvs hd happ, ?_⟩
  intro uuid5 payload hu hd arrivals arrivals' h hp createdAt dispatchedAt finishedAt createdAt'
    dispatchedAt' finishedAt'
  have h' := onePerRun_perm hp h
  have hdistinct := distinctEntries hu hd h
  have hout := outcome_of_onePerRun aggregate hu hd h createdAt dispatchedAt finishedAt
  have hout' := outcome_of_onePerRun aggregate hu hd h' createdAt' dispatchedAt' finishedAt'
  rw [← finalizeBatch_perm aggregate payload.cvs hdistinct (hp.map _)] at hout'
  refine ⟨_, _, _, _, _, hout, hout', finalizeBatch_exact aggregate hd hdistinct ?_, ?_⟩
  · intro e he
    obtain ⟨rr, hrr, rfl⟩ := List.mem_map.mp he
    obtain ⟨a, ha, rfl⟩ := List.mem_map.mp hrr
    exact (entryOf_spec hu hd (h.minted a ha)).1
  · obtain ⟨s, -, -, hw⟩ := waitLoop_spec hu hd createdAt dispatchedAt h
    obtain ⟨s', -, -, hw'⟩ := waitLoop_spec hu hd createdAt' dispatchedAt' h'
    exact eraseTimes_finalProgress (sameUpToTimes hp h hw hw') _ _

end Confluence

namespace Sample

/-- Results of two applications, not in the order of their runs. -/
def entries : List RunEntry :=
  [⟨result "1dc9f636-dfec-5a39-b57c-0f932e44553d" "Succeeded", "app-1", 1⟩,
   ⟨result "0c6c49f9-bfe7-5329-ba7e-8e851db2833e" "Failed", "app-2", 0⟩,
   ⟨result "c055d77e-9f11-5874-aa97-192185e2def4" "Succeeded", "app-1", 0⟩]

end Sample

/-- Both parts on a batch of two applications, the second one for an order of
arrival and its reverse. -/
theorem finalize_exact_and_confluent_sample :
    FinalizeExact List.length [Sample.cv "app-1", Sample.cv "app-2"] Sample.entries
        (finalizeBatch List.length [Sample.cv "app-1", Sample.cv "app-2"] Sample.entries) ∧
      ∃ entries entries' document progress progress',
        Outcome List.length Sample.uuid5 (Sample.payload Sample.batch1 ["app-1", "app-2"] 1) "t0" "t1"
          "t2" Sample.mixedArrivals entries document progress ∧
        Outcome List.length Sample.uuid5 (Sample.payload Sample.batch1 ["app-1", "app-2"] 1) "u0" "u1"
          "u2" Sample.mixedArrivals.reverse entries' document progress' ∧
        FinalizeExact List.length (Sample.payload Sample.batch1 ["app-1", "app-2"] 1).cvs entries
          document ∧
        progress.eraseTimes = progress'.eraseTimes :=
  ⟨(finalize_exact_and_confluent List.length).1 _ _ (by decide) (by decide) (by decide),
    (finalize_exact_and_confluent List.length).2 _ _ Sample.uuid5_spec (by decide) _ _ (by decide)
      (by decide) _ _ _ _ _ _⟩

end TalentMatch
