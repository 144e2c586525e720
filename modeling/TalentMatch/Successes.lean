import TalentMatch.Reports

/-!
# Which runs succeeded

`_record_run_result` summarises an application from the statuses of its runs after
`_status_key`, and `_aggregate` takes the runs whose status is `"Succeeded"`. Nothing
is assumed about the application ids of the batch here: where an id occurs twice,
the document shows the results at its first application.

Results:
1. `DocumentSound.update`: an update in place of the run that the search finds keeps
   the document sound, for the two functions that update it.
2. `waitLoop_sound`: after one result for each event task the document is sound and
   every run of a first application shows its status.
3. `successes_agree_iff`: progress and aggregation agree on the successes exactly when
   no application has runs that all look like a success without all being
   `"Succeeded"`.
-/

namespace TalentMatch

/-! ## 1. Two views of success -/

/-- The status counts as a success for `_summarize_application_status`. -/
def LooksSucceeded (status : String) : Prop := statusKey status ∈ ["succeeded", "completed"]

instance (status : String) : Decidable (LooksSucceeded status) :=
  inferInstanceAs (Decidable (_ ∈ _))

/-- The run is aggregated for the application. -/
def Aggregated {A : Type*} (document : List (CvBlock A)) (applicationId runId : String) : Prop :=
  ∃ block ∈ document, block.applicationId = applicationId ∧
    runId ∈ (succeededRuns block.runs).map RunPayload.runId

/-- The progress document and the result document agree on the successes. -/
structure SuccessesAgree {A : Type*} (progress : Progress) (document : List (CvBlock A)) : Prop where
  completed : ∀ app ∈ progress.applications, app.status = "completed" →
    ∀ run ∈ app.runs, Aggregated document app.applicationId run.runId
  unsuccessful : ∀ app ∈ progress.applications, app.status = "failed" ∨ app.status = "cancelled" →
    ∀ run ∈ app.runs, ¬ Aggregated document app.applicationId run.runId
  full : ∀ app ∈ progress.applications, app.status = "completed" →
    ∀ block ∈ document, block.applicationId = app.applicationId →
      app.runs.length ≤ (succeededRuns block.runs).length

namespace SuccessesLemmas

/-- An application is summarised as completed exactly when all its runs look like
successes. -/
theorem summarize_completed_iff {statuses : List String} :
    summarizeApplicationStatus statuses = "completed" ↔ ∀ s ∈ statuses, LooksSucceeded s := by
  have hkeys : (∀ s ∈ statuses, LooksSucceeded s) ↔
      (statuses.map statusKey).all (fun s => ["succeeded", "completed"].contains s) = true := by
    simp [LooksSucceeded]
  rw [hkeys]
  unfold summarizeApplicationStatus
  generalize statuses.map statusKey = keys
  simp only
  split
  · next hpending =>
    -- a pending run does not look like a success
    obtain ⟨s, hs, hword⟩ := List.any_eq_true.mp hpending
    have hwords : ∀ w ∈ ["queued", "dispatched", "running", ""],
        ¬ ["succeeded", "completed"].contains w = true := by decide
    have hfalse : keys.all (fun s => ["succeeded", "completed"].contains s) = false :=
      List.all_eq_false.mpr ⟨s, hs, hwords s (List.contains_iff_mem.mp hword)⟩
    rw [hfalse]
    split <;> decide
  · split
    · next hall => exact ⟨fun _ => hall, fun _ => rfl⟩
    · next hnot =>
      rw [Bool.eq_false_iff.mpr hnot]
      split
      · decide
      · split <;> decide

/-- The words of failures and cancellations. -/
def unsuccessfulKeys : List String := ["failed", "cancelled", "canceled"]

/-- The runs of an application that failed or was cancelled all did. -/
theorem unsuccessful_of_summarize {statuses : List String}
    (h : summarizeApplicationStatus statuses = "failed" ∨
      summarizeApplicationStatus statuses = "cancelled") :
    ∀ s ∈ statuses, statusKey s ∈ unsuccessfulKeys := by
  intro s hs
  by_contra hkey
  have hmem : statusKey s ∈ statuses.map statusKey := List.mem_map_of_mem hs
  -- only the branches of the other summaries allow a run with this status
  have hno : ∀ words : List String, (∀ w ∈ words, w ∈ unsuccessfulKeys) →
      (statuses.map statusKey).all (fun s => words.contains s) = false := by
    intro words hwords
    refine List.all_eq_false.mpr ⟨_, hmem, fun hcontains => ?_⟩
    exact hkey (hwords _ (List.contains_iff_mem.mp hcontains))
  simp only [summarizeApplicationStatus, hno ["failed"] (by decide),
    hno ["cancelled", "canceled"] (by decide), Bool.false_eq_true, if_false] at h
  split at h
  · split at h <;> exact absurd h (by decide)
  · split at h <;> exact absurd h (by decide)

end SuccessesLemmas

open SuccessesLemmas

/-! ## 2. Sound documents -/

section Sound
variable (uuid5 : String → String) (payload : BatchPayload) (assigned : String → String)

/-- The CV is the first one with its application id. -/
def FirstAt (n : Nat) (cv : CvRef) : Prop :=
  payload.cvs[n]? = some cv ∧
    ∀ m cv', m < n → payload.cvs[m]? = some cv' → cv'.applicationId ≠ cv.applicationId

/-- The entry of a CV: the runs are those that were minted for it, each of them is
pending or has the status assigned to it, and the status is their summary. -/
structure EntrySound (cv : CvRef) (application : Application) : Prop where
  applicationId : application.applicationId = cv.applicationId
  runIds : application.runs.map Run.runId =
    (List.range payload.runCount).map (payload.runId uuid5 cv)
  status : application.status = summarizeApplicationStatus (application.runs.map Run.status)
  runs : ∀ run ∈ application.runs,
    run.status = "queued" ∨ run.status = "dispatched" ∨ run.status = assigned run.runId

/-- A document that shows the status of each recorded run at the first application
that the run belongs to. -/
structure DocumentSound (progress : Progress) (recorded : List String) : Prop where
  entries : List.Forall₂ (EntrySound uuid5 payload assigned) payload.cvs progress.applications
  recorded : ∀ n cv application, FirstAt payload n cv →
    progress.applications[n]? = some application → ∀ run ∈ application.runs,
      run.runId ∈ recorded → run.status = assigned run.runId

/-- The state between two yields: every event task is pending or has its result. -/
structure StateSound (s : OrchState) : Prop where
  document : DocumentSound uuid5 payload assigned s.progress (s.runResults.map RunResult.runId)
  tasks : (s.runResults.map RunResult.runId ++ s.pendingEvents).Perm (payload.mintedIds uuid5)
  statuses : ∀ rr ∈ s.runResults, rr.status = assigned rr.runId

end Sound

section Preserved
variable {uuid5 : String → String} {payload : BatchPayload} {assigned : String → String}

section Entry
variable {cv : CvRef} {application : Application}

theorem EntrySound.exists_index (h : EntrySound uuid5 payload assigned cv application) {run : Run}
    (hrun : run ∈ application.runs) : ∃ i < payload.runCount, payload.runId uuid5 cv i = run.runId := by
  have hmem : run.runId ∈ application.runs.map Run.runId := List.mem_map_of_mem hrun
  rw [h.runIds] at hmem
  obtain ⟨i, hi, hid⟩ := List.mem_map.mp hmem
  exact ⟨i, List.mem_range.mp hi, hid⟩

theorem EntrySound.exists_run (h : EntrySound uuid5 payload assigned cv application) {i : Nat}
    (hi : i < payload.runCount) : ∃ run ∈ application.runs, run.runId = payload.runId uuid5 cv i := by
  have hmem : payload.runId uuid5 cv i ∈ application.runs.map Run.runId := by
    rw [h.runIds]
    exact List.mem_map_of_mem (List.mem_range.mpr hi)
  exact List.mem_map.mp hmem

theorem EntrySound.nodup (hu : Uuid5Spec uuid5)
    (h : EntrySound uuid5 payload assigned cv application) :
    (application.runs.map Run.runId).Nodup := by
  rw [h.runIds]
  exact CompletionLemmas.runIds_nodup hu cv

end Entry

section Document
variable {progress progress' : Progress} {recorded recorded' : List String}

/-- The search finds every minted run, at the first CV of its application. -/
theorem DocumentSound.find (h : DocumentSound uuid5 payload assigned progress recorded) {r : String}
    (hr : r ∈ payload.mintedIds uuid5) :
    ∃ n cv application j run, FirstAt payload n cv ∧ progress.applications[n]? = some application ∧
      application.runs[j]? = some run ∧ run.runId = r ∧
      findApplicationRun progress r = some (n, application, j, run, ()) := by
  obtain ⟨cv, hcv, i, hi, rfl⟩ := BatchPayload.mem_mintedIds.mp hr
  -- the CV has an entry with the run
  have hsome : (findApplicationRun progress (payload.runId uuid5 cv i)).isSome := by
    obtain ⟨n, hn⟩ := List.mem_iff_getElem?.mp hcv
    have hlt : n < progress.applications.length := by
      rw [← h.entries.length_eq]
      exact (List.getElem?_eq_some_iff.mp hn).1
    obtain ⟨cv', hcv', hentry⟩ := Search.forall₂_getElem? h.entries (List.getElem?_eq_getElem hlt)
    cases hn.symm.trans hcv'
    obtain ⟨run, hrun, hid⟩ := hentry.exists_run hi
    refine Search.isSome_findFirst (List.getElem_mem hlt) (Search.isSome_findFirst hrun ?_)
    rw [if_pos hid]
    rfl
  obtain ⟨⟨n, application, j, run, u⟩, hfind⟩ := Option.isSome_iff_exists.mp hsome
  obtain ⟨happ, hrun, hbefore⟩ := Search.findFirst_spec hfind
  obtain ⟨hj, -, -⟩ := Search.findFirst_spec hrun
  have hid := runId_of_find hfind
  obtain ⟨cv₁, hcv₁, hentry₁⟩ := Search.forall₂_getElem? h.entries happ
  refine ⟨n, cv₁, application, j, run, ⟨hcv₁, fun m cv₂ hm hcv₂ heq => ?_⟩, happ, hj, hid, hfind⟩
  -- an earlier CV with the same application id would have the run as well
  obtain ⟨k, hk, hk'⟩ := hentry₁.exists_index (List.mem_of_getElem? hj)
  have hlt : m < progress.applications.length :=
    hm.trans (List.getElem?_eq_some_iff.mp happ).1
  obtain ⟨cv₃, hcv₃, hentry₃⟩ := Search.forall₂_getElem? h.entries (List.getElem?_eq_getElem hlt)
  cases hcv₂.symm.trans hcv₃
  obtain ⟨run₃, hrun₃, hid₃⟩ := hentry₃.exists_run hk
  have hsame : run₃.runId = payload.runId uuid5 cv i := by
    rw [hid₃, ← hid, ← hk', BatchPayload.runId, BatchPayload.runId, heq]
  have hnone := hbefore m _ hm (List.getElem?_eq_getElem hlt)
  have hfound := Search.isSome_findFirst (f := fun run : Run =>
    if run.runId = payload.runId uuid5 cv i then some () else none) hrun₃ (by rw [if_pos hsame]; rfl)
  rw [hnone] at hfound
  cases hfound

/-- Two first CVs with a run in common are the same. -/
theorem firstAt_unique (hu : Uuid5Spec uuid5) {n m : Nat} {cv cv' : CvRef} {i j : Nat}
    (hn : FirstAt payload n cv) (hm : FirstAt payload m cv')
    (h : payload.runId uuid5 cv i = payload.runId uuid5 cv' j) : n = m := by
  have heq : cv.applicationId = cv'.applicationId := (mintRunId_inj hu h).1
  rcases Nat.lt_trichotomy n m with hlt | rfl | hlt
  · exact absurd heq (hm.2 n cv hlt hn.1)
  · rfl
  · exact absurd heq.symm (hn.2 m cv' hlt hm.1)

/-- Updating in place the run that the search finds. -/
theorem DocumentSound.update (hu : Uuid5Spec uuid5)
    (h : DocumentSound uuid5 payload assigned progress recorded) {r : String} {n j : Nat} {cv : CvRef}
    {application application' : Application} {run run' : Run} (hfirst : FirstAt payload n cv)
    (happ : progress.applications[n]? = some application) (hj : application.runs[j]? = some run)
    (hr : run.runId = r) (happs : progress'.applications = progress.applications.set n application')
    (hid : application'.applicationId = application.applicationId)
    (hruns : application'.runs = application.runs.set j run') (hrun : run'.runId = run.runId)
    (hsummary : application'.status = summarizeApplicationStatus (application'.runs.map Run.status))
    (hstatus : run'.status = "queued" ∨ run'.status = "dispatched" ∨
      run'.status = assigned run'.runId)
    (hrecorded : ∀ r' ∈ recorded', r' = r ∨ r' ∈ recorded)
    (hnew : r ∈ recorded' → run'.status = assigned r) :
    DocumentSound uuid5 payload assigned progress' recorded' := by
  obtain ⟨cv₁, hcv₁, hentry⟩ := Search.forall₂_getElem? h.entries happ
  cases hfirst.1.symm.trans hcv₁
  have hjlt : j < application.runs.length := (List.getElem?_eq_some_iff.mp hj).1
  have hentry' : EntrySound uuid5 payload assigned cv application' := by
    refine ⟨hid.trans hentry.applicationId, ?_, hsummary, fun run₁ hrun₁ => ?_⟩
    · rw [hruns, List.map_set, hrun, ← hentry.runIds]
      have hget : (application.runs.map Run.runId)[j]? = some run.runId := by
        rw [List.getElem?_map, hj]
        rfl
      obtain ⟨hlt, hval⟩ := List.getElem?_eq_some_iff.mp hget
      rw [← hval, List.set_getElem_self]
    · rw [hruns] at hrun₁
      rcases List.mem_or_eq_of_mem_set hrun₁ with hmem | rfl
      · exact hentry.runs run₁ hmem
      · exact hstatus
  refine ⟨?_, ?_⟩
  · rw [happs]
    exact Search.forall₂_set h.entries hfirst.1 hentry'
  · intro m cv₂ application₂ hfirst₂ happ₂ run₂ hrun₂ hrec
    rw [happs] at happ₂
    by_cases hm : n = m
    · subst hm
      have hlt : n < progress.applications.length := (List.getElem?_eq_some_iff.mp happ).1
      rw [List.getElem?_set_self hlt] at happ₂
      cases happ₂
      rw [hruns] at hrun₂
      obtain ⟨k, hk⟩ := List.mem_iff_getElem?.mp hrun₂
      by_cases hjk : j = k
      · subst hjk
        rw [List.getElem?_set_self hjlt] at hk
        cases hk
        rw [hrun, hr] at hrec ⊢
        exact hnew hrec
      · rw [List.getElem?_set_ne hjk] at hk
        have hmem := List.mem_of_getElem? hk
        rcases hrecorded _ hrec with heq | hold
        · -- the ids of the entry are distinct
          refine absurd ?_ hjk
          refine (List.getElem?_inj (i := j) (by simpa using hjlt) (hentry.nodup hu)).mp ?_
          rw [List.getElem?_map, List.getElem?_map, hj, hk, Option.map_some, Option.map_some, heq, hr]
        · exact h.recorded n _ _ hfirst happ run₂ hmem hold
    · rw [List.getElem?_set_ne hm] at happ₂
      rcases hrecorded _ hrec with heq | hold
      · obtain ⟨cv₃, hcv₃, hentry₃⟩ := Search.forall₂_getElem? h.entries happ₂
        cases hfirst₂.1.symm.trans hcv₃
        obtain ⟨k, -, hk⟩ := hentry.exists_index (List.mem_of_getElem? hj)
        obtain ⟨k₂, -, hk₂⟩ := hentry₃.exists_index hrun₂
        exact absurd (firstAt_unique hu hfirst hfirst₂ (by rw [hk, hk₂, hr, heq])) hm
      · exact h.recorded m cv₂ application₂ hfirst₂ happ₂ run₂ hrun₂ hold

/-- `_record_dispatched_run` before any result. -/
theorem DocumentSound.recordDispatchedRun (hu : Uuid5Spec uuid5)
    (h : DocumentSound uuid5 payload assigned progress []) {r : String}
    (hr : r ∈ payload.mintedIds uuid5) (t : String) :
    DocumentSound uuid5 payload assigned (recordDispatchedRun progress r t) [] := by
  obtain ⟨n, cv, application, j, run, hfirst, happ, hj, hid, hfind⟩ := h.find hr
  have hlt : j < application.runs.length := (List.getElem?_eq_some_iff.mp hj).1
  have hrunning : "running" = summarizeApplicationStatus
      ((application.runs.set j (run.dispatched t)).map Run.status) := by
    refine (summarize_of_dispatched ?_).symm
    exact List.mem_map.mpr ⟨run.dispatched t, List.mem_set hlt _, rfl⟩
  unfold TalentMatch.recordDispatchedRun
  rw [hfind]
  exact h.update hu hfirst happ hj hid rfl rfl rfl rfl hrunning (.inr (.inl rfl))
    (fun r' hr' => by cases hr') (fun hr' => by cases hr')

/-- `_record_run_result` with the status assigned to the run. -/
theorem DocumentSound.recordRunResult (hu : Uuid5Spec uuid5)
    (h : DocumentSound uuid5 payload assigned progress recorded) {rr : RunResult}
    (hr : rr.runId ∈ payload.mintedIds uuid5) (hrr : rr.status = assigned rr.runId) (t : String) :
    DocumentSound uuid5 payload assigned (recordRunResult progress rr t)
      (recorded ++ [rr.runId]) := by
  obtain ⟨n, cv, application, j, run, hfirst, happ, hj, hid, hfind⟩ := h.find hr
  have hne : rr.runId ≠ "" := by
    obtain ⟨cv', -, i, -, hi⟩ := BatchPayload.mem_mintedIds.mp hr
    exact hi ▸ BatchPayload.runId_ne_empty hu cv' i
  have hmem : ∀ r' ∈ recorded ++ [rr.runId], r' = rr.runId ∨ r' ∈ recorded := by
    intro r' hr'
    rcases List.mem_append.mp hr' with hold | hnew
    · exact .inr hold
    · exact .inl (List.mem_singleton.mp hnew)
  unfold TalentMatch.recordRunResult
  rw [if_neg hne, hfind]
  simp only
  split
  · next hterminal =>
    -- a terminal run has its status already, and the document stays as it is
    obtain ⟨cv₁, hcv₁, hentry⟩ := Search.forall₂_getElem? h.entries happ
    have hassigned : run.status = assigned run.runId := by
      rcases hentry.runs run (List.mem_of_getElem? hj) with heq | heq | heq
      · rw [heq, isTerminalRunStatus_queued] at hterminal
        cases hterminal
      · rw [heq, isTerminalRunStatus_dispatched] at hterminal
        cases hterminal
      · exact heq
    obtain ⟨hn, happ'⟩ := List.getElem?_eq_some_iff.mp happ
    obtain ⟨hjlt, hj'⟩ := List.getElem?_eq_some_iff.mp hj
    have happs : progress.applications = progress.applications.set n application := by
      rw [← happ', List.set_getElem_self]
    have hruns : application.runs = application.runs.set j run := by
      rw [← hj', List.set_getElem_self]
    exact h.update hu hfirst happ hj hid happs rfl hruns rfl hentry.status (.inr (.inr hassigned))
      hmem fun _ => by rw [hassigned, hid]
  · exact h.update hu hfirst happ hj hid rfl rfl rfl rfl rfl (.inr (.inr (by
      show rr.status = assigned run.runId
      rw [hid, hrr]))) hmem fun _ => hrr

/-- An event about a minted run can be built. -/
theorem DocumentSound.build (hu : Uuid5Spec uuid5)
    (h : DocumentSound uuid5 payload assigned progress recorded) {r : String}
    (hr : r ∈ payload.mintedIds uuid5) (eventType occurredAt : String) (sequence : Nat)
    (correlationId traceparent : String) (artifacts : Option (List ArtifactItem)) :
    ∃ event, buildLiveProgressEvent eventType progress occurredAt sequence correlationId traceparent
      (some r) artifacts = some event := by
  obtain ⟨n, cv, application, j, run, -, -, -, -, hfind⟩ := h.find hr
  have hne : r ≠ "" := by
    obtain ⟨cv', -, i, -, rfl⟩ := BatchPayload.mem_mintedIds.mp hr
    exact BatchPayload.runId_ne_empty hu cv' i
  obtain ⟨event, he, -, -⟩ := buildLiveProgressEvent_of_found hne hfind eventType occurredAt sequence
    correlationId traceparent artifacts
  exact ⟨event, he⟩

/-- The report of an application changes the events only. -/
theorem reportApplication_sound (hu : Uuid5Spec uuid5) {s : OrchState}
    (h : DocumentSound uuid5 payload assigned s.progress recorded) (applicationId : String)
    (a : Arrival) :
    ∃ s', reportApplication payload s applicationId a = some s' ∧ s'.progress = s.progress ∧
      s'.pendingEvents = s.pendingEvents ∧ s'.runResults = s.runResults := by
  unfold reportApplication
  cases hfound : findApplication s.progress applicationId with
  | none => exact ⟨s, rfl, rfl, rfl, rfl⟩
  | some application =>
    simp only
    split
    · obtain ⟨n, hn⟩ := List.mem_iff_getElem?.mp (List.mem_of_find?_eq_some hfound)
      obtain ⟨cv, hcv, hentry⟩ := Search.forall₂_getElem? h.entries hn
      have hbuild : ∃ event, buildApplicationTerminalLiveEvent s.progress a.occurredAt
          (s.eventSequence + 1) (orDefault a.result.correlationId payload.correlationId)
          (orDefault a.result.traceparent payload.traceparent) applicationId = some event := by
        unfold buildApplicationTerminalLiveEvent
        rw [hfound]
        cases hrun : application.runs.find? fun run => run.runId != "" with
        | none => simp [hrun, buildLiveProgressEvent, findEventRun, orDefault, orText]
        | some run =>
          simp only [hrun, Option.map_some]
          obtain ⟨i, hi, hid⟩ := hentry.exists_index (List.mem_of_find?_eq_some hrun)
          exact h.build hu (hid ▸ BatchPayload.runId_mem_mintedIds (List.mem_of_getElem? hcv) hi)
            _ _ _ _ _ _
      obtain ⟨event, he⟩ := hbuild
      rw [he]
      exact ⟨_, rfl, rfl, rfl, rfl⟩
    · exact ⟨s, rfl, rfl, rfl, rfl⟩

end Document

/-! ## 3. The run of the orchestrator -/

/-- A run id that was minted is looked up with its application and index. -/
theorem get?_runIndexMap_of_minted (hu : Uuid5Spec uuid5) {cv : CvRef} {i : Nat}
    (hcv : cv ∈ payload.cvs) (hi : i < payload.runCount) :
    Dict.get? (runIndexMap uuid5 payload) (payload.runId uuid5 cv i) = some (cv.applicationId, i) := by
  have hkey : payload.runId uuid5 cv i ∈ Dict.keys (runIndexPairs uuid5 payload) := by
    rw [OrchestratorLemmas.keys_runIndexPairs]
    exact BatchPayload.runId_mem_mintedIds hcv hi
  obtain ⟨v, hv, hmem⟩ := Dict.get?_ofPairs hkey
  obtain ⟨s, -, heq⟩ := List.mem_map.mp hmem
  obtain ⟨hid, rfl⟩ := Prod.mk.inj heq
  -- another slot with the id has the same application and index
  obtain ⟨happ, hindex⟩ := mintRunId_inj hu hid
  rw [runIndexMap, hv, happ, hindex]

/-- The dispatch loop. -/
theorem foldlM_sound (hu : Uuid5Spec uuid5) {t : String} {rs : List String}
    (hrs : ∀ r ∈ rs, r ∈ payload.mintedIds uuid5) {s : OrchState}
    (h : DocumentSound uuid5 payload assigned s.progress []) :
    ∃ s', rs.foldlM (recordDispatch payload t) s = some s' ∧
      DocumentSound uuid5 payload assigned s'.progress [] ∧
      s'.pendingEvents = s.pendingEvents ∧ s'.runResults = s.runResults := by
  induction rs generalizing s with
  | nil => exact ⟨s, rfl, h, rfl, rfl⟩
  | cons r rs ih =>
    have hr : r ∈ payload.mintedIds uuid5 := hrs r (by simp)
    have h₁ := h.recordDispatchedRun hu hr t
    obtain ⟨event, he⟩ := h₁.build hu hr "run.dispatched" t (s.eventSequence + 1)
      payload.correlationId payload.traceparent none
    have hstep : ∃ s₁, recordDispatch payload t s r = some s₁ ∧
        s₁.progress = recordDispatchedRun s.progress r t ∧ s₁.pendingEvents = s.pendingEvents ∧
        s₁.runResults = s.runResults := by
      unfold recordDispatch
      simp only [he]
      exact ⟨_, rfl, rfl, rfl, rfl⟩
    obtain ⟨s₁, hs₁, hp₁, hpend₁, hres₁⟩ := hstep
    obtain ⟨s', hs', h', hpend', hres'⟩ := ih (fun r' hr' => hrs r' (by simp [hr'])) (hp₁ ▸ h₁)
    refine ⟨s', ?_, h', hpend'.trans hpend₁, hres'.trans hres₁⟩
    rw [List.foldlM_cons, hs₁]
    exact hs'

variable (assigned) in
/-- The orchestrator reaches its first wait point. -/
theorem start_sound (hu : Uuid5Spec uuid5) (createdAt dispatchedAt : String) :
    ∃ s, start uuid5 payload createdAt dispatchedAt = some s ∧
      StateSound uuid5 payload assigned s ∧ s.pendingEvents = payload.mintedIds uuid5 ∧
      s.runResults = [] := by
  have hone := payload.one_le_runCount
  have hinitial : DocumentSound uuid5 payload assigned
      (buildInitialProgress uuid5 payload createdAt) [] := by
    refine ⟨?_, fun n cv application _ _ run _ hr => by cases hr⟩
    refine List.forall₂_map_right_iff.mpr (List.forall₂_same.mpr fun cv hcv => ?_)
    refine ⟨rfl, by simp [queuedRun, Function.comp_def], ?_, fun run hrun => ?_⟩
    · refine (summarize_of_queued (by simp; omega) ?_).symm
      intro status hstatus
      simp only [List.map_map, List.mem_map] at hstatus
      obtain ⟨i, -, rfl⟩ := hstatus
      rfl
    · obtain ⟨i, -, rfl⟩ := List.mem_map.mp hrun
      exact .inl rfl
  have hminted : ∀ r ∈ payload.mintedIds uuid5, r ∈ payload.mintedIds uuid5 := fun _ h => h
  obtain ⟨s, hs, hsound, hpend, hres⟩ := foldlM_sound hu (t := dispatchedAt) hminted
    (s := { progress := buildInitialProgress uuid5 payload createdAt
            eventSequence := 0
            emittedApplicationEvents := []
            pendingEvents := eventTasks uuid5 payload
            runResults := []
            liveEvents := [] }) hinitial
  refine ⟨s, hs, ⟨?_, ?_, ?_⟩, hpend, hres⟩
  · rw [hres]
    exact hsound
  · rw [hres, hpend]
    exact List.Perm.refl _
  · rw [hres]
    intro rr hrr
    cases hrr

/-- A turn of the wait loop, for the event of a pending task. -/
theorem consume_sound (hu : Uuid5Spec uuid5) {s : OrchState}
    (h : StateSound uuid5 payload assigned s) {a : Arrival} (ha : a.runId ∈ s.pendingEvents)
    (hstatus : a.result.status = assigned a.runId) :
    ∃ s', consume uuid5 payload s a = some s' ∧ StateSound uuid5 payload assigned s' ∧
      s'.pendingEvents = s.pendingEvents.erase a.runId ∧
      s'.runResults = s.runResults ++ [a.result] := by
  have hminted : a.runId ∈ payload.mintedIds uuid5 :=
    h.tasks.mem_iff.mp (List.mem_append_right _ ha)
  have hdoc := h.document.recordRunResult hu hminted hstatus a.occurredAt
  obtain ⟨event, he⟩ := hdoc.build hu hminted (terminalRunEventType a.result.status) a.occurredAt
    (s.eventSequence + 1) (orDefault a.result.correlationId payload.correlationId)
    (orDefault a.result.traceparent payload.traceparent) (some a.result.artifactList)
  have hannounce : ∃ s₁, announceRun payload s a = some s₁ ∧
      s₁.progress = recordRunResult s.progress a.result a.occurredAt ∧
      s₁.pendingEvents = s.pendingEvents.erase a.runId ∧
      s₁.runResults = s.runResults ++ [a.result] := by
    unfold announceRun buildRunTerminalLiveEvent
    simp only [he]
    exact ⟨_, rfl, rfl, rfl, rfl⟩
  obtain ⟨s₁, hs₁, hp₁, hpend₁, hres₁⟩ := hannounce
  obtain ⟨cv, hcv, i, hi, hid⟩ := BatchPayload.mem_mintedIds.mp hminted
  obtain ⟨s', hs', hp', hpend', hres'⟩ := reportApplication_sound hu (hp₁ ▸ hdoc) cv.applicationId a
  refine ⟨s', ?_, ⟨?_, ?_, ?_⟩, hpend'.trans hpend₁, hres'.trans hres₁⟩
  · rw [consume_eq ha, hs₁, ← hid, get?_runIndexMap_of_minted hu hcv hi]
    exact hs'
  · rw [hp', hp₁, hres', hres₁, List.map_append]
    exact hdoc
  · rw [hpend', hpend₁, hres', hres₁, List.map_append, List.append_assoc]
    refine (List.Perm.append_left _ ?_).trans h.tasks
    exact (List.perm_cons_erase ha).symm
  · rw [hres', hres₁]
    intro rr hrr
    rcases List.mem_append.mp hrr with hold | hnew
    · exact h.statuses rr hold
    · rw [List.mem_singleton.mp hnew]
      exact hstatus

/-- The wait loop over one result for each pending task. -/
theorem exec_sound (hu : Uuid5Spec uuid5) {arrivals : List Arrival} {s : OrchState}
    (h : StateSound uuid5 payload assigned s)
    (hall : (arrivals.map Arrival.runId).Perm s.pendingEvents)
    (hstatus : ∀ a ∈ arrivals, a.result.status = assigned a.runId) :
    ∃ s', Transition.exec (consume uuid5 payload) s arrivals = some s' ∧
      StateSound uuid5 payload assigned s' ∧ s'.pendingEvents = [] := by
  induction arrivals generalizing s with
  | nil => exact ⟨s, rfl, h, (List.nil_perm.mp hall)⟩
  | cons a arrivals ih =>
    obtain ⟨ha, hrest⟩ := List.cons_perm_iff_perm_erase.mp hall
    obtain ⟨s₁, hs₁, h₁, hpend₁, -⟩ := consume_sound hu h ha (hstatus a (by simp))
    obtain ⟨s', hs', h', hpend'⟩ := ih h₁ (hpend₁ ▸ hrest) fun b hb => hstatus b (by simp [hb])
    refine ⟨s', ?_, h', hpend'⟩
    rw [Transition.exec_cons, hs₁]
    exact hs'

variable (assigned) in
/-- The wait loop ends after one result for each event task. -/
theorem waitLoop_sound (hu : Uuid5Spec uuid5) (createdAt dispatchedAt : String)
    {arrivals : List Arrival} (hall : (arrivals.map Arrival.runId).Perm (payload.mintedIds uuid5))
    (hstatus : ∀ a ∈ arrivals, a.result.status = assigned a.runId) :
    ∃ s, waitLoop uuid5 payload createdAt dispatchedAt arrivals = some s ∧
      StateSound uuid5 payload assigned s ∧ s.pendingEvents = [] := by
  obtain ⟨s₀, hs₀, h₀, hpend₀, -⟩ := start_sound assigned hu createdAt dispatchedAt
  obtain ⟨s, hs, h, hpend⟩ := exec_sound hu h₀ (hpend₀ ▸ hall) hstatus
  refine ⟨s, ?_, h, hpend⟩
  rw [waitLoop, hs₀]
  exact hs

/-! ## 4. What is aggregated -/

section Aggregated
variable {A : Type*} (aggregate : List RunPayload → A) {s : OrchState}

variable (uuid5 payload assigned) in
/-- There is a block for each CV, and a run is aggregated for its application exactly
when the status assigned to it is `"Succeeded"`. -/
structure BlocksSound (document : List (CvBlock A)) : Prop where
  applicationIds : document.map CvBlock.applicationId = payload.cvs.map CvRef.applicationId
  succeeded : ∀ block ∈ document, ∀ cv ∈ payload.cvs, block.applicationId = cv.applicationId →
    ∀ i < payload.runCount,
      payload.runId uuid5 cv i ∈ (succeededRuns block.runs).map RunPayload.runId ↔
        assigned (payload.runId uuid5 cv i) = "Succeeded"

/-- The entry that `finalize_batch` gets for the result of a minted run. -/
theorem entryOf_minted {rr : RunResult} (h : rr.runId ∈ payload.mintedIds uuid5) :
    ∃ cv ∈ payload.cvs, ∃ i < payload.runCount, payload.runId uuid5 cv i = rr.runId ∧
      FinalizeLemmas.entryOf uuid5 payload rr = ⟨rr, cv.applicationId, i⟩ := by
  obtain ⟨⟨cv, i⟩, ho⟩ := Option.ne_none_iff_exists'.mp fun hnone =>
    LedgerLemmas.owner_eq_none_iff.mp hnone h
  obtain ⟨hcv, hi, hid⟩ := LedgerLemmas.of_owner_eq_some ho
  refine ⟨cv, hcv, i, hi, hid, ?_⟩
  unfold FinalizeLemmas.entryOf
  rw [ho]

theorem finalizeInput_sound (hu : Uuid5Spec uuid5) (h : StateSound uuid5 payload assigned s) :
    finalizeInput uuid5 payload s =
      some (s.runResults.map (FinalizeLemmas.entryOf uuid5 payload)) := by
  unfold finalizeInput
  refine Search.mapM_eq_some_map fun rr hrr => ?_
  have hminted : rr.runId ∈ payload.mintedIds uuid5 :=
    h.tasks.mem_iff.mp (List.mem_append_left _ (List.mem_map_of_mem hrr))
  obtain ⟨cv, hcv, i, hi, hid, heq⟩ := entryOf_minted hminted
  rw [heq, ← hid, get?_runIndexMap_of_minted hu hcv hi]
  rfl

/-- The document of a state without pending tasks. -/
theorem finalDocument_sound (hu : Uuid5Spec uuid5) (h : StateSound uuid5 payload assigned s)
    (hend : s.pendingEvents = []) :
    ∃ document, finalDocument aggregate uuid5 payload s = some document ∧
      BlocksSound uuid5 payload assigned document := by
  refine ⟨_, by rw [finalDocument, finalizeInput_sound hu h]; rfl, ⟨?_, ?_⟩⟩
  · unfold finalizeBatch
    rw [List.map_map]
    rfl
  intro block hblock cv hcv happ i hi
  obtain ⟨cv', -, rfl⟩ := List.mem_map.mp hblock
  simp only at happ ⊢
  constructor
  · intro hmem
    obtain ⟨r, hr, hid⟩ := List.mem_map.mp hmem
    obtain ⟨hin, hstatus⟩ := List.mem_filter.mp hr
    obtain ⟨e, he, rfl⟩ := List.mem_map.mp hin
    obtain ⟨rr, hrr, rfl⟩ := List.mem_map.mp (GroupSort.mem_groupSorted.mp he).1
    have hminted : rr.runId ∈ payload.mintedIds uuid5 :=
      h.tasks.mem_iff.mp (List.mem_append_left _ (List.mem_map_of_mem hrr))
    obtain ⟨cv₁, -, i₁, -, -, heq⟩ := entryOf_minted hminted
    rw [heq] at hid hstatus
    rw [← hid]
    exact (h.statuses rr hrr).symm.trans (beq_iff_eq.mp hstatus)
  · intro hsucceeded
    have hminted : payload.runId uuid5 cv i ∈ payload.mintedIds uuid5 :=
      BatchPayload.runId_mem_mintedIds hcv hi
    -- nothing is pending, so the run has a result
    have hresult : payload.runId uuid5 cv i ∈ s.runResults.map RunResult.runId := by
      have hmem := h.tasks.mem_iff.mpr hminted
      rwa [hend, List.append_nil] at hmem
    obtain ⟨rr, hrr, hid⟩ := List.mem_map.mp hresult
    obtain ⟨cv₁, -, i₁, -, hid₁, heq⟩ := entryOf_minted (hid ▸ hminted)
    obtain ⟨hsame, -⟩ := mintRunId_inj hu (hid₁.trans hid)
    have hstatus : rr.status = "Succeeded" := (h.statuses rr hrr).trans (hid ▸ hsucceeded)
    refine List.mem_map.mpr ⟨RunEntry.payload ⟨rr, cv₁.applicationId, i₁⟩ cv'.documentId, ?_, hid⟩
    refine List.mem_filter.mpr ⟨List.mem_map_of_mem (GroupSort.mem_groupSorted.mpr ⟨?_, ?_⟩), ?_⟩
    · rw [← heq]
      exact List.mem_map_of_mem hrr
    · exact hsame.trans happ.symm
    · exact beq_iff_eq.mpr hstatus

end Aggregated

/-! ## 5. When progress and aggregation agree -/

section Agreement
variable {A : Type*} {s : OrchState} {document : List (CvBlock A)}

theorem StateSound.exists_entry (h : StateSound uuid5 payload assigned s) {app : Application}
    (happ : app ∈ s.progress.applications) :
    ∃ cv ∈ payload.cvs, EntrySound uuid5 payload assigned cv app := by
  obtain ⟨n, hn⟩ := List.mem_iff_getElem?.mp happ
  obtain ⟨cv, hcv, hentry⟩ := Search.forall₂_getElem? h.document.entries hn
  exact ⟨cv, List.mem_of_getElem? hcv, hentry⟩

/-- With nothing pending, every minted run has its result. -/
theorem StateSound.recorded_of_end (h : StateSound uuid5 payload assigned s)
    (hend : s.pendingEvents = []) {r : String} (hr : r ∈ payload.mintedIds uuid5) :
    r ∈ s.runResults.map RunResult.runId := by
  have hmem := h.tasks.mem_iff.mpr hr
  rwa [hend, List.append_nil] at hmem

/-- The runs of a completed application were assigned statuses that look like
successes. -/
theorem EntrySound.looksSucceeded {cv : CvRef} {app : Application}
    (h : EntrySound uuid5 payload assigned cv app) (hc : app.status = "completed") {i : Nat}
    (hi : i < payload.runCount) : LooksSucceeded (assigned (payload.runId uuid5 cv i)) := by
  obtain ⟨run, hrun, hid⟩ := h.exists_run hi
  have hlooks : LooksSucceeded run.status :=
    summarize_completed_iff.mp (h.status ▸ hc) _ (List.mem_map_of_mem hrun)
  rcases h.runs run hrun with heq | heq | heq
  · rw [heq] at hlooks
    exact absurd hlooks (by decide)
  · rw [heq] at hlooks
    exact absurd hlooks (by decide)
  · rwa [← hid, ← heq]

/-- Agreement forces the runs of an application that all look like successes to be
`"Succeeded"`. -/
theorem succeeded_of_agree (hu : Uuid5Spec uuid5) (h : StateSound uuid5 payload assigned s)
    (hend : s.pendingEvents = []) (hblocks : BlocksSound uuid5 payload assigned document)
    (hagree : SuccessesAgree s.progress document) {cv : CvRef} (hcv : cv ∈ payload.cvs)
    (hlooks : ∀ i < payload.runCount, LooksSucceeded (assigned (payload.runId uuid5 cv i))) {i : Nat}
    (hi : i < payload.runCount) : assigned (payload.runId uuid5 cv i) = "Succeeded" := by
  have hminted : payload.runId uuid5 cv i ∈ payload.mintedIds uuid5 :=
    BatchPayload.runId_mem_mintedIds hcv hi
  -- the first application with the id shows the statuses of all its runs
  obtain ⟨n, cv₁, app, j, run, hfirst, happ, hj, hid, -⟩ := h.document.find hminted
  obtain ⟨cv₂, hcv₂, he⟩ := Search.forall₂_getElem? h.document.entries happ
  cases hfirst.1.symm.trans hcv₂
  obtain ⟨k, -, hk⟩ := he.exists_index (List.mem_of_getElem? hj)
  have hsame : cv₁.applicationId = cv.applicationId := (mintRunId_inj hu (hk.trans hid)).1
  have hshown : ∀ run ∈ app.runs, LooksSucceeded run.status := by
    intro run' hrun'
    obtain ⟨k', hlt, hid'⟩ := he.exists_index hrun'
    have hrecorded : run'.runId ∈ s.runResults.map RunResult.runId :=
      h.recorded_of_end hend
        (hid' ▸ BatchPayload.runId_mem_mintedIds (List.mem_of_getElem? hcv₂) hlt)
    have heq : payload.runId uuid5 cv₁ k' = payload.runId uuid5 cv k' := by
      rw [BatchPayload.runId, BatchPayload.runId, hsame]
    rw [h.document.recorded n cv₁ app hfirst happ run' hrun' hrecorded, ← hid', heq]
    exact hlooks k' hlt
  have hc : app.status = "completed" := by
    rw [he.status]
    refine summarize_completed_iff.mpr fun status hmem => ?_
    obtain ⟨run', hrun', rfl⟩ := List.mem_map.mp hmem
    exact hshown run' hrun'
  obtain ⟨block, hblock, hblockId, hrun⟩ := hagree.completed app (List.mem_of_getElem? happ) hc run
    (List.mem_of_getElem? hj)
  rw [hid] at hrun
  exact (hblocks.succeeded block hblock cv hcv (hblockId.trans (he.applicationId.trans hsame)) i
    hi).mp hrun

/-- Where such applications have no other status, the documents agree. -/
theorem agree_of_succeeded (hu : Uuid5Spec uuid5) (h : StateSound uuid5 payload assigned s)
    (hblocks : BlocksSound uuid5 payload assigned document)
    (hsucceeded : ∀ cv ∈ payload.cvs,
      (∀ i < payload.runCount, LooksSucceeded (assigned (payload.runId uuid5 cv i))) →
        ∀ i < payload.runCount, assigned (payload.runId uuid5 cv i) = "Succeeded") :
    SuccessesAgree s.progress document := by
  -- every run of a completed application is in every block of its application
  have hfull : ∀ app ∈ s.progress.applications, app.status = "completed" →
      ∀ block ∈ document, block.applicationId = app.applicationId → ∀ run ∈ app.runs,
        run.runId ∈ (succeededRuns block.runs).map RunPayload.runId := by
    intro app happ hc block hblock hblockId run hrun
    obtain ⟨cv, hcv, he⟩ := h.exists_entry happ
    obtain ⟨i, hi, hid⟩ := he.exists_index hrun
    rw [← hid]
    exact (hblocks.succeeded block hblock cv hcv (hblockId.trans he.applicationId) i hi).mpr
      (hsucceeded cv hcv (fun _ hi => he.looksSucceeded hc hi) i hi)
  refine ⟨?_, ?_, ?_⟩
  · intro app happ hc run hrun
    obtain ⟨cv, hcv, he⟩ := h.exists_entry happ
    have hmem : cv.applicationId ∈ document.map CvBlock.applicationId := by
      rw [hblocks.applicationIds]
      exact List.mem_map_of_mem hcv
    obtain ⟨block, hblock, hblockId⟩ := List.mem_map.mp hmem
    have hblockId' : block.applicationId = app.applicationId := hblockId.trans he.applicationId.symm
    exact ⟨block, hblock, hblockId', hfull app happ hc block hblock hblockId' run hrun⟩
  · rintro app happ hfailed run hrun ⟨block, hblock, hblockId, hmem⟩
    obtain ⟨cv, hcv, he⟩ := h.exists_entry happ
    obtain ⟨i, hi, hid⟩ := he.exists_index hrun
    rw [← hid] at hmem
    have heq := (hblocks.succeeded block hblock cv hcv (hblockId.trans he.applicationId) i hi).mp hmem
    have hkey : statusKey run.status ∈ unsuccessfulKeys :=
      unsuccessful_of_summarize (he.status ▸ hfailed) _ (List.mem_map_of_mem hrun)
    rcases he.runs run hrun with hstatus | hstatus | hstatus
    · rw [hstatus] at hkey
      exact absurd hkey (by decide)
    · rw [hstatus] at hkey
      exact absurd hkey (by decide)
    · rw [hstatus, ← hid, heq] at hkey
      exact absurd hkey (by decide)
  · intro app happ hc block hblock hblockId
    obtain ⟨cv, -, he⟩ := h.exists_entry happ
    have hsub : app.runs.map Run.runId ⊆ (succeededRuns block.runs).map RunPayload.runId := by
      intro r hr
      obtain ⟨run, hrun, rfl⟩ := List.mem_map.mp hr
      exact hfull app happ hc block hblock hblockId run hrun
    simpa using (List.subperm_of_subset (he.nodup hu) hsub).length_le

end Agreement

variable (assigned) in
/-- After one result for each event task, with any status for each run, the wait loop
ends and `finalize_batch` has its input. The progress document and the aggregation
agree on the successes exactly when an application whose runs all look like
successes has no run with another status than `"Succeeded"`. -/
theorem successes_agree_iff {A : Type*} (aggregate : List RunPayload → A) (hu : Uuid5Spec uuid5)
    (createdAt dispatchedAt finishedAt : String) {arrivals : List Arrival}
    (hall : (arrivals.map Arrival.runId).Perm (payload.mintedIds uuid5))
    (hstatus : ∀ a ∈ arrivals, a.result.status = assigned a.runId) :
    ∃ s s' document, waitLoop uuid5 payload createdAt dispatchedAt arrivals = some s ∧
      s.pendingEvents = [] ∧ finalDocument aggregate uuid5 payload s = some document ∧
      finish payload s finishedAt = some s' ∧
      (SuccessesAgree s'.progress document ↔
        ∀ cv ∈ payload.cvs,
          (∀ i < payload.runCount, LooksSucceeded (assigned (payload.runId uuid5 cv i))) →
            ∀ i < payload.runCount, assigned (payload.runId uuid5 cv i) = "Succeeded") := by
  obtain ⟨s, hs, hsound, hend⟩ := waitLoop_sound assigned hu createdAt dispatchedAt hall hstatus
  obtain ⟨document, hdoc, hblocks⟩ := finalDocument_sound aggregate hu hsound hend
  obtain ⟨s', hs', hp'⟩ := finish_eq payload s finishedAt
  refine ⟨s, s', document, hs, hend, hdoc, hs', ?_⟩
  -- the end of the batch leaves the applications alone
  have hsame : SuccessesAgree s'.progress document ↔ SuccessesAgree s.progress document := by
    rw [hp']
    exact ⟨fun h => ⟨h.completed, h.unsuccessful, h.full⟩,
      fun h => ⟨h.completed, h.unsuccessful, h.full⟩⟩
  rw [hsame]
  constructor
  · intro hagree cv hcv hlooks i hi
    exact succeeded_of_agree hu hsound hend hblocks hagree hcv hlooks hi
  · exact agree_of_succeeded hu hsound hblocks

end Preserved

namespace Sample

/-- The only run of a batch of one application succeeded, in small letters. -/
def lowerCaseArrivals : List Arrival :=
  [{ result := result "c055d77e-9f11-5874-aa97-192185e2def4" "succeeded"
     occurredAt := "2025-01-01T00:01:00+00:00" }]

end Sample

/-- The batch of one run with status 'succeeded': its application is completed, and
nothing is aggregated for it. -/
theorem lower_case_success_not_aggregated :
    Uuid5Spec Sample.uuid5 ∧
      (Sample.lowerCaseArrivals.map Arrival.runId).Perm
        ((Sample.payload Sample.batch1 ["app-1"] 0).mintedIds Sample.uuid5) ∧
      ∃ s s' document, waitLoop Sample.uuid5 (Sample.payload Sample.batch1 ["app-1"] 0)
          "2025-01-01T00:00:00+00:00" "2025-01-01T00:00:10+00:00" Sample.lowerCaseArrivals = some s ∧
        s.pendingEvents = [] ∧
        finalDocument List.length Sample.uuid5 (Sample.payload Sample.batch1 ["app-1"] 0) s =
          some document ∧
        finish (Sample.payload Sample.batch1 ["app-1"] 0) s "2025-01-01T00:02:00+00:00" = some s' ∧
        s'.progress.applications.map Application.status = ["completed"] ∧
        document.map (fun block => (succeededRuns block.runs).length) = [0] ∧
        ¬ SuccessesAgree s'.progress document := by
  refine ⟨Sample.uuid5_spec, by decide, _, _, _, rfl, rfl, rfl, rfl, by decide, by decide, ?_⟩
  intro h
  have hfull := h.full _ (List.mem_singleton_self _) (by decide) _ (List.mem_singleton_self _) rfl
  exact absurd hfull (by decide)

/-- The theorem on that batch. -/
theorem successes_agree_iff_sample :
    ∃ s s' document, waitLoop Sample.uuid5 (Sample.payload Sample.batch1 ["app-1"] 0)
        "2025-01-01T00:00:00+00:00" "2025-01-01T00:00:10+00:00" Sample.lowerCaseArrivals = some s ∧
      s.pendingEvents = [] ∧
      finalDocument List.length Sample.uuid5 (Sample.payload Sample.batch1 ["app-1"] 0) s =
        some document ∧
      finish (Sample.payload Sample.batch1 ["app-1"] 0) s "2025-01-01T00:02:00+00:00" = some s' ∧
      (SuccessesAgree s'.progress document ↔
        ∀ cv ∈ (Sample.payload Sample.batch1 ["app-1"] 0).cvs,
          (∀ i < (Sample.payload Sample.batch1 ["app-1"] 0).runCount, LooksSucceeded "succeeded") →
            ∀ i < (Sample.payload Sample.batch1 ["app-1"] 0).runCount,
              "succeeded" = "Succeeded") :=
  successes_agree_iff (fun _ => "succeeded") List.length Sample.uuid5_spec _ _ _
    (by decide) (by decide)

end TalentMatch
