import TalentMatch.Lifecycle

/-!
# Terminal answers

`get_batch_status` of `api/routes_assess.py` has two sources: the runtime status of
the instance and, when there is no instance any more, the result blob, which
`finalize_batch` writes before the instance completes.

Results:
1. `settled_step`: a submission that was answered with a terminal status keeps it as
   long as no instance that failed or was terminated is purged beside a blob that
   the API serves, and no such blob is written after the purge.
2. `terminated_before`: a call of `finalize_batch` outlives its instance only when
   that was terminated.
3. `answers_final_iff`: in a history that starts the submission once, every terminal
   answer is final exactly when no such step is in it.
-/

namespace TalentMatch

variable {φ : Type} {env : Env φ} {num : Numerics φ} {order : SetOrder}

/-! ## 1. Terminal answers -/

/-- The terminal status that a poll is answered with. -/
def terminalStatus : Except ApiError (BatchStatusResponse φ) → Option BatchStatus
  | .ok response =>
    if response.status ∈ [.completed, .failed, .cancelled] then some response.status else none
  | .error _ => none

/-- The API serves the blob of the call. -/
def FinalResult.Served (result : FinalResult env num order) : Prop :=
  env.blobAccount ≠ "" ∧ result.Scored

/-- There is a result blob, and the API serves it. -/
def Slot.ServesBlob (slot : Slot env num order) : Prop :=
  ∃ result, slot.written = some result ∧ result.Served

/-- The purge of an instance that failed or was terminated beside a blob that is
served, and the writing of such a blob without an instance. -/
def Slot.Unsafe (slot : Slot env num order) : SlotAction env num order → Prop
  | .purge =>
    (∃ i, slot.current = some i ∧ (i.runtimeStatus = .failed ∨ i.runtimeStatus = .terminated)) ∧
      slot.ServesBlob
  | .finalizedOrphan n =>
    slot.current = none ∧ ∃ result, slot.orphans[n]? = some result ∧ result.Served
  | _ => False

/-- The step starts an instance of the submission. -/
def starts (submissionId : String) (a : String × SlotAction env num order) : Bool :=
  a.1 = submissionId &&
    match a.2 with
    | .start _ _ => true
    | _ => false

/-- How often a run starts an instance of the submission. -/
def timesStarted (submissionId : String) (run : List (String × SlotAction env num order)) : Nat :=
  run.countP (starts submissionId)

/-- No step of the submission is unsafe. -/
def SafeRun (submissionId : String) (s : Store env num order)
    (run : List (String × SlotAction env num order)) : Prop :=
  Transition.Guarded storeStep
    (fun s a => a.1 = submissionId → ¬ (s submissionId).Unsafe a.2) s run

/-- Once a poll was answered with a terminal status, polls are not answered with
another one as long as the submission is not started again. -/
def AnswersFinal (submissionId : String) (run : List (String × SlotAction env num order)) : Prop :=
  ∀ before after rest s t a b, run = before ++ after ++ rest →
    Transition.exec storeStep (Store.empty : Store env num order) before = some s →
    Transition.exec storeStep s after = some t → timesStarted submissionId after = 0 →
    terminalStatus (s.poll submissionId) = some a →
    terminalStatus (t.poll submissionId) = some b → b = a

/-- What holds of a submission that was answered with the terminal status `a`. -/
structure Settled (a : BatchStatus) (slot : Slot env num order) : Prop where
  ended : ∀ i, slot.current = some i → i.isOpen = false ∧ i.runtimeStatus.batchStatus = a
  missing : slot.current = none → a = .completed ∨ ¬ slot.ServesBlob

namespace FinalityLemmas

/-- An instance that is pending or running did not end. -/
theorem not_settled_of_open {a : BatchStatus} {slot : Slot env num order}
    {i : DurableInstance φ} (h : Settled a slot) (hi : slot.current = some i)
    (hopen : i.isOpen = true) : False := by
  obtain ⟨hended, -⟩ := h.ended i hi
  rw [hopen] at hended
  cases hended

theorem isOpen_of_pending {i : DurableInstance φ} (h : i.runtimeStatus = .pending) :
    i.isOpen = true := by
  simp [DurableInstance.isOpen, h]

theorem isOpen_of_running {i : DurableInstance φ} (h : i.runtimeStatus = .running) :
    i.isOpen = true := by
  simp [DurableInstance.isOpen, h]

/-- An instance that ended and is not answered 'completed' failed or was
terminated. -/
theorem failed_or_terminated {i : DurableInstance φ} {slot : Slot env num order}
    (hinv : SlotInv slot) (hi : slot.current = some i) (hopen : i.isOpen = false)
    (hne : i.runtimeStatus.batchStatus ≠ .completed) :
    i.runtimeStatus = .failed ∨ i.runtimeStatus = .terminated := by
  have hstatus := hinv.status i hi
  simp only [List.mem_cons, List.not_mem_nil, or_false] at hstatus
  rcases hstatus with hs | hs | hs | hs | hs
  · rw [isOpen_of_pending hs] at hopen
    cases hopen
  · rw [isOpen_of_running hs] at hopen
    cases hopen
  · exact absurd (by rw [hs]; rfl) hne
  · exact .inl hs
  · exact .inr hs

/-- A step that is not unsafe and does not start an instance keeps the answer. -/
theorem settled_step {submissionId : String} {a : BatchStatus} {slot slot' : Slot env num order}
    {action : SlotAction env num order} (hinv : SlotInv slot) (h : Settled a slot)
    (hsafe : ¬ slot.Unsafe action) (hnot : starts submissionId (submissionId, action) = false)
    (hstep : slotStep submissionId slot action = some slot') : Settled a slot' := by
  cases slotSteps_of_step hstep with
  | started hnone => simp [starts] at hnot
  | begun hi hs => exact (not_settled_of_open h hi (isOpen_of_pending hs)).elim
  | reported hi hs => exact (not_settled_of_open h hi (isOpen_of_running hs)).elim
  | finalizing hi hs hstage => exact (not_settled_of_open h hi (isOpen_of_running hs)).elim
  | finalized hi hs hstage => exact (not_settled_of_open h hi (isOpen_of_running hs)).elim
  | completed hi hs hstage => exact (not_settled_of_open h hi (isOpen_of_running hs)).elim
  | failed hi hopen => exact (not_settled_of_open h hi hopen).elim
  | cancelled => exact ⟨h.ended, h.missing⟩
  | terminated hi hreason hopen => exact (not_settled_of_open h hi hopen).elim
  | @finalizedOrphan n result hresult =>
    refine ⟨h.ended, fun hnone => .inr ?_⟩
    rintro ⟨result', hwritten, hserved⟩
    cases hwritten
    exact hsafe ⟨hnone, result, hresult, hserved⟩
  | @purged i hi hopen =>
    obtain ⟨-, hstatus⟩ := h.ended i hi
    refine ⟨fun j hj => (by cases hj), fun _ => ?_⟩
    by_cases hcompleted : a = .completed
    · exact .inl hcompleted
    · refine .inr fun hserves => hsafe ⟨⟨i, hi, ?_⟩, hserves⟩
      exact failed_or_terminated hinv hi hopen (hstatus ▸ hcompleted)

variable {submissionId : String} {s t : Store env num order}
variable {run : List (String × SlotAction env num order)}

/-- The same for a run. -/
theorem settled_exec {a : BatchStatus} (hinv : SlotInv (s submissionId))
    (h : Settled a (s submissionId)) (hsafe : SafeRun submissionId s run)
    (hnot : timesStarted submissionId run = 0)
    (hrun : Transition.exec storeStep s run = some t) : Settled a (t submissionId) := by
  induction run generalizing s with
  | nil =>
    cases hrun
    exact h
  | cons action run ih =>
    rw [Transition.exec_cons] at hrun
    obtain ⟨u, hu, hrest⟩ := Option.bind_eq_some_iff.mp hrun
    rw [timesStarted, List.countP_cons] at hnot
    have hstarts : starts submissionId action = false := by
      cases hs : starts submissionId action with
      | false => rfl
      | true =>
        rw [hs] at hnot
        simp at hnot
    have hnot' : timesStarted submissionId run = 0 := by
      unfold timesStarted
      omega
    by_cases hid : action.1 = submissionId
    · obtain ⟨id, action⟩ := action
      subst hid
      have hstep := Transition.pointwise_self hu
      exact ih (slotInv_step hinv hstep) (settled_step hinv h (hsafe.1 rfl) hstarts hstep)
        (hsafe.2 u hu) hnot' hrest
    · have hsame := Transition.pointwise_of_ne hid hu
      exact ih (hsame ▸ hinv) (hsame ▸ h) (hsafe.2 u hu) hnot' hrest

/-! ## 2. Terminal answers are about settled submissions -/

theorem terminalStatus_eq_some {answer : Except ApiError (BatchStatusResponse φ)}
    {a : BatchStatus} (h : terminalStatus answer = some a) :
    ∃ response, answer = .ok response ∧ response.status = a ∧
      a ∈ [BatchStatus.completed, .failed, .cancelled] := by
  cases answer with
  | error e => cases h
  | ok response =>
    by_cases hmem : response.status ∈ [BatchStatus.completed, .failed, .cancelled]
    · rw [terminalStatus, if_pos hmem] at h
      cases h
      exact ⟨response, rfl, rfl, hmem⟩
    · rw [terminalStatus, if_neg hmem] at h
      cases h

/-- A poll that is answered with a status gives the status of the instance. -/
theorem status_of_poll {i : DurableInstance φ} {response : BatchStatusResponse φ}
    (hinv : SlotInv (s submissionId)) (hi : (s submissionId).current = some i)
    (h : s.poll submissionId = .ok response) : response.status = i.runtimeStatus.batchStatus := by
  by_cases hcompleted : i.runtimeStatus = .completed
  · obtain ⟨result, -, houtput⟩ := hinv.returned i hi hcompleted
    obtain ⟨hscored, hunscored⟩ := poll_of_completed hi hcompleted houtput
    by_cases hs : result.Scored
    · obtain ⟨response', hok, hstatus⟩ := hscored hs
      rw [h] at hok
      cases hok
      rw [hstatus, hcompleted]
      rfl
    · obtain ⟨detail, herror⟩ := hunscored hs
      rw [h] at herror
      cases herror
  · obtain ⟨response', hok, hstatus⟩ := poll_of_ne_completed_instance hi hcompleted
    rw [h] at hok
    cases hok
    exact hstatus

/-- Without an instance a poll is answered with a status exactly when there is a blob
that the API serves. -/
theorem poll_missing_iff (hnone : (s submissionId).current = none) :
    (∃ response, s.poll submissionId = .ok response) ↔ (s submissionId).ServesBlob := by
  have hunread : readBatchResultFromBlob env (s submissionId).blob = .ok none →
      ¬ ∃ response, s.poll submissionId = .ok response := by
    rintro hread ⟨response, hok⟩
    have hpoll : s.poll submissionId = .error (notFound submissionId) :=
      getBatchStatus_missing hnone hread
    rw [hpoll] at hok
    cases hok
  constructor
  · intro hok
    by_cases haccount : env.blobAccount = ""
    · exact absurd hok (hunread (if_pos haccount))
    · cases hwritten : (s submissionId).written with
      | none =>
        have hblob : (s submissionId).blob = none := by
          rw [Slot.blob, hwritten]
          rfl
        exact absurd hok (hunread (by rw [hblob]; exact if_neg haccount))
      | some result =>
        refine ⟨result, hwritten, haccount, ?_⟩
        by_contra hnot
        obtain ⟨detail, herror⟩ := (poll_of_written hnone hwritten haccount).2 hnot
        obtain ⟨response, hok⟩ := hok
        rw [herror] at hok
        cases hok
  · rintro ⟨result, hwritten, haccount, hscored⟩
    obtain ⟨response, hok, -⟩ := (poll_of_written hnone hwritten haccount).1 hscored
    exact ⟨response, hok⟩

/-- A submission whose poll is answered with a terminal status is settled. -/
theorem settled_of_terminalStatus {a : BatchStatus} (hinv : SlotInv (s submissionId))
    (h : terminalStatus (s.poll submissionId) = some a) : Settled a (s submissionId) := by
  obtain ⟨response, hok, hstatus, hterminal⟩ := terminalStatus_eq_some h
  refine ⟨fun i hi => ?_, fun hnone => .inl ?_⟩
  · have hbatchStatus := status_of_poll hinv hi hok
    rw [hstatus] at hbatchStatus
    refine ⟨?_, hbatchStatus.symm⟩
    by_contra hopen
    rw [hbatchStatus] at hterminal
    simp only [DurableInstance.isOpen, Bool.not_eq_false, Bool.or_eq_true, decide_eq_true_eq]
      at hopen
    rcases hopen with hs | hs
    · rw [hs] at hterminal
      exact absurd hterminal (by decide)
    · rw [hs] at hterminal
      exact absurd hterminal (by decide)
  · rw [← hstatus]
    exact status_of_poll_missing hnone hok

/-- A settled submission is not answered with another terminal status. -/
theorem terminalStatus_of_settled {a b : BatchStatus} (hinv : SlotInv (s submissionId))
    (h : Settled a (s submissionId)) (hb : terminalStatus (s.poll submissionId) = some b) :
    b = a := by
  obtain ⟨response, hok, hstatus, -⟩ := terminalStatus_eq_some hb
  cases hi : (s submissionId).current with
  | some i =>
    rw [← hstatus, status_of_poll hinv hi hok]
    exact (h.ended i hi).2
  | none =>
    rw [← hstatus, status_of_poll_missing hi hok]
    rcases h.missing hi with ha | hnot
    · exact ha.symm
    · exact absurd ((poll_missing_iff hi).mp ⟨response, hok⟩) hnot

/-! ## 3. Unsafe steps -/

/-- An instance is there before a step that does not start it. -/
theorem current_before {slot slot' : Slot env num order} {action : SlotAction env num order}
    (hstep : slotStep submissionId slot action = some slot')
    (hnot : starts submissionId (submissionId, action) = false) {i : DurableInstance φ}
    (hi : slot'.current = some i) : ∃ j, slot.current = some j := by
  cases slotSteps_of_step hstep with
  | started hnone => simp [starts] at hnot
  | begun hj hs => exact ⟨_, hj⟩
  | reported hj hs => exact ⟨_, hj⟩
  | finalizing hj hs hstage => exact ⟨_, hj⟩
  | finalized hj hs hstage => exact ⟨_, hj⟩
  | completed hj hs hstage => exact ⟨_, hj⟩
  | failed hj hopen => exact ⟨_, hj⟩
  | cancelled => exact ⟨i, hi⟩
  | terminated hj hreason hopen => exact ⟨_, hj⟩
  | finalizedOrphan hresult => exact ⟨i, hi⟩
  | purged hj hopen => exact ⟨_, hj⟩

/-- A call of `finalize_batch` outlives its instance when that is terminated. -/
theorem orphans_before {slot slot' : Slot env num order} {action : SlotAction env num order}
    (hstep : slotStep submissionId slot action = some slot') (hne : slot'.orphans ≠ []) :
    slot.orphans ≠ [] ∨ ∃ i, slot'.current = some i ∧ i.runtimeStatus = .terminated := by
  cases slotSteps_of_step hstep with
  | terminated hi hreason hopen => exact .inr ⟨_, rfl, rfl⟩
  | finalizedOrphan hresult =>
    refine .inl fun hnil => hne ?_
    simp only [hnil, List.eraseIdx_nil]
  | _ => exact .inl hne

/-- An instance was started. -/
theorem timesStarted_pos (hrun : Transition.exec storeStep Store.empty run = some s)
    {i : DurableInstance φ} (hi : (s submissionId).current = some i) :
    1 ≤ timesStarted submissionId run := by
  induction run using List.reverseRecOn generalizing s i with
  | nil =>
    cases hrun
    cases hi
  | append_singleton run action ih =>
    obtain ⟨u, hu, hlast⟩ := Transition.of_exec_snoc hrun
    rw [timesStarted, List.countP_append, List.countP_singleton]
    cases hstarts : starts submissionId action with
    | true => simp
    | false =>
      have hbefore : ∃ j, (u submissionId).current = some j := by
        by_cases hid : action.1 = submissionId
        · obtain ⟨id, action⟩ := action
          subst hid
          exact current_before (Transition.pointwise_self hlast) hstarts hi
        · rw [Transition.pointwise_of_ne hid hlast] at hi
          exact ⟨i, hi⟩
      obtain ⟨j, hj⟩ := hbefore
      exact (ih hu hj).trans (Nat.le_add_right _ _)

/-- When a call of `finalize_batch` outlived the only instance of a submission, that
instance was terminated before. -/
theorem terminated_before (hrun : Transition.exec storeStep Store.empty run = some s)
    (honce : timesStarted submissionId run ≤ 1) (hne : (s submissionId).orphans ≠ []) :
    ∃ before after u i, run = before ++ after ∧
      Transition.exec storeStep Store.empty before = some u ∧
      Transition.exec storeStep u after = some s ∧ timesStarted submissionId after = 0 ∧
      (u submissionId).current = some i ∧ i.runtimeStatus = .terminated := by
  induction run using List.reverseRecOn generalizing s with
  | nil =>
    cases hrun
    exact absurd rfl hne
  | append_singleton run action ih =>
    obtain ⟨v, hv, hlast⟩ := Transition.of_exec_snoc hrun
    have hcount : timesStarted submissionId (run ++ [action]) =
        timesStarted submissionId run + timesStarted submissionId [action] := List.countP_append
    have hbefore : (v submissionId).orphans ≠ [] ∨
        ∃ i, (s submissionId).current = some i ∧ i.runtimeStatus = .terminated := by
      by_cases hid : action.1 = submissionId
      · obtain ⟨id, action⟩ := action
        subst hid
        exact orphans_before (Transition.pointwise_self hlast) hne
      · rw [Transition.pointwise_of_ne hid hlast] at hne
        exact .inl hne
    rcases hbefore with hold | ⟨i, hi, hterminated⟩
    · obtain ⟨before, after, u, i, rfl, hu, hafter, hnot, hi, hterminated⟩ := ih hv (by omega) hold
      -- the instance was started before it was terminated, so it is not started now
      have hpos := timesStarted_pos hu hi
      have hsplit : timesStarted submissionId (before ++ after) =
          timesStarted submissionId before + timesStarted submissionId after := List.countP_append
      refine ⟨before, after ++ [action], u, i, List.append_assoc .., hu,
        Transition.exec_snoc hafter hlast, ?_, hi, hterminated⟩
      show timesStarted submissionId (after ++ [action]) = 0
      have happend : timesStarted submissionId (after ++ [action]) =
        timesStarted submissionId after + timesStarted submissionId [action] := List.countP_append
      omega
    · exact ⟨run ++ [action], [], s, i, (List.append_nil _).symm, hrun, rfl, rfl, hi, hterminated⟩

/-- The answer while the instance is terminated or failed. -/
theorem terminalStatus_of_ended {i : DurableInstance φ}
    (hi : (s submissionId).current = some i)
    (hended : i.runtimeStatus = .failed ∨ i.runtimeStatus = .terminated) :
    terminalStatus (s.poll submissionId) = some i.runtimeStatus.batchStatus := by
  have hne : i.runtimeStatus ≠ .completed := by
    intro h
    rw [h] at hended
    rcases hended with h' | h'
    · cases h'
    · cases h'
  obtain ⟨response, hok, hstatus⟩ := poll_of_ne_completed_instance hi hne
  rw [hok]
  rcases hended with h | h
  · simp [terminalStatus, hstatus, h, RuntimeStatus.batchStatus]
  · simp [terminalStatus, hstatus, h, RuntimeStatus.batchStatus]

theorem batchStatus_ne_completed {i : DurableInstance φ}
    (hended : i.runtimeStatus = .failed ∨ i.runtimeStatus = .terminated) :
    i.runtimeStatus.batchStatus ≠ .completed := by
  rcases hended with h | h
  · rw [h]
    decide
  · rw [h]
    decide

/-- The answer when the blob is served. -/
theorem terminalStatus_of_served (hnone : (s submissionId).current = none)
    (hserves : (s submissionId).ServesBlob) :
    terminalStatus (s.poll submissionId) = some .completed := by
  obtain ⟨response, hok⟩ := (poll_missing_iff hnone).mpr hserves
  rw [hok]
  simp [terminalStatus, status_of_poll_missing hnone hok]

/-- After an unsafe step there is no instance, and the blob is served. -/
theorem served_of_unsafe {slot slot' : Slot env num order} {action : SlotAction env num order}
    (hrisky : slot.Unsafe action) (hstep : slotStep submissionId slot action = some slot') :
    slot'.current = none ∧ slot'.ServesBlob := by
  cases slotSteps_of_step hstep with
  | purged hi hopen => exact ⟨rfl, hrisky.2⟩
  | @finalizedOrphan n result hresult =>
    obtain ⟨hnone, result', hresult', hserved⟩ := hrisky
    rw [hresult] at hresult'
    cases hresult'
    exact ⟨hnone, result, rfl, hserved⟩
  | _ => exact hrisky.elim

/-- A history that starts the submission once and ends with an unsafe step answered
another terminal status before. -/
theorem answered_before {action : SlotAction env num order}
    (hrun : Transition.exec storeStep Store.empty run = some s)
    (honce : timesStarted submissionId run ≤ 1) (hrisky : (s submissionId).Unsafe action) :
    ∃ before after u a, run = before ++ after ∧
      Transition.exec storeStep Store.empty before = some u ∧
      Transition.exec storeStep u after = some s ∧ timesStarted submissionId after = 0 ∧
      a ≠ .completed ∧ terminalStatus (u.poll submissionId) = some a := by
  cases action with
  | purge =>
    obtain ⟨⟨i, hi, hended⟩, -⟩ := hrisky
    exact ⟨run, [], s, _, (List.append_nil _).symm, hrun, rfl, rfl,
      batchStatus_ne_completed hended, terminalStatus_of_ended hi hended⟩
  | finalizedOrphan n =>
    obtain ⟨-, result, hresult, -⟩ := hrisky
    have hne : (s submissionId).orphans ≠ [] := by
      intro hnil
      rw [hnil] at hresult
      cases hresult
    obtain ⟨before, after, u, i, heq, hu, hafter, hnot, hi, hterminated⟩ :=
      terminated_before hrun honce hne
    exact ⟨before, after, u, _, heq, hu, hafter, hnot,
      batchStatus_ne_completed (.inr hterminated), terminalStatus_of_ended hi (.inr hterminated)⟩
  | _ => exact hrisky.elim

/-- The answer after an unsafe step differs from an earlier one. -/
theorem not_final_of_unsafe {action : SlotAction env num order}
    (hrun : Transition.exec storeStep Store.empty run = some s)
    (honce : timesStarted submissionId run ≤ 1)
    (hstep : storeStep s (submissionId, action) = some t)
    (hrisky : (s submissionId).Unsafe action) (rest : List (String × SlotAction env num order)) :
    ¬ AnswersFinal submissionId (run ++ (submissionId, action) :: rest) := by
  intro hfinal
  obtain ⟨before, after, u, a, rfl, hu, hafter, hzero, hne, ha⟩ :=
    answered_before hrun honce hrisky
  obtain ⟨hnone, hserves⟩ := served_of_unsafe hrisky (Transition.pointwise_self hstep)
  have hnot : timesStarted submissionId (after ++ [(submissionId, action)]) = 0 := by
    have happend : timesStarted submissionId (after ++ [(submissionId, action)]) =
      timesStarted submissionId after + _ := List.countP_append
    -- an unsafe step starts nothing
    cases action with
    | start input now => exact hrisky.elim
    | _ => simpa [starts, hzero] using happend
  have hcompleted := hfinal before (after ++ [(submissionId, action)]) rest u t a .completed
    (by simp) hu (Transition.exec_snoc hafter hstep) hnot ha
    (terminalStatus_of_served hnone hserves)
  exact hne hcompleted.symm

end FinalityLemmas

open FinalityLemmas

/-- In a history that starts a submission at most once, every terminal answer about it
is final exactly when no step of it is unsafe: no instance that failed or was
terminated is purged beside a result blob that the API serves, and no such blob is
written after the purge. -/
theorem answers_final_iff {run : List (String × SlotAction env num order)}
    {u : Store env num order} (hrun : Transition.exec storeStep Store.empty run = some u)
    {submissionId : String} (honce : timesStarted submissionId run ≤ 1) :
    AnswersFinal submissionId run ↔ SafeRun submissionId Store.empty run := by
  constructor
  · intro hfinal
    by_contra hrisky
    obtain ⟨before, action, rest, s, t, rfl, -, hs, hstep, hnot⟩ :=
      Transition.exists_of_not_guarded hrun hrisky
    obtain ⟨hid, hriskyStep⟩ := Classical.not_imp.mp hnot
    rw [not_not] at hriskyStep
    obtain ⟨id, action⟩ := action
    obtain rfl : submissionId = id := hid.symm
    have honce' : timesStarted submissionId before ≤ 1 := by
      have happend : timesStarted submissionId (before ++ (submissionId, action) :: rest) =
        timesStarted submissionId before + _ := List.countP_append
      omega
    exact not_final_of_unsafe hs honce' hstep hriskyStep rest hfinal
  · intro hsafe before after rest s t a b heq hs ht hnot ha hb
    subst heq
    have hinv := slotInv_exec hs submissionId
    have hafter := (Transition.Guarded.append_left hsafe).append_right hs
    have hsettled := settled_exec hinv (settled_of_terminalStatus hinv ha) hafter hnot ht
    have hinv' : SlotInv (t submissionId) := by
      have happend : Transition.exec storeStep Store.empty (before ++ after) = some t := by
        rw [Transition.exec_append, hs]
        exact ht
      exact slotInv_exec happend submissionId
    exact terminalStatus_of_settled hinv' hsettled hb

namespace Sample

/-- The batch is cancelled while its last event is projected. -/
def cancelledLate : List (SlotAction hostEnv numerics setOrder) :=
  upToLastEvent ++
    [.cancel "2025-01-01T00:10:00+00:00" (cancelRequest "client requested cancel"), .terminate]

end Sample

/-- The batch was answered 'cancelled', and is answered 'completed' when its history
has been purged. -/
theorem cancelled_batch_answered_completed :
    ∃ s t : Store Sample.hostEnv Sample.numerics Sample.setOrder,
      Transition.exec storeStep Store.empty
        (Sample.cancelledLate.map fun a => (Sample.batch1, a)) = some s ∧
      Transition.exec storeStep s [(Sample.batch1, .purge)] = some t ∧
      terminalStatus (s.poll Sample.batch1) = some .cancelled ∧
      terminalStatus (t.poll Sample.batch1) = some .completed ∧
      ¬ AnswersFinal Sample.batch1
        ((Sample.cancelledLate.map fun a => (Sample.batch1, a)) ++ [(Sample.batch1, .purge)]) := by
  obtain ⟨slot, i, hslot, hi, hterminated, hwritten⟩ : ∃ slot i,
      Transition.exec (slotStep Sample.batch1) Slot.empty Sample.cancelledLate = some slot ∧
        slot.current = some i ∧ i.runtimeStatus = .terminated ∧
        slot.written = some Sample.finalResult := ⟨_, _, rfl, rfl, rfl, rfl⟩
  obtain ⟨slot', hpurge, hnone, hwritten'⟩ : ∃ slot',
      slotStep Sample.batch1 slot .purge = some slot' ∧ slot'.current = none ∧
        slot'.written = slot.written := by
    have hclosed : i.isOpen = false := by simp [DurableInstance.isOpen, hterminated]
    simp only [slotStep, hi, hclosed]
    exact ⟨_, rfl, rfl, rfl⟩
  have hs := Transition.exec_pointwise (s := Store.empty) (i := Sample.batch1) hslot
  generalize hstore : Function.update Store.empty Sample.batch1 slot = s at hs
  have hcurrent : s Sample.batch1 = slot := by
    rw [← hstore, Function.update_self]
  have hstep : storeStep s (Sample.batch1, .purge) =
      some (Function.update s Sample.batch1 slot') := by
    show (slotStep Sample.batch1 (s Sample.batch1) .purge).map _ = _
    rw [hcurrent, hpurge]
    rfl
  have hserves : (Function.update s Sample.batch1 slot' Sample.batch1).ServesBlob := by
    rw [Function.update_self]
    exact ⟨Sample.finalResult, hwritten'.trans hwritten, by decide, Sample.finalResult_scored⟩
  have hcancelled := terminalStatus_of_ended (s := s) (hcurrent ▸ hi) (.inr hterminated)
  rw [hterminated] at hcancelled
  refine ⟨s, _, hs, ?_, hcancelled, terminalStatus_of_served ?_ hserves, ?_⟩
  · rw [Transition.exec_cons, hstep]
    rfl
  · rw [Function.update_self]
    exact hnone
  · refine not_final_of_unsafe hs (by decide) hstep ⟨⟨i, hcurrent ▸ hi, .inr hterminated⟩, ?_⟩ []
    rw [hcurrent]
    exact ⟨Sample.finalResult, hwritten, by decide, Sample.finalResult_scored⟩

/-- The theorem on the same batch before the purge. -/
theorem answers_final_iff_sample :
    AnswersFinal Sample.batch1 (Sample.cancelledLate.map fun a => (Sample.batch1, a)) ↔
      SafeRun Sample.batch1 Store.empty (Sample.cancelledLate.map fun a => (Sample.batch1, a)) := by
  obtain ⟨slot, hslot⟩ : ∃ slot, Transition.exec (slotStep Sample.batch1) Slot.empty
      Sample.cancelledLate = some slot := ⟨_, rfl⟩
  have hrun := Transition.exec_pointwise (s := Store.empty) (i := Sample.batch1) hslot
  exact answers_final_iff hrun (by decide)

end TalentMatch
