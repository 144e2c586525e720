import TalentMatch.Lifecycle

/-!
# Cancelling and polling

`cancel_batch` and `get_batch_status` of `api/routes_assess.py` look at the same
submission through different functions of the host and the client.

Results:
1. `cancel_and_poll_agree_iff`: after every history of a store, the two answers agree
   exactly when there is an instance that is pending, running or terminated, or one
   that completed with a scored batch.
-/

namespace TalentMatch

variable {φ : Type} {env : Env φ} {num : Numerics φ} {order : SetOrder}

/-- The answer to a cancellation is consistent with the answer to a poll. -/
structure CancelPollAgree (cancel : Except ApiError CancelAnswer)
    (poll : Except ApiError (BatchStatusResponse φ)) : Prop where
  cancelling : cancel = .ok (202, .cancelling) →
    ∃ response, poll = .ok response ∧ (response.status = .queued ∨ response.status = .running)
  cancelled : cancel = .ok (200, .cancelled) →
    ∃ response, poll = .ok response ∧ response.status = .cancelled
  completed : cancel = .ok (409, .completed) →
    ∃ response, poll = .ok response ∧ response.status = .completed
  missing : (∃ title detail, poll = .error (.problemDetail 404 title detail)) →
    cancel ≠ .ok (202, .cancelling)

/-- The instance of the submission is pending, running or terminated, or it completed
and its batch is scored. -/
def Slot.Answerable (slot : Slot env num order) : Prop :=
  ∃ i, slot.current = some i ∧
    (i.runtimeStatus = .pending ∨ i.runtimeStatus = .running ∨ i.runtimeStatus = .terminated ∨
      i.runtimeStatus = .completed ∧ ∃ result, slot.stage = .returned result ∧ result.Scored)

namespace CancellationLemmas

variable {cancel : Except ApiError CancelAnswer} {poll : Except ApiError (BatchStatusResponse φ)}

theorem ne_of_answer {a b : CancelAnswer} (h : cancel = .ok a) (hne : a ≠ b) : cancel ≠ .ok b := by
  rw [h]
  intro heq
  cases heq
  exact hne rfl

/-- When a cancellation is said to be under way, the poll has to show a batch that
can be cancelled. -/
theorem agree_iff_of_cancelling (h : cancel = .ok (202, .cancelling)) :
    CancelPollAgree cancel poll ↔ ∃ response, poll = .ok response ∧
      (response.status = .queued ∨ response.status = .running) := by
  refine ⟨fun hagree => hagree.cancelling h, fun hpoll => ⟨fun _ => hpoll, ?_, ?_, ?_⟩⟩
  · exact fun h' => absurd h' (ne_of_answer h (by decide))
  · exact fun h' => absurd h' (ne_of_answer h (by decide))
  · rintro ⟨title, detail, herror⟩
    obtain ⟨response, hok, -⟩ := hpoll
    rw [herror] at hok
    cases hok

theorem agree_iff_of_cancelled (h : cancel = .ok (200, .cancelled)) :
    CancelPollAgree cancel poll ↔
      ∃ response, poll = .ok response ∧ response.status = .cancelled := by
  refine ⟨fun hagree => hagree.cancelled h, fun hpoll => ⟨?_, fun _ => hpoll, ?_, ?_⟩⟩
  · exact fun h' => absurd h' (ne_of_answer h (by decide))
  · exact fun h' => absurd h' (ne_of_answer h (by decide))
  · exact fun _ => ne_of_answer h (by decide)

theorem agree_iff_of_completed (h : cancel = .ok (409, .completed)) :
    CancelPollAgree cancel poll ↔
      ∃ response, poll = .ok response ∧ response.status = .completed := by
  refine ⟨fun hagree => hagree.completed h, fun hpoll => ⟨?_, ?_, fun _ => hpoll, ?_⟩⟩
  · exact fun h' => absurd h' (ne_of_answer h (by decide))
  · exact fun h' => absurd h' (ne_of_answer h (by decide))
  · exact fun _ => ne_of_answer h (by decide)

variable {s : Store env num order} {submissionId : String}

/-- Without an instance the answers do not agree, whatever the blob is. -/
theorem not_agree_of_missing (occurredAt : String) (hnone : (s submissionId).current = none) :
    ¬ CancelPollAgree (cancelBatch env s.instances occurredAt submissionId)
      (s.poll submissionId) := by
  have hcancel : cancelBatch env s.instances occurredAt submissionId = .ok (202, .cancelling) :=
    cancelBatch_missing env occurredAt hnone
  rw [agree_iff_of_cancelling hcancel]
  rintro ⟨response, hok, hstatus⟩
  rw [status_of_poll_missing hnone hok] at hstatus
  rcases hstatus with h | h
  · cases h
  · cases h

/-- A failed instance is cancelled once more. -/
theorem not_agree_of_failed {i : DurableInstance φ} (occurredAt : String)
    (hi : (s submissionId).current = some i) (hfailed : i.runtimeStatus = .failed) :
    ¬ CancelPollAgree (cancelBatch env s.instances occurredAt submissionId)
      (s.poll submissionId) := by
  have hcancel : cancelBatch env s.instances occurredAt submissionId = .ok (202, .cancelling) := by
    rw [cancelBatch_instance env occurredAt hi, hfailed]
  obtain ⟨response, hok, hstatus⟩ := poll_of_ne_completed_instance hi (by rw [hfailed]; decide)
  rw [agree_iff_of_cancelling hcancel]
  rintro ⟨response', hok', hstatus'⟩
  rw [hok] at hok'
  cases hok'
  rw [hstatus, hfailed] at hstatus'
  rcases hstatus' with h | h
  · cases h
  · cases h

/-- An instance that is pending or running is cancelled while the poll shows it. -/
theorem agree_of_open {i : DurableInstance φ} (occurredAt : String)
    (hi : (s submissionId).current = some i)
    (hopen : i.runtimeStatus = .pending ∨ i.runtimeStatus = .running) :
    CancelPollAgree (cancelBatch env s.instances occurredAt submissionId)
      (s.poll submissionId) := by
  have hne : i.runtimeStatus ≠ .completed := by
    intro h
    rw [h] at hopen
    rcases hopen with h | h
    · cases h
    · cases h
  have hcancel : cancelBatch env s.instances occurredAt submissionId = .ok (202, .cancelling) := by
    rw [cancelBatch_instance env occurredAt hi]
    rcases hopen with h | h
    · rw [h]
    · rw [h]
  obtain ⟨response, hok, hstatus⟩ := poll_of_ne_completed_instance hi hne
  rw [agree_iff_of_cancelling hcancel]
  refine ⟨response, hok, ?_⟩
  rw [hstatus]
  rcases hopen with h | h
  · exact .inl (by rw [h]; rfl)
  · exact .inr (by rw [h]; rfl)

/-- A terminated instance is cancelled for both. -/
theorem agree_of_terminated {i : DurableInstance φ} (occurredAt : String)
    (hi : (s submissionId).current = some i) (hterminated : i.runtimeStatus = .terminated) :
    CancelPollAgree (cancelBatch env s.instances occurredAt submissionId)
      (s.poll submissionId) := by
  have hcancel : cancelBatch env s.instances occurredAt submissionId = .ok (200, .cancelled) := by
    rw [cancelBatch_instance env occurredAt hi, hterminated]
  obtain ⟨response, hok, hstatus⟩ :=
    poll_of_ne_completed_instance hi (by rw [hterminated]; decide)
  rw [agree_iff_of_cancelled hcancel]
  exact ⟨response, hok, by rw [hstatus, hterminated]; rfl⟩

/-- A completed instance is completed for the poll when its batch is scored. -/
theorem agree_of_completed_iff {i : DurableInstance φ} {result : FinalResult env num order}
    (occurredAt : String) (hi : (s submissionId).current = some i)
    (hcompleted : i.runtimeStatus = .completed) (houtput : i.output = result.output) :
    CancelPollAgree (cancelBatch env s.instances occurredAt submissionId)
      (s.poll submissionId) ↔ result.Scored := by
  have hcancel : cancelBatch env s.instances occurredAt submissionId = .ok (409, .completed) := by
    rw [cancelBatch_instance env occurredAt hi, hcompleted]
  obtain ⟨hscored, hunscored⟩ := poll_of_completed hi hcompleted houtput
  rw [agree_iff_of_completed hcancel]
  refine ⟨?_, hscored⟩
  rintro ⟨response, hok, -⟩
  by_contra hnot
  obtain ⟨detail, herror⟩ := hunscored hnot
  rw [herror] at hok
  cases hok

end CancellationLemmas

open CancellationLemmas

/-- After every history of starts, progress, completions, failures, terminations and
purges, what the API answers a cancellation is consistent with what it answers a poll
exactly when the submission is answerable. -/
theorem cancel_and_poll_agree_iff {run : List (String × SlotAction env num order)}
    {s : Store env num order} (h : Transition.exec storeStep Store.empty run = some s)
    (submissionId occurredAt : String) :
    CancelPollAgree (cancelBatch env s.instances occurredAt submissionId) (s.poll submissionId) ↔
      (s submissionId).Answerable := by
  have hinv := slotInv_exec h submissionId
  cases hi : (s submissionId).current with
  | none =>
    refine ⟨fun hagree => absurd hagree (not_agree_of_missing occurredAt hi), ?_⟩
    rintro ⟨i, hsome, -⟩
    rw [hi] at hsome
    cases hsome
  | some i =>
    have hanswerable : (s submissionId).Answerable ↔
        (i.runtimeStatus = .pending ∨ i.runtimeStatus = .running ∨
          i.runtimeStatus = .terminated ∨ i.runtimeStatus = .completed ∧
            ∃ result, (s submissionId).stage = .returned result ∧ result.Scored) := by
      unfold Slot.Answerable
      rw [hi]
      simp
    rw [hanswerable]
    have hstatus := hinv.status i hi
    simp only [List.mem_cons, List.not_mem_nil, or_false] at hstatus
    rcases hstatus with hs | hs | hs | hs | hs
    · exact iff_of_true (agree_of_open occurredAt hi (.inl hs)) (.inl hs)
    · exact iff_of_true (agree_of_open occurredAt hi (.inr hs)) (.inr (.inl hs))
    · -- the document decides what a completed instance is for the poll
      obtain ⟨result, hstage, houtput⟩ := hinv.returned i hi hs
      rw [agree_of_completed_iff occurredAt hi hs houtput, hs, hstage]
      simp
    · refine iff_of_false (not_agree_of_failed occurredAt hi hs) ?_
      rw [hs]
      simp
    · exact iff_of_true (agree_of_terminated occurredAt hi hs) (.inr (.inr (.inl hs)))

/-- Nothing is known about a submission, and its cancellation is under way. -/
theorem unknown_submission_cancelling :
    cancelBatch Sample.hostEnv
        (Store.empty : Store Sample.hostEnv Sample.numerics Sample.setOrder).instances
        "2025-01-01T00:00:00+00:00" Sample.batch1 = .ok (202, .cancelling) ∧
      (Store.empty : Store Sample.hostEnv Sample.numerics Sample.setOrder).poll Sample.batch1 =
        .error (notFound Sample.batch1) ∧
      ¬ CancelPollAgree
        (cancelBatch Sample.hostEnv
          (Store.empty : Store Sample.hostEnv Sample.numerics Sample.setOrder).instances
          "2025-01-01T00:00:00+00:00" Sample.batch1)
        ((Store.empty : Store Sample.hostEnv Sample.numerics Sample.setOrder).poll Sample.batch1) :=
  ⟨cancelBatch_missing _ _ rfl, getBatchStatus_missing rfl rfl, not_agree_of_missing _ rfl⟩

/-- The theorem on a batch that completed. -/
theorem cancel_and_poll_agree_iff_sample :
    ∃ s : Store Sample.hostEnv Sample.numerics Sample.setOrder,
      Transition.exec storeStep Store.empty
        (Sample.completedRun.map fun a => (Sample.batch1, a)) = some s ∧
      CancelPollAgree
        (cancelBatch Sample.hostEnv s.instances "2025-01-01T00:10:00+00:00" Sample.batch1)
        (s.poll Sample.batch1) := by
  obtain ⟨slot, i, hslot, hi, hcompleted, hstage⟩ : ∃ slot i,
      Transition.exec (slotStep Sample.batch1) Slot.empty Sample.completedRun = some slot ∧
        slot.current = some i ∧ i.runtimeStatus = .completed ∧
        slot.stage = .returned Sample.finalResult := ⟨_, _, rfl, rfl, rfl, rfl⟩
  have hs := Transition.exec_pointwise (s := Store.empty) (i := Sample.batch1) hslot
  refine ⟨_, hs, (cancel_and_poll_agree_iff hs Sample.batch1 "2025-01-01T00:10:00+00:00").mpr ?_⟩
  rw [Function.update_self]
  exact ⟨i, hi, .inr (.inr (.inr ⟨hcompleted, _, hstage, Sample.finalResult_scored⟩))⟩

end TalentMatch
