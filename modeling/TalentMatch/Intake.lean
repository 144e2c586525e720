import TalentMatch.Lib.ClaimOnce
import TalentMatch.Lib.Search
import TalentMatch.Contracts
import TalentMatch.Submission

/-!
# Result intake

`sb_result_handler` and `http_patch_run` of `orchestrator/functions/result_intake`,
as workers of the protocol of `ClaimOnce`: `_lookup_batch_id`,
`_claim_result_delivery`, `client.raise_event` and the answer are separate steps.
The key of a delivery is its run id, the target is the batch id in the blob
`run-index/{run_id}.json`, and a marker is the blob `result-delivery/{run_id}.json`.
Deliveries are those that passed validation, over either transport.

Results:
1. `length_raisedFor_le_one`: at most one event is raised for a run id.
2. `acknowledged_completion_raised`: while no step is unsafe, an acknowledged
   delivery was raised; and any unsafe step can be continued to one that was not.
-/

namespace TalentMatch

open ClaimOnce

/-! ## 1. The handlers -/

/-- The handlers that were started, the markers and the events raised. -/
abbrev IntakeState := ClaimOnce.State Delivery String String

/-- What a handler does next, or what happens to it. -/
abbrev IntakeAction := ClaimOnce.Action Delivery

/-- One step of a handler. `lookupBatchId` is what `_lookup_batch_id` reads. -/
def intakeStep (lookupBatchId : String → Option String) :
    IntakeState → IntakeAction → Option IntakeState :=
  ClaimOnce.step lookupBatchId Delivery.runId

/-- How a handler answers: it returns and the queue settles the message, or it
sends an HTTP status. -/
inductive Answer where
  | returned
  | status (code : Nat)
  deriving DecidableEq

/-- The answer of a handler that is done. -/
def answer : Delivery → Pc String → Option Answer
  | .serviceBus _ _, .acknowledged => some .returned
  | .serviceBus _ _, .dropped => some .returned
  | .http _ _ _ _, .acknowledged => some (.status 202)
  | .http _ _ _ _, .dropped => some (.status 404)
  | _, _ => none

/-- The sender takes the completion for accepted. -/
def IsAcknowledged (d : Delivery) (pc : Pc String) : Prop :=
  answer d pc = some .returned ∨ answer d pc = some (.status 202)

instance (d : Delivery) (pc : Pc String) : Decidable (IsAcknowledged d pc) :=
  inferInstanceAs (Decidable (_ ∨ _))

/-- An external event. -/
structure RaisedEvent where
  instanceId : String
  name : String
  payload : RunResult
  deriving DecidableEq

namespace IntakeState

/-- The event that handler `p.1` raises for the instance `p.2`. -/
def event (s : IntakeState) (p : Nat × String) : Option RaisedEvent :=
  (s.jobOf p.1).map fun d => ⟨p.2, eventName d.runId, d.eventPayload⟩

/-- The calls of `client.raise_event`. -/
def issuedEvents (s : IntakeState) : List RaisedEvent := s.attempts.filterMap (event s)

/-- The calls that succeeded. -/
def raisedEvents (s : IntakeState) : List RaisedEvent := s.published.filterMap (event s)

end IntakeState

open IntakeState

/-- The markers, handlers and events after any run agree. -/
theorem inv_of_exec {lookupBatchId : String → Option String} {as : List IntakeAction}
    {s : IntakeState}
    (h : Transition.exec (intakeStep lookupBatchId) State.initial as = some s) :
    Inv Delivery.runId s :=
  Transition.exec_invariant (fun _ _ _ hi hstep => inv_step hi (steps_of_step hstep)) inv_initial h

/-- A call about the run of its handler. -/
theorem event_eq_some {s : IntakeState} {p : Nat × String} {e : RaisedEvent}
    (h : event s p = some e) :
    ∃ d, s.jobOf p.1 = some d ∧ e = ⟨p.2, eventName d.runId, d.eventPayload⟩ := by
  obtain ⟨d, hd, rfl⟩ := Option.map_eq_some_iff.mp h
  exact ⟨d, hd, rfl⟩

/-- The calls about a run. -/
def raisedFor (s : IntakeState) (runId : String) : List RaisedEvent :=
  (issuedEvents s).filter fun e => e.name = eventName runId

/-- At most one event is raised for a run. -/
theorem length_raisedFor_le_one {s : IntakeState} (hi : Inv Delivery.runId s) (r : String) :
    (raisedFor s r).length ≤ 1 := by
  refine (Search.length_filter_filterMap_le fun p e he hname => ?_).trans
    (length_attemptsFor_le_one hi r)
  obtain ⟨d, hd, rfl⟩ := event_eq_some he
  have hrun : d.runId = r := eventName_injective (of_decide_eq_true hname)
  simp [hd, hrun]

/-! ## 2. Acknowledged completions are raised -/

/-- An acknowledged delivery for a run with a run-index blob: `raise_event` for
that run has succeeded. -/
def NoneLost (lookupBatchId : String → Option String) (s : IntakeState) : Prop :=
  ∀ (n : Nat) (d : Delivery) (pc : Pc String), s.workers[n]? = some ⟨d, pc⟩ →
    IsAcknowledged d pc → (lookupBatchId d.runId).isSome →
    ∃ e ∈ raisedEvents s, e.name = eventName d.runId

/-- A step after which a completion can be lost: `raise_event` fails, a handler
stops between its marker and `raise_event`, or a delivery finds a marker while
the handler that made it has not raised the event. -/
def IsUnsafe (s : IntakeState) (a : IntakeAction) : Prop := ¬ Safe Delivery.runId s a

namespace IntakeLemmas

variable {lookupBatchId : String → Option String} {s : IntakeState}

theorem acknowledged_cases {d : Delivery} {pc : Pc String} (h : IsAcknowledged d pc) :
    pc = .acknowledged ∨ pc = .dropped := by
  cases d <;> cases pc <;> simp [IsAcknowledged, answer] at h ⊢

theorem noneLost_of_settled (hi : Inv Delivery.runId s) (hs : Settled Delivery.runId s)
    (hn : NotFound lookupBatchId Delivery.runId s) : NoneLost lookupBatchId s := by
  intro n d pc hw hack hindex
  rcases acknowledged_cases hack with rfl | rfl
  · obtain ⟨m, t, hmark, hp⟩ := hs.published_of_acknowledged hw
    obtain ⟨d', hd', hrun⟩ := hi.marker _ _ hmark
    refine ⟨⟨t, eventName d'.runId, d'.eventPayload⟩, ?_, by rw [hrun]⟩
    exact List.mem_filterMap.mpr ⟨(m, t), hp, by simp [event, hd']⟩
  · rw [hn n d .dropped hw (Or.inr rfl)] at hindex
    cases hindex

theorem not_noneLost_of_lost (h : Lost lookupBatchId Delivery.runId s) :
    ¬ NoneLost lookupBatchId s := by
  obtain ⟨n, d, hw, hindex, hnone⟩ := h
  intro hall
  have hack : IsAcknowledged d .acknowledged := by
    cases d with
    | serviceBus result traceparent => exact Or.inl rfl
    | http runId finish correlationId traceparent => exact Or.inr rfl
  obtain ⟨e, he, hname⟩ := hall n d _ hw hack hindex
  obtain ⟨p, hp, hevent⟩ := List.mem_filterMap.mp he
  obtain ⟨d', hd', rfl⟩ := event_eq_some hevent
  refine hnone p hp ?_
  rw [hd', Option.map_some, eventName_injective hname]

end IntakeLemmas

/-- While no step is unsafe, whatever was acknowledged was raised. An unsafe step
can be continued to a state in which a delivery is acknowledged whose event was
not raised. -/
theorem acknowledged_completion_raised (lookupBatchId : String → Option String) :
    (∀ (as : List IntakeAction) (s : IntakeState),
      Transition.Guarded (intakeStep lookupBatchId) (fun s a => ¬ IsUnsafe s a) State.initial as →
      Transition.exec (intakeStep lookupBatchId) State.initial as = some s →
      NoneLost lookupBatchId s) ∧
    ∀ (as : List IntakeAction) (s : IntakeState) (a : IntakeAction) (s' : IntakeState),
      Transition.exec (intakeStep lookupBatchId) State.initial as = some s →
      intakeStep lookupBatchId s a = some s' → IsUnsafe s a →
      ∃ as' s'', Transition.exec (intakeStep lookupBatchId) s' as' = some s'' ∧
        ¬ NoneLost lookupBatchId s'' := by
  refine ⟨fun as s hguard hrun => ?_, fun as s a s' hrun hstep hbad => ?_⟩
  · have hall : Inv Delivery.runId s ∧ Settled Delivery.runId s ∧
        NotFound lookupBatchId Delivery.runId s := by
      refine Transition.guarded_invariant
        (I := fun t => Inv Delivery.runId t ∧ Settled Delivery.runId t ∧
          NotFound lookupBatchId Delivery.runId t)
        (fun t a t' ht hsafe hstep => ?_) ⟨inv_initial, settled_initial, notFound_initial⟩ hguard hrun
      have hsteps := steps_of_step hstep
      exact ⟨inv_step ht.1 hsteps, settled_step ht.1 ht.2.1 (not_not.mp hsafe) hsteps,
        notFound_step ht.2.2 hsteps⟩
    exact IntakeLemmas.noneLost_of_settled hall.1 hall.2.1 hall.2.2
  · have htargets : Targets Delivery.runId (fun r b => lookupBatchId r = some b) s :=
      Transition.exec_invariant
        (fun _ _ _ ht hstep => targets_step ht (fun _ _ h => h) (steps_of_step hstep))
        targets_initial hrun
    obtain ⟨as', s'', hrun', hlost⟩ := lost_of_unsafe (inv_of_exec hrun) htargets hstep hbad
    exact ⟨as', s'', hrun', IntakeLemmas.not_noneLost_of_lost hlost⟩

namespace Sample

/-- The run-index blob of the first run of `app-1` in the first batch. -/
def lookupBatchId (runId : String) : Option String :=
  if runId = "c055d77e-9f11-5874-aa97-192185e2def4" then some batch1 else none

/-- A completion of that run, over Service Bus. -/
def delivery : Delivery := .serviceBus (message "c055d77e-9f11-5874-aa97-192185e2def4" "Succeeded") ""

/-- It is delivered, and `raise_event` fails after the marker was made; it is
delivered again, found to be a duplicate and acknowledged. -/
def lostRun : List IntakeAction :=
  [.deliver delivery, .lookup 0, .claim 0, .publish 0 false,
    .deliver delivery, .lookup 1, .claim 1, .finish 1]

/-- It is delivered, and nothing goes wrong. -/
def safeRun : List IntakeAction :=
  [.deliver delivery, .lookup 0, .claim 0, .publish 0 true, .finish 0]

theorem guarded_safeRun :
    Transition.Guarded (intakeStep lookupBatchId) (fun s a => ¬ IsUnsafe s a) State.initial
      safeRun := by
  refine ⟨not_not.mpr trivial, fun s hs => ?_⟩
  cases hs
  refine ⟨not_not.mpr trivial, fun s hs => ?_⟩
  cases hs
  refine ⟨not_not.mpr fun d b m d' b' hw hm => ?_, fun s hs => ?_⟩
  · cases hm
  cases hs
  refine ⟨not_not.mpr rfl, fun s hs => ?_⟩
  cases hs
  exact ⟨not_not.mpr trivial, fun _ _ => trivial⟩

end Sample

/-- After a failing `raise_event` the redelivered completion is acknowledged as a
duplicate, and no event was ever raised for the run. -/
theorem completion_lost_after_claim :
    ∃ s, Transition.exec (intakeStep Sample.lookupBatchId) State.initial Sample.lostRun = some s ∧
      s.workers[1]? = some ⟨Sample.delivery, .acknowledged⟩ ∧
      answer Sample.delivery .acknowledged = some .returned ∧
      Sample.lookupBatchId Sample.delivery.runId = some Sample.batch1 ∧
      raisedEvents s = [] ∧ ¬ NoneLost Sample.lookupBatchId s := by
  refine ⟨_, rfl, rfl, rfl, rfl, rfl, fun hall => ?_⟩
  obtain ⟨e, he, -⟩ := hall 1 Sample.delivery .acknowledged rfl (by decide) (by decide)
  cases he

/-- The theorem on a run without a failure: the acknowledged completion is raised. -/
theorem acknowledged_completion_raised_sample :
    ∃ s, Transition.exec (intakeStep Sample.lookupBatchId) State.initial Sample.safeRun = some s ∧
      s.workers[0]? = some ⟨Sample.delivery, .acknowledged⟩ ∧
      NoneLost Sample.lookupBatchId s := by
  refine ⟨_, rfl, rfl, ?_⟩
  exact (acknowledged_completion_raised Sample.lookupBatchId).1 Sample.safeRun _
    Sample.guarded_safeRun rfl

end TalentMatch
