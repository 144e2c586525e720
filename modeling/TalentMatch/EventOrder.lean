import TalentMatch.Lifecycle
import TalentMatch.YieldPoints

/-!
# The order of live events

A batch has two sources of live events. `batch_orchestrator` counts its events and
hands each to the activity `project_live_progress`; `http_terminate` computes a number
from the custom status that it has read, and projects its event itself. They run side
by side: an event is emitted when it is projected, which may be after later steps of
the other one. Every call of the activity is run at most once here.

Results:
1. `sent_step`: as long as no step is risky, the emitted events are those of the
   orchestrator in their order, then at most one of `http_terminate` with a higher
   number.
2. `disorder_of_risky`: after a risky step, running what is under way to its end emits
   a number that is not higher than the one before.
3. `live_events_ordered_iff`: the events of a history are in order, whatever of it is
   still under way, exactly when no step of it is risky.
-/

namespace TalentMatch

variable {φ : Type}

/-! ## 1. Two sources of events -/

/-- How far a call of `http_terminate` is. -/
inductive CallStage where
  | read
  | requested
  | projected
  deriving DecidableEq

/-- A call of `http_terminate` that has read the status of the instance and projects an
event at its end, after it has asked for a termination when there is a reason. -/
structure LiveCall (φ : Type) where
  reason : Option (Json φ)
  event : LiveEvent
  stage : CallStage

/-- An instance of `batch_orchestrator` with what projects its live events: the yield
of the orchestrator, how many of its events have been projected, a termination that
was asked for, the calls of `http_terminate`, and the events that were emitted. -/
structure EventState (φ : Type) where
  current : DurableInstance φ
  yieldPoint : YieldPoint
  executed : Nat
  terminating : Option (Json φ)
  calls : List (LiveCall φ)
  emitted : List LiveEvent

/-- What can happen: the orchestrator is resumed, returns or fails; the activity
`project_live_progress` runs; a client calls `http_terminate`, and the call goes on
with its termination and its projection; Durable terminates the instance. -/
inductive EventAction (φ : Type) where
  | resume (r : Resumption)
  | complete (output : Json φ)
  | fail (message : String)
  | execute
  | read (occurredAt : String) (req : HostRequest φ)
  | request (n : Nat)
  | project (n : Nat)
  | terminate

/-- After `start_new`. -/
def EventState.started (input : Json φ) (now : String) : EventState φ where
  current := .started input now
  yieldPoint := .notStarted
  executed := 0
  terminating := none
  calls := []
  emitted := []

/-- The call of `http_terminate` that read the status, when it projects an event. -/
def liveCall (call : TerminateCall φ) : Option (LiveCall φ) :=
  call.event.map fun event =>
    { reason := call.reason
      event := event
      stage := if call.reason.isSome then .read else .requested }

/-- No activity is under way that the orchestrator waits for. -/
def EventState.isIdle (s : EventState φ) : Bool := s.executed = s.yieldPoint.events.length

section Step
variable (env : Env φ) (uuid5 : String → String) (payload : BatchPayload) (instanceId : String)
  (copied : Bool)

/-- A step of the instance `instanceId`. -/
def eventStep (s : EventState φ) : EventAction φ → Option (EventState φ)
  | .resume r =>
    if s.current.isOpen && s.isIdle then
      (resume uuid5 payload s.yieldPoint r).map fun m =>
        { s with
          current :=
            { s.current with
              runtimeStatus := .running
              customStatus := publish copied m.1 m.2 s.current.customStatus }
          yieldPoint := m.1 }
    else none
  | .complete output =>
    if s.current.isOpen && s.isIdle && s.yieldPoint.isClosing then
      some { s with current := { s.current with runtimeStatus := .completed, output := output } }
    else none
  | .fail message =>
    if s.current.isOpen then
      some { s with current := { s.current with runtimeStatus := .failed, output := .str message } }
    else none
  | .execute =>
    (s.yieldPoint.events[s.executed]?).map fun event =>
      { s with executed := s.executed + 1, emitted := s.emitted ++ [event] }
  | .read occurredAt req =>
    let call := httpTerminate env instanceId occurredAt req (some s.current.statusObject)
    some { s with calls := s.calls ++ (liveCall call).toList }
  | .request n =>
    (s.calls[n]?).bind fun call =>
      if call.stage = .read then
        some
          { s with
            terminating := call.reason
            calls := s.calls.set n { call with stage := .requested } }
      else none
  | .project n =>
    (s.calls[n]?).bind fun call =>
      if call.stage = .requested then
        some
          { s with
            calls := s.calls.set n { call with stage := .projected }
            emitted := s.emitted ++ [call.event] }
      else none
  | .terminate =>
    if s.current.isOpen then
      s.terminating.map fun reason =>
        { s with
          current := { s.current with runtimeStatus := .terminated, output := reason } }
    else none

/-- The emitted events have distinct numbers, in increasing order. -/
def EventState.Ordered (s : EventState φ) : Prop :=
  (s.emitted.map LiveEvent.sequence).Pairwise (· < ·)

/-- `http_terminate` projects an event for a request: the instance did not complete,
and it was terminated or the request is read. -/
def Projects (i : DurableInstance φ) (req : HostRequest φ) : Prop :=
  i.runtimeStatus ≠ .completed ∧ (i.runtimeStatus = .terminated ∨ readReason req.body ≠ none)

/-- A call of `http_terminate` is risky when another one has come before it, when an
event of the orchestrator is under way, and when the number computed from the custom
status is behind. The orchestrator makes a risky step when it announces an event after
a call of `http_terminate`. -/
def EventState.Risky (s : EventState φ) : EventAction φ → Prop
  | .read _ req => Projects s.current req ∧
    (s.calls ≠ [] ∨ s.isIdle = false ∨ s.yieldPoint.isBehind copied = true)
  | .resume _ => s.calls ≠ [] ∧ s.yieldPoint.Announces uuid5 payload
  | _ => False

/-- Only what is under way goes on: activities and calls of `http_terminate`. -/
def EventAction.goesOn : EventAction φ → Bool
  | .execute | .request _ | .project _ => true
  | _ => false

/-- What a step can do. -/
inductive EventSteps (s : EventState φ) : EventAction φ → EventState φ → Prop
  | resumed {r : Resumption} {p : YieldPoint} {given : Option Progress} {i : DurableInstance φ}
      (hidle : s.executed = s.yieldPoint.events.length)
      (hresumes : Resumes uuid5 payload s.yieldPoint p given)
      (hcustom : i.customStatus = publish copied p given s.current.customStatus) :
      EventSteps s (.resume r) { s with current := i, yieldPoint := p }
  | completed {output : Json φ} (hopen : s.current.isOpen = true) (hidle : s.isIdle = true)
      (hclosing : s.yieldPoint.isClosing = true) :
      EventSteps s (.complete output)
        { s with current := { s.current with runtimeStatus := .completed, output := output } }
  | failed {message : String} (hopen : s.current.isOpen = true) :
      EventSteps s (.fail message)
        { s with
          current := { s.current with runtimeStatus := .failed, output := .str message } }
  | terminated {reason : Json φ} (hopen : s.current.isOpen = true)
      (hreason : s.terminating = some reason) :
      EventSteps s .terminate
        { s with
          current := { s.current with runtimeStatus := .terminated, output := reason } }
  | executed {event : LiveEvent} (hevent : s.yieldPoint.events[s.executed]? = some event) :
      EventSteps s .execute
        { s with executed := s.executed + 1, emitted := s.emitted ++ [event] }
  | read {occurredAt : String} {req : HostRequest φ} :
      EventSteps s (.read occurredAt req)
        { s with
          calls := s.calls ++ (liveCall (httpTerminate env instanceId occurredAt req
            (some s.current.statusObject))).toList }
  | requested {n : Nat} {call : LiveCall φ} (hcall : s.calls[n]? = some call)
      (hstage : call.stage = .read) :
      EventSteps s (.request n)
        { s with
          terminating := call.reason
          calls := s.calls.set n { call with stage := .requested } }
  | projected {n : Nat} {call : LiveCall φ} (hcall : s.calls[n]? = some call)
      (hstage : call.stage = .requested) :
      EventSteps s (.project n)
        { s with
          calls := s.calls.set n { call with stage := .projected }
          emitted := s.emitted ++ [call.event] }

/-- What holds in every history: the orchestrator is in one of its runs, its custom
status is published, and at most one of its events is under way. -/
structure EventInv (s : EventState φ) : Prop where
  refines : Refines uuid5 payload s.yieldPoint
  published : Published uuid5 payload copied s.yieldPoint s.current.customStatus
  executed_le : s.executed ≤ s.yieldPoint.events.length
  le_executed : s.yieldPoint.events.length ≤ s.executed + 1

/-- What was emitted without a risky step: events of the orchestrator, or all of them
and at most one of `http_terminate`, which has the number that is next. -/
inductive Sent (s : EventState φ) : Prop
  | alone (hcalls : s.calls = [])
      (hemitted : s.emitted = s.yieldPoint.events.take s.executed) : Sent s
  | called {call : LiveCall φ} (hcalls : s.calls = [call])
      (hidle : s.executed = s.yieldPoint.events.length)
      (hcustom : s.current.customStatus = s.yieldPoint.progress?)
      (hsequence : call.event.sequence = nextSequence s.yieldPoint.progress?)
      (hahead : s.yieldPoint.events.length < call.event.sequence)
      (hemitted : s.emitted = s.yieldPoint.events ++
        if call.stage = .projected then [call.event] else []) : Sent s

end Step

namespace EventOrderLemmas

section Lemmas
variable {env : Env φ} {uuid5 : String → String} {payload : BatchPayload} {instanceId : String}
  {copied : Bool} {s t : EventState φ}

/-! ## 2. One call of `http_terminate` -/

/-- The event of `http_terminate` can always be built, with the number for the custom
status. -/
theorem sequence_of_buildBatchState (instanceId : String) (customStatus : Option Progress)
    (status eventType occurredAt correlationId traceparent : String) :
    ∃ event, buildBatchStateLiveEvent instanceId customStatus status eventType occurredAt
        correlationId traceparent = some event ∧
      event.sequence = nextSequence customStatus := by
  cases customStatus with
  | none => exact ⟨_, rfl, rfl⟩
  | some progress => exact ⟨_, rfl, rfl⟩

theorem liveCall_of_event {call : TerminateCall φ} {r : Option (Json φ)} {e : LiveEvent}
    (hreason : call.reason = r) (hevent : call.event = some e) :
    liveCall call = some ⟨r, e, if r.isSome then .read else .requested⟩ := by
  unfold liveCall
  rw [hevent, hreason]
  rfl

variable (env instanceId) in
/-- A call that projects an event has yet to do so. -/
theorem liveCall_cases (i : DurableInstance φ) (occurredAt : String) (req : HostRequest φ) :
    Projects i req ∧ (∃ call,
        liveCall (httpTerminate env instanceId occurredAt req (some i.statusObject)) = some call ∧
          call.event.sequence = nextSequence i.customStatus ∧ call.stage ≠ .projected) ∨
      ¬ Projects i req ∧
        liveCall (httpTerminate env instanceId occurredAt req (some i.statusObject)) = none := by
  obtain ⟨input, runtimeStatus, customStatus, output, createdTime, lastUpdatedTime⟩ := i
  have hbuilds := sequence_of_buildBatchState instanceId customStatus
  cases runtimeStatus with
  | completed => exact .inr ⟨fun h => h.1 rfl, rfl⟩
  | terminated =>
    obtain ⟨event, hevent, hsequence⟩ :=
      hbuilds "cancelled" "batch.cancelled" occurredAt req.correlationId req.traceparent
    refine .inl ⟨⟨nofun, .inl rfl⟩, ⟨none, event, .requested⟩, ?_, hsequence, nofun⟩
    rw [liveCall_of_event (r := none) (e := event) rfl hevent]
    rfl
  | pending | running | failed | canceled | other =>
    obtain ⟨event, hevent, hsequence⟩ :=
      hbuilds "cancelling" "batch.cancelling" occurredAt req.correlationId req.traceparent
    cases hreason : readReason req.body with
    | none =>
      refine .inr ⟨?_, ?_⟩
      · rintro ⟨-, hterminated | hread⟩
        · cases hterminated
        · exact hread hreason
      · simp only [httpTerminate, hreason]
        rfl
    | some reason =>
      refine .inl ⟨⟨nofun, .inr (by simp [hreason])⟩, ⟨some reason, event, .read⟩, ?_, hsequence,
        nofun⟩
      simp only [httpTerminate, hreason]
      rw [liveCall_of_event (r := some reason) (e := event) rfl hevent]
      rfl

/-! ## 3. One step -/

theorem eventSteps_of_step {a : EventAction φ}
    (h : eventStep env uuid5 payload instanceId copied s a = some t) :
    EventSteps env uuid5 payload instanceId copied s a t := by
  cases a with
  | resume r =>
    simp only [eventStep] at h
    split at h
    · next hguard =>
      obtain ⟨⟨p, given⟩, hresume, rfl⟩ := Option.map_eq_some_iff.mp h
      exact .resumed (of_decide_eq_true (Bool.and_eq_true_iff.mp hguard).2)
        (YieldPointLemmas.resumes_of_resume hresume) rfl
    · cases h
  | complete output =>
    simp only [eventStep] at h
    split at h
    · next hguard =>
      simp only [Bool.and_eq_true] at hguard
      cases h
      exact .completed hguard.1.1 hguard.1.2 hguard.2
    · cases h
  | fail message =>
    simp only [eventStep] at h
    split at h
    · next hopen =>
      cases h
      exact .failed hopen
    · cases h
  | execute =>
    obtain ⟨event, hevent, rfl⟩ := Option.map_eq_some_iff.mp h
    exact .executed hevent
  | read occurredAt req =>
    cases h
    exact .read
  | request n =>
    obtain ⟨call, hcall, h⟩ := Option.bind_eq_some_iff.mp h
    split at h
    · next hstage =>
      cases h
      exact .requested hcall hstage
    · cases h
  | project n =>
    obtain ⟨call, hcall, h⟩ := Option.bind_eq_some_iff.mp h
    split at h
    · next hstage =>
      cases h
      exact .projected hcall hstage
    · cases h
  | terminate =>
    simp only [eventStep] at h
    split at h
    · next hopen =>
      obtain ⟨reason, hreason, rfl⟩ := Option.map_eq_some_iff.mp h
      exact .terminated hopen hreason
    · cases h

theorem eventInv_step {a : EventAction φ} (hinv : EventInv uuid5 payload copied s)
    (h : eventStep env uuid5 payload instanceId copied s a = some t) :
    EventInv uuid5 payload copied t := by
  obtain ⟨hrefines, hpublished, hle, hge⟩ := hinv
  cases eventSteps_of_step h with
  | @resumed r p given i hidle hresumes hcustom =>
    have hpublished' := published_resume hresumes hrefines hpublished
    rw [← hcustom] at hpublished'
    refine ⟨refines_resume hresumes hrefines, hpublished', ?_, ?_⟩
    · rcases events_resume hresumes with ⟨-, e, hevents⟩ | ⟨-, hevents, -, -⟩
      · simp only [hevents, List.length_append, hidle]
        omega
      · simp only [hevents, hidle, le_refl]
    · rcases events_resume hresumes with ⟨-, e, hevents⟩ | ⟨-, hevents, -, -⟩
      · simp only [hevents, List.length_append, List.length_singleton, hidle, le_refl]
      · simp only [hevents, hidle]
        omega
  | completed | failed | terminated => exact ⟨hrefines, hpublished, hle, hge⟩
  | executed hevent =>
    obtain ⟨hlt, -⟩ := List.getElem?_eq_some_iff.mp hevent
    exact ⟨hrefines, hpublished, hlt, Nat.le_succ_of_le hge⟩
  | read => exact ⟨hrefines, hpublished, hle, hge⟩
  | requested hcall hstage => exact ⟨hrefines, hpublished, hle, hge⟩
  | projected hcall hstage => exact ⟨hrefines, hpublished, hle, hge⟩

theorem eq_of_singleton {c call : LiveCall φ} {n : Nat} (h : [c][n]? = some call) :
    n = 0 ∧ c = call := by
  cases n with
  | zero => exact ⟨rfl, Option.some.inj h⟩
  | succ n => cases h

/-- The call of `http_terminate` goes on. -/
theorem sent_advance {n : Nat} {call : LiveCall φ} {stage : CallStage}
    {terminating : Option (Json φ)} {emitted : List LiveEvent} (hsent : Sent s)
    (hcall : s.calls[n]? = some call)
    (h : (s.emitted = s.yieldPoint.events ++
        if call.stage = .projected then [call.event] else []) →
      emitted = s.yieldPoint.events ++ if stage = .projected then [call.event] else []) :
    Sent
      { s with
        terminating := terminating
        calls := s.calls.set n { call with stage := stage }
        emitted := emitted } := by
  cases hsent with
  | alone hcalls hemitted =>
    rw [hcalls] at hcall
    cases hcall
  | @called c hcalls hidle hcustom hsequence hahead hemitted =>
    rw [hcalls] at hcall
    obtain ⟨rfl, rfl⟩ := eq_of_singleton hcall
    have hcalls' : s.calls.set 0 { c with stage := stage } = [{ c with stage := stage }] := by
      rw [hcalls, List.set_cons_zero]
    exact .called hcalls' hidle hcustom hsequence hahead (h hemitted)

/-- A step that is not risky. -/
theorem sent_step (hu : Uuid5Spec uuid5) (hd : payload.DistinctApplications) {a : EventAction φ}
    (hinv : EventInv uuid5 payload copied s) (hsent : Sent s)
    (hsafe : ¬ s.Risky uuid5 payload copied a)
    (h : eventStep env uuid5 payload instanceId copied s a = some t) : Sent t := by
  cases eventSteps_of_step h with
  | @resumed r p given i hidle hresumes hcustom =>
    cases hsent with
    | alone hcalls hemitted =>
      refine .alone hcalls ?_
      rw [hidle, List.take_length] at hemitted
      rcases events_resume hresumes with ⟨-, e, hevents⟩ | ⟨-, hevents, -, -⟩
      · simp only [hevents, hidle, List.take_left, hemitted]
      · simp only [hevents, hidle, List.take_length, hemitted]
    | called hcalls hidle' hcustom' hsequence hahead hemitted =>
      have hne : s.calls ≠ [] := by
        rw [hcalls]
        simp
      obtain ⟨-, hevents, hdispatching, hnext⟩ :=
        (events_resume hresumes).resolve_left fun hloud => hsafe ⟨hne, hloud.1⟩
      have hpublished := published_resume hresumes hinv.refines hinv.published
      refine .called hcalls (hevents ▸ hidle) ?_ (hnext ▸ hsequence) (hevents ▸ hahead)
        (hevents ▸ hemitted)
      unfold Published at hpublished
      rw [hdispatching, Bool.and_false] at hpublished
      exact hcustom.trans hpublished
  | completed | failed | terminated =>
    cases hsent with
    | alone hcalls hemitted => exact .alone hcalls hemitted
    | called hcalls hidle hcustom hsequence hahead hemitted =>
      exact .called hcalls hidle hcustom hsequence hahead hemitted
  | executed hevent =>
    cases hsent with
    | alone hcalls hemitted =>
      refine .alone hcalls ?_
      simp only [hemitted, List.take_add_one, hevent, Option.toList_some]
    | called hcalls hidle hcustom hsequence hahead hemitted =>
      rw [hidle, List.getElem?_length] at hevent
      cases hevent
  | @read occurredAt req =>
    rcases liveCall_cases env instanceId s.current occurredAt req with
      ⟨hprojects, call, hcall, hsequence, hstage⟩ | ⟨-, hcall⟩
    · obtain ⟨hcalls, hidle, hbehind⟩ : s.calls = [] ∧ s.isIdle = true ∧
          s.yieldPoint.isBehind copied = false := by
        simpa [not_or] using not_and.mp hsafe hprojects
      have hidle : s.executed = s.yieldPoint.events.length := of_decide_eq_true hidle
      have hcustom := progress_of_published hinv.published hbehind
      have hclosing := (Bool.or_eq_false_iff.mp hbehind).1
      cases hsent with
      | alone _ hemitted =>
        have hcalls' : s.calls ++ Option.toList (liveCall (httpTerminate env instanceId occurredAt
            req (some s.current.statusObject))) = [call] := by
          rw [hcalls, hcall]
          rfl
        rw [hcustom] at hsequence
        refine .called hcalls' hidle hcustom hsequence ?_ ?_
        · rw [hsequence]
          exact lt_nextSequence_of_refines hu hd hinv.refines hclosing
        · rw [hidle, List.take_length] at hemitted
          simp only [hemitted, if_neg hstage, List.append_nil]
      | called hcalls' =>
        rw [hcalls] at hcalls'
        cases hcalls'
    · simpa only [hcall, Option.toList_none, List.append_nil] using hsent
  | requested hcall hstage =>
    refine sent_advance hsent hcall fun hemitted => ?_
    simpa [hstage] using hemitted
  | projected hcall hstage =>
    refine sent_advance hsent hcall fun hemitted => ?_
    simpa [hstage] using hemitted

/-! ## 4. Order -/

/-- The number of an event of the orchestrator. -/
theorem sequence_of_event (hu : Uuid5Spec uuid5) (hd : payload.DistinctApplications)
    {p : YieldPoint} (hp : Refines uuid5 payload p) {n : Nat} {event : LiveEvent}
    (h : p.events[n]? = some event) : event.sequence = n + 1 := by
  have hnumber : (p.events.map LiveEvent.sequence)[n]? = some event.sequence := by
    rw [List.getElem?_map, h]
    rfl
  rw [sequences_of_refines hu hd hp] at hnumber
  obtain ⟨hn, heq⟩ := List.getElem?_eq_some_iff.mp hnumber
  rw [List.getElem_range'] at heq
  omega

theorem ordered_of_sent (hu : Uuid5Spec uuid5) (hd : payload.DistinctApplications)
    (hinv : EventInv uuid5 payload copied s) (hsent : Sent s) : s.Ordered := by
  have hevents : (s.yieldPoint.events.map LiveEvent.sequence).Pairwise (· < ·) := by
    rw [sequences_of_refines hu hd hinv.refines]
    exact List.pairwise_lt_range'
  unfold EventState.Ordered
  cases hsent with
  | alone hcalls hemitted =>
    rw [hemitted, List.map_take]
    exact hevents.sublist (List.take_sublist ..)
  | @called call hcalls hidle hcustom hsequence hahead hemitted =>
    have hlast : ∀ m ∈ s.yieldPoint.events.map LiveEvent.sequence, m < call.event.sequence := by
      intro m hm
      rw [sequences_of_refines hu hd hinv.refines, List.mem_range'_1] at hm
      omega
    rw [hemitted, List.map_append, List.pairwise_append]
    split
    · exact ⟨hevents, List.pairwise_singleton .., fun m hm n hn =>
        List.mem_singleton.mp hn ▸ hlast m hm⟩
    · exact ⟨hevents, List.Pairwise.nil, nofun⟩

/-- An event with a number that is not higher than one before it. -/
theorem not_ordered {sent : List LiveEvent} {before event : LiveEvent}
    (hemitted : s.emitted = sent ++ [event]) (hbefore : before ∈ sent)
    (hle : event.sequence ≤ before.sequence) : ¬ s.Ordered := by
  intro hordered
  unfold EventState.Ordered at hordered
  rw [hemitted, List.map_append, List.pairwise_append] at hordered
  have hlt := hordered.2.2 _ (List.mem_map_of_mem hbefore) event.sequence (by simp)
  omega

variable (env uuid5 payload instanceId copied) in
/-- `s` goes on to `u`: only what is under way is run. -/
def GoesOn (s u : EventState φ) : Prop :=
  ∃ as, (∀ a ∈ as, EventAction.goesOn a = true) ∧
    Transition.exec (eventStep env uuid5 payload instanceId copied) s as = some u

theorem GoesOn.refl : GoesOn env uuid5 payload instanceId copied s s :=
  ⟨[], fun _ ha => (List.not_mem_nil ha).elim, rfl⟩

theorem GoesOn.trans {u : EventState φ} (h : GoesOn env uuid5 payload instanceId copied s t)
    (h' : GoesOn env uuid5 payload instanceId copied t u) :
    GoesOn env uuid5 payload instanceId copied s u := by
  obtain ⟨as, has, hs⟩ := h
  obtain ⟨bs, hbs, ht⟩ := h'
  refine ⟨as ++ bs, fun a ha => (List.mem_append.mp ha).elim (has a) (hbs a), ?_⟩
  rw [Transition.exec_append, hs]
  exact ht

theorem GoesOn.of_step {a : EventAction φ}
    (h : eventStep env uuid5 payload instanceId copied s a = some t) (ha : a.goesOn = true) :
    GoesOn env uuid5 payload instanceId copied s t := by
  refine ⟨[a], by simpa using ha, ?_⟩
  rw [Transition.exec_cons, h]
  rfl

variable (env uuid5 payload instanceId copied) in
/-- A call of `http_terminate` goes on to its projection. -/
theorem goesOn_project {n : Nat} {call : LiveCall φ} (hcall : s.calls[n]? = some call)
    (hstage : call.stage ≠ .projected) :
    ∃ terminating, GoesOn env uuid5 payload instanceId copied s
      { s with
        terminating := terminating
        calls := s.calls.set n { call with stage := .projected }
        emitted := s.emitted ++ [call.event] } := by
  obtain ⟨hn, -⟩ := List.getElem?_eq_some_iff.mp hcall
  cases h : call.stage with
  | read =>
    have hrequest : eventStep env uuid5 payload instanceId copied s (.request n) =
        some
          { s with
            terminating := call.reason
            calls := s.calls.set n { call with stage := .requested } } := by
      simp only [eventStep, hcall, Option.bind_some, h, if_true]
    refine ⟨call.reason, .trans (.of_step hrequest rfl) (.of_step (a := .project n) ?_ rfl)⟩
    simp only [eventStep, List.getElem?_set_self hn, Option.bind_some, if_true, List.set_set]
  | requested =>
    refine ⟨s.terminating, .of_step (a := .project n) ?_ rfl⟩
    simp only [eventStep, hcall, Option.bind_some, h, if_true]
  | projected => exact absurd h hstage

variable (env uuid5 payload instanceId copied) in
/-- The event of the orchestrator that is under way is projected. -/
theorem goesOn_execute {event : LiveEvent} (hevent : s.yieldPoint.events[s.executed]? = some event) :
    GoesOn env uuid5 payload instanceId copied s
      { s with executed := s.executed + 1, emitted := s.emitted ++ [event] } := by
  refine .of_step (a := .execute) ?_ rfl
  simp only [eventStep, hevent, Option.map_some]

variable (env uuid5 payload instanceId copied) in
/-- The first call goes on, if it has not been projected. -/
theorem goesOn_first {call : LiveCall φ} {rest : List (LiveCall φ)} {events : List LiveEvent}
    (hcalls : s.calls = call :: rest)
    (hemitted : s.emitted = events ++ if call.stage = .projected then [call.event] else []) :
    ∃ u, GoesOn env uuid5 payload instanceId copied s u ∧ u.yieldPoint = s.yieldPoint ∧
      u.executed = s.executed ∧ u.calls = { call with stage := .projected } :: rest ∧
      u.emitted = events ++ [call.event] := by
  rcases eq_or_ne call.stage .projected with h | h
  · rw [if_pos h] at hemitted
    refine ⟨s, .refl, rfl, rfl, ?_, hemitted⟩
    rw [hcalls, ← h]
  · rw [if_neg h, List.append_nil] at hemitted
    have hcall : s.calls[0]? = some call := by
      rw [hcalls]
      rfl
    obtain ⟨terminating, hgoes⟩ := goesOn_project env uuid5 payload instanceId copied hcall h
    exact ⟨_, hgoes, rfl, rfl, by simp only [hcalls, List.set_cons_zero], by simp only [hemitted]⟩

/-! ## 5. Risky steps -/

/-- A second call has the number of the first one. -/
theorem disorder_of_second {first second : LiveCall φ} {events : List LiveEvent}
    (hcalls : s.calls = [first, second])
    (hemitted : s.emitted = events ++ if first.stage = .projected then [first.event] else [])
    (hstage : second.stage ≠ .projected) (hle : second.event.sequence ≤ first.event.sequence) :
    ∃ u, GoesOn env uuid5 payload instanceId copied s u ∧ ¬ u.Ordered := by
  obtain ⟨u, hgoes, -, -, hcalls', hemitted'⟩ :=
    goesOn_first env uuid5 payload instanceId copied hcalls hemitted
  have hcall : u.calls[1]? = some second := by
    rw [hcalls']
    rfl
  obtain ⟨terminating, hgoes'⟩ := goesOn_project env uuid5 payload instanceId copied hcall hstage
  have hboth : u.emitted ++ [second.event] = (events ++ [first.event]) ++ [second.event] := by
    rw [hemitted']
  exact ⟨_, hgoes.trans hgoes', not_ordered hboth (List.mem_append_right _ (by simp)) hle⟩

/-- An event that the orchestrator announces after a call. -/
theorem disorder_of_announced {call : LiveCall φ} {events : List LiveEvent} {event : LiveEvent}
    (hcalls : s.calls = [call]) (hevents : s.yieldPoint.events = events ++ [event])
    (hexecuted : s.executed = events.length)
    (hemitted : s.emitted = events ++ if call.stage = .projected then [call.event] else [])
    (hle : event.sequence ≤ call.event.sequence) :
    ∃ u, GoesOn env uuid5 payload instanceId copied s u ∧ ¬ u.Ordered := by
  obtain ⟨u, hgoes, hyield, hexecuted', -, hemitted'⟩ :=
    goesOn_first env uuid5 payload instanceId copied hcalls hemitted
  have hevent : u.yieldPoint.events[u.executed]? = some event := by
    rw [hyield, hexecuted', hevents, hexecuted, List.getElem?_concat_length]
  have hboth : u.emitted ++ [event] = (events ++ [call.event]) ++ [event] := by
    rw [hemitted']
  exact ⟨_, hgoes.trans (goesOn_execute env uuid5 payload instanceId copied hevent),
    not_ordered hboth (List.mem_append_right _ (by simp)) hle⟩

/-- A call while an event of the orchestrator is under way. -/
theorem disorder_of_underWay {call : LiveCall φ} {event : LiveEvent}
    (hcall : s.calls[0]? = some call) (hstage : call.stage ≠ .projected)
    (hevent : s.yieldPoint.events[s.executed]? = some event)
    (hle : event.sequence ≤ call.event.sequence) :
    ∃ u, GoesOn env uuid5 payload instanceId copied s u ∧ ¬ u.Ordered := by
  obtain ⟨terminating, hgoes⟩ := goesOn_project env uuid5 payload instanceId copied hcall hstage
  have hmem : call.event ∈ s.emitted ++ [call.event] := by simp
  refine ⟨_, hgoes.trans (goesOn_execute env uuid5 payload instanceId copied ?_),
    not_ordered rfl hmem hle⟩
  exact hevent

/-- A call with a number that is behind: the events that are under way come first. -/
theorem disorder_of_behind (hu : Uuid5Spec uuid5) (hd : payload.DistinctApplications)
    (hinv : EventInv uuid5 payload copied s) {call : LiveCall φ}
    (hemitted : s.emitted = s.yieldPoint.events.take s.executed)
    (hcall : s.calls[0]? = some call) (hstage : call.stage ≠ .projected)
    (hpos : 0 < call.event.sequence) (hle : call.event.sequence ≤ s.yieldPoint.events.length) :
    ∃ u, GoesOn env uuid5 payload instanceId copied s u ∧ ¬ u.Ordered := by
  obtain ⟨v, hgoes, hcalls, hall⟩ : ∃ v, GoesOn env uuid5 payload instanceId copied s v ∧
      v.calls = s.calls ∧ v.emitted = s.yieldPoint.events := by
    rcases hinv.executed_le.lt_or_eq with hlt | heq
    · have hevent := List.getElem?_eq_getElem hlt
      refine ⟨_, goesOn_execute env uuid5 payload instanceId copied hevent, rfl, ?_⟩
      have hlast : s.executed + 1 = s.yieldPoint.events.length := by
        have := hinv.le_executed
        omega
      show s.emitted ++ [_] = _
      rw [hemitted, List.take_append_getElem, hlast, List.take_length]
    · refine ⟨s, .refl, rfl, ?_⟩
      rw [hemitted, heq, List.take_length]
  -- the call has the number of one of these events
  obtain ⟨before, hbefore, hsequence⟩ : ∃ e ∈ s.yieldPoint.events,
      e.sequence = call.event.sequence := by
    rw [← List.mem_map, sequences_of_refines hu hd hinv.refines, List.mem_range'_1]
    omega
  rw [← hcalls] at hcall
  obtain ⟨terminating, hgoes'⟩ := goesOn_project env uuid5 payload instanceId copied hcall hstage
  refine ⟨_, hgoes.trans hgoes', not_ordered ?_ hbefore hsequence.ge⟩
  show v.emitted ++ [call.event] = _
  rw [hall]

/-- After a risky step, what is under way emits an event out of order. -/
theorem disorder_of_risky (hu : Uuid5Spec uuid5) (hd : payload.DistinctApplications)
    {a : EventAction φ} (hinv : EventInv uuid5 payload copied s) (hsent : Sent s)
    (hrisky : s.Risky uuid5 payload copied a)
    (h : eventStep env uuid5 payload instanceId copied s a = some t) :
    ∃ u, GoesOn env uuid5 payload instanceId copied t u ∧ ¬ u.Ordered := by
  have hinv' := eventInv_step hinv h
  cases eventSteps_of_step h with
  | @resumed r p given i hidle hresumes hcustom =>
    obtain ⟨hne, hannounces⟩ := hrisky
    obtain ⟨-, event, hevents⟩ :=
      (events_resume hresumes).resolve_right fun hquiet => hquiet.1 hannounces
    cases hsent with
    | alone hcalls => exact absurd hcalls hne
    | called hcalls _ hcustom' hsequence hahead hemitted =>
      refine disorder_of_announced hcalls hevents hidle hemitted ?_
      have hlast : p.events[s.yieldPoint.events.length]? = some event := by
        rw [hevents, List.getElem?_concat_length]
      have hnumber := sequence_of_event hu hd hinv'.refines hlast
      omega
  | @read occurredAt req =>
    obtain ⟨hprojects, hwhen⟩ := hrisky
    obtain ⟨-, call, hcall, hsequence, hstage⟩ :=
      (liveCall_cases env instanceId s.current occurredAt req).resolve_right
        fun hnot => hnot.1 hprojects
    rw [hcall] at hinv' ⊢
    cases hsent with
    | @called first hcalls hidle hcustom hfirst hahead hemitted =>
      have hcalls' : s.calls ++ (some call).toList = [first, call] := by
        rw [hcalls]
        rfl
      refine disorder_of_second hcalls' hemitted hstage ?_
      rw [hsequence, hfirst, hcustom]
    | alone hcalls hemitted =>
      have hcall' : (s.calls ++ (some call).toList)[0]? = some call := by
        rw [hcalls]
        rfl
      cases hbehind : s.yieldPoint.isBehind copied with
      | true =>
        have hle := nextSequence_of_isBehind hu hd hinv.refines hinv.published hbehind
        refine disorder_of_behind hu hd hinv' hemitted hcall' hstage ?_ (hsequence ▸ hle)
        rw [hsequence]
        exact nextSequence_pos _
      | false =>
        have hnotIdle : s.executed ≠ s.yieldPoint.events.length := by
          rw [hcalls, hbehind] at hwhen
          simpa [EventState.isIdle] using hwhen
        have hlt := hinv.executed_le.lt_of_ne hnotIdle
        have hahead := lt_nextSequence_of_refines hu hd hinv.refines
          (Bool.or_eq_false_iff.mp hbehind).1
        rw [← progress_of_published hinv.published hbehind, ← hsequence] at hahead
        have hevent := List.getElem?_eq_getElem hlt
        have hnumber := sequence_of_event hu hd hinv.refines hevent
        exact disorder_of_underWay hcall' hstage hevent (by omega)
  | completed | failed | terminated | executed | requested | projected => exact hrisky.elim

end Lemmas

end EventOrderLemmas

open EventOrderLemmas

section Histories
variable {env : Env φ} {uuid5 : String → String} {payload : BatchPayload} {instanceId : String}
  {copied : Bool} {input : Json φ} {now : String}

/-- After `start_new`. -/
theorem eventInv_started : EventInv uuid5 payload copied (.started input now) := by
  refine ⟨.notStarted, ?_, le_rfl, Nat.zero_le _⟩
  cases copied <;> exact rfl

/-- A history without a risky step. -/
theorem sent_exec (hu : Uuid5Spec uuid5) (hd : payload.DistinctApplications)
    {run : List (EventAction φ)} {s : EventState φ}
    (hsafe : Transition.Guarded (eventStep env uuid5 payload instanceId copied)
      (fun s a => ¬ s.Risky uuid5 payload copied a) (.started input now) run)
    (hrun : Transition.exec (eventStep env uuid5 payload instanceId copied) (.started input now)
      run = some s) : EventInv uuid5 payload copied s ∧ Sent s := by
  refine Transition.guarded_invariant (I := fun s => EventInv uuid5 payload copied s ∧ Sent s)
    (fun s a t hs hsafe h => ?_) ⟨eventInv_started, .alone rfl rfl⟩ hsafe hrun
  exact ⟨eventInv_step hs.1 h, sent_step hu hd hs.1 hs.2 hsafe h⟩

/-- What is under way is not risky. -/
theorem sent_goesOn (hu : Uuid5Spec uuid5) (hd : payload.DistinctApplications)
    {s u : EventState φ} (hinv : EventInv uuid5 payload copied s) (hsent : Sent s)
    {rest : List (EventAction φ)} (hrest : ∀ a ∈ rest, EventAction.goesOn a = true)
    (h : Transition.exec (eventStep env uuid5 payload instanceId copied) s rest = some u) :
    EventInv uuid5 payload copied u ∧ Sent u := by
  refine Transition.guarded_invariant (I := fun s => EventInv uuid5 payload copied s ∧ Sent s)
    (fun s a t hs ha h => ?_) ⟨hinv, hsent⟩ (Transition.guarded_of_forall hrest) h
  have hsafe : ¬ s.Risky uuid5 payload copied a := by
    cases a with
    | execute | request | project => exact id
    | resume | complete | fail | read | terminate => cases ha
  exact ⟨eventInv_step hs.1 h, sent_step hu hd hs.1 hs.2 hsafe h⟩

/-- The numbers of all live events of a batch are distinct and in the order of their
emission, at every point of a history and whatever of it then runs to its end, exactly
when no step of the history is risky. -/
theorem live_events_ordered_iff (hu : Uuid5Spec uuid5) (hd : payload.DistinctApplications)
    {run : List (EventAction φ)} {s : EventState φ}
    (hrun : Transition.exec (eventStep env uuid5 payload instanceId copied) (.started input now)
      run = some s) :
    (∀ before after rest u, run = before ++ after → (∀ a ∈ rest, EventAction.goesOn a = true) →
      Transition.exec (eventStep env uuid5 payload instanceId copied) (.started input now)
        (before ++ rest) = some u → u.Ordered) ↔
      Transition.Guarded (eventStep env uuid5 payload instanceId copied)
        (fun s a => ¬ s.Risky uuid5 payload copied a) (.started input now) run := by
  constructor
  · intro hordered
    by_contra hnot
    obtain ⟨before, a, after, t, v, rfl, hsafe, ht, hstep, hrisky⟩ :=
      Transition.exists_of_not_guarded hrun hnot
    obtain ⟨hinv, hsent⟩ := sent_exec hu hd hsafe ht
    obtain ⟨u, ⟨rest, hrest, hu'⟩, hdisorder⟩ :=
      disorder_of_risky hu hd hinv hsent (not_not.mp hrisky) hstep
    refine hdisorder (hordered (before ++ [a]) after rest u (by simp) hrest ?_)
    rw [Transition.exec_append, Transition.exec_snoc ht hstep]
    exact hu'
  · intro hsafe before after rest u heq hrest hu'
    subst heq
    rw [Transition.exec_append] at hu'
    obtain ⟨t, ht, htail⟩ := Option.bind_eq_some_iff.mp hu'
    obtain ⟨hinv, hsent⟩ := sent_exec hu hd hsafe.append_left ht
    obtain ⟨hinv', hsent'⟩ := sent_goesOn hu hd hinv hsent hrest htail
    exact ordered_of_sent hu hd hinv' hsent'

end Histories

namespace Sample

/-- A batch of two applications. -/
def livePayload : BatchPayload := payload batch1 ["app-1", "app-2"] 1

/-- The steps of the batch, with a copied custom status or without. -/
def liveStep (copied : Bool) : EventState ℚ → EventAction ℚ → Option (EventState ℚ) :=
  eventStep hostEnv uuid5 livePayload batch1 copied

/-- The batch is cancelled after it began. -/
def liveCancelled : List (EventAction ℚ) :=
  [.resume (.activities "2025-01-01T00:00:00+00:00"),
    .read "2025-01-01T00:01:00+00:00" (cancelRequest "client requested cancel"), .request 0,
    .project 0, .terminate]

/-- It is cancelled once more. -/
def liveCancelledAgain : List (EventAction ℚ) :=
  [.read "2025-01-01T00:02:00+00:00" (cancelRequest "client requested cancel"), .project 1]

end Sample

/-- Two cancellations of a batch have one number. -/
theorem cancellations_share_number :
    ∃ s, Transition.exec (Sample.liveStep false) (.started .null "2025-01-01T00:00:00+00:00")
        (Sample.liveCancelled ++ Sample.liveCancelledAgain) = some s ∧
      s.emitted.map (fun e => (e.eventType, e.sequence)) =
        [("batch.cancelling", 1), ("batch.cancelled", 1)] ∧ ¬ s.Ordered := by
  obtain ⟨s, hs, htypes, hnumbers⟩ : ∃ s,
      Transition.exec (Sample.liveStep false) (.started .null "2025-01-01T00:00:00+00:00")
          (Sample.liveCancelled ++ Sample.liveCancelledAgain) = some s ∧
        s.emitted.map (fun e => (e.eventType, e.sequence)) =
          [("batch.cancelling", 1), ("batch.cancelled", 1)] ∧
        s.emitted.map LiveEvent.sequence = [1, 1] := ⟨_, rfl, rfl, rfl⟩
  refine ⟨s, hs, htypes, fun hordered => ?_⟩
  unfold EventState.Ordered at hordered
  rw [hnumbers] at hordered
  exact absurd hordered (by decide)

/-- The theorem on the same batch with its first cancellation. -/
theorem live_events_ordered_iff_sample :
    (∀ before after rest u, Sample.liveCancelled = before ++ after →
      (∀ a ∈ rest, EventAction.goesOn a = true) →
      Transition.exec (Sample.liveStep false) (.started .null "2025-01-01T00:00:00+00:00")
        (before ++ rest) = some u → u.Ordered) ↔
      Transition.Guarded (Sample.liveStep false)
        (fun s a => ¬ s.Risky Sample.uuid5 Sample.livePayload false a)
        (.started .null "2025-01-01T00:00:00+00:00") Sample.liveCancelled := by
  obtain ⟨s, hs⟩ : ∃ s, Transition.exec (Sample.liveStep false)
      (.started .null "2025-01-01T00:00:00+00:00") Sample.liveCancelled = some s := ⟨_, rfl⟩
  exact live_events_ordered_iff Sample.uuid5_spec (by decide) hs

end TalentMatch
