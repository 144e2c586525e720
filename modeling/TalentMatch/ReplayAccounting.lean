import TalentMatch.DlqReplay

/-!
# Replay accounts for every message

What `http_dlq_replay` does about a list of dead-lettered messages, each with its own
pattern of failures, is what it does about each message alone, one after the other.

Results:
1. `replayOne_handled`: the four ways in which one message is handled.
2. `replayFrom_eq`: the loop is the concatenation of what it does about each message.
3. `replay_accounts`: a message is completed only after it was sent or as poison, what
   is sent carries on what was received, and every message is counted once.
4. `empty_message_id_dropped`: an empty message id is not carried on, the client's own
   id for a new message takes its place.
-/

namespace TalentMatch

open Json (LoadsError)

variable {φ : Type}

/-! ## 1. One message -/

section Handled
variable (client : QueueClient) (loads : String → Except LoadsError (Json φ)) (isZero : φ → Bool)

/-- A completion that replay takes for poison: its body is read, and it does not name
its run or its status. -/
def Poison (kind : QueueKind) (fault : ReplayFault) (message : QueueMessage) : Prop :=
  kind = .results ∧ ∃ text parsed, readBody client fault message = .ok text ∧
    parseJsonPayload loads text = .ok parsed ∧
    (missing isZero parsed "run_id" || missing isZero parsed "status") = true

/-- The message that is sent for the one at a position carries on what was received. An
empty correlation id counts as none, and for an empty or missing message id there is the
one that the client gives a new message. -/
structure CarriesOn (position : Nat) (received sent : QueueMessage) : Prop where
  body : sent.body = received.body
  messageId : sent.messageId = (nonEmpty received.messageId).or (client.newMessageId position)
  correlationId : sent.correlationId = nonEmpty received.correlationId
  applicationProperties : sent.applicationProperties = received.applicationProperties

/-- What the loop does about the message at a position, by itself. -/
def replayAlone (kind : QueueKind) (faults : Nat → ReplayFault) (position : Nat)
    (message : QueueMessage) : ReplayState :=
  replayOne client loads isZero kind (faults position) .initial position message

/-- The ways in which a message is handled. -/
inductive Handled (kind : QueueKind) (fault : ReplayFault) (position : Nat)
    (message : QueueMessage) : ReplayState → Prop
  | kept (error : ReplayError) :
      Handled kind fault position message ⟨[], 0, [⟨message.messageId, error⟩]⟩
  | sent {sent : QueueMessage} (error : ReplayError) : CarriesOn client position message sent →
      Handled kind fault position message ⟨[.send position sent], 0, [⟨message.messageId, error⟩]⟩
  | replayed {sent : QueueMessage} : CarriesOn client position message sent →
      Handled kind fault position message ⟨[.send position sent, .complete position], 1, []⟩
  | poison (error : ReplayError) : Poison client loads isZero kind fault message →
      Handled kind fault position message ⟨[.complete position], 0, [⟨message.messageId, error⟩]⟩

end Handled

/-- The effects and counts of one state after those of another. -/
def ReplayState.append (s t : ReplayState) : ReplayState where
  effects := s.effects ++ t.effects
  replayed := s.replayed + t.replayed
  failed := s.failed ++ t.failed

/-- One after the other. -/
def ReplayState.join (states : List ReplayState) : ReplayState :=
  states.foldr ReplayState.append .initial

/-- What the loop does about each of the messages, by itself. -/
def replayEach (client : QueueClient) (loads : String → Except LoadsError (Json φ))
    (isZero : φ → Bool) (kind : QueueKind) (faults : Nat → ReplayFault) (position : Nat)
    (messages : List QueueMessage) : List ReplayState :=
  (messages.zipIdx position).map fun p => replayAlone client loads isZero kind faults p.2 p.1

/-- The replay accounts for the received messages. -/
structure ReplayAccounts (client : QueueClient) (loads : String → Except LoadsError (Json φ))
    (isZero : φ → Bool) (kind : QueueKind) (faults : Nat → ReplayFault)
    (received : List QueueMessage) (s : ReplayState) : Prop where
  /-- What is not poison is still on the dead-letter queue, or was sent. -/
  kept : ∀ n message, received[n]? = some message →
    ¬ Poison client loads isZero kind (faults n) message →
    .complete n ∉ s.effects ∨ ∃ sent, .send n sent ∈ s.effects ∧ CarriesOn client n message sent
  /-- A message is completed after it was sent, or as poison. -/
  completed : ∀ before after n, s.effects = before ++ .complete n :: after →
    ∃ message, received[n]? = some message ∧
      (Poison client loads isZero kind (faults n) message ∨
        ∃ sent, .send n sent ∈ before ∧ CarriesOn client n message sent)
  /-- What is done about a message depends on that message and its own failures. -/
  independent : s = .join (replayEach client loads isZero kind faults 0 received)
  /-- Every message is counted once. -/
  once : ∀ own ∈ replayEach client loads isZero kind faults 0 received,
    own.replayed + own.failed.length = 1
  counted : s.replayed + s.failed.length = received.length

namespace ReplayAccountingLemmas

variable {client : QueueClient} {loads : String → Except LoadsError (Json φ)} {isZero : φ → Bool}

theorem carriesOn_replayMessage (position : Nat) {message : QueueMessage} {body : String}
    (h : decodeUtf8 message.body = some body) :
    CarriesOn client position message (replayMessage client position message body) where
  body := DlqReplayLemmas.toByteArray_of_decodeUtf8 h
  messageId := rfl
  correlationId := rfl
  applicationProperties := rfl

theorem sendAndComplete_handled (kind : QueueKind) (fault : ReplayFault) (position : Nat)
    {message : QueueMessage} {body : String} (h : decodeUtf8 message.body = some body) :
    Handled client loads isZero kind fault position message
      (sendAndComplete client fault .initial position message body) := by
  unfold sendAndComplete
  cases fault.send with
  | some error => exact .kept _
  | none =>
    cases fault.complete with
    | some error => exact .sent _ (carriesOn_replayMessage position h)
    | none => exact .replayed (carriesOn_replayMessage position h)

variable (loads isZero) in
theorem replayOne_handled (hreads : client.ReadsBodies) (kind : QueueKind)
    (faults : Nat → ReplayFault) (position : Nat) (message : QueueMessage) :
    Handled client loads isZero kind (faults position) position message
      (replayAlone client loads isZero kind faults position message) := by
  unfold replayAlone replayOne
  cases hbody : readBody client (faults position) message with
  | error error => exact .kept _
  | ok text =>
    have htext := DlqReplayLemmas.decodeUtf8_of_readBody hreads hbody
    cases kind with
    | runs => exact sendAndComplete_handled .runs (faults position) position htext
    | results =>
      simp only
      cases hparsed : parseJsonPayload loads text with
      | error e => exact .kept _
      | ok parsed =>
        simp only
        split
        · next hmissing =>
          unfold completePoison
          cases (faults position).complete with
          | some error => exact .kept _
          | none => exact .poison _ ⟨rfl, text, parsed, hbody, hparsed, hmissing⟩
        · exact sendAndComplete_handled .results (faults position) position htext

theorem sendAndComplete_append (fault : ReplayFault) (s : ReplayState) (position : Nat)
    (message : QueueMessage) (body : String) :
    sendAndComplete client fault s position message body =
      s.append (sendAndComplete client fault .initial position message body) := by
  unfold sendAndComplete
  cases fault.send with
  | some error => simp [ReplayState.fail, ReplayState.append, ReplayState.initial]
  | none =>
    cases fault.complete with
    | some error => simp [ReplayState.fail, ReplayState.append, ReplayState.initial]
    | none => simp [ReplayState.append, ReplayState.initial]

theorem completePoison_append (fault : ReplayFault) (s : ReplayState) (position : Nat)
    (message : QueueMessage) :
    completePoison fault s position message =
      s.append (completePoison fault .initial position message) := by
  unfold completePoison
  cases fault.complete with
  | some error => simp [ReplayState.fail, ReplayState.append, ReplayState.initial]
  | none => simp [ReplayState.fail, ReplayState.append, ReplayState.initial]

variable (client loads isZero) in
/-- What is done about a message does not depend on what was done before. -/
theorem replayOne_eq_append (kind : QueueKind) (fault : ReplayFault) (s : ReplayState)
    (position : Nat) (message : QueueMessage) :
    replayOne client loads isZero kind fault s position message =
      s.append (replayOne client loads isZero kind fault .initial position message) := by
  unfold replayOne
  split
  · simp [ReplayState.fail, ReplayState.append, ReplayState.initial]
  · cases kind with
    | runs => exact sendAndComplete_append fault s position message _
    | results =>
      simp only
      split
      · simp [ReplayState.fail, ReplayState.append, ReplayState.initial]
      · split
        · exact completePoison_append fault s position message
        · exact sendAndComplete_append fault s position message _

/-! ## 2. All messages -/

theorem append_assoc (s t u : ReplayState) : (s.append t).append u = s.append (t.append u) := by
  simp [ReplayState.append, List.append_assoc, Nat.add_assoc]

theorem replayEach_cons (kind : QueueKind) (faults : Nat → ReplayFault) (position : Nat)
    (message : QueueMessage) (rest : List QueueMessage) :
    replayEach client loads isZero kind faults position (message :: rest) =
      replayAlone client loads isZero kind faults position message ::
        replayEach client loads isZero kind faults (position + 1) rest := by
  rw [replayEach, List.zipIdx_cons, List.map_cons]
  rfl

variable (client loads isZero) in
/-- The loop does about each message what it does about that message alone. -/
theorem replayFrom_eq (kind : QueueKind) (faults : Nat → ReplayFault) (s : ReplayState)
    (position : Nat) (rest : List QueueMessage) :
    replayFrom client loads isZero kind faults s position rest =
      s.append (.join (replayEach client loads isZero kind faults position rest)) := by
  induction rest generalizing s position with
  | nil => simp [replayFrom, replayEach, ReplayState.join, ReplayState.append, ReplayState.initial]
  | cons message rest ih =>
    rw [replayFrom, replayOne_eq_append, ih, append_assoc, replayEach_cons]
    rfl

/-- One message is counted once. -/
theorem handled_once {kind : QueueKind} {fault : ReplayFault} {position : Nat}
    {message : QueueMessage} {s : ReplayState}
    (h : Handled client loads isZero kind fault position message s) :
    s.replayed + s.failed.length = 1 := by
  cases h <;> rfl

theorem join_counted {states : List ReplayState}
    (h : ∀ own ∈ states, own.replayed + own.failed.length = 1) :
    (ReplayState.join states).replayed + (ReplayState.join states).failed.length =
      states.length := by
  induction states with
  | nil => rfl
  | cons own states ih =>
    have hown := h own List.mem_cons_self
    have hrest := ih fun t ht => h t (List.mem_cons_of_mem own ht)
    show own.replayed + (ReplayState.join states).replayed +
      (own.failed ++ (ReplayState.join states).failed).length = states.length + 1
    rw [List.length_append]
    omega

/-- A completion by the handling of one message: the message was sent before, or is
poison. -/
theorem completed_of_handled {kind : QueueKind} {fault : ReplayFault} {position : Nat}
    {message : QueueMessage} {s : ReplayState}
    (h : Handled client loads isZero kind fault position message s)
    {before after : List ReplayEffect} {n : Nat} (heq : s.effects = before ++ .complete n :: after) :
    n = position ∧ (Poison client loads isZero kind fault message ∨
      ∃ sent, .send position sent ∈ before ∧ CarriesOn client position message sent) := by
  cases h with
  | kept => simp at heq
  | sent =>
    rcases List.singleton_eq_append_iff.mp heq with ⟨-, hcons⟩ | ⟨-, hnil⟩
    · cases hcons
    · cases hnil
  | @replayed sent hcarries =>
    rcases before with - | ⟨e, before⟩
    · cases heq
    · rw [List.cons_append, List.cons.injEq] at heq
      obtain ⟨rfl, htail⟩ := heq
      rcases List.singleton_eq_append_iff.mp htail with ⟨-, hcons⟩ | ⟨-, hnil⟩
      · cases hcons
        exact ⟨rfl, .inr ⟨sent, List.mem_cons_self, hcarries⟩⟩
      · cases hnil
  | poison _ hpoison =>
    rcases List.singleton_eq_append_iff.mp heq with ⟨-, hcons⟩ | ⟨-, hnil⟩
    · cases hcons
      exact ⟨rfl, .inl hpoison⟩
    · cases hnil

variable (loads isZero) in
/-- A completion by the whole loop. -/
theorem completed_of_join (hreads : client.ReadsBodies) (kind : QueueKind)
    (faults : Nat → ReplayFault) (position : Nat) {messages : List QueueMessage}
    (before : List ReplayEffect) {after : List ReplayEffect} {n : Nat}
    (heq : (ReplayState.join (replayEach client loads isZero kind faults position messages)).effects =
      before ++ .complete n :: after) :
    ∃ i message, messages[i]? = some message ∧ n = position + i ∧
      (Poison client loads isZero kind (faults n) message ∨
        ∃ sent, .send n sent ∈ before ∧ CarriesOn client n message sent) := by
  induction messages generalizing position before with
  | nil => simp [replayEach, ReplayState.join, ReplayState.initial] at heq
  | cons message rest ih =>
    rw [replayEach_cons] at heq
    have hparts : (replayAlone client loads isZero kind faults position message).effects ++
        (ReplayState.join (replayEach client loads isZero kind faults (position + 1) rest)).effects =
          before ++ .complete n :: after := heq
    -- the completion belongs to a later message, or to the first one
    rcases List.append_eq_append_iff.mp hparts with ⟨between, hbefore, hlater⟩ | ⟨own, hown, hafter⟩
    · obtain ⟨i, message', hi, hn, hcase⟩ := ih (position + 1) _ hlater
      refine ⟨i + 1, message', hi, by omega, hcase.imp_right ?_⟩
      rintro ⟨sent, hsent, hcarries⟩
      exact ⟨sent, by rw [hbefore]; exact List.mem_append_right _ hsent, hcarries⟩
    · cases own with
      | nil =>
        rw [List.append_nil] at hown
        obtain ⟨i, message', hi, hn, hcase⟩ := ih (position + 1) [] hafter.symm
        refine ⟨i + 1, message', hi, by omega, hcase.imp_right ?_⟩
        rintro ⟨sent, hsent, -⟩
        cases hsent
      | cons e own =>
        rw [List.cons_append, List.cons.injEq] at hafter
        obtain ⟨rfl, -⟩ := hafter
        obtain ⟨rfl, hcase⟩ := completed_of_handled
          (replayOne_handled loads isZero hreads kind faults position message) hown
        exact ⟨0, message, rfl, rfl, hcase⟩

end ReplayAccountingLemmas

open ReplayAccountingLemmas

/-- Replay accounts for every received message, whatever fails. -/
theorem replay_accounts {client : QueueClient} {loads : String → Except LoadsError (Json φ)}
    {isZero : φ → Bool} (hreads : client.ReadsBodies) {kind : String} {received : List QueueMessage}
    {faults : Nat → ReplayFault} {s : ReplayState}
    (h : httpDlqReplay client loads isZero kind received faults = some s) :
    ∃ k, resolveQueue kind = some k ∧ ReplayAccounts client loads isZero k faults received s := by
  obtain ⟨k, hk, hs⟩ := Option.map_eq_some_iff.mp h
  have hjoin : s = .join (replayEach client loads isZero k faults 0 received) := by
    rw [← hs, replayFrom_eq]
    simp [ReplayState.append, ReplayState.initial]
  have hcompleted : ∀ before after n, s.effects = before ++ .complete n :: after →
      ∃ message, received[n]? = some message ∧
        (Poison client loads isZero k (faults n) message ∨
          ∃ sent, .send n sent ∈ before ∧ CarriesOn client n message sent) := by
    intro before after n heq
    rw [hjoin] at heq
    obtain ⟨i, message, hi, hn, hcase⟩ :=
      completed_of_join loads isZero hreads k faults 0 before heq
    rw [Nat.zero_add] at hn
    exact ⟨message, hn ▸ hi, hcase⟩
  have honce : ∀ own ∈ replayEach client loads isZero k faults 0 received,
      own.replayed + own.failed.length = 1 := by
    intro own hown
    obtain ⟨p, -, rfl⟩ := List.mem_map.mp hown
    exact handled_once (replayOne_handled loads isZero hreads k faults p.2 p.1)
  refine ⟨k, hk, ?_, hcompleted, hjoin, honce, ?_⟩
  · intro n message hn hpoison
    by_cases hin : .complete n ∈ s.effects
    · obtain ⟨before, after, heq⟩ := List.append_of_mem hin
      obtain ⟨message', hn', hcase⟩ := hcompleted before after n heq
      rw [hn] at hn'
      cases hn'
      obtain ⟨sent, hsent, hcarries⟩ := hcase.resolve_left hpoison
      exact .inr ⟨sent, by rw [heq]; exact List.mem_append_left _ hsent, hcarries⟩
    · exact .inl hin
  · rw [hjoin, join_counted honce, replayEach, List.length_map, List.length_zipIdx]

namespace Sample

/-- A dispatch message with an empty message id. -/
def unnamedDeadLetter : QueueMessage := { aliasedDeadLetter with messageId := some "" }

/-- What is sent for it: the client's own id takes the place of the empty one. -/
theorem replay_unnamed :
    httpDlqReplay byteClient loads isZero "runs" [unnamedDeadLetter] noFaults = some
      ⟨[.send 0 (replayMessage byteClient 0 unnamedDeadLetter aliasedBody), .complete 0], 1, []⟩ := by
  have hbody : readBody byteClient (noFaults 0) unnamedDeadLetter = .ok aliasedBody :=
    DlqReplayLemmas.readBody_of_readable byteClient_reads (decodeUtf8_toByteArray aliasedBody)
      (byteClient_readable _)
  simp only [httpDlqReplay, resolveQueue, Option.map_some, replayFrom, replayOne, hbody]
  rfl

/-- A client that does not convert messages: both are kept, each with its own error. -/
theorem replay_unconverted :
    httpDlqReplay unconvertingClient loads isZero "results" [aliasedDeadLetter, unnamedDeadLetter]
      (fun n => if n = 0 then ⟨some "the lock has expired", none, none⟩ else noFaults n) = some
      { effects := []
        replayed := 0
        failed :=
          [⟨some "m-1", .text "the lock has expired"⟩,
            ⟨some "", .text "cannot convert 'ServiceBusReceivedMessage' object to bytes"⟩] } := rfl

end Sample

/-- Replay of one message, which is sent and completed, and of two that are kept. -/
theorem replay_accounts_sample :
    (∃ k, resolveQueue "runs" = some k ∧
      ReplayAccounts Sample.byteClient Sample.loads Sample.isZero k noFaults
        [Sample.unnamedDeadLetter]
        ⟨[.send 0 (replayMessage Sample.byteClient 0 Sample.unnamedDeadLetter Sample.aliasedBody),
          .complete 0], 1, []⟩) ∧
      ∃ k s, resolveQueue "results" = some k ∧
        ReplayAccounts Sample.unconvertingClient Sample.loads Sample.isZero k
          (fun n => if n = 0 then ⟨some "the lock has expired", none, none⟩ else noFaults n)
          [Sample.aliasedDeadLetter, Sample.unnamedDeadLetter] s ∧
        s.effects = [] ∧ s.replayed = 0 := by
  refine ⟨replay_accounts Sample.byteClient_reads Sample.replay_unnamed, ?_⟩
  obtain ⟨k, hk, haccounts⟩ :=
    replay_accounts Sample.unconvertingClient_reads Sample.replay_unconverted
  exact ⟨k, _, hk, haccounts, rfl, rfl⟩

/-- An empty message id is not carried on: the message that is sent has the id that the
client gave it. -/
theorem empty_message_id_dropped :
    ¬ ∀ (kind : String) (received : List QueueMessage) (faults : Nat → ReplayFault)
        (s : ReplayState),
        httpDlqReplay Sample.byteClient Sample.loads Sample.isZero kind received faults = some s →
        ∀ k, resolveQueue kind = some k → ∀ n message, received[n]? = some message →
          ¬ Poison Sample.byteClient Sample.loads Sample.isZero k (faults n) message →
          .complete n ∉ s.effects ∨ ∃ sent, .send n sent ∈ s.effects ∧ sent.body = message.body ∧
            sent.messageId = message.messageId ∧ sent.correlationId = message.correlationId ∧
            sent.applicationProperties = message.applicationProperties := by
  intro h
  have hcase := h "runs" _ _ _ Sample.replay_unnamed .runs rfl 0 _ rfl fun hpoison => by
    cases hpoison.1
  rcases hcase with hnot | ⟨sent, hsent, -, hid, -⟩
  · exact hnot (List.mem_cons_of_mem _ List.mem_cons_self)
  · rcases List.mem_cons.mp hsent with heq | hin
    · cases heq
      have hgiven : (replayMessage Sample.byteClient 0 Sample.unnamedDeadLetter
          Sample.aliasedBody).messageId = some "0f9d2c7e-5d1b-4a53-9c39-1b7a5a0a6a11" := rfl
      rw [hgiven] at hid
      exact absurd hid (by decide)
    · rcases List.mem_singleton.mp hin with ⟨⟩

end TalentMatch
