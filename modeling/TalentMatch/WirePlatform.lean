import TalentMatch.Platform
import TalentMatch.WireTexts

/-!
# The platform on the wire

The platform with everything that leaves a process as text: run-index blobs, the
bodies on `engine-runs` and `engine-results`, the outputs in blob storage and the
payloads of external events. The fake engine works on `engine-runs`. It can be
redelivered a message that it has completed, and it can stop between writing an
output and sending the completion. All parties interleave in any order.

Results:
1. `wire_refines_platform`: every run is matched by a run of the typed platform
   without injected deliveries, so what holds of that holds of the texts.
-/

namespace TalentMatch

open Json (LoadsError Layout FloatWriter Keyed)
open ClaimOnce IntakeState

variable {φ : Type}

/-! ## 1. States and steps -/

/-- What the runtime and the deployment fix: the hash of ids, the batches, floats and their
texts, the settings of the fake engine, and the input blobs with their digest. -/
structure WireEnv (φ : Type) where
  uuid5 : String → String
  promptBlobUri : String → String
  batches : List BatchPayload
  float : String → φ
  writer : FloatWriter float
  eventLayout : Layout
  num : Numerics φ
  str : Json φ → String
  order : SetOrder
  settings : FakeSettings
  readBlob : String → Option ByteArray
  sha256 : ByteArray → String

/-- The state of the platform, with texts. -/
structure WireState (φ : Type) where
  dispatches : List DispatchExec
  runIndex : String → Option String
  engineRuns : List (ServiceBusMessage φ)
  engineResults : List (ServiceBusMessage φ)
  artifacts : String → Option String
  intake : IntakeState
  instances : String → Option (Instance (Option (CvAggregate φ)))
  delivered : List Nat

/-- What can happen next. A handler receives application properties as texts or as bytes, and an
event arrives as a dictionary or as text. -/
inductive WireAction (φ : Type) where
  | startBatch (batchId createdAt : String)
  | dispatch (batchId : String) (position : Nat)
  | writeIndex (n : Nat) (dispatchedAt : String)
  | sendRun (n : Nat) (messageId : String)
  | awaitResults (batchId dispatchedAt : String)
  | completeRun (n : Nat)
  | fakeRun (n : Nat) (draw : FakeDraw φ) (asBytes : Bool)
  | fakeStop (n : Nat) (draw : FakeDraw φ) (asBytes : Bool)
  | deliver (n : Nat) (asBytes : Bool)
  | intake (a : IntakeAction)
  | consume (n : Nat) (occurredAt : String) (asText : Bool)
  | finish (batchId finishedAt : String)

namespace WireState

def initial : WireState φ where
  dispatches := []
  runIndex := fun _ => none
  engineRuns := []
  engineResults := []
  artifacts := fun _ => none
  intake := State.initial
  instances := fun _ => none
  delivered := []

def setInstance (w : WireState φ) (batchId : String)
    (inst : Instance (Option (CvAggregate φ))) : WireState φ :=
  { w with instances := Function.update w.instances batchId (some inst) }

/-- After a blob was written, if there is one. -/
def store (w : WireState φ) : Option (String × String) → WireState φ
  | some (url, text) => { w with artifacts := Function.update w.artifacts url (some text) }
  | none => w

end WireState

section Wire
variable (env : WireEnv φ)

/-- The fake engine on a message. -/
def WireEnv.runEngine (draw : FakeDraw φ) (asBytes : Bool) (m : ServiceBusMessage φ) :
    Except FakeError (FakeOutput φ) :=
  fakeEngineRun (Json.loads env.float) env.num.isZero env.str env.writer.repr env.num.zero
    env.settings draw m.body.toByteArray (m.received env.num.isZero env.str asBytes)

/-- `sb_result_handler` on a message. -/
def WireEnv.readCompletion (asBytes : Bool) (m : ServiceBusMessage φ) : Option Delivery :=
  sbDelivery (Json.loads env.float) env.num.isZero env.str m.body.toByteArray
    (m.receivedTexts env.str asBytes)

/-- `_lookup_batch_id`. -/
def WireState.lookupBatchId (w : WireState φ) (runId : String) :
    Except LookupError (Option String) :=
  lookupRunIndex (Json.loads env.float) (w.runIndex runId)

/-- What a lookup finds, when it does not raise. -/
def WireState.found (w : WireState φ) (runId : String) : Option String :=
  (w.lookupBatchId env runId).toOption.join

/-- The handler of the action can go on: deliveries are steps of their own, and a lookup must
not raise. -/
def WireState.intakeReady (w : WireState φ) : IntakeAction → Bool
  | .deliver _ => false
  | .lookup n => (w.intake.jobOf n).all fun d => (w.lookupBatchId env d.runId).isOk
  | _ => true

/-- The result that the orchestrator reads off an event. -/
def WireEnv.readEvent (asText : Bool) (d : Delivery) : Option RunResult :=
  match coerceRunResultPayload (Json.loads env.float)
      (d.arrives env.eventLayout env.writer.repr asText) with
  | .ok fields => readRunResult fields
  | .error _ => none

/-- The document of `finalize_batch`, with the outputs that are stored. -/
def WireEnv.finalize (w : WireState φ) (payload : BatchPayload) (o : OrchState) :
    Option (List (CvBlock (Option (CvAggregate φ)))) :=
  (finalizeInput env.uuid5 payload o).bind fun entries =>
    (finalizeDocument env.num env.str env.order (readStored env.float w.artifacts) payload.cvs
      entries).toOption

/-- One step of some party. An exception leaves no trace: Durable fails the activity, and a
queue delivers the message again. -/
def wireStep (w : WireState φ) : WireAction φ → Option (WireState φ)
  | .startBatch batchId createdAt =>
    match findBatch env.batches batchId, w.instances batchId with
    | some _, none => some (w.setInstance batchId (.dispatching createdAt))
    | _, _ => none
  | .dispatch batchId position =>
    match findBatch env.batches batchId, w.instances batchId with
    | some payload, some _ =>
      match (payload.dispatchInputs env.uuid5 (env.promptBlobUri batchId))[position]? with
      | some inp => some { w with dispatches := w.dispatches ++ [⟨inp, .started⟩] }
      | none => none
    | _, _ => none
  | .writeIndex n dispatchedAt =>
    match w.dispatches[n]? with
    | some ⟨inp, .started⟩ =>
      match verifyInputBlobSha256 env.readBlob env.sha256 inp.blobUri inp.sha256 with
      | .ok () =>
        some { w with
          dispatches := w.dispatches.set n ⟨inp, .indexed dispatchedAt⟩
          runIndex := Function.update w.runIndex inp.runId
            (some ((inp.indexEntry dispatchedAt).text env.writer.repr)) }
      | .error _ => none
    | _ => none
  | .sendRun n messageId =>
    match w.dispatches[n]? with
    | some ⟨inp, .indexed dispatchedAt⟩ =>
      some { w with
        dispatches := w.dispatches.set n ⟨inp, .sent⟩
        engineRuns := w.engineRuns ++
          [(inp.runMessage messageId dispatchedAt).queued env.writer.repr] }
    | _ => none
  | .awaitResults batchId dispatchedAt =>
    match findBatch env.batches batchId, w.instances batchId with
    | some payload, some (.dispatching createdAt) =>
      if ∀ inp ∈ payload.dispatchInputs env.uuid5 (env.promptBlobUri batchId),
          ⟨inp, .sent⟩ ∈ w.dispatches then
        (start env.uuid5 payload createdAt dispatchedAt).map fun o =>
          w.setInstance batchId (.waiting o)
      else none
    | _, _ => none
  | .completeRun n =>
    if n < w.engineRuns.length then some { w with engineRuns := w.engineRuns.eraseIdx n } else none
  | .fakeRun n draw asBytes =>
    match w.engineRuns[n]? with
    | some m =>
      match env.runEngine draw asBytes m with
      | .ok out =>
        some { w.store out.artifact with engineResults := w.engineResults ++ [out.result] }
      | .error _ => none
    | none => none
  | .fakeStop n draw asBytes =>
    match w.engineRuns[n]? with
    | some m =>
      match env.runEngine draw asBytes m with
      | .ok out => some (w.store out.artifact)
      | .error _ => none
    | none => none
  | .deliver n asBytes =>
    match w.engineResults[n]? with
    | some m =>
      match env.readCompletion asBytes m with
      | some d =>
        (intakeStep (w.found env) w.intake (.deliver d)).map fun i => { w with intake := i }
      | none => none
    | none => none
  | .intake a =>
    if w.intakeReady env a then
      (intakeStep (w.found env) w.intake a).map fun i => { w with intake := i }
    else none
  | .consume n occurredAt asText =>
    match w.intake.published.find? fun p => p.1 = n with
    | none => none
    | some (_, batchId) =>
      match w.intake.jobOf n, findBatch env.batches batchId, w.instances batchId with
      | some d, some payload, some (.waiting o) =>
        if n ∈ w.delivered then none
        else
          (env.readEvent asText d).bind fun rr =>
            (consume env.uuid5 payload o ⟨rr, occurredAt⟩).map fun o' =>
              { w.setInstance batchId (.waiting o') with delivered := n :: w.delivered }
      | _, _, _ => none
  | .finish batchId finishedAt =>
    match findBatch env.batches batchId, w.instances batchId with
    | some payload, some (.waiting o) =>
      if o.pendingEvents = [] then
        (env.finalize w payload o).bind fun document =>
          (finish payload o finishedAt).map fun o' =>
            w.setInstance batchId (.finished o' document)
      else none
    | _, _ => none

/-- What a step can do. -/
inductive WireSteps (w : WireState φ) : WireAction φ → WireState φ → Prop
  | startBatch {batchId createdAt : String} {payload : BatchPayload}
      (hp : findBatch env.batches batchId = some payload) (hnone : w.instances batchId = none) :
      WireSteps w (.startBatch batchId createdAt) (w.setInstance batchId (.dispatching createdAt))
  | dispatch {batchId : String} {position : Nat} {payload : BatchPayload} {inp : DispatchRunInput}
      {inst : Instance (Option (CvAggregate φ))}
      (hp : findBatch env.batches batchId = some payload) (hi : w.instances batchId = some inst)
      (hinp : (payload.dispatchInputs env.uuid5 (env.promptBlobUri batchId))[position]? = some inp) :
      WireSteps w (.dispatch batchId position)
        { w with dispatches := w.dispatches ++ [⟨inp, .started⟩] }
  | writeIndex {n : Nat} {dispatchedAt : String} {inp : DispatchRunInput}
      (hn : w.dispatches[n]? = some ⟨inp, .started⟩)
      (hv : verifyInputBlobSha256 env.readBlob env.sha256 inp.blobUri inp.sha256 = .ok ()) :
      WireSteps w (.writeIndex n dispatchedAt)
        { w with
          dispatches := w.dispatches.set n ⟨inp, .indexed dispatchedAt⟩
          runIndex := Function.update w.runIndex inp.runId
            (some ((inp.indexEntry dispatchedAt).text env.writer.repr)) }
  | sendRun {n : Nat} {messageId dispatchedAt : String} {inp : DispatchRunInput}
      (hn : w.dispatches[n]? = some ⟨inp, .indexed dispatchedAt⟩) :
      WireSteps w (.sendRun n messageId)
        { w with
          dispatches := w.dispatches.set n ⟨inp, .sent⟩
          engineRuns := w.engineRuns ++
            [(inp.runMessage messageId dispatchedAt).queued env.writer.repr] }
  | awaitResults {batchId dispatchedAt createdAt : String} {payload : BatchPayload} {o : OrchState}
      (hp : findBatch env.batches batchId = some payload)
      (hi : w.instances batchId = some (.dispatching createdAt))
      (hsent : ∀ inp ∈ payload.dispatchInputs env.uuid5 (env.promptBlobUri batchId),
        ⟨inp, .sent⟩ ∈ w.dispatches)
      (ho : start env.uuid5 payload createdAt dispatchedAt = some o) :
      WireSteps w (.awaitResults batchId dispatchedAt) (w.setInstance batchId (.waiting o))
  | completeRun {n : Nat} (hn : n < w.engineRuns.length) :
      WireSteps w (.completeRun n) { w with engineRuns := w.engineRuns.eraseIdx n }
  | fakeRun {n : Nat} {draw : FakeDraw φ} {asBytes : Bool} {m : ServiceBusMessage φ} {out : FakeOutput φ}
      (hm : w.engineRuns[n]? = some m) (hout : env.runEngine draw asBytes m = .ok out) :
      WireSteps w (.fakeRun n draw asBytes)
        { w.store out.artifact with engineResults := w.engineResults ++ [out.result] }
  | fakeStop {n : Nat} {draw : FakeDraw φ} {asBytes : Bool} {m : ServiceBusMessage φ} {out : FakeOutput φ}
      (hm : w.engineRuns[n]? = some m) (hout : env.runEngine draw asBytes m = .ok out) :
      WireSteps w (.fakeStop n draw asBytes) (w.store out.artifact)
  | deliver {n : Nat} {asBytes : Bool} {m : ServiceBusMessage φ} {d : Delivery} {i : IntakeState}
      (hm : w.engineResults[n]? = some m) (hd : env.readCompletion asBytes m = some d)
      (hi : intakeStep (w.found env) w.intake (.deliver d) = some i) :
      WireSteps w (.deliver n asBytes) { w with intake := i }
  | intake {a : IntakeAction} {i : IntakeState} (hready : w.intakeReady env a = true)
      (hi : intakeStep (w.found env) w.intake a = some i) :
      WireSteps w (.intake a) { w with intake := i }
  | consume {n : Nat} {batchId occurredAt : String} {asText : Bool} {d : Delivery}
      {payload : BatchPayload} {rr : RunResult} {o o' : OrchState}
      (hpub : (w.intake.published.find? fun p => p.1 = n) = some (n, batchId))
      (hd : w.intake.jobOf n = some d) (hp : findBatch env.batches batchId = some payload)
      (hi : w.instances batchId = some (.waiting o)) (hn : n ∉ w.delivered)
      (hrr : env.readEvent asText d = some rr)
      (ho : consume env.uuid5 payload o ⟨rr, occurredAt⟩ = some o') :
      WireSteps w (.consume n occurredAt asText)
        { w.setInstance batchId (.waiting o') with delivered := n :: w.delivered }
  | finish {batchId finishedAt : String} {payload : BatchPayload} {o o' : OrchState}
      {document : List (CvBlock (Option (CvAggregate φ)))}
      (hp : findBatch env.batches batchId = some payload)
      (hi : w.instances batchId = some (.waiting o)) (hpend : o.pendingEvents = [])
      (hdoc : env.finalize w payload o = some document)
      (ho : TalentMatch.finish payload o finishedAt = some o') :
      WireSteps w (.finish batchId finishedAt) (w.setInstance batchId (.finished o' document))

end Wire

namespace WirePlatformLemmas

variable {env : WireEnv φ} {w w' : WireState φ} {a : WireAction φ}

theorem wireSteps_of_step (h : wireStep env w a = some w') : WireSteps env w a w' := by
  cases a with
  | startBatch batchId createdAt =>
    simp only [wireStep] at h
    split at h
    · next payload hp hnone =>
      cases h
      exact .startBatch hp hnone
    · cases h
  | dispatch batchId position =>
    simp only [wireStep] at h
    split at h
    · next payload inst hp hi =>
      split at h
      · next inp hinp =>
        cases h
        exact .dispatch hp hi hinp
      · cases h
    · cases h
  | writeIndex n dispatchedAt =>
    simp only [wireStep] at h
    split at h
    · next inp hn =>
      split at h
      · next hv =>
        cases h
        exact .writeIndex hn hv
      · cases h
    · cases h
  | sendRun n messageId =>
    simp only [wireStep] at h
    split at h
    · next inp dispatchedAt hn =>
      cases h
      exact .sendRun hn
    · cases h
  | awaitResults batchId dispatchedAt =>
    simp only [wireStep] at h
    split at h
    · next payload createdAt hp hi =>
      split at h
      · next hsent =>
        obtain ⟨o, ho, rfl⟩ := Option.map_eq_some_iff.mp h
        exact .awaitResults hp hi hsent ho
      · cases h
    · cases h
  | completeRun n =>
    simp only [wireStep] at h
    split at h
    · next hn =>
      cases h
      exact .completeRun hn
    · cases h
  | fakeRun n draw asBytes =>
    simp only [wireStep] at h
    split at h
    · next m hm =>
      split at h
      · next out hout =>
        cases h
        exact .fakeRun hm hout
      · cases h
    · cases h
  | fakeStop n draw asBytes =>
    simp only [wireStep] at h
    split at h
    · next m hm =>
      split at h
      · next out hout =>
        cases h
        exact .fakeStop hm hout
      · cases h
    · cases h
  | deliver n asBytes =>
    simp only [wireStep] at h
    split at h
    · next m hm =>
      split at h
      · next d hd =>
        obtain ⟨i, hi, rfl⟩ := Option.map_eq_some_iff.mp h
        exact .deliver hm hd hi
      · cases h
    · cases h
  | intake a =>
    simp only [wireStep] at h
    split at h
    · next hready =>
      obtain ⟨i, hi, rfl⟩ := Option.map_eq_some_iff.mp h
      exact .intake hready hi
    · cases h
  | consume n occurredAt asText =>
    simp only [wireStep] at h
    split at h
    · cases h
    · next m batchId hfind =>
      split at h
      · next d payload o hd hp hi =>
        split at h
        · cases h
        · next hn =>
          obtain ⟨rr, hrr, h⟩ := Option.bind_eq_some_iff.mp h
          obtain ⟨o', ho, rfl⟩ := Option.map_eq_some_iff.mp h
          have hm : m = n := by simpa using List.find?_some hfind
          subst hm
          exact .consume hfind hd hp hi hn hrr ho
      · cases h
  | finish batchId finishedAt =>
    simp only [wireStep] at h
    split at h
    · next payload o hp hi =>
      split at h
      · next hpend =>
        obtain ⟨document, hdoc, h⟩ := Option.bind_eq_some_iff.mp h
        obtain ⟨o', ho, rfl⟩ := Option.map_eq_some_iff.mp h
        exact .finish hp hi hpend hdoc ho
      · cases h
    · cases h

end WirePlatformLemmas

/-! ## 2. The typed platform behind it -/

/-- The block without what was aggregated. -/
def CvBlock.forget {A : Type*} (block : CvBlock A) : CvBlock Unit where
  applicationId := block.applicationId
  documentId := block.documentId
  runs := block.runs
  aggregated := ()
  error := block.error

def Instance.forget {A : Type*} : Instance A → Instance Unit
  | .dispatching createdAt => .dispatching createdAt
  | .waiting o => .waiting o
  | .finished o document => .finished o (document.map CvBlock.forget)

section Represents
variable (env : WireEnv φ)

/-- The texts of `w` are those of the typed state `s`, and whoever takes a completion from its
queue reads the delivery that is in flight there. -/
structure Represents (w : WireState φ) (s : PlatformState Unit) : Prop where
  dispatches : w.dispatches = s.dispatches
  runIndex : ∀ r, w.runIndex r = (s.runIndex r).map (RunIndexEntry.text env.writer.repr)
  engineRuns : w.engineRuns = s.engineRuns.map (RunMessage.queued env.writer.repr)
  engineResults : List.Forall₂ (fun m d => ∀ asBytes, env.readCompletion asBytes m = some d)
    w.engineResults s.inFlight
  intake : w.intake = s.intake
  instances : ∀ batchId, (w.instances batchId).map Instance.forget = s.instances batchId
  delivered : w.delivered = s.delivered

/-- The typed platform on the same batches. -/
def WireEnv.typedStep : PlatformState Unit → PlatformAction → Option (PlatformState Unit) :=
  platformStep (fun _ => ()) env.uuid5 env.promptBlobUri env.batches

/-- The step of the typed platform that a step with texts is. A fake engine that stops between
its output and its completion makes none. -/
inductive WireAction.TypedAs : WireAction φ → PlatformAction → Prop
  | startBatch (batchId createdAt : String) :
      TypedAs (.startBatch batchId createdAt) (.startBatch batchId createdAt)
  | dispatch (batchId : String) (position : Nat) :
      TypedAs (.dispatch batchId position) (.dispatch batchId position)
  | writeIndex (n : Nat) (dispatchedAt : String) :
      TypedAs (.writeIndex n dispatchedAt) (.writeIndex n dispatchedAt)
  | sendRun (n : Nat) (messageId : String) : TypedAs (.sendRun n messageId) (.sendRun n messageId)
  | awaitResults (batchId dispatchedAt : String) :
      TypedAs (.awaitResults batchId dispatchedAt) (.awaitResults batchId dispatchedAt)
  | completeRun (n : Nat) : TypedAs (.completeRun n) (.takeRun n)
  | fakeRun (n : Nat) (draw : FakeDraw φ) (asBytes : Bool) (d : Delivery) :
      TypedAs (.fakeRun n draw asBytes) (.reply n d)
  | deliver (n : Nat) (asBytes : Bool) (d : Delivery) :
      TypedAs (.deliver n asBytes) (.intake (.deliver d))
  | intake (b : IntakeAction) : TypedAs (.intake b) (.intake b)
  | consume (n : Nat) (occurredAt : String) (asText : Bool) :
      TypedAs (.consume n occurredAt asText) (.consume n occurredAt)
  | finish (batchId finishedAt : String) :
      TypedAs (.finish batchId finishedAt) (.finish batchId finishedAt)

end Represents

namespace WirePlatformLemmas

variable {env : WireEnv φ} {w w' : WireState φ} {s s' : PlatformState Unit} {a : WireAction φ}

theorem represents_initial :
    Represents env (WireState.initial : WireState φ) PlatformState.initial where
  dispatches := rfl
  runIndex _ := rfl
  engineRuns := rfl
  engineResults := .nil
  intake := rfl
  instances _ := rfl
  delivered := rfl

/-- A lookup in the texts does not raise, and finds what the typed run index says. -/
theorem lookupBatchId_eq (h : Represents env w s) (r : String) :
    w.lookupBatchId env r = .ok (s.lookupBatchId r) := by
  rw [WireState.lookupBatchId, h.runIndex, PlatformState.lookupBatchId]
  cases s.runIndex r with
  | none => rfl
  | some e => exact WireTextsLemmas.lookupRunIndex_text env.writer e

theorem found_eq (h : Represents env w s) : w.found env = s.lookupBatchId := by
  funext r
  rw [WireState.found, lookupBatchId_eq h]
  rfl

/-- Whichever way an event arrives, the orchestrator reads the result that intake raised. -/
theorem readEvent_eq (asText : Bool) (d : Delivery) :
    env.readEvent asText d = some d.eventPayload := by
  simp only [WireEnv.readEvent, WireTextsLemmas.coerceRunResultPayload_arrives]
  exact WireTextsLemmas.readRunResult_eventFields d

theorem forget_of_sequence {A : Type*} {b : CvBlock (Except AggregateError A)} {block : CvBlock A}
    (h : b.sequence = .ok block) : block.forget = b.forget := by
  unfold CvBlock.sequence at h
  cases ha : b.aggregated with
  | error e =>
    rw [ha] at h
    cases h
  | ok aggregated =>
    rw [ha] at h
    cases h
    rfl

/-- A finalised document, without what was aggregated, is that of the typed platform. -/
theorem finalDocument_of_finalize {payload : BatchPayload} {o : OrchState}
    {document : List (CvBlock (Option (CvAggregate φ)))}
    (h : env.finalize w payload o = some document) :
    finalDocument (fun _ => ()) env.uuid5 payload o = some (document.map CvBlock.forget) := by
  obtain ⟨entries, hentries, hdocument⟩ := Option.bind_eq_some_iff.mp h
  have hok : finalizeDocument env.num env.str env.order (readStored env.float w.artifacts)
      payload.cvs entries = .ok document := Search.eq_ok_of_toOption hdocument
  have hblocks := Search.map_eq_of_mapM_ok hok fun b block hb => forget_of_sequence hb
  rw [finalDocument, hentries, Option.map_some, hblocks, finalizeBatch, finalizeBatch, List.map_map]
  rfl

/-- Both move an instance on. -/
theorem represents_setInstance (h : Represents env w s) (batchId : String)
    (inst : Instance (Option (CvAggregate φ))) :
    Represents env (w.setInstance batchId inst) (s.setInstance batchId inst.forget) where
  dispatches := h.dispatches
  runIndex := h.runIndex
  engineRuns := h.engineRuns
  engineResults := h.engineResults
  intake := h.intake
  instances batchId' := by
    simp only [WireState.setInstance, PlatformState.setInstance, Function.update_apply]
    split
    · rfl
    · exact h.instances batchId'
  delivered := h.delivered

theorem represents_store (h : Represents env w s) (artifact : Option (String × String)) :
    Represents env (w.store artifact) s := by
  cases artifact with
  | none => exact h
  | some p =>
    exact ⟨h.dispatches, h.runIndex, h.engineRuns, h.engineResults, h.intake, h.instances,
      h.delivered⟩

/-- What the typed platform has of an instance. -/
theorem instances_eq (h : Represents env w s) {batchId : String}
    {inst : Instance (Option (CvAggregate φ))} (hi : w.instances batchId = some inst) :
    s.instances batchId = some inst.forget := by
  rw [← h.instances, hi, Option.map_some]

/-- The message that the fake engine takes from the queue. -/
theorem engineRuns_eq (h : Represents env w s) {n : Nat} {m : ServiceBusMessage φ}
    (hm : w.engineRuns[n]? = some m) :
    ∃ m', s.engineRuns[n]? = some m' ∧ m = m'.queued env.writer.repr := by
  rw [h.engineRuns, List.getElem?_map] at hm
  obtain ⟨m', hm', rfl⟩ := Option.map_eq_some_iff.mp hm
  exact ⟨m', hm', rfl⟩

/-- The message of `dispatch_run` is validated as itself. -/
theorem modelValidateJson_queued (m : RunMessage) :
    modelValidateJson env.float (m.queued env.writer.repr).body = some m.modelBody :=
  EngineContractLemmas.modelValidateJson_dump env.writer
    (EngineContractLemmas.wellFormed_modelBody m)

/-- An execution that does not raise is not transient. -/
theorem transient_of_ok {draw : FakeDraw φ} {asBytes : Bool} {m : ServiceBusMessage φ}
    {out : FakeOutput φ} (h : env.runEngine draw asBytes m = .ok out) : draw.transient = false := by
  cases ht : draw.transient with
  | false => rfl
  | true =>
    rw [WireEnv.runEngine, fakeEngineRun] at h
    simp only [ht, if_true] at h
    repeat' split at h
    all_goals cases h

/-- What the fake engine sends for a queued message is in flight as the answer to it. -/
theorem reply_of_fakeRun {draw : FakeDraw φ} {asBytes : Bool} {m : RunMessage}
    {out : FakeOutput φ} (hrun : m.runId ≠ "")
    (h : env.runEngine draw asBytes (m.queued env.writer.repr) = .ok out) :
    ∃ d : Delivery, d.runId = m.runId ∧
      ∀ asBytes, env.readCompletion asBytes out.result = some d := by
  have hvalid : modelValidateJson env.float (m.queued env.writer.repr).body = some m.modelBody :=
    modelValidateJson_queued m
  have hout := FakeEngineLemmas.fakeEngineRun_valid env.num env.str env.writer.repr env.settings
    draw hvalid (transient_of_ok h) ((m.queued env.writer.repr).received env.num.isZero env.str asBytes)
  rw [WireEnv.runEngine, hout] at h
  cases h
  refine ⟨_, ?_, FakeEngineLemmas.sbDelivery_fakeOutput env.writer env.num.isZero env.str
    env.num.zero env.settings draw _ _ _⟩
  exact if_neg hrun

/-- A run id that was minted is not empty. -/
theorem runId_ne_of_queued (hu : Uuid5Spec env.uuid5)
    (hr : RouteInv env.uuid5 env.promptBlobUri env.batches s) {m : RunMessage}
    (hm : m ∈ s.engineRuns) : m.runId ≠ "" := by
  obtain ⟨e, he⟩ := Option.isSome_iff_exists.mp (hr.queued m hm)
  obtain ⟨payload, -, cv, -, i, -, hrun, -⟩ := hr.lineage _ _ he
  rw [← hrun]
  exact hu.nonempty _

/-- The delivery that is read off a completion is in flight. -/
theorem mem_inFlight (h : Represents env w s) {n : Nat} {asBytes : Bool} {m : ServiceBusMessage φ}
    {d : Delivery} (hm : w.engineResults[n]? = some m) (hd : env.readCompletion asBytes m = some d) :
    d ∈ s.inFlight := by
  obtain ⟨hlen, hget⟩ := List.forall₂_iff_get.mp h.engineResults
  obtain ⟨hn, rfl⟩ := List.getElem?_eq_some_iff.mp hm
  have hread := hget n hn (hlen ▸ hn) asBytes
  rw [List.get_eq_getElem, hd, List.get_eq_getElem] at hread
  cases hread
  exact List.getElem_mem _

section Keep
variable (h : Represents env w s)
include h

/-! ### Both sides move on -/

theorem represents_dispatch (x : DispatchExec) :
    Represents env { w with dispatches := w.dispatches ++ [x] }
      { s with dispatches := s.dispatches ++ [x] } :=
  ⟨congrArg (· ++ [x]) h.dispatches, h.runIndex, h.engineRuns, h.engineResults, h.intake,
    h.instances, h.delivered⟩

theorem represents_writeIndex (n : Nat) (inp : DispatchRunInput) (dispatchedAt : String) :
    Represents env
      { w with
        dispatches := w.dispatches.set n ⟨inp, .indexed dispatchedAt⟩
        runIndex := Function.update w.runIndex inp.runId
          (some ((inp.indexEntry dispatchedAt).text env.writer.repr)) }
      { s with
        dispatches := s.dispatches.set n ⟨inp, .indexed dispatchedAt⟩
        runIndex := Function.update s.runIndex inp.runId (some (inp.indexEntry dispatchedAt)) } := by
  refine ⟨congrArg (·.set n ⟨inp, .indexed dispatchedAt⟩) h.dispatches, fun r => ?_,
    h.engineRuns, h.engineResults, h.intake, h.instances, h.delivered⟩
  simp only [Function.update_apply]
  split
  · rfl
  · exact h.runIndex r

theorem represents_sendRun (n : Nat) (x : DispatchExec) (m : RunMessage) :
    Represents env
      { w with
        dispatches := w.dispatches.set n x
        engineRuns := w.engineRuns ++ [m.queued env.writer.repr] }
      { s with
        dispatches := s.dispatches.set n x
        engineRuns := s.engineRuns ++ [m] } := by
  refine ⟨congrArg (·.set n x) h.dispatches, h.runIndex, ?_, h.engineResults, h.intake, h.instances,
    h.delivered⟩
  rw [List.map_append, ← h.engineRuns]
  rfl

theorem represents_completeRun (n : Nat) :
    Represents env { w with engineRuns := w.engineRuns.eraseIdx n }
      { s with engineRuns := s.engineRuns.eraseIdx n } := by
  refine ⟨h.dispatches, h.runIndex, ?_, h.engineResults, h.intake, h.instances, h.delivered⟩
  simp only [h.engineRuns, List.eraseIdx_eq_take_drop_succ, List.map_append, List.map_take,
    List.map_drop]

theorem represents_fakeRun {m : ServiceBusMessage φ} {d : Delivery}
    (hread : ∀ asBytes, env.readCompletion asBytes m = some d)
    (artifact : Option (String × String)) :
    Represents env { w.store artifact with engineResults := w.engineResults ++ [m] }
      { s with inFlight := s.inFlight ++ [d] } := by
  have hstored := represents_store h artifact
  exact ⟨hstored.dispatches, hstored.runIndex, hstored.engineRuns,
    List.rel_append h.engineResults (.cons hread .nil), hstored.intake, hstored.instances,
    hstored.delivered⟩

theorem represents_intake (i : IntakeState) :
    Represents env { w with intake := i } { s with intake := i } :=
  ⟨h.dispatches, h.runIndex, h.engineRuns, h.engineResults, rfl, h.instances, h.delivered⟩

theorem represents_consume (n : Nat) (batchId : String) (o : OrchState) :
    Represents env { w.setInstance batchId (.waiting o) with delivered := n :: w.delivered }
      { s.setInstance batchId (.waiting o) with delivered := n :: s.delivered } := by
  have hset := represents_setInstance h batchId (.waiting o)
  exact ⟨hset.dispatches, hset.runIndex, hset.engineRuns, hset.engineResults, hset.intake,
    hset.instances, congrArg (n :: ·) h.delivered⟩

end Keep

/-- Each step is at most one step of the typed platform. -/
theorem represents_step (hu : Uuid5Spec env.uuid5) (h : Represents env w s)
    (hr : RouteInv env.uuid5 env.promptBlobUri env.batches s) (hstep : WireSteps env w a w') :
    Represents env w' s ∨
      ∃ b s', a.TypedAs b ∧ env.typedStep s b = some s' ∧ Represents env w' s' := by
  cases hstep with
  | @startBatch batchId createdAt payload hp hnone =>
    refine .inr ⟨.startBatch batchId createdAt, _, .startBatch _ _, ?_,
      represents_setInstance h batchId (.dispatching createdAt)⟩
    have hnone' : s.instances batchId = none := by rw [← h.instances, hnone]; rfl
    simp only [WireEnv.typedStep, platformStep, hp, hnone']
    rfl
  | @dispatch batchId position payload inp inst hp hi hinp =>
    refine .inr ⟨.dispatch batchId position, _, .dispatch _ _, ?_, represents_dispatch h _⟩
    simp only [WireEnv.typedStep, platformStep, hp, instances_eq h hi, hinp]
  | @writeIndex n dispatchedAt inp hn hv =>
    refine .inr ⟨.writeIndex n dispatchedAt, _, .writeIndex _ _, ?_,
      represents_writeIndex h n inp dispatchedAt⟩
    rw [h.dispatches] at hn
    simp only [WireEnv.typedStep, platformStep, hn]
  | @sendRun n messageId dispatchedAt inp hn =>
    refine .inr ⟨.sendRun n messageId, _, .sendRun _ _, ?_, represents_sendRun h n _ _⟩
    rw [h.dispatches] at hn
    simp only [WireEnv.typedStep, platformStep, hn]
  | @awaitResults batchId dispatchedAt createdAt payload o hp hi hsent ho =>
    refine .inr ⟨.awaitResults batchId dispatchedAt, _, .awaitResults _ _, ?_,
      represents_setInstance h batchId (.waiting o)⟩
    rw [h.dispatches] at hsent
    simp only [WireEnv.typedStep, platformStep, hp, instances_eq h hi,
      Instance.forget, if_pos hsent, ho, Option.map_some]
  | @completeRun n hn =>
    rw [h.engineRuns, List.length_map] at hn
    refine .inr ⟨.takeRun n, _, .completeRun _, ?_, represents_completeRun h n⟩
    simp only [WireEnv.typedStep, platformStep, if_pos hn]
  | @fakeRun n draw asBytes m out hm hout =>
    obtain ⟨m', hm', rfl⟩ := engineRuns_eq h hm
    obtain ⟨d, hd, hread⟩ :=
      reply_of_fakeRun (runId_ne_of_queued hu hr (List.mem_of_getElem? hm')) hout
    refine .inr ⟨.reply n d, _, .fakeRun _ _ _ _, ?_, represents_fakeRun h hread out.artifact⟩
    simp only [WireEnv.typedStep, platformStep, hm', if_pos hd]
  | @fakeStop n draw asBytes m out hm hout =>
    exact .inl (represents_store h out.artifact)
  | @deliver n asBytes m d i hm hd hi =>
    refine .inr ⟨.intake (.deliver d), _, .deliver _ _ _, ?_, represents_intake h i⟩
    rw [found_eq h, h.intake] at hi
    have hen : intakeEnabled s (.deliver d) := mem_inFlight h hm hd
    simp only [WireEnv.typedStep, platformStep, if_pos hen, hi, Option.map_some]
  | @intake b i hready hi =>
    refine .inr ⟨.intake b, _, .intake _, ?_, represents_intake h i⟩
    rw [found_eq h, h.intake] at hi
    have hen : intakeEnabled s b := by
      cases b with
      | deliver d => cases hready
      | _ => trivial
    simp only [WireEnv.typedStep, platformStep, if_pos hen, hi, Option.map_some]
  | @consume n batchId occurredAt asText d payload rr o o' hpub hd hp hi hn hrr ho =>
    rw [readEvent_eq] at hrr
    cases hrr
    refine .inr ⟨.consume n occurredAt, _, .consume _ _ _, ?_, represents_consume h n batchId o'⟩
    rw [h.intake] at hpub hd
    rw [h.delivered] at hn
    simp only [WireEnv.typedStep, platformStep, hpub, hd, hp, instances_eq h hi,
      Instance.forget, if_neg hn, ho, Option.map_some]
  | @finish batchId finishedAt payload o o' document hp hi hpend hdoc ho =>
    refine .inr ⟨.finish batchId finishedAt, _, .finish _ _, ?_,
      represents_setInstance h batchId (.finished o' document)⟩
    simp only [WireEnv.typedStep, platformStep, hp, instances_eq h hi,
      Instance.forget, if_pos hpend, finalDocument_of_finalize hdoc, ho, Option.map_some,
      Option.bind_some]

theorem TypedAs.ne_inject {b : PlatformAction} (h : a.TypedAs b) (d : Delivery) :
    b ≠ .inject d := by
  rintro rfl
  cases h

end WirePlatformLemmas

open WirePlatformLemmas

/-- Every run with texts is matched by a run of the typed platform in which no delivery is
injected, to a state that has the same stores, queues and instances. -/
theorem wire_refines_platform {env : WireEnv φ} (hu : Uuid5Spec env.uuid5)
    {as : List (WireAction φ)} {w : WireState φ}
    (h : Transition.exec (wireStep env) WireState.initial as = some w) :
    ∃ (as' : List PlatformAction) (s : PlatformState Unit), (∀ d, .inject d ∉ as') ∧
      Transition.exec env.typedStep PlatformState.initial as' = some s ∧ Represents env w s := by
  have hsim : ∀ (v : WireState φ) (s : PlatformState Unit) (a : WireAction φ) (v' : WireState φ),
      Represents env v s ∧ RouteInv env.uuid5 env.promptBlobUri env.batches s → True →
      wireStep env v a = some v' →
      ∃ bs s', (∀ b ∈ bs, ∀ d, b ≠ PlatformAction.inject d) ∧
        Transition.exec env.typedStep s bs = some s' ∧
        Represents env v' s' ∧ RouteInv env.uuid5 env.promptBlobUri env.batches s' := by
    intro v s a v' hR _ hstep
    rcases represents_step hu hR.1 hR.2 (wireSteps_of_step hstep) with
      hrep | ⟨b, s', htyped, hb, hrep⟩
    · exact ⟨[], s, by simp, rfl, hrep, hR.2⟩
    · refine ⟨[b], s', fun b' hb' => ?_, ?_, hrep, PlatformLemmas.routeInv_step hR.2
        (TypedAs.ne_inject htyped) (PlatformLemmas.platformSteps_of_step hb)⟩
      · rw [List.mem_singleton.mp hb']
        exact TypedAs.ne_inject htyped
      · rw [Transition.exec_cons, hb]
        rfl
  obtain ⟨as', s, has, hexec, hrep, -⟩ := Transition.exec_simulation hsim
    ⟨represents_initial, PlatformLemmas.routeInv_initial⟩ (fun _ _ => trivial) h
  exact ⟨as', s, fun d hd => has _ hd d rfl, hexec, hrep⟩

namespace Sample

/-- The deployment of the sample batches. -/
def wireEnv : WireEnv ℤ where
  uuid5 := uuid5
  promptBlobUri := promptBlobUri
  batches := batches
  float := Json.readWhole
  writer := Json.wholeFloats
  eventLayout := .dumps
  num := wholeNumerics
  str := wholeStr
  order := setOrder
  settings := fakeSettings
  readBlob := fun _ => some "%PDF-1.7".toByteArray
  sha256 := fun _ => "9F86D081884C7D659A2FEAA0C55AD015A3BF4F1B2B0B822CD15D6C15B0F00A08"

end Sample

end TalentMatch
