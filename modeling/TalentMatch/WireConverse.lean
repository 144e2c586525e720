import TalentMatch.WireRuns

/-!
# The texts lose nothing

The converse of `wire_refines_platform`: when the input blobs have the digests that
were submitted and no variance overflows, what the typed platform can do with
completions of the fake engine can be done with texts.

Results:
1. `wire_follows_platform`: every such run of the typed platform is matched by a run
   with texts, so no reader, check or aggregation gets in its way.
-/

namespace TalentMatch

open ClaimOnce IntakeState WirePlatformLemmas WireRunsLemmas

variable {φ : Type}

/-! ## 1. Completions of the engine -/

section Engine
variable (env : WireEnv φ)

/-- All deliveries are completions of executions that are not transient. -/
def WireEnv.IsEngineAction : PlatformAction → Prop
  | .reply _ d => ∃ inp draw, env.Dispatched inp ∧ draw.transient = false ∧
      d = env.completion inp draw
  | .inject _ => False
  | _ => True

/-- Nothing that the platform computes with raises. -/
structure WireEnv.Returns : Prop where
  verified : ∀ inp, env.Dispatched inp → env.Verified inp
  pvariance : ∀ xs, (env.num.pvariance xs).isSome

end Engine

namespace WireConverseLemmas

variable {env : WireEnv φ} {w w' : WireState φ} {s s' : PlatformState Unit} {a : PlatformAction}

/-- A run id is dispatched with one input. -/
theorem dispatched_ext (hu : Uuid5Spec env.uuid5) (hb : DistinctBatches env.batches)
    (hid : UuidBatchIds env.batches) {inp inp' : DispatchRunInput} (h : env.Dispatched inp)
    (h' : env.Dispatched inp') (heq : inp.runId = inp'.runId) : inp = inp' := by
  obtain ⟨payload, hp, hmem⟩ := h
  obtain ⟨payload', hp', hmem'⟩ := h'
  exact dispatchInput_ext hu hb hid hp hp' hmem hmem' heq

/-! ## 2. Aggregation returns -/

section Aggregate
variable {num : Numerics φ} {str : Json φ → String} {order : SetOrder}
  {readObject : String → Option (Fields φ)}

theorem scoreVariance_returns (hnum : ∀ xs, (num.pvariance xs).isSome) (scores : List φ) :
    ∃ variance, scoreVariance num scores = .ok variance := by
  unfold scoreVariance
  split
  · obtain ⟨x, hx⟩ := Option.isSome_iff_exists.mp (hnum scores)
    rw [hx]
    exact ⟨x, rfl⟩
  · exact ⟨num.zero, rfl⟩

theorem aggregateRuns_returns (hnum : ∀ xs, (num.pvariance xs).isSome) {runs : List RunPayload}
    (hall : ∀ r ∈ runs, r.status = "Succeeded" → ∀ output,
      readOutputArtifact readObject (r.artifacts.getD []) = some output →
        ∃ signal, extractCvSignal num str output = .ok signal) :
    ∃ aggregated, aggregateRuns num str order readObject runs = .ok aggregated := by
  rw [aggregateRuns_eq]
  generalize ((succeededRuns runs).flatMap fun r =>
    (r.artifacts.getD []).map fun a => (⟨a.name, a.blobUri, a.sha256⟩ : SourceArtifact)) = sources
  have hsignals : ∃ signals,
      (succeededOutputs readObject runs).mapM (extractCvSignal num str) = .ok signals := by
    refine Search.mapM_returns_iff.mpr fun output ho => ?_
    obtain ⟨r, hr, hstatus, hread⟩ := mem_succeededOutputs.mp ho
    exact hall r hr hstatus output hread
  obtain ⟨signals, hm⟩ := hsignals
  rw [aggregateCvScoring_of_ok sources hm]
  split
  · exact ⟨none, rfl⟩
  · obtain ⟨variance, hv⟩ := scoreVariance_returns hnum
      ((signals.filterMap id).filterMap CvSignal.score)
    simp only [aggregateSignals, hv]
    exact ⟨_, rfl⟩

end Aggregate

theorem sequence_of_ok {B : Type*} {block : CvBlock (Except AggregateError B)} {aggregated : B}
    (h : block.aggregated = .ok aggregated) : ∃ block', block.sequence = .ok block' := by
  rw [CvBlock.sequence, h]
  exact ⟨_, rfl⟩

/-- A document whose results are completions of the engine can be aggregated. -/
theorem finalize_returns (hu : Uuid5Spec env.uuid5) (hb : DistinctBatches env.batches)
    (hreturns : env.Returns) (hi : EngineInv env w) {payload : BatchPayload} {o o' : OrchState}
    {document : List (CvBlock Unit)}
    (hdoc : finalDocument (fun _ => ()) env.uuid5 payload o = some document)
    (hp : payload ∈ env.batches)
    (hr : Recorded (fun _ => ()) env.uuid5 w.intake payload (.finished o' document)) :
    ∃ document', env.finalize w payload o = some document' := by
  obtain ⟨entries, hentries, rfl⟩ := Option.map_eq_some_iff.mp hdoc
  have hblocks : ∃ document', finalizeDocument env.num env.str env.order
      (readStored env.float w.artifacts) payload.cvs entries = .ok document' := by
    refine Search.mapM_returns_iff.mpr fun block hblock => ?_
    obtain ⟨cv, hcv, rfl⟩ := List.mem_map.mp hblock
    have hmem : _ ∈ finalizeBatch (fun _ => ()) payload.cvs entries := List.mem_map_of_mem hcv
    have hall : ∀ run ∈ (GroupSort.groupSorted RunEntry.applicationId RunEntry.runIndex
        cv.applicationId entries).map (fun e => e.payload cv.documentId),
        run.status = "Succeeded" → ∀ output, readOutputArtifact (readStored env.float w.artifacts)
          (run.artifacts.getD []) = some output →
            ∃ signal, extractCvSignal env.num env.str output = .ok signal := by
      intro run hrun hstatus output hread
      obtain ⟨rr, ⟨n, d, -, hd, rfl⟩, cv', -, index, -, -, -, -, rfl⟩ :=
        PlatformLemmas.run_of_recorded hu (hb.applications payload hp) hr hmem hrun
      obtain ⟨x, hx, rfl⟩ := Option.map_eq_some_iff.mp hd
      obtain ⟨inp, draw, -, -, hjob, hout⟩ := hi.handled x (List.mem_of_getElem? hx)
      rw [hjob] at hstatus hread
      obtain ⟨output', hread', signal, hsignal, -⟩ := givesScore_of_completion hi hout hstatus
      have heq : some output = some output' := hread.symm.trans hread'
      cases heq
      exact ⟨_, hsignal⟩
    obtain ⟨aggregated, haggregate⟩ := aggregateRuns_returns hreturns.pvariance hall
    exact sequence_of_ok haggregate
  obtain ⟨document', hdocument'⟩ := hblocks
  rw [WireEnv.finalize, hentries, Option.bind_some, hdocument']
  exact ⟨document', rfl⟩

/-! ## 3. Each step is matched -/

theorem dispatching_of_forget (h : Represents env w s) {batchId createdAt : String}
    (hi : s.instances batchId = some (.dispatching createdAt)) :
    w.instances batchId = some (.dispatching createdAt) := by
  rw [← h.instances] at hi
  obtain ⟨inst, hinst, hforget⟩ := Option.map_eq_some_iff.mp hi
  cases inst with
  | dispatching createdAt' =>
    cases hforget
    exact hinst
  | _ => cases hforget

theorem waiting_of_forget (h : Represents env w s) {batchId : String} {o : OrchState}
    (hi : s.instances batchId = some (.waiting o)) :
    w.instances batchId = some (.waiting o) := by
  rw [← h.instances] at hi
  obtain ⟨inst, hinst, hforget⟩ := Option.map_eq_some_iff.mp hi
  cases inst with
  | waiting o' =>
    cases hforget
    exact hinst
  | _ => cases hforget

theorem finished_of_forget (h : Represents env w s) {batchId : String} {o : OrchState}
    {document : List (CvBlock Unit)} (hi : s.instances batchId = some (.finished o document)) :
    ∃ document', w.instances batchId = some (.finished o document') := by
  rw [← h.instances] at hi
  obtain ⟨inst, hinst, hforget⟩ := Option.map_eq_some_iff.mp hi
  cases inst with
  | finished o' document' =>
    cases hforget
    exact ⟨document', hinst⟩
  | _ => cases hforget

/-- A delivery that is in flight is read off a completion. -/
theorem completion_of_inFlight (h : Represents env w s) {d : Delivery} (hd : d ∈ s.inFlight) :
    ∃ (n : Nat) (m : ServiceBusMessage φ), w.engineResults[n]? = some m ∧
      ∀ asBytes, env.readCompletion asBytes m = some d := by
  obtain ⟨hlen, hget⟩ := List.forall₂_iff_get.mp h.engineResults
  obtain ⟨n, hn, rfl⟩ := List.getElem_of_mem hd
  have hn' : n < w.engineResults.length := hlen ▸ hn
  exact ⟨n, w.engineResults[n], List.getElem?_eq_getElem hn', hget n hn' hn⟩

/-- A message on the queue is one of `dispatch_run`. -/
theorem dispatched_of_queued (h : Represents env w s) (hi : EngineInv env w) {m : RunMessage}
    (hm : m ∈ s.engineRuns) :
    ∃ inp messageId dispatchedAt, env.Dispatched inp ∧
      m.queued env.writer.repr = (inp.runMessage messageId dispatchedAt).queued env.writer.repr ∧
      inp.runId = m.runId := by
  have hmem : m.queued env.writer.repr ∈ w.engineRuns := by
    rw [h.engineRuns]
    exact List.mem_map_of_mem hm
  obtain ⟨inp, messageId, dispatchedAt, hinp, -, hqueued⟩ := hi.engineRuns _ hmem
  refine ⟨inp, messageId, dispatchedAt, hinp, hqueued, ?_⟩
  have hbody := congrArg (fun x => modelValidateJson env.float x.body) hqueued
  simp only [modelValidateJson_queued] at hbody
  exact (congrArg RunMessageBody.runId (Option.some.inj hbody)).symm

/-- No lookup raises. -/
theorem intakeReady_of_represents (h : Represents env w s) {b : IntakeAction}
    (hb : ∀ d, b ≠ .deliver d) : w.intakeReady env b = true := by
  cases b with
  | deliver d => exact absurd rfl (hb d)
  | lookup n =>
    show (w.intake.jobOf n).all (fun d => (w.lookupBatchId env d.runId).isOk) = true
    cases w.intake.jobOf n with
    | none => rfl
    | some d =>
      rw [Option.all_some, lookupBatchId_eq h]
      rfl
  | _ => rfl

/-- The fake engine sends the completion of a run whose message is queued. -/
theorem follows_reply (hu : Uuid5Spec env.uuid5) (hb : DistinctBatches env.batches)
    (hid : UuidBatchIds env.batches) (h : Represents env w s) (hi : EngineInv env w) {n : Nat}
    {m : RunMessage} (hm : s.engineRuns[n]? = some m) {inp : DispatchRunInput}
    {draw : FakeDraw φ} (hinp : env.Dispatched inp) (ht : draw.transient = false)
    (hrun : (env.completion inp draw).runId = m.runId) :
    ∃ w', wireStep env w (.fakeRun n draw false) = some w' ∧
      Represents env w' { s with inFlight := s.inFlight ++ [env.completion inp draw] } := by
  -- the message is that of the run that the completion is about
  have hm' : w.engineRuns[n]? = some (m.queued env.writer.repr) := by
    rw [h.engineRuns, List.getElem?_map, hm, Option.map_some]
  obtain ⟨inp', messageId, dispatchedAt, hinp', hqueued, hrun'⟩ :=
    dispatched_of_queued h hi (List.mem_of_getElem? hm)
  obtain rfl := dispatched_ext hu hb hid hinp hinp' (hrun.trans hrun'.symm)
  have hout : env.runEngine draw false
      ((inp.runMessage messageId dispatchedAt).queued env.writer.repr) =
        .ok (env.output inp draw) := runEngine_queued hu hinp ht messageId dispatchedAt
  refine ⟨_, ?_, represents_fakeRun h (readCompletion_output env inp draw)
    (env.output inp draw).artifact⟩
  rw [hqueued] at hm'
  simp only [wireStep, hm', hout]

/-- The outputs of a batch that waits for nothing are aggregated. -/
theorem follows_finish (hu : Uuid5Spec env.uuid5) (hb : DistinctBatches env.batches)
    (hreturns : env.Returns) (h : Represents env w s) (hi : EngineInv env w)
    {batchId finishedAt : String} {payload : BatchPayload} {o o' : OrchState}
    {document : List (CvBlock Unit)} (hp : findBatch env.batches batchId = some payload)
    (hinst : s.instances batchId = some (.waiting o)) (hpend : o.pendingEvents = [])
    (hdoc : finalDocument (fun _ => ()) env.uuid5 payload o = some document)
    (ho : finish payload o finishedAt = some o')
    (hrec : RecordInv (fun _ => ()) env.uuid5 env.batches
      (s.setInstance batchId (.finished o' document))) :
    ∃ w', wireStep env w (.finish batchId finishedAt) = some w' ∧
      Represents env w' (s.setInstance batchId (.finished o' document)) := by
  obtain ⟨payload', hp', hr⟩ := hrec.instances batchId _ (Function.update_self ..)
  rw [hp] at hp'
  cases hp'
  have hr' : Recorded (fun _ => ()) env.uuid5 w.intake payload (.finished o' document) := by
    rw [h.intake]
    exact hr
  obtain ⟨document', hdoc'⟩ := finalize_returns hu hb hreturns hi hdoc
    (PlatformLemmas.findBatch_eq_some hp).1 hr'
  have hforget := finalDocument_of_finalize hdoc'
  rw [hdoc] at hforget
  cases hforget
  refine ⟨_, ?_, represents_setInstance h batchId (.finished o' document')⟩
  simp only [wireStep, hp, waiting_of_forget h hinst, if_pos hpend, hdoc', ho, Option.bind_some,
    Option.map_some]

theorem follows_step (hu : Uuid5Spec env.uuid5) (hb : DistinctBatches env.batches)
    (hid : UuidBatchIds env.batches) (hreturns : env.Returns) (h : Represents env w s)
    (hi : EngineInv env w) (hrec : RecordInv (fun _ => ()) env.uuid5 env.batches s)
    (ha : env.IsEngineAction a) (hstep : env.typedStep s a = some s') :
    ∃ b w', b.TypedAs a ∧ wireStep env w b = some w' ∧ Represents env w' s' := by
  have hrec' : RecordInv (fun _ => ()) env.uuid5 env.batches s' :=
    PlatformLemmas.recordInv_step hrec (PlatformLemmas.platformSteps_of_step hstep)
  cases a with
  | startBatch batchId createdAt =>
    simp only [WireEnv.typedStep, platformStep] at hstep
    split at hstep
    · next payload hp hnone =>
      cases hstep
      rw [← h.instances, Option.map_eq_none_iff] at hnone
      refine ⟨.startBatch batchId createdAt, _, .startBatch _ _, ?_,
        represents_setInstance h batchId (.dispatching createdAt)⟩
      simp only [wireStep, hp, hnone]
    · cases hstep
  | dispatch batchId position =>
    simp only [WireEnv.typedStep, platformStep] at hstep
    split at hstep
    · next payload inst hp hinst =>
      split at hstep
      · next inp hinp =>
        cases hstep
        rw [← h.instances] at hinst
        obtain ⟨inst', hinst', -⟩ := Option.map_eq_some_iff.mp hinst
        refine ⟨.dispatch batchId position, _, .dispatch _ _, ?_,
          represents_dispatch h ⟨inp, .started⟩⟩
        simp only [wireStep, hp, hinst', hinp]
      · cases hstep
    · cases hstep
  | writeIndex n dispatchedAt =>
    simp only [WireEnv.typedStep, platformStep] at hstep
    split at hstep
    · next inp hn =>
      cases hstep
      rw [← h.dispatches] at hn
      have hv : verifyInputBlobSha256 env.readBlob env.sha256 inp.blobUri inp.sha256 = .ok () :=
        hreturns.verified inp (hi.dispatches _ (List.mem_of_getElem? hn)).1
      refine ⟨.writeIndex n dispatchedAt, _, .writeIndex _ _, ?_,
        represents_writeIndex h n inp dispatchedAt⟩
      simp only [wireStep, hn, hv]
    · cases hstep
  | sendRun n messageId =>
    simp only [WireEnv.typedStep, platformStep] at hstep
    split at hstep
    · next inp dispatchedAt hn =>
      cases hstep
      rw [← h.dispatches] at hn
      refine ⟨.sendRun n messageId, _, .sendRun _ _, ?_,
        represents_sendRun h n ⟨inp, .sent⟩ (inp.runMessage messageId dispatchedAt)⟩
      simp only [wireStep, hn]
    · cases hstep
  | awaitResults batchId dispatchedAt =>
    simp only [WireEnv.typedStep, platformStep] at hstep
    split at hstep
    · next payload createdAt hp hinst =>
      split at hstep
      · next hsent =>
        obtain ⟨o, ho, rfl⟩ := Option.map_eq_some_iff.mp hstep
        rw [← h.dispatches] at hsent
        refine ⟨.awaitResults batchId dispatchedAt, _, .awaitResults _ _, ?_,
          represents_setInstance h batchId (.waiting o)⟩
        simp only [wireStep, hp, dispatching_of_forget h hinst, if_pos hsent, ho, Option.map_some]
      · cases hstep
    · cases hstep
  | takeRun n =>
    simp only [WireEnv.typedStep, platformStep] at hstep
    split at hstep
    · next hn =>
      cases hstep
      refine ⟨.completeRun n, _, .completeRun _, ?_, represents_completeRun h n⟩
      have hn' : n < w.engineRuns.length := by
        rw [h.engineRuns, List.length_map]
        exact hn
      simp only [wireStep, if_pos hn']
    · cases hstep
  | reply n d =>
    obtain ⟨inp, draw, hinp, ht, rfl⟩ := ha
    simp only [WireEnv.typedStep, platformStep] at hstep
    split at hstep
    · next m hm =>
      split at hstep
      · next hrun =>
        cases hstep
        obtain ⟨w', hw', hrep'⟩ := follows_reply hu hb hid h hi hm hinp ht hrun
        exact ⟨.fakeRun n draw false, w', .fakeRun _ _ _ _, hw', hrep'⟩
      · cases hstep
    · cases hstep
  | inject d => exact absurd ha id
  | intake b =>
    simp only [WireEnv.typedStep, platformStep] at hstep
    split at hstep
    · next hen =>
      obtain ⟨i, hi', rfl⟩ := Option.map_eq_some_iff.mp hstep
      rw [← found_eq h, ← h.intake] at hi'
      by_cases hdeliver : ∃ d, b = .deliver d
      · obtain ⟨d, rfl⟩ := hdeliver
        obtain ⟨n, m, hm, hread⟩ := completion_of_inFlight h hen
        refine ⟨.deliver n false, _, .deliver _ _ _, ?_, represents_intake h i⟩
        simp only [wireStep, hm, hread, hi', Option.map_some]
      · refine ⟨.intake b, _, .intake _, ?_, represents_intake h i⟩
        have hready : w.intakeReady env b = true :=
          intakeReady_of_represents h fun d heq => hdeliver ⟨d, heq⟩
        simp only [wireStep, if_pos hready, hi', Option.map_some]
    · cases hstep
  | consume n occurredAt =>
    simp only [WireEnv.typedStep, platformStep] at hstep
    split at hstep
    · cases hstep
    · next batchId hpub =>
      split at hstep
      · next d payload o hd hp hinst =>
        split at hstep
        · cases hstep
        · next hn =>
          obtain ⟨o', ho, rfl⟩ := Option.map_eq_some_iff.mp hstep
          rw [← h.intake] at hpub hd
          rw [← h.delivered] at hn
          refine ⟨.consume n occurredAt false, _, .consume _ _ _, ?_,
            represents_consume h n batchId o'⟩
          simp only [wireStep, hpub, hd, hp, waiting_of_forget h hinst, if_neg hn, readEvent_eq,
            Option.bind_some, ho, Option.map_some]
      · cases hstep
  | finish batchId finishedAt =>
    simp only [WireEnv.typedStep, platformStep] at hstep
    split at hstep
    · next payload o hp hinst =>
      split at hstep
      · next hpend =>
        obtain ⟨document, hdoc, hstep⟩ := Option.bind_eq_some_iff.mp hstep
        obtain ⟨o', ho, rfl⟩ := Option.map_eq_some_iff.mp hstep
        obtain ⟨w', hw', hrep'⟩ := follows_finish hu hb hreturns h hi hp hinst hpend hdoc ho hrec'
        exact ⟨.finish batchId finishedAt, w', .finish _ _, hw', hrep'⟩
      · cases hstep
    · cases hstep

/-- A state of the typed platform and the one with texts that follows it. -/
structure Follows (env : WireEnv φ) (s : PlatformState Unit) (w : WireState φ) : Prop where
  represents : Represents env w s
  texts : EngineInv env w
  recorded : RecordInv (fun _ => ()) env.uuid5 env.batches s

theorem follows_initial {env : WireEnv φ} :
    Follows env (PlatformState.initial : PlatformState Unit) WireState.initial :=
  ⟨represents_initial, engineInv_initial, PlatformLemmas.recordInv_initial⟩

/-- Both sides take a step. -/
theorem Follows.step {env : WireEnv φ} (hu : Uuid5Spec env.uuid5)
    (hb : DistinctBatches env.batches) (hid : UuidBatchIds env.batches)
    {s s' : PlatformState Unit} {w w' : WireState φ} {a : PlatformAction} {b : WireAction φ}
    (hf : Follows env s w) (hs : env.typedStep s a = some s') (hw : wireStep env w b = some w')
    (hrep : Represents env w' s') : Follows env s' w' := by
  have hrec : RecordInv (fun _ => ()) env.uuid5 env.batches s' :=
    PlatformLemmas.recordInv_step hf.recorded (PlatformLemmas.platformSteps_of_step hs)
  exact ⟨hrep, engineInv_step hu hb hid hf.texts (wireSteps_of_step hw) hrep hrec, hrec⟩

/-- A run of the typed platform from any state that is followed. -/
theorem follows_run {env : WireEnv φ} (hu : Uuid5Spec env.uuid5)
    (hb : DistinctBatches env.batches) (hid : UuidBatchIds env.batches) (hreturns : env.Returns)
    {as : List PlatformAction} (has : ∀ a ∈ as, env.IsEngineAction a) {s t : PlatformState Unit}
    {w : WireState φ} (hw : Follows env s w) (h : Transition.exec env.typedStep s as = some t) :
    ∃ (as' : List (WireAction φ)) (w' : WireState φ),
      Transition.exec (wireStep env) w as' = some w' ∧ Follows env t w' := by
  have hsim : ∀ (t : PlatformState Unit) (v : WireState φ) (a : PlatformAction)
      (t' : PlatformState Unit), Follows env t v → env.IsEngineAction a →
      env.typedStep t a = some t' →
      ∃ (bs : List (WireAction φ)) (v' : WireState φ), (∀ b ∈ bs, True) ∧
        Transition.exec (wireStep env) v bs = some v' ∧ Follows env t' v' := by
    intro t v a t' hf ha hstep
    obtain ⟨b, v', -, hb', hrep'⟩ :=
      follows_step hu hb hid hreturns hf.represents hf.texts hf.recorded ha hstep
    refine ⟨[b], v', fun _ _ => trivial, ?_, hf.step hu hb hid hstep hb' hrep'⟩
    rw [Transition.exec_cons, hb']
    rfl
  obtain ⟨as', w', -, hexec, hfollows⟩ := Transition.exec_simulation hsim hw has h
  exact ⟨as', w', hexec, hfollows⟩

end WireConverseLemmas

open WireConverseLemmas

/-- Every run of the typed platform in which the deliveries are completions of the engine is
matched by a run with texts, to a state that has the same stores, queues and instances. -/
theorem wire_follows_platform {env : WireEnv φ} (hu : Uuid5Spec env.uuid5)
    (hb : DistinctBatches env.batches) (hid : UuidBatchIds env.batches) (hreturns : env.Returns)
    {as : List PlatformAction} (has : ∀ a ∈ as, env.IsEngineAction a) {s : PlatformState Unit}
    (h : Transition.exec env.typedStep PlatformState.initial as = some s) :
    ∃ (as' : List (WireAction φ)) (w : WireState φ),
      Transition.exec (wireStep env) WireState.initial as' = some w ∧ Represents env w s := by
  obtain ⟨as', w, hexec, hfollows⟩ := follows_run hu hb hid hreturns has follows_initial h
  exact ⟨as', w, hexec, hfollows.represents⟩

namespace Sample

/-- The completion of the run of the first batch. -/
def engineCompletion : Delivery :=
  wireEnv.completion
    ((payload batch1 ["app-1"] 0).dispatchInput uuid5 (promptBlobUri batch1) (cv "app-1") 0)
    fakeDraw

/-- The first batch is dispatched and its run answered, and the batch is finalised. -/
def engineRun : List PlatformAction :=
  [.startBatch batch1 "t0", .dispatch batch1 0, .writeIndex 0 "t1", .sendRun 0 "m-1",
    .awaitResults batch1 "t2", .reply 0 engineCompletion, .takeRun 0,
    .intake (.deliver engineCompletion), .intake (.lookup 0), .intake (.claim 0),
    .intake (.publish 0 true), .intake (.finish 0), .consume 0 "t3", .finish batch1 "t4"]

/-- The document of a finished instance. -/
def documentOf : Instance Unit → Option (List (CvBlock Unit))
  | .finished _ document => some document
  | _ => none

theorem engineRun_enabled :
    ((Transition.exec wireEnv.typedStep PlatformState.initial engineRun).bind fun s =>
      (s.instances batch1).bind documentOf).isSome = true := by
  decide +kernel

theorem wireEnv_returns : wireEnv.Returns where
  verified := by
    rintro inp ⟨payload, hp, hinp⟩
    have hall : ∀ payload ∈ batches,
        ∀ inp ∈ payload.dispatchInputs uuid5 (promptBlobUri payload.batchId),
          inp.sha256 = "9f86d081884c7d659a2feaa0c55ad015a3bf4f1b2b0b822cd15d6c15b0f00a08" := by
      decide
    have hsha : inp.sha256 = _ := hall payload hp inp hinp
    unfold WireEnv.Verified
    rw [hsha]
    rfl
  pvariance := fun _ => rfl

theorem engineRun_actions : ∀ a ∈ engineRun, wireEnv.IsEngineAction a := by
  intro a ha
  simp only [engineRun, List.mem_cons, List.not_mem_nil, or_false] at ha
  rcases ha with rfl | rfl | rfl | rfl | rfl | rfl | rfl | rfl | rfl | rfl | rfl | rfl | rfl | rfl
  case inr.inr.inr.inr.inr.inl =>
    exact ⟨_, fakeDraw, ⟨_, List.mem_cons_self, List.mem_cons_self⟩, rfl, rfl⟩
  all_goals trivial

/-- In every state with texts that represents the last one of the run, the batch is finished. -/
theorem engineRun_finishes : ∃ s,
    Transition.exec wireEnv.typedStep PlatformState.initial engineRun = some s ∧
      ∀ w, Represents wireEnv w s →
        ∃ o document, w.instances batch1 = some (.finished o document) := by
  obtain ⟨document', h⟩ := Option.isSome_iff_exists.mp engineRun_enabled
  obtain ⟨s, hs, h⟩ := Option.bind_eq_some_iff.mp h
  obtain ⟨inst, hinst, hdoc⟩ := Option.bind_eq_some_iff.mp h
  refine ⟨s, hs, fun w hrep => ?_⟩
  cases inst with
  | finished o document => exact ⟨o, finished_of_forget hrep hinst⟩
  | _ => cases hdoc

/-- A run with texts that finishes the batch. -/
theorem wireEnv_finishes : ∃ (as : List (WireAction ℤ)) (w : WireState ℤ) (o : OrchState)
    (document : List (CvBlock (Option (CvAggregate ℤ)))),
    Transition.exec (wireStep wireEnv) WireState.initial as = some w ∧
      w.instances batch1 = some (.finished o document) := by
  obtain ⟨s, hs, hfinished⟩ := engineRun_finishes
  have hu : Uuid5Spec wireEnv.uuid5 := uuid5_spec
  obtain ⟨as, w, hw, hfollows⟩ := follows_run hu (by decide) (by decide) wireEnv_returns
    engineRun_actions follows_initial hs
  obtain ⟨o, document, hinst⟩ := hfinished w hfollows.represents
  exact ⟨as, w, o, document, hw, hinst⟩

end Sample

/-- A typed run matches that run. -/
theorem wire_refines_platform_sample :
    ∃ (w : WireState ℤ) (s : PlatformState Unit) (o : OrchState)
      (document : List (CvBlock (Option (CvAggregate ℤ)))),
      w.instances Sample.batch1 = some (.finished o document) ∧
        (∃ as, (∀ d, .inject d ∉ as) ∧
          Transition.exec Sample.wireEnv.typedStep PlatformState.initial as = some s) ∧
        Represents Sample.wireEnv w s := by
  obtain ⟨as, w, o, document, hw, hfinished⟩ := Sample.wireEnv_finishes
  have hu : Uuid5Spec Sample.wireEnv.uuid5 := Sample.uuid5_spec
  obtain ⟨as', s, hnoinject, hs, hrep⟩ := wire_refines_platform hu hw
  exact ⟨w, s, o, document, hfinished, ⟨as', hnoinject, hs⟩, hrep⟩

/-- What the texts of that run say. -/
theorem wire_run_sound_sample :
    ∃ (w : WireState ℤ) (o : OrchState) (document : List (CvBlock (Option (CvAggregate ℤ)))),
      w.instances Sample.batch1 = some (.finished o document) ∧ WireSound Sample.wireEnv w := by
  obtain ⟨as, w, o, document, hw, hfinished⟩ := Sample.wireEnv_finishes
  have hu : Uuid5Spec Sample.wireEnv.uuid5 := Sample.uuid5_spec
  exact ⟨w, o, document, hfinished, wire_run_sound hu (by decide) (by decide) hw⟩

/-- The theorem on the typed run: the batch is finished with texts too. -/
theorem wire_follows_platform_sample :
    ∃ (as : List (WireAction ℤ)) (w : WireState ℤ) (o : OrchState)
      (document : List (CvBlock (Option (CvAggregate ℤ)))),
      Transition.exec (wireStep Sample.wireEnv) WireState.initial as = some w ∧
        w.instances Sample.batch1 = some (.finished o document) := by
  obtain ⟨s, hs, hfinished⟩ := Sample.engineRun_finishes
  have hu : Uuid5Spec Sample.wireEnv.uuid5 := Sample.uuid5_spec
  obtain ⟨as, w, hw, hrep⟩ := wire_follows_platform hu (by decide) (by decide)
    Sample.wireEnv_returns Sample.engineRun_actions hs
  obtain ⟨o, document, hinst⟩ := hfinished w hrep
  exact ⟨as, w, o, document, hw, hinst⟩

end TalentMatch
