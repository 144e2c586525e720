import TalentMatch.Lib.CheckThenAct
import TalentMatch.Host

/-!
# Submitting a batch again

What becomes of a second submission under one `batchId`. Concurrent calls of
`http_start` are workers that check for the instance and then start it. One after
the other, submissions go through `submit_batch`, `start_batch` and `http_start`.

Results:
1. `start_new_at_most_once`: `start_new` is called at most once for an instance id as
   long as no call of `http_start` looks for the instance while another one is about
   to start it. Every such look can lead to a second start.
2. `httpStart_lone`: a call of `http_start` with nothing in between is the run of a
   single worker.
3. `idempotency_key_honoured_iff`: the `Idempotency-Key` protects against different
   work exactly when no different work is submitted under it.
-/

namespace TalentMatch

open CheckThenAct (Action)

variable {φ : Type}

/-! ## 1. Concurrent starts -/

/-- A request that `http_start` accepts. One that it refuses does not reach
Durable. -/
structure StartJob (env : Env φ) where
  request : HostRequest φ
  call : StartCall φ
  read : readStart env request = .ok call

/-- The instance that the request is about. -/
def StartJob.instanceId {env : Env φ} (job : StartJob env) : String :=
  env.idText job.call.instanceId

/-- The calls of `http_start` and what they have done: `check` is `get_status`, and
`act` is `start_new`. -/
abbrev StartState (env : Env φ) := CheckThenAct.State (StartJob env) String

/-- No call is under way. -/
def idle (env : Env φ) (instances : Instances φ) : StartState env :=
  .initial fun instanceId => statusExists env.isZero (env.getStatus instances instanceId)

/-- A step of one of the calls. -/
def startStep (env : Env φ) : StartState env → Action (StartJob env) → Option (StartState env) :=
  CheckThenAct.step StartJob.instanceId

/-- How often `start_new` was called for an instance id. -/
def startsOf {env : Env φ} (s : StartState env) (instanceId : String) : Nat :=
  (s.acts.map StartJob.instanceId).count instanceId

/-- `get_status` finds nothing, while another call that also found nothing is about
to start the same instance. -/
def OverlappingLook {env : Env φ} (s : StartState env) (a : Action (StartJob env)) : Prop :=
  CheckThenAct.Unsafe StartJob.instanceId s a

/-- In every run whose steps are not overlapping looks, `start_new` is called at most
once for each instance id. An overlapping look in any run can be continued to a
second call. -/
theorem start_new_at_most_once (env : Env φ) (instances : Instances φ) :
    (∀ (as : List (Action (StartJob env))) (s : StartState env),
        Transition.exec (startStep env) (idle env instances) as = some s →
        Transition.Guarded (startStep env) (fun s a => ¬ OverlappingLook s a)
          (idle env instances) as →
        ∀ instanceId, startsOf s instanceId ≤ 1) ∧
      ∀ (as : List (Action (StartJob env))) (s : StartState env) (a : Action (StartJob env)),
        Transition.exec (startStep env) (idle env instances) as = some s → OverlappingLook s a →
        ∃ instanceId bs t, Transition.exec (startStep env) s (a :: bs) = some t ∧
          2 ≤ startsOf t instanceId := by
  refine ⟨fun as s h hsafe instanceId => ?_, fun as s a _ hlook => ?_⟩
  · have hnodup := CheckThenAct.nodup_of_guarded hsafe h
    exact List.nodup_iff_count_le_one.mp hnodup instanceId
  · exact CheckThenAct.acts_twice_of_unsafe hlook

/-- A call of `http_start` on its own answers 200 and starts nothing, or answers 202
after it started the instance, and leaves the instances as the run of its worker
does. -/
theorem httpStart_lone (env : Env φ) (instances : Instances φ) (now : String)
    (job : StartJob env) :
    ∃ as s, Transition.exec (startStep env) (idle env instances)
        (.request job :: .check 0 :: as) = some s ∧
      (s.acts = [] ∧ (httpStart env instances now job.request).1.statusCode = 200 ∨
        s.acts = [job] ∧ (httpStart env instances now job.request).1.statusCode = 202) ∧
      ∀ instanceId, s.present instanceId =
        ((httpStart env instances now job.request).2 instanceId).isSome := by
  cases hexists : statusExists env.isZero (env.getStatus instances job.instanceId) with
  | true =>
    have hstart : httpStart env instances now job.request =
        (⟨200, startedBody job.call⟩, instances) := by
      unfold httpStart
      rw [job.read]
      exact if_pos hexists
    refine ⟨[], _, CheckThenAct.exec_lone_attached hexists, .inl ⟨rfl, by rw [hstart]⟩, ?_⟩
    intro instanceId
    rw [hstart]
    exact statusExists_getStatus env instances instanceId
  | false =>
    have hstart : httpStart env instances now job.request =
        (⟨202, startedBody job.call⟩,
          startNew instances job.instanceId job.call.payload now) := by
      unfold httpStart
      rw [job.read]
      exact if_neg (Bool.eq_false_iff.mp hexists)
    refine ⟨[.act 0], _, CheckThenAct.exec_lone_acted hexists, .inr ⟨rfl, by rw [hstart]⟩, ?_⟩
    intro instanceId
    rw [hstart]
    show Function.update (idle env instances).present job.instanceId true instanceId =
      (startNew instances job.instanceId job.call.payload now instanceId).isSome
    by_cases heq : instanceId = job.instanceId
    · rw [heq, Function.update_self, startNew_self]
      rfl
    · rw [Function.update_of_ne heq, startNew_of_ne instances heq]
      exact statusExists_getStatus env instances instanceId

/-! ## 2. Submissions one after the other -/

/-- The input of an instance without the fields that come from the trace headers. -/
def withoutTrace : Json φ → Json φ
  | .obj fields => .obj (fields.filter fun p => p.1 ≠ "correlationId" ∧ p.1 ≠ "traceparent")
  | input => input

/-- The input of an instance is the payload of a request, trace headers aside. -/
def StartedWith (request : BatchSubmitRequest) (input : Json φ) : Prop :=
  withoutTrace input = .obj request.dump

/-- What a submission under an existing `batchId` ends in. -/
structure KeyHonoured (env : Env φ) (instances : Instances φ) (call : SubmitCall) : Prop where
  accepted : ∀ i response, instances call.body.batchId = some i →
    (submitBatch env instances call).1 = .ok response → StartedWith call.body i.input
  conflict : ∀ i, instances call.body.batchId = some i → ¬ StartedWith call.body i.input →
    call.idempotencyKey = call.body.batchId →
      (∃ statusCode body,
        startBatch env (.ok (httpStart env instances call.now call.startRequest).1) =
          .error (.orchestrationConflictError statusCode body)) ∧
      (submitBatch env instances call).1 =
        .error (.problemDetail 409 "Idempotency conflict"
          "A different submission already exists for this batchId.")

/-- The same for every submission of a sequence. -/
def AllHonoured (env : Env φ) : Instances φ → List SubmitCall → Prop
  | _, [] => True
  | instances, call :: calls =>
    KeyHonoured env instances call ∧ AllHonoured env (submitBatch env instances call).2 calls

/-- The header is the `batchId`, so that the submission reaches the host. -/
def SubmitCall.Matches (call : SubmitCall) : Prop := call.idempotencyKey = call.body.batchId

/-- The submission does not meet an instance that was started with another payload. -/
def SubmitCall.Fits (instances : Instances φ) (call : SubmitCall) : Prop :=
  call.Matches → ∀ i, instances call.body.batchId = some i → StartedWith call.body i.input

/-- Two submissions under one `batchId` have one payload. -/
def SubmitCall.SameWork (φ : Type) (call call' : SubmitCall) : Prop :=
  call.Matches → call'.Matches → call.body.batchId = call'.body.batchId →
    call.body.dump (φ := φ) = call'.body.dump

namespace SubmissionsLemmas

variable {env : Env φ} {instances : Instances φ} {call call' : SubmitCall}

/-- Without the trace fields, the input is the payload again. -/
theorem withoutTrace_mergeTrace (request : BatchSubmitRequest)
    (correlationId traceparent : String) :
    withoutTrace (mergeTrace correlationId traceparent (.obj request.dump) : Json φ) =
      .obj request.dump := by
  unfold mergeTrace
  by_cases hc : correlationId = ""
  · by_cases ht : traceparent = ""
    · simp only [hc, ht, if_true]
      rfl
    · simp only [hc, ht, if_true, if_false]
      rfl
  · by_cases ht : traceparent = ""
    · simp only [hc, ht, if_true, if_false]
      rfl
    · simp only [hc, ht, if_false]
      rfl

/-- What `http_start` reads from the request of `start_batch`. -/
theorem readStart_startRequest :
    readStart env call.startRequest =
      .ok ⟨.str call.body.batchId,
        mergeTrace call.correlationId call.traceparent (.obj call.body.dump)⟩ := by
  have hne : call.body.batchId ≠ "" := by
    intro h
    have hlength := call.body.isUuid_batchId.1
    rw [h] at hlength
    exact absurd hlength (by decide)
  have htruthy : Json.truthy env.isZero (.str call.body.batchId) = true := by
    simpa [Json.truthy] using hne
  show (if Json.truthy env.isZero (.str call.body.batchId) then _ else _) = _
  rw [if_pos htruthy]
  rfl

theorem submitBatch_mismatch (h : ¬ call.Matches) :
    submitBatch env instances call =
      (.error (.problemDetail 400 "Idempotency-Key mismatch"
        "Idempotency-Key header must equal body.batchId."), instances) :=
  if_pos h

theorem submitBatch_matches (hkey : call.Matches) :
    submitBatch env instances call =
      (submitResponse env call.body
          (startBatch env (.ok (httpStart env instances call.now call.startRequest).1)),
        (httpStart env instances call.now call.startRequest).2) :=
  if_neg fun h => h hkey

variable (env) in
/-- A submission under an existing `batchId` is accepted, whatever it asks for. -/
theorem submitBatch_existing {i : DurableInstance φ} (hkey : call.Matches)
    (hi : instances call.body.batchId = some i) :
    httpStart env instances call.now call.startRequest =
        (⟨200, .json (.obj [("instance_id", .str call.body.batchId)])⟩, instances) ∧
      submitBatch env instances call = (.ok (call.body.accepted), instances) := by
  have hstart : httpStart env instances call.now call.startRequest =
      (⟨200, .json (.obj [("instance_id", .str call.body.batchId)])⟩, instances) := by
    have hexists : statusExists env.isZero (env.getStatus instances call.body.batchId) = true := by
      rw [statusExists_getStatus, hi]
      rfl
    unfold httpStart
    rw [readStart_startRequest]
    exact if_pos hexists
  refine ⟨hstart, ?_⟩
  rw [submitBatch_matches hkey, hstart]
  rfl

variable (env) in
/-- A submission under a new `batchId` starts its instance. -/
theorem submitBatch_new (hkey : call.Matches) (hi : instances call.body.batchId = none) :
    submitBatch env instances call =
      (.ok (call.body.accepted),
        startNew instances call.body.batchId
          (mergeTrace call.correlationId call.traceparent (.obj call.body.dump)) call.now) := by
  have hexists : statusExists env.isZero (env.getStatus instances call.body.batchId) = false := by
    rw [statusExists_getStatus, hi]
    rfl
  have hstart : httpStart env instances call.now call.startRequest =
      (⟨202, .json (.obj [("instance_id", .str call.body.batchId)])⟩,
        startNew instances call.body.batchId
          (mergeTrace call.correlationId call.traceparent (.obj call.body.dump)) call.now) := by
    unfold httpStart
    rw [readStart_startRequest]
    exact if_neg (Bool.eq_false_iff.mp hexists)
  rw [submitBatch_matches hkey, hstart]
  rfl

/-- One submission honours the key exactly when it fits what is there. -/
theorem keyHonoured_iff : KeyHonoured env instances call ↔ call.Fits instances := by
  constructor
  · intro h hkey i hi
    obtain ⟨-, hsubmit⟩ := submitBatch_existing env hkey hi
    exact h.accepted i _ hi (by rw [hsubmit])
  · intro h
    refine ⟨fun i response hi haccepted => ?_, fun i hi hne hkey => absurd (h hkey i hi) hne⟩
    by_cases hkey : call.Matches
    · exact h hkey i hi
    · rw [submitBatch_mismatch hkey] at haccepted
      cases haccepted

variable (env) in
/-- What fits after a submission is what fitted before it and is the same work. -/
theorem fits_submitBatch_iff (hfits : call.Fits instances) :
    call'.Fits (submitBatch env instances call).2 ↔
      call'.Fits instances ∧ call.SameWork φ call' := by
  by_cases hkey : call.Matches
  · cases hi : instances call.body.batchId with
    | some i =>
      rw [(submitBatch_existing env hkey hi).2]
      refine ⟨fun h => ⟨h, fun _ hkey' hid => ?_⟩, fun h => h.1⟩
      have hpayload := h hkey' i (hid ▸ hi)
      unfold StartedWith at hpayload
      rw [hfits hkey i hi] at hpayload
      exact Json.obj.inj hpayload
    | none =>
      have hnew : (submitBatch env instances call).2 = startNew instances call.body.batchId
          (mergeTrace call.correlationId call.traceparent (.obj call.body.dump)) call.now := by
        rw [submitBatch_new env hkey hi]
      rw [hnew]
      constructor
      · intro h
        refine ⟨fun hkey' i' hi' => ?_, fun _ hkey' hid => ?_⟩
        · have hne : call'.body.batchId ≠ call.body.batchId := by
            intro heq
            rw [heq, hi] at hi'
            cases hi'
          exact h hkey' i' (by rw [startNew_of_ne instances hne, hi'])
        · have hpayload := h hkey' _ (by rw [← hid, startNew_self])
          exact Json.obj.inj ((withoutTrace_mergeTrace ..).symm.trans hpayload)
      · rintro ⟨h, hsame⟩ hkey' i' hi'
        by_cases heq : call'.body.batchId = call.body.batchId
        · rw [heq, startNew_self] at hi'
          cases hi'
          show StartedWith call'.body
            (mergeTrace call.correlationId call.traceparent (.obj call.body.dump))
          unfold StartedWith
          rw [withoutTrace_mergeTrace, hsame hkey hkey' heq.symm]
        · rw [startNew_of_ne instances heq] at hi'
          exact h hkey' i' hi'
  · rw [submitBatch_mismatch hkey]
    exact ⟨fun h => ⟨h, fun hkey' => absurd hkey' hkey⟩, fun h => h.1⟩

end SubmissionsLemmas

open SubmissionsLemmas

/-- Every submission of a sequence honours its key exactly when none of those that
reach the host meets an instance that was started with another payload, and no two
of them have different payloads under one `batchId`. -/
theorem idempotency_key_honoured_iff (env : Env φ) (instances : Instances φ)
    (calls : List SubmitCall) :
    AllHonoured env instances calls ↔
      (∀ call ∈ calls, call.Fits instances) ∧ calls.Pairwise (SubmitCall.SameWork φ) := by
  induction calls generalizing instances with
  | nil => simp [AllHonoured]
  | cons call calls ih =>
    rw [AllHonoured, keyHonoured_iff, ih, List.forall_mem_cons, List.pairwise_cons]
    constructor
    · rintro ⟨hfits, hrest, hpairwise⟩
      have hboth := fun call' h => (fits_submitBatch_iff env hfits).mp (hrest call' h)
      exact ⟨⟨hfits, fun call' h => (hboth call' h).1⟩, fun call' h => (hboth call' h).2, hpairwise⟩
    · rintro ⟨⟨hfits, hrest⟩, hsame, hpairwise⟩
      refine ⟨hfits, fun call' h => ?_, hpairwise⟩
      exact (fits_submitBatch_iff env hfits).mpr ⟨hrest call' h, hsame call' h⟩

/-! ## 3. Sample submissions -/

namespace Sample

/-- A request for one CV. -/
def request (jobId : String) (h : 1 ≤ jobId.length ∧ jobId.length ≤ 64) : BatchSubmitRequest :=
  { duplicateRequest with
    jobId := jobId
    cvs := [cv "app-1"]
    length_jobId := h
    length_cvs := by decide
    isValid_cvs := by decide }

/-- Its submission, without trace headers. -/
def submission (request : BatchSubmitRequest) : SubmitCall where
  body := request
  idempotencyKey := request.batchId
  correlationId := ""
  traceparent := ""
  now := "2025-01-01T00:00:00+00:00"

def firstSubmission : SubmitCall := submission (request "job-1" duplicateRequest.length_jobId)

def otherSubmission : SubmitCall := submission (request "job-2" (by decide))

/-- The call of `http_start` for the first submission. -/
def startJob : StartJob (env fun _ => .error .decode) where
  request := firstSubmission.startRequest
  call := ⟨.str batch1, .obj firstSubmission.body.dump⟩
  read := rfl

/-- A retry that looks after the first call has started the instance. -/
def lateRetry : List (Action (StartJob (env fun _ => .error .decode))) :=
  [.request startJob, .request startJob, .check 0, .act 0, .check 1]

end Sample

/-- Two calls of `http_start` for one submission: the second looks after the first has
started the instance, and starts nothing. -/
theorem start_new_at_most_once_sample :
    ∃ s, Transition.exec (startStep (Sample.env fun _ => .error .decode))
        (idle (Sample.env fun _ => .error .decode) fun _ => none) Sample.lateRetry = some s ∧
      s.acts = [Sample.startJob] ∧ ∀ instanceId, startsOf s instanceId ≤ 1 := by
  refine ⟨_, rfl, rfl, (start_new_at_most_once _ fun _ => none).1 Sample.lateRetry _ rfl ?_⟩
  refine ⟨id, fun _ h₁ => ?_⟩
  cases h₁
  refine ⟨id, fun _ h₂ => ?_⟩
  cases h₂
  refine ⟨?_, fun _ h₃ => ?_⟩
  · -- nobody is about to start the instance
    rintro ⟨job, -, -, m, other, hother, -⟩
    match m, hother with
    | 0, hother => cases hother
    | 1, hother => cases hother
    | m + 2, hother => cases hother
  · cases h₃
    refine ⟨id, fun _ h₄ => ?_⟩
    cases h₄
    refine ⟨?_, fun _ _ => trivial⟩
    -- the instance is there
    rintro ⟨job, hjob, habsent, -⟩
    cases hjob
    cases habsent

/-- Two calls of `http_start` for one submission, as after a timeout: both look
before either starts, and both start. -/
theorem concurrent_starts_both_start :
    ∃ s, Transition.exec (startStep (Sample.env fun _ => .error .decode))
        (idle (Sample.env fun _ => .error .decode) fun _ => none)
        [.request Sample.startJob, .request Sample.startJob, .check 0, .check 1, .act 0, .act 1] =
          some s ∧
      startsOf s Sample.batch1 = 2 :=
  ⟨_, rfl, rfl⟩

/-- A submission for another job under the `batchId` of the first one is accepted,
while the instance works on the first one. -/
theorem different_payload_accepted :
    let env := Sample.env fun _ => .error .decode
    let started := (submitBatch env (fun _ => none) Sample.firstSubmission).2
    ∃ i, started Sample.otherSubmission.body.batchId = some i ∧
      ¬ StartedWith Sample.otherSubmission.body i.input ∧
      (submitBatch env started Sample.otherSubmission).1 =
        .ok Sample.otherSubmission.body.accepted ∧
      ¬ AllHonoured env (fun _ => none) [Sample.firstSubmission, Sample.otherSubmission] := by
  intro env started
  have hfirst : Sample.firstSubmission.Matches := rfl
  have hother : Sample.otherSubmission.Matches := rfl
  have hdifferent :
      Sample.firstSubmission.body.dump (φ := ℚ) ≠ Sample.otherSubmission.body.dump := by
    intro h
    have hjob := congrArg (fun fields => (Dict.get? fields "jobId").bind strictStr) h
    exact absurd hjob (by decide)
  have hstarted : started = startNew (fun _ => none) Sample.batch1
      (mergeTrace "" "" (.obj Sample.firstSubmission.body.dump)) Sample.firstSubmission.now :=
    congrArg Prod.snd (submitBatch_new env hfirst rfl)
  have hi : started Sample.otherSubmission.body.batchId = some (.started
      (mergeTrace "" "" (.obj Sample.firstSubmission.body.dump)) Sample.firstSubmission.now) := by
    rw [hstarted]
    exact startNew_self ..
  have hpayload : ¬ StartedWith Sample.otherSubmission.body
      (mergeTrace "" "" (.obj (Sample.firstSubmission.body.dump (φ := ℚ)))) := by
    intro h
    exact hdifferent (Json.obj.inj ((withoutTrace_mergeTrace ..).symm.trans h))
  have haccepted : (submitBatch env started Sample.otherSubmission).1 =
      .ok Sample.otherSubmission.body.accepted :=
    congrArg Prod.fst (submitBatch_existing env hother hi).2
  refine ⟨_, hi, hpayload, haccepted, fun h => ?_⟩
  exact hpayload (h.2.1.accepted _ _ hi haccepted)

end TalentMatch
