import TalentMatch.Polling
import TalentMatch.Submission

/-!
# The Functions host and the API over it

The internal routes `http_start`, `http_status` and `http_terminate` of
`orchestrator/functions/fanout`, their client `api/durable_client.py` and the routes
of `api/routes_assess.py`. The API calls the client, the client calls the host and
the host asks Durable for the status of an instance. `Env` collects what is not part
of the platform.

Results:
1. `statusExists_getStatus`: `_status_exists` tells the instances from the
   placeholders.
2. `getBatchStatus_of_ne_completed`, `getBatchStatus_completed`,
   `getBatchStatus_blob`, `getBatchStatus_missing`: what the API answers a poll, with
   an instance and without one.
3. `cancelBatch_instance`, `cancelBatch_missing`: what it answers a cancellation.
-/

namespace TalentMatch

open Json (LoadsError)

variable {φ : Type}

/-! ## 1. Instances -/

/-- An instance of `batch_orchestrator`. Its custom status is a progress document
once there is one. -/
structure DurableInstance (φ : Type) where
  input : Json φ
  runtimeStatus : RuntimeStatus
  customStatus : Option Progress
  output : Json φ
  createdTime : String
  lastUpdatedTime : String

/-- The instances by their ids. -/
abbrev Instances (φ : Type) := String → Option (DurableInstance φ)

/-- What `client.get_status` returns, as far as the host reads it. -/
structure StatusObject (φ : Type) where
  runtimeStatus : Option RuntimeStatus
  createdTime : Option String
  lastUpdatedTime : Option String
  name : Option String
  customStatus : Option Progress
  output : Json φ

/-- `_ORCHESTRATOR_NAME`. -/
def orchestratorName : String := "batch_orchestrator"

/-- The status object of an instance. -/
def DurableInstance.statusObject (i : DurableInstance φ) : StatusObject φ where
  runtimeStatus := some i.runtimeStatus
  createdTime := some i.createdTime
  lastUpdatedTime := some i.lastUpdatedTime
  name := some orchestratorName
  customStatus := i.customStatus
  output := i.output

/-- `_status_exists`. -/
def statusExists (isZero : φ → Bool) : Option (StatusObject φ) → Bool
  | none => false
  | some s =>
    if s.runtimeStatus.isNone && s.createdTime.isNone && s.lastUpdatedTime.isNone then false
    else if s.createdTime.isNone && s.lastUpdatedTime.isNone && s.name.getD "" == "" then
      s.customStatus.isSome || s.output.truthy isZero
    else true

/-- What Durable returns for an id that it does not know: nothing, or an object
without timestamps, name, custom status and output. -/
def IsPlaceholder (isZero : φ → Bool) : Option (StatusObject φ) → Prop
  | none => True
  | some s =>
    s.createdTime = none ∧ s.lastUpdatedTime = none ∧ s.name.getD "" = "" ∧
      s.customStatus = none ∧ s.output.truthy isZero = false

theorem statusExists_placeholder {isZero : φ → Bool} {s : Option (StatusObject φ)}
    (h : IsPlaceholder isZero s) : statusExists isZero s = false := by
  cases s with
  | none => rfl
  | some s =>
    obtain ⟨hc, hl, hn, hs, ho⟩ := h
    simp [statusExists, hc, hl, hn, hs, ho]

theorem statusExists_statusObject (isZero : φ → Bool) (i : DurableInstance φ) :
    statusExists isZero (some i.statusObject) = true := rfl

/-- What the platform runs on: the floating point numbers, `json.loads` and
`json.dumps`, the validation of the API, `repr` and `str`, the body of a 500, the
settings of the API for the result blobs, and what Durable returns for an id that it
does not know. -/
structure Env (φ : Type) where
  isZero : φ → Bool
  loads : String → Except LoadsError (Json φ)
  dumps : Json φ → String
  lax : LaxMode φ
  repr : String → String
  str : Json φ → String
  crashText : String
  blobAccount : String
  unknown : Option (StatusObject φ)
  unknown_placeholder : IsPlaceholder isZero unknown

/-- `client.get_status(instance_id)`. -/
def Env.getStatus (env : Env φ) (instances : Instances φ) (instanceId : String) :
    Option (StatusObject φ) :=
  match instances instanceId with
  | some i => some i.statusObject
  | none => env.unknown

/-- `_status_exists` holds of the status of an id exactly when it is an instance. -/
theorem statusExists_getStatus (env : Env φ) (instances : Instances φ) (instanceId : String) :
    statusExists env.isZero (env.getStatus instances instanceId) =
      (instances instanceId).isSome := by
  unfold Env.getStatus
  cases instances instanceId with
  | none => exact statusExists_placeholder env.unknown_placeholder
  | some i => exact statusExists_statusObject env.isZero i

/-! ## 2. The routes of the host -/

/-- The body of a response. -/
inductive Body (φ : Type) where
  | empty
  | text (s : String)
  | json (v : Json φ)

/-- A response of the host. -/
structure HttpResponse (φ : Type) where
  statusCode : Nat
  body : Body φ

/-- What a client gets when a route raises. -/
def Env.crash (env : Env φ) : HttpResponse φ := ⟨500, .text env.crashText⟩

/-- `resp.text`. -/
def HttpResponse.text (env : Env φ) (resp : HttpResponse φ) : String :=
  match resp.body with
  | .empty => ""
  | .text s => s
  | .json v => env.dumps v

/-- A request with a JSON body and the two trace headers. The body is missing where
`req.get_json` raises, and a header that is not sent is empty. -/
structure HostRequest (φ : Type) where
  body : Option (Json φ)
  correlationId : String
  traceparent : String

/-- What `http_start` reads from its request. -/
structure StartCall (φ : Type) where
  instanceId : Json φ
  payload : Json φ

/-- The id under which Durable knows an instance. -/
def Env.idText (env : Env φ) : Json φ → String
  | .str s => s
  | v => env.str v

/-- The trace headers go into a payload that is an object. -/
def mergeTrace (correlationId traceparent : String) : Json φ → Json φ
  | .obj fields =>
    let merged :=
      if correlationId = "" then fields
      else Dict.set fields "correlationId" (.str correlationId)
    .obj (if traceparent = "" then merged else Dict.set merged "traceparent" (.str traceparent))
  | payload => payload

/-- `http_start` up to its first call of Durable: the response that ends it, or what
it starts. -/
def readStart (env : Env φ) (req : HostRequest φ) : Except (HttpResponse φ) (StartCall φ) :=
  match req.body with
  | none => .error ⟨400, .text "invalid json"⟩
  | some (.obj body) =>
    let instanceId := valueAt body "instance_id"
    let refused : Except (HttpResponse φ) (StartCall φ) :=
      .error ⟨400, .text "instance_id and payload required"⟩
    if instanceId.truthy env.isZero then
      match valueAt body "payload" with
      | .null => refused
      | payload => .ok ⟨instanceId, mergeTrace req.correlationId req.traceparent payload⟩
    else refused
  | some _ => .error env.crash

/-- The body of an answer of `http_start`. -/
def startedBody (call : StartCall φ) : Body φ := .json (.obj [("instance_id", call.instanceId)])

/-- An instance that was just started. -/
def DurableInstance.started (input : Json φ) (now : String) : DurableInstance φ where
  input := input
  runtimeStatus := .pending
  customStatus := none
  output := .null
  createdTime := now
  lastUpdatedTime := now

/-- `client.start_new`. -/
def startNew (instances : Instances φ) (instanceId : String) (input : Json φ) (now : String) :
    Instances φ :=
  Function.update instances instanceId (some (.started input now))

@[simp] theorem startNew_self (instances : Instances φ) (instanceId : String) (input : Json φ)
    (now : String) : startNew instances instanceId input now instanceId =
      some (.started input now) :=
  Function.update_self ..

theorem startNew_of_ne (instances : Instances φ) {instanceId instanceId' : String}
    (h : instanceId' ≠ instanceId) (input : Json φ) (now : String) :
    startNew instances instanceId input now instanceId' = instances instanceId' :=
  Function.update_of_ne h ..

/-- `http_start`, when nothing comes between its two calls of Durable. -/
def httpStart (env : Env φ) (instances : Instances φ) (now : String) (req : HostRequest φ) :
    HttpResponse φ × Instances φ :=
  match readStart env req with
  | .error resp => (resp, instances)
  | .ok call =>
    if statusExists env.isZero (env.getStatus instances (env.idText call.instanceId)) then
      (⟨200, startedBody call⟩, instances)
    else
      (⟨202, startedBody call⟩, startNew instances (env.idText call.instanceId) call.payload now)

/-- The fields that `_normalize_status` reads. A runtime status that is missing is
not mapped either. -/
def StatusObject.durable (s : StatusObject φ) : DurableStatus φ where
  runtimeStatus := s.runtimeStatus.getD .other
  customStatus := nullable (fun p => .obj p.fields) s.customStatus
  output := s.output

/-- `http_status`. -/
def httpStatus (env : Env φ) (instances : Instances φ) (instanceId : String) : HttpResponse φ :=
  match env.getStatus instances instanceId with
  | none => ⟨404, .empty⟩
  | some s =>
    if statusExists env.isZero (some s) then
      match normalizeStatus env.loads s.durable with
      | .ok body => ⟨200, .json (.obj body)⟩
      | .error _ => env.crash
    else ⟨404, .empty⟩

/-- `_progress_for_status_event`. Without a custom status there is no `jobId`, which
is an empty text here. -/
def progressForStatusEvent (instanceId : String) (customStatus : Option Progress)
    (status occurredAt : String) : Progress :=
  let progress := customStatus.getD
    { submissionId := instanceId
      batchId := instanceId
      jobId := ""
      status := ""
      cvsCompleted := 0
      cvsTotal := 0
      runsCompleted := 0
      runsDispatched := 0
      runsTotal := 0
      lastUpdatedAt := ""
      applications := [] }
  { progress with
    submissionId := orText progress.submissionId instanceId
    batchId := orText progress.batchId instanceId
    status := status
    lastUpdatedAt := occurredAt }

/-- `_build_batch_state_live_event`. -/
def buildBatchStateLiveEvent (instanceId : String) (customStatus : Option Progress)
    (status eventType occurredAt correlationId traceparent : String) : Option LiveEvent :=
  let progress := progressForStatusEvent instanceId customStatus status occurredAt
  buildLiveProgressEvent eventType progress occurredAt (nextEventSequence progress) correlationId
    traceparent none none

/-- What `http_terminate` does after `client.get_status`: the reason of the
termination it asks for, then the event it projects, then its response. -/
structure TerminateCall (φ : Type) where
  reason : Option (Json φ)
  event : Option LiveEvent
  response : HttpResponse φ

/-- The reason of a cancellation, which is `None` where reading it raises something
that `http_terminate` does not catch. -/
def readReason : Option (Json φ) → Option (Json φ)
  | none => some (.str "client cancelled")
  | some (.obj body) => some ((Dict.get? body "reason").getD (.str "client cancelled"))
  | some _ => none

/-- The body of an answer of `http_terminate`. -/
def stateBody (status : String) : Body φ := .json (.obj [("status", .str status)])

/-- `http_terminate`, for the status object that `client.get_status` returned.
`client.terminate` does nothing with an instance that has ended. -/
def httpTerminate (env : Env φ) (instanceId occurredAt : String) (req : HostRequest φ)
    (status : Option (StatusObject φ)) : TerminateCall φ :=
  match status with
  | none => ⟨none, none, ⟨404, .empty⟩⟩
  | some s =>
    let event := fun status eventType =>
      buildBatchStateLiveEvent instanceId s.customStatus status eventType occurredAt
        req.correlationId req.traceparent
    if !statusExists env.isZero (some s) then ⟨none, none, ⟨404, .empty⟩⟩
    else if s.runtimeStatus = some .completed then ⟨none, none, ⟨409, stateBody "completed"⟩⟩
    else if s.runtimeStatus = some .terminated then
      ⟨none, event "cancelled" "batch.cancelled", ⟨200, stateBody "cancelled"⟩⟩
    else
      match readReason req.body with
      | none => ⟨none, none, env.crash⟩
      | some reason =>
        ⟨some reason, event "cancelling" "batch.cancelling", ⟨202, stateBody "cancelling"⟩⟩

/-! ## 3. The client -/

/-- `DurableClientError` and its subclass `OrchestrationConflictError`. -/
inductive ClientError where
  | durableClientError (statusCode : Nat) (body : String)
  | orchestrationConflictError (statusCode : Nat) (body : String)
  deriving DecidableEq

/-- `str(exc)`. -/
def ClientError.text (env : Env φ) : ClientError → String
  | durableClientError statusCode body =>
    "functions host returned " ++ toString statusCode ++ ": " ++ env.repr body
  | orchestrationConflictError statusCode body =>
    "functions host returned " ++ toString statusCode ++ ": " ++ env.repr body

/-- The request that `start_batch` posts. -/
def startRequest (instanceId : String) (payload : Json φ) (correlationId traceparent : String) :
    HostRequest φ where
  body := some (.obj [("instance_id", .str instanceId), ("payload", payload)])
  correlationId := correlationId
  traceparent := traceparent

/-- `start_batch` after its request: a response, or the text of a transport error. -/
def startBatch (env : Env φ) : Except String (HttpResponse φ) → Except ClientError Unit
  | .error exc => .error (.durableClientError 502 exc)
  | .ok resp =>
    if resp.statusCode = 409 then
      .error (.orchestrationConflictError resp.statusCode (resp.text env))
    else if 400 ≤ resp.statusCode then
      .error (.durableClientError resp.statusCode (resp.text env))
    else .ok ()

/-- What a call of the client raises: a client error, or something that the API does
not catch. -/
inductive CallError where
  | client (e : ClientError)
  | other
  deriving DecidableEq

/-- `get_batch_status` of the client. -/
def clientGetBatchStatus (env : Env φ) (resp : HttpResponse φ) : Except CallError (Fields φ) :=
  if resp.statusCode = 404 then .error (.client (.durableClientError 404 "not found"))
  else if 400 ≤ resp.statusCode then
    .error (.client (.durableClientError resp.statusCode (resp.text env)))
  else
    match resp.body with
    | .json (.obj fields) => .ok fields
    | _ => .error .other

/-- The request that `cancel_batch` posts. -/
def cancelRequest (reason : String) : HostRequest φ where
  body := some (.obj [("reason", .str reason)])
  correlationId := ""
  traceparent := ""

/-- `cancel_batch` of the client. -/
def clientCancelBatch (env : Env φ) (resp : HttpResponse φ) : Except CallError (Fields φ) :=
  if 500 ≤ resp.statusCode then
    .error (.client (.durableClientError resp.statusCode (resp.text env)))
  else
    match resp.body with
    | .empty => .ok (Dict.set [] "_http_status" (.int resp.statusCode))
    | .json (.obj fields) => .ok (Dict.set fields "_http_status" (.int resp.statusCode))
    | _ => .error .other

/-- `read_batch_result_from_blob`, for the blob `batches/{instance_id}/result.json`.
A document that is null is not told from a missing one. -/
def readBatchResultFromBlob (env : Env φ) (blob : Option String) :
    Except CallError (Option (Json φ)) :=
  if env.blobAccount = "" then .ok none
  else
    match blob with
    | none => .ok none
    | some data =>
      match env.loads data with
      | .ok .null => .ok none
      | .ok v => .ok (some v)
      | .error .decode => .ok none
      | .error .other => .error .other

/-! ## 4. The routes of the API -/

/-- The answer of the API to an error of the client. -/
def upstreamError (env : Env φ) : CallError → ApiError
  | .client e => .problemDetail 502 "Upstream error" (e.text env)
  | .other => .other

/-- The status document for a result blob. -/
def blobStatus (result : Json φ) : Fields φ :=
  [("status", .str "completed"), ("progress", .null), ("result", result), ("error", .null),
    ("retryAfterSeconds", .null)]

/-- The answer for a submission that there is nothing about. -/
def notFound (submissionId : String) : ApiError :=
  .problemDetail 404 "Not Found" ("submissionId " ++ submissionId ++ " not found.")

/-- `get_batch_status`, over the instances of Durable and the result blob of the
submission. -/
def getBatchStatus (env : Env φ) (instances : Instances φ) (blob : Option String)
    (submissionId : String) : Except ApiError (BatchStatusResponse φ) :=
  match clientGetBatchStatus env (httpStatus env instances submissionId) with
  | .ok raw => toStatusResponse env.lax env.isZero submissionId raw
  | .error (.client (.durableClientError 404 _)) =>
    match readBatchResultFromBlob env blob with
    | .ok (some result) => toStatusResponse env.lax env.isZero submissionId (blobStatus result)
    | .ok none => .error (notFound submissionId)
    | .error e => .error (upstreamError env e)
  | .error e => .error (upstreamError env e)

/-- The status code and the status of a `CancelResponse`. -/
abbrev CancelAnswer := Nat × BatchStatus

/-- `cancel_batch` after the call of the client. -/
def cancelResponse (result : Fields φ) : CancelAnswer :=
  match (Dict.get? result "_http_status").getD (.int 202) with
  | .int 409 => (409, .completed)
  | .int 200 => (200, .cancelled)
  | _ => (202, .cancelling)

/-- `cancel_batch`, over the instances of Durable. -/
def cancelBatch (env : Env φ) (instances : Instances φ) (occurredAt submissionId : String) :
    Except ApiError CancelAnswer :=
  let call := httpTerminate env submissionId occurredAt (cancelRequest "client requested cancel")
    (env.getStatus instances submissionId)
  match clientCancelBatch env call.response with
  | .ok result => .ok (cancelResponse result)
  | .error e => .error (upstreamError env e)

/-- `BatchSubmitResponse`. -/
structure BatchSubmitResponse where
  submissionId : String
  status : BatchStatus
  pollUrl : String
  estimatedCompletionSeconds : Nat
  deriving DecidableEq

/-- A call of `submit_batch`, and when it happens. -/
structure SubmitCall where
  body : BatchSubmitRequest
  idempotencyKey : String
  correlationId : String
  traceparent : String
  now : String

/-- `CvRef.model_dump`, by alias. -/
def CvRef.dump (cv : CvRef) : Fields φ :=
  [("applicationId", .str cv.applicationId), ("documentId", .str cv.documentId),
    ("fileName", .str cv.fileName), ("mimeType", .str cv.mimeType), ("blobUri", .str cv.blobUri),
    ("sha256", .str cv.sha256)]

/-- `BatchSubmitRequest.model_dump`, by alias. -/
def BatchSubmitRequest.dump (request : BatchSubmitRequest) : Fields φ :=
  [("batchId", .str request.batchId), ("jobId", .str request.jobId),
    ("promptVersionId", .str request.promptVersionId), ("runCount", .int request.runCount),
    ("prompt", .obj [("kind", .str "inline"), ("text", .str request.promptText)]),
    ("cvs", .arr (request.cvs.map fun cv => .obj cv.dump)),
    ("callbackUrl", nullable .str request.callbackUrl)]

/-- The request that reaches the host for a call of `submit_batch`. -/
def SubmitCall.startRequest (call : SubmitCall) : HostRequest φ :=
  TalentMatch.startRequest call.body.batchId (.obj call.body.dump) call.correlationId
    call.traceparent

/-- The response to a request that was accepted. -/
def BatchSubmitRequest.accepted (body : BatchSubmitRequest) : BatchSubmitResponse where
  submissionId := body.batchId
  status := .queued
  pollUrl := "/assess/batch/" ++ body.batchId ++ "/status"
  estimatedCompletionSeconds := max 60 (body.cvs.length * body.runCount * 20)

/-- `submit_batch` after `start_batch`. -/
def submitResponse (env : Env φ) (body : BatchSubmitRequest) :
    Except ClientError Unit → Except ApiError BatchSubmitResponse
  | .error (.orchestrationConflictError _ _) =>
    .error (.problemDetail 409 "Idempotency conflict"
      "A different submission already exists for this batchId.")
  | .error e => .error (.problemDetail 502 "Upstream error" (e.text env))
  | .ok _ => .ok body.accepted

/-- `submit_batch`, and the instances after it. -/
def submitBatch (env : Env φ) (instances : Instances φ) (call : SubmitCall) :
    Except ApiError BatchSubmitResponse × Instances φ :=
  if call.idempotencyKey ≠ call.body.batchId then
    (.error (.problemDetail 400 "Idempotency-Key mismatch"
      "Idempotency-Key header must equal body.batchId."), instances)
  else
    let (resp, instances') := httpStart env instances call.now call.startRequest
    (submitResponse env call.body (startBatch env (.ok resp)), instances')

/-! ## 5. Answers of the API -/

/-- The status that the API gives for a runtime status. -/
def RuntimeStatus.batchStatus : RuntimeStatus → BatchStatus
  | .pending => .queued
  | .running => .running
  | .completed => .completed
  | .failed => .failed
  | .terminated => .cancelled
  | .canceled => .cancelled
  | .other => .running

section Answers
variable {env : Env φ} {instances : Instances φ} {submissionId : String} {i : DurableInstance φ}

theorem httpStatus_instance (h : instances submissionId = some i) :
    httpStatus env instances submissionId =
      match normalizeStatus env.loads i.statusObject.durable with
      | .ok body => ⟨200, .json (.obj body)⟩
      | .error _ => env.crash := by
  unfold httpStatus Env.getStatus
  rw [h]
  rfl

theorem httpStatus_missing (h : instances submissionId = none) :
    httpStatus env instances submissionId = ⟨404, .empty⟩ := by
  unfold httpStatus Env.getStatus
  rw [h]
  show (match env.unknown with
    | none => _
    | some s => _) = _
  have hp := statusExists_placeholder env.unknown_placeholder
  cases hs : env.unknown with
  | none => rfl
  | some s =>
    rw [hs] at hp
    simp only [hp]
    rfl

/-- An instance whose status can be normalised is polled. -/
theorem getBatchStatus_instance {blob : Option String} {raw : Fields φ}
    (h : instances submissionId = some i)
    (hraw : normalizeStatus env.loads i.statusObject.durable = .ok raw) :
    getBatchStatus env instances blob submissionId =
      poll env.lax env.loads env.isZero submissionId i.statusObject.durable := by
  unfold getBatchStatus poll
  rw [httpStatus_instance h, hraw]
  rfl

/-- A status document without a result is answered. -/
theorem toStatusResponse_of_no_result {raw : Fields φ} {progress : Option Progress}
    {error : Option BatchError} {status : BatchStatus} {retryAfterSeconds : Option Int}
    (hprogress : valueAt raw "progress" = nullable (fun p => .obj p.fields) progress)
    (hresult : valueAt raw "result" = .null)
    (herror : readBlock env.isZero validateBatchError raw "error" = .ok error)
    (hstatus : (strictStr (valueAt raw "status")).bind BatchStatus.ofText = some status)
    (hestimate : Dict.get? raw "estimatedCompletionSeconds" = none)
    (hretry : optionalValue env.lax.int
      (some ((Dict.get? raw "retryAfterSeconds").getD (.int 10))) = some retryAfterSeconds) :
    toStatusResponse env.lax env.isZero submissionId raw =
      .ok
        { submissionId := submissionId
          status := status
          progress := progress.map Progress.served
          estimatedCompletionSeconds := none
          retryAfterSeconds := retryAfterSeconds
          result := none
          error := error } := by
  have hnone : readResult env.lax env.isZero raw = .ok none := by
    unfold readResult
    rw [hresult]
    rfl
  unfold toStatusResponse
  rw [readBlock_progress progress hprogress, hnone, herror, hstatus, hestimate, hretry]
  rfl

variable (env submissionId) in
/-- What `_normalize_status` makes of an instance that did not complete, and what
the API makes of that. -/
theorem poll_of_ne_completed (hne : i.runtimeStatus ≠ .completed) :
    ∃ raw response, normalizeStatus env.loads i.statusObject.durable = .ok raw ∧
      toStatusResponse env.lax env.isZero submissionId raw = .ok response ∧
      response.status = i.runtimeStatus.batchStatus := by
  have hretry : optionalValue env.lax.int (some (.int 10)) = some (some 10) := by
    show (env.lax.int (.int 10)).map some = _
    rw [env.lax.int_int]
    rfl
  have hcustom : ∀ s : Option Progress, (match nullable (fun p => Json.obj (φ := φ) p.fields) s with
      | .obj fields => .obj fields
      | _ => .null) = nullable (fun p => Json.obj (φ := φ) p.fields) s := by
    intro s
    cases s <;> rfl
  obtain ⟨input, runtimeStatus, customStatus, output, createdTime, lastUpdatedTime⟩ := i
  cases runtimeStatus with
  | completed => exact absurd rfl hne
  | pending | running | other =>
    exact ⟨_, _, rfl,
      toStatusResponse_of_no_result (hcustom customStatus) rfl rfl rfl rfl hretry, rfl⟩
  | terminated | canceled | failed =>
    exact ⟨_, _, rfl,
      toStatusResponse_of_no_result (hcustom customStatus) rfl rfl rfl rfl rfl, rfl⟩

/-- An instance that did not complete is answered with its status. -/
theorem getBatchStatus_of_ne_completed (blob : Option String) (h : instances submissionId = some i)
    (hne : i.runtimeStatus ≠ .completed) :
    ∃ response, getBatchStatus env instances blob submissionId = .ok response ∧
      response.status = i.runtimeStatus.batchStatus := by
  obtain ⟨raw, response, hraw, hresponse, hstatus⟩ := poll_of_ne_completed env submissionId hne
  refine ⟨response, ?_, hstatus⟩
  rw [getBatchStatus_instance h hraw, poll, hraw]
  exact hresponse

/-- A completed instance is answered with its document. -/
theorem getBatchStatus_completed {document : List (CvBlock (Option (CvAggregate φ)))}
    (blob : Option String) (h : instances submissionId = some i)
    (hstatus : i.runtimeStatus = .completed)
    (houtput : IsOutput env.loads i.output (resultDocument document)) :
    getBatchStatus env instances blob submissionId =
      poll env.lax env.loads env.isZero submissionId (completedStatus i.customStatus i.output) := by
  have hdurable : i.statusObject.durable = completedStatus i.customStatus i.output := by
    unfold DurableInstance.statusObject StatusObject.durable completedStatus
    rw [hstatus]
    rfl
  have hraw := normalizeStatus_completed i.customStatus houtput
  rw [← hdurable] at hraw
  rw [getBatchStatus_instance h hraw, hdurable]

/-- The status of a response is the one of the status document. -/
theorem status_of_toStatusResponse {raw : Fields φ} {response : BatchStatusResponse φ}
    (h : toStatusResponse env.lax env.isZero submissionId raw = .ok response) :
    (strictStr (valueAt raw "status")).bind BatchStatus.ofText = some response.status := by
  unfold toStatusResponse at h
  obtain ⟨progress, -, h⟩ := Search.of_bind_eq_ok h
  obtain ⟨result, -, h⟩ := Search.of_bind_eq_ok h
  obtain ⟨error, -, h⟩ := Search.of_bind_eq_ok h
  cases hstatus : (strictStr (valueAt raw "status")).bind BatchStatus.ofText with
  | none =>
    rw [hstatus] at h
    cases h
  | some status =>
    rw [hstatus] at h
    simp only [bind, Except.bind] at h
    split at h
    · split at h
      · cases h
        rfl
      · cases h
    · cases h

/-- Without an instance the only status is 'completed'. -/
theorem status_of_getBatchStatus_missing {blob : Option String} {response : BatchStatusResponse φ}
    (hmissing : instances submissionId = none)
    (h : getBatchStatus env instances blob submissionId = .ok response) :
    response.status = .completed := by
  unfold getBatchStatus at h
  rw [httpStatus_missing hmissing] at h
  simp only [clientGetBatchStatus, if_true] at h
  split at h
  · have hstatus := status_of_toStatusResponse h
    exact (Option.some.inj hstatus).symm
  · cases h
  · cases h

/-- Without an instance the API looks for the result blob. -/
theorem getBatchStatus_missing {blob : Option String} (h : instances submissionId = none)
    (hblob : readBatchResultFromBlob env blob = .ok none) :
    getBatchStatus env instances blob submissionId = .error (notFound submissionId) := by
  unfold getBatchStatus
  rw [httpStatus_missing h]
  simp only [clientGetBatchStatus, if_true, hblob]

/-- A result blob is answered like a completed instance with its document. -/
theorem getBatchStatus_blob {text : String} {document : List (CvBlock (Option (CvAggregate φ)))}
    (h : instances submissionId = none) (haccount : env.blobAccount ≠ "")
    (htext : env.loads text = .ok (resultDocument document)) :
    getBatchStatus env instances (some text) submissionId =
      poll env.lax env.loads env.isZero submissionId
        (completedStatus none (resultDocument document)) := by
  have hblob : readBatchResultFromBlob env (some text) = .ok (some (resultDocument document)) := by
    unfold readBatchResultFromBlob
    rw [if_neg haccount]
    simp only [htext]
    rfl
  unfold getBatchStatus poll
  rw [httpStatus_missing h, normalizeStatus_completed none (.inl rfl)]
  simp only [clientGetBatchStatus, if_true, hblob]
  rfl

variable (env) in
/-- A cancellation is answered with 409 or 200 for an instance that completed or
was terminated, and with 202 for any other one. -/
theorem cancelBatch_instance (occurredAt : String) (h : instances submissionId = some i) :
    cancelBatch env instances occurredAt submissionId =
      .ok (match i.runtimeStatus with
        | .completed => (409, .completed)
        | .terminated => (200, .cancelled)
        | _ => (202, .cancelling)) := by
  unfold cancelBatch Env.getStatus
  rw [h]
  obtain ⟨input, runtimeStatus, customStatus, output, createdTime, lastUpdatedTime⟩ := i
  cases runtimeStatus <;> rfl

variable (env) in
/-- So it is without an instance: the 404 of `http_terminate` is not one of the
codes that `cancel_batch` knows. -/
theorem cancelBatch_missing (occurredAt : String) (h : instances submissionId = none) :
    cancelBatch env instances occurredAt submissionId = .ok (202, .cancelling) := by
  have hterminate : (httpTerminate env submissionId occurredAt
      (cancelRequest "client requested cancel") env.unknown).response = ⟨404, .empty⟩ := by
    have hp := statusExists_placeholder env.unknown_placeholder
    unfold httpTerminate
    cases hs : env.unknown with
    | none => rfl
    | some s =>
      rw [hs] at hp
      simp only [hp]
      rfl
  unfold cancelBatch Env.getStatus
  rw [h]
  simp only [hterminate]
  rfl

end Answers

namespace Sample

/-- An environment with the given `json.loads`, in which Durable returns nothing for
an id that it does not know. -/
def env (loads : String → Except LoadsError (Json ℚ)) : Env ℚ where
  isZero := numerics.isZero
  loads := loads
  dumps := str
  lax := lax
  repr text := "'" ++ text ++ "'"
  str := str
  crashText := ""
  blobAccount := "awrstore"
  unknown := none
  unknown_placeholder := trivial

end Sample

end TalentMatch
