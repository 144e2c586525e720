import TalentMatch.Lib.Jwt
import TalentMatch.WireTexts
import TalentMatch.YieldPoints

/-!
# Projecting live events

`project_live_progress_event` of `runtime/events.py`, which posts an event to the SignalR
group of its batch: the connection string, the bearer token and the request. What SignalR
and the identity endpoint answer is arbitrary.

Results:
1. `connection_string_parsed`: what is read from a connection string.
2. `token_verified`: a token that was made with an access key is verified by
   whoever knows the key, as one for the URL of the request that expires after 300 seconds.
3. `batch_events_projected`: the requests for the events that the orchestrator of a batch
   builds go to the group of that batch, each with a token for it, and show the events in
   their order. Nothing is sent when the projection is disabled or has no endpoint.
-/

namespace TalentMatch

open Json (LoadsError Layout FloatWriter Keyed KeyedFields)

variable {φ : Type}

/-! ## 1. The connection string -/

/-- `text.rstrip("/")`. -/
def rstripSlash (text : String) : String :=
  String.ofList (text.toList.rdropWhile fun c => c == '/')

/-- `part.split("=", 1)`, for a part that has an `=`. -/
def connectionPart (part : String) : Option (String × String) :=
  if '=' ∈ part.toList then
    some
      (String.ofList (part.toList.takeWhile fun c => c != '='),
        String.ofList ((part.toList.dropWhile fun c => c != '=').drop 1))
  else none

/-- `_parse_signalr_connection_string`. -/
def parseSignalrConnectionString (connectionString : String) : String × String :=
  let parts := Dict.ofPairs ((PyText.split connectionString ';').filterMap connectionPart)
  (rstripSlash ((Dict.get? parts "Endpoint").getD ""), (Dict.get? parts "AccessKey").getD "")

/-- The settings that the projection reads. -/
structure ProjectionSettings where
  liveProgressEnabled : Bool
  liveProgressTarget : String
  liveProgressGroupPrefix : String
  signalrConnectionString : String
  signalrServiceEndpoint : String
  signalrTokenScope : String
  signalrHubName : String

/-- `_resolve_signalr_endpoint`. -/
def ProjectionSettings.resolveSignalrEndpoint (settings : ProjectionSettings) : String × String :=
  let (endpoint, accessKey) := parseSignalrConnectionString settings.signalrConnectionString
  if endpoint = "" then (rstripSlash settings.signalrServiceEndpoint, "")
  else (endpoint, accessKey)

/-! ## 2. The token -/

/-- What the projection can raise. -/
inductive ProjectionError where
  | azureError (message : String)
  | httpError (message : String)
  | other (message : String)

/-- `_base64url`. -/
def base64url (value : List UInt8) : String :=
  String.ofList ((Base64Url.padded value).rdropWhile fun c => c == '=')

section Token
variable (repr : φ → String) (hmac : List UInt8 → List UInt8 → List UInt8)

/-- `_base64url_json`. -/
def base64urlJson (value : Fields φ) : String :=
  base64url (Jwt.utf8 (Json.text .compact repr (.obj value)))

def tokenHeader : Fields φ := [("alg", .str "HS256"), ("typ", .str "JWT")]

def tokenPayload (url : String) (now : Int) : Fields φ :=
  [("aud", .str url), ("exp", .int (now + 300))]

/-- `_build_signalr_bearer_token`, at the time `int(time.time())`. `getToken` is that of the
managed identity. -/
def buildSignalrBearerToken (now : Int) (getToken : String → Except ProjectionError String)
    (url accessKey tokenScope : String) : Except ProjectionError String :=
  if accessKey = "" then getToken tokenScope
  else
    let header := base64urlJson repr (tokenHeader (φ := φ))
    let payload := base64urlJson repr (tokenPayload url now)
    let signature := hmac (Jwt.utf8 accessKey) (Jwt.utf8 (header ++ "." ++ payload))
    .ok (header ++ "." ++ payload ++ "." ++ base64url signature)

end Token

/-! ## 3. The request -/

/-- The event as it is sent. -/
def LiveEvent.toJson (e : LiveEvent) : Json φ :=
  .obj
    [("specVersion", .str "awr.platform.progress.v1"), ("eventType", .str e.eventType),
      ("sequence", .int e.sequence), ("occurredAt", .str e.occurredAt),
      ("submission", .obj
        [("submissionId", .str e.submission.submissionId), ("batchId", .str e.submission.batchId),
          ("jobId", .str e.submission.jobId), ("status", .str e.submission.status)]),
      ("application", nullable (fun a : EventApplication => .obj
        [("applicationId", .str a.applicationId), ("documentId", .str a.documentId),
          ("status", .str a.status)]) e.application),
      ("run", nullable (fun r : EventRun => .obj
        [("runId", .str r.runId), ("runIndex", .int r.runIndex), ("status", .str r.status),
          ("artifactCount", .int r.artifactCount)]) e.run),
      ("progress", .obj
        [("status", .str e.progress.status), ("cvsCompleted", .int e.progress.cvsCompleted),
          ("cvsTotal", .int e.progress.cvsTotal), ("runsCompleted", .int e.progress.runsCompleted),
          ("runsDispatched", .int e.progress.runsDispatched),
          ("runsTotal", .int e.progress.runsTotal),
          ("lastUpdatedAt", .str e.progress.lastUpdatedAt)]),
      ("artifacts", .arr (e.artifacts.map fun a => .obj a.fields)),
      ("trace", .obj [("correlationId", .str e.correlationId), ("traceparent", .str e.traceparent)]),
      ("fallback", .obj
        [("mode", .str "poll"),
          ("pollUrl", .str ("/assess/batch/" ++ e.submission.batchId ++ "/status"))])]

/-- A request to SignalR. -/
structure HubPost where
  url : String
  authorization : String
  body : String

/-- What the projection returns. -/
structure ProjectionOutcome where
  projected : Bool
  reason : Option String
  transport : String
  deriving DecidableEq

/-- What a call of the projection meets. -/
structure HubWorld where
  now : Int
  getToken : String → Except ProjectionError String
  post : HubPost → Except ProjectionError Unit

section Project
variable (layout : Layout) (repr : φ → String) (hmac : List UInt8 → List UInt8 → List UInt8)
  (settings : ProjectionSettings)

/-- The group of a batch. -/
def ProjectionSettings.groupUrl (settings : ProjectionSettings) (batchId : String) : String :=
  settings.resolveSignalrEndpoint.1 ++ "/api/v1/hubs/" ++ settings.signalrHubName ++ "/groups/" ++
    (settings.liveProgressGroupPrefix ++ ":" ++ batchId)

/-- The body of the request for an event. -/
def hubBody (target : String) (e : LiveEvent) : Json φ :=
  .obj [("target", .str target), ("arguments", .arr [e.toJson])]

/-- Errors of Azure and of HTTP are caught. -/
def projectionFailed : ProjectionError → Except ProjectionError ProjectionOutcome
  | .other message => .error (.other message)
  | _ => .ok ⟨false, some "signalr-error", "poll"⟩

/-- `project_live_progress_event`: the requests it makes, and what it returns. -/
def projectLiveProgressEvent (world : HubWorld) (e : LiveEvent) :
    List HubPost × Except ProjectionError ProjectionOutcome :=
  if !settings.liveProgressEnabled then ([], .ok ⟨false, some "disabled", "poll"⟩)
  else
    let (endpoint, accessKey) := settings.resolveSignalrEndpoint
    if endpoint = "" then ([], .ok ⟨false, some "not-configured", "poll"⟩)
    else
      let url := settings.groupUrl e.submission.batchId
      match buildSignalrBearerToken repr hmac world.now world.getToken url accessKey
          settings.signalrTokenScope with
      | .error err => ([], projectionFailed err)
      | .ok token =>
        let post : HubPost :=
          { url := url
            authorization := "Bearer " ++ token
            body := Json.text layout repr (hubBody settings.liveProgressTarget e) }
        match world.post post with
        | .error err => ([post], projectionFailed err)
        | .ok () => ([post], .ok ⟨true, none, "signalr"⟩)

/-- The requests for events, each of which meets a world of its own. -/
def hubPosts (calls : List (LiveEvent × HubWorld)) : List HubPost :=
  calls.flatMap fun call => (projectLiveProgressEvent layout repr hmac settings call.2 call.1).1

end Project

/-! ## 4. What a receiver sees -/

/-- A segment of a connection string: a key with its value, or a text without `=`. -/
def segmentText (segment : String × Option String) : String :=
  match segment.2 with
  | none => segment.1
  | some value => segment.1 ++ "=" ++ value

def connectionText (segments : List (String × Option String)) : String :=
  String.ofList ([';'].intercalate ((segments.map segmentText).map String.toList))

/-- The last value of a key. -/
def lastValue (segments : List (String × Option String)) (key : String) : String :=
  ((segments.filterMap fun p => if p.1 = key then p.2 else none).getLast?).getD ""

/-- The request is addressed to the group of the batch, its body is read back as the event, and
with an access key its token is verified as one for its URL. -/
structure HubPost.Shows (float : String → φ) (hmac : List UInt8 → List UInt8 → List UInt8)
    (settings : ProjectionSettings) (batchId : String) (post : HubPost)
    (call : LiveEvent × HubWorld) : Prop where
  url : post.url = settings.groupUrl batchId
  body : Json.loads float post.body = .ok (hubBody settings.liveProgressTarget call.1)
  authorized : settings.resolveSignalrEndpoint.2 ≠ "" → ∃ token,
    post.authorization = "Bearer " ++ token ∧
      Jwt.verify float (hmac (Jwt.utf8 settings.resolveSignalrEndpoint.2)) token =
        some (.obj tokenHeader, .obj (tokenPayload post.url call.2.now))

namespace ProjectionLemmas

open EngineContractLemmas WireTextsLemmas

/-! ## 5. Texts -/

/-- A part with an `=` is a key and a value, however many `=` the value has. -/
theorem connectionPart_pair {key : String} (value : String) (hkey : '=' ∉ key.toList) :
    connectionPart (key ++ "=" ++ value) = some (key, value) := by
  have hlist : (key ++ "=" ++ value).toList = key.toList ++ '=' :: value.toList := by simp
  have hall : ∀ c ∈ key.toList, (c != '=') = true := by
    intro c hc
    exact bne_iff_ne.mpr fun heq => hkey (heq ▸ hc)
  have htake : (key.toList ++ '=' :: value.toList).takeWhile (fun c => c != '=') = key.toList := by
    rw [List.takeWhile_append_of_pos hall]
    simp
  have hdrop : (key.toList ++ '=' :: value.toList).dropWhile (fun c => c != '=') =
      '=' :: value.toList := by
    rw [List.dropWhile_append_of_pos hall]
    simp
  rw [connectionPart, hlist, htake, hdrop, if_pos (by simp)]
  simp

theorem connectionPart_segmentText {segment : String × Option String}
    (hkey : '=' ∉ segment.1.toList) :
    connectionPart (segmentText segment) = segment.2.map fun value => (segment.1, value) := by
  obtain ⟨key, value⟩ := segment
  cases value with
  | none => exact if_neg hkey
  | some value => exact connectionPart_pair value hkey

/-- The parts of a connection string. No segments make the empty text, which has no pairs
either. -/
theorem parts_connectionText {segments : List (String × Option String)}
    (hsep : ∀ p ∈ segments, ';' ∉ (segmentText p).toList)
    (hkey : ∀ p ∈ segments, '=' ∉ p.1.toList) :
    (PyText.split (connectionText segments) ';').filterMap connectionPart =
      segments.filterMap fun p => p.2.map fun value => (p.1, value) := by
  by_cases hne : segments = []
  · subst hne
    rfl
  · have hsplit : PyText.split (connectionText segments) ';' = segments.map segmentText := by
      refine PyText.split_eq_iff.mpr ⟨by simpa using hne, ?_, ?_⟩
      · rw [connectionText, String.toList_ofList]
      · intro part hpart
        obtain ⟨p, hp, rfl⟩ := List.mem_map.mp hpart
        exact hsep p hp
    rw [hsplit, List.filterMap_map]
    exact List.filterMap_congr fun p hp => connectionPart_segmentText (hkey p hp)

theorem get?_segments (segments : List (String × Option String)) (key : String) :
    (Dict.get? (Dict.ofPairs (segments.filterMap fun p => p.2.map fun value => (p.1, value)))
      key).getD "" = lastValue segments key := by
  rw [Dict.get?_ofPairs_eq_getLast?, List.filterMap_filterMap, lastValue]
  congr 2
  refine List.filterMap_congr fun p _ => ?_
  cases p.2 with
  | none => simp
  | some value => simp

theorem base64url_eq (value : List UInt8) : base64url value = Jwt.part value := by
  rw [base64url, Jwt.part, Base64Url.rdropWhile_padded]

theorem keyed_event (e : LiveEvent) : Keyed (φ := φ) e.toJson := by
  refine ⟨show ["specVersion", "eventType", "sequence", "occurredAt", "submission", "application",
    "run", "progress", "artifacts", "trace", "fallback"].Nodup by decide, trivial, trivial, trivial,
    trivial, ?_, keyed_nullable fun a _ => ?_, keyed_nullable fun r _ => ?_, ?_,
    keyed_arr_map fun a _ => keyed_artifactItem a, ?_, ?_, trivial⟩
  · exact ⟨show ["submissionId", "batchId", "jobId", "status"].Nodup by decide, trivial, trivial,
      trivial, trivial, trivial⟩
  · exact ⟨show ["applicationId", "documentId", "status"].Nodup by decide, trivial, trivial,
      trivial, trivial⟩
  · exact ⟨show ["runId", "runIndex", "status", "artifactCount"].Nodup by decide, trivial, trivial,
      trivial, trivial, trivial⟩
  · exact ⟨show ["status", "cvsCompleted", "cvsTotal", "runsCompleted", "runsDispatched",
      "runsTotal", "lastUpdatedAt"].Nodup by decide, trivial, trivial, trivial, trivial, trivial,
      trivial, trivial, trivial⟩
  · exact ⟨show ["correlationId", "traceparent"].Nodup by decide, trivial, trivial, trivial⟩
  · exact ⟨show ["mode", "pollUrl"].Nodup by decide, trivial, trivial, trivial⟩

theorem keyed_hubBody (target : String) (e : LiveEvent) : Keyed (φ := φ) (hubBody target e) :=
  ⟨show ["target", "arguments"].Nodup by decide, trivial, ⟨keyed_event e, trivial⟩, trivial⟩

theorem keyed_tokenHeader : Keyed (φ := φ) (.obj tokenHeader) :=
  ⟨show ["alg", "typ"].Nodup by decide, trivial, trivial, trivial⟩

theorem keyed_tokenPayload (url : String) (now : Int) :
    Keyed (φ := φ) (.obj (tokenPayload url now)) :=
  ⟨show ["aud", "exp"].Nodup by decide, trivial, trivial, trivial⟩

/-- With an access key the token is one in compact form. -/
theorem buildSignalrBearerToken_key (repr : φ → String)
    (hmac : List UInt8 → List UInt8 → List UInt8) (now : Int)
    (getToken : String → Except ProjectionError String) (url tokenScope : String)
    {accessKey : String} (hkey : accessKey ≠ "") :
    buildSignalrBearerToken repr hmac now getToken url accessKey tokenScope =
      .ok (Jwt.compact .compact repr (hmac (Jwt.utf8 accessKey)) (.obj tokenHeader)
        (.obj (tokenPayload url now))) := by
  rw [buildSignalrBearerToken, if_neg hkey]
  simp only [base64urlJson, base64url_eq]
  rfl

end ProjectionLemmas

open ProjectionLemmas

/-! ## 6. Tokens -/

/-- Of a connection string the last endpoint counts, without its trailing slashes, and the last
access key. A value may contain `=`, as base64 does, and text without `=` is skipped. -/
theorem connection_string_parsed {segments : List (String × Option String)}
    (hsep : ∀ p ∈ segments, ';' ∉ (segmentText p).toList)
    (hkey : ∀ p ∈ segments, '=' ∉ p.1.toList) :
    parseSignalrConnectionString (connectionText segments) =
      (rstripSlash (lastValue segments "Endpoint"), lastValue segments "AccessKey") := by
  simp only [parseSignalrConnectionString, parts_connectionText hsep hkey, get?_segments]

example :
    parseSignalrConnectionString "Endpoint=https://hub/;AccessKey=a2V5;;Version=1;AccessKey=bQ==" =
      ("https://hub", "bQ==") := by
  decide +kernel

section Token
variable {float : String → φ} (writer : FloatWriter float)
  (hmac : List UInt8 → List UInt8 → List UInt8)

/-- A token that was made with an access key is verified by whoever knows the key, as one for
the URL of the request that expires 300 seconds later. -/
theorem token_verified (now : Int) (getToken : String → Except ProjectionError String)
    (url tokenScope : String) {accessKey : String} (hkey : accessKey ≠ "") :
    ∃ token, buildSignalrBearerToken writer.repr hmac now getToken url accessKey tokenScope =
        .ok token ∧
      Jwt.verify float (hmac (Jwt.utf8 accessKey)) token =
        some (.obj tokenHeader, .obj (tokenPayload url now)) :=
  ⟨_, buildSignalrBearerToken_key _ _ now getToken url tokenScope hkey,
    Jwt.verify_compact writer .compact _ keyed_tokenHeader (keyed_tokenPayload url now)⟩

end Token

/-! ## 7. The requests of a batch -/

namespace ProjectionLemmas

section Requests
variable {float : String → φ} (writer : FloatWriter float) (layout : Layout)
  (hmac : List UInt8 → List UInt8 → List UInt8) (settings : ProjectionSettings)

/-- A call makes no request, or one that shows its event. With an access key it makes one. -/
theorem project_cases (call : LiveEvent × HubWorld) :
    let posts := (projectLiveProgressEvent layout writer.repr hmac settings call.2 call.1).1
    (posts = [] ∧ (settings.liveProgressEnabled = true → settings.resolveSignalrEndpoint.1 ≠ "" →
        settings.resolveSignalrEndpoint.2 = "")) ∨
      ∃ post, posts = [post] ∧ settings.liveProgressEnabled = true ∧
        settings.resolveSignalrEndpoint.1 ≠ "" ∧
        post.Shows float hmac settings call.1.submission.batchId call := by
  obtain ⟨e, world⟩ := call
  simp only [projectLiveProgressEvent]
  cases henabled : settings.liveProgressEnabled with
  | false => exact .inl ⟨rfl, nofun⟩
  | true =>
    simp only [Bool.not_true, Bool.false_eq_true, if_false]
    by_cases hendpoint : settings.resolveSignalrEndpoint.1 = ""
    · rw [if_pos hendpoint]
      exact .inl ⟨rfl, fun _ hne => absurd hendpoint hne⟩
    · rw [if_neg hendpoint]
      cases htoken : buildSignalrBearerToken writer.repr hmac world.now world.getToken
          (settings.groupUrl e.submission.batchId) settings.resolveSignalrEndpoint.2
          settings.signalrTokenScope with
      | error err =>
        refine .inl ⟨rfl, fun _ _ => ?_⟩
        by_contra hkey
        rw [buildSignalrBearerToken_key _ _ _ _ _ _ hkey] at htoken
        cases htoken
      | ok token =>
        -- the request is made whatever the answer to it is
        have hshows : HubPost.Shows float hmac settings e.submission.batchId
            { url := settings.groupUrl e.submission.batchId
              authorization := "Bearer " ++ token
              body := Json.text layout writer.repr (hubBody settings.liveProgressTarget e) }
            (e, world) := by
          refine ⟨rfl, Json.loads_dumps writer layout (keyed_hubBody _ e), fun hkey => ?_⟩
          obtain ⟨token', htoken', hverify⟩ := token_verified writer hmac world.now
            world.getToken (settings.groupUrl e.submission.batchId) settings.signalrTokenScope hkey
          obtain rfl := Except.ok.inj (htoken.symm.trans htoken')
          exact ⟨token, rfl, hverify⟩
        refine .inr ⟨_, ?_, trivial, hendpoint, hshows⟩
        simp only
        split
        · rfl
        · rfl

/-- The requests show their events in order. -/
theorem hubPosts_shows {batchId : String} {calls : List (LiveEvent × HubWorld)}
    (hbatch : ∀ call ∈ calls, call.1.submission.batchId = batchId) :
    ∃ sent : List (LiveEvent × HubWorld), sent.Sublist calls ∧
      List.Forall₂ (HubPost.Shows float hmac settings batchId)
        (hubPosts layout writer.repr hmac settings calls) sent ∧
      (settings.liveProgressEnabled = true → settings.resolveSignalrEndpoint.1 ≠ "" →
        settings.resolveSignalrEndpoint.2 ≠ "" → sent = calls) := by
  induction calls with
  | nil => exact ⟨[], List.Sublist.refl _, .nil, fun _ _ _ => rfl⟩
  | cons call calls ih =>
    obtain ⟨sent, hsub, hshows, hall⟩ := ih fun c hc => hbatch c (List.mem_cons_of_mem _ hc)
    rw [hubPosts, List.flatMap_cons]
    rcases project_cases writer layout hmac settings call with
      ⟨hnone, hkey⟩ | ⟨post, hpost, -, -, hshow⟩
    · rw [hnone, List.nil_append]
      exact ⟨sent, hsub.cons call, hshows, fun h h' hne => absurd (hkey h h') hne⟩
    · rw [hpost, List.singleton_append]
      rw [hbatch call List.mem_cons_self] at hshow
      exact ⟨call :: sent, hsub.cons_cons call, .cons hshow hshows, fun h h' hne => by
        rw [hall h h' hne]⟩

/-- Without an endpoint, or when the projection is disabled, nothing is sent. -/
theorem hubPosts_eq_nil (calls : List (LiveEvent × HubWorld))
    (h : settings.liveProgressEnabled = false ∨ settings.resolveSignalrEndpoint.1 = "") :
    hubPosts layout writer.repr hmac settings calls = [] := by
  refine List.flatMap_eq_nil_iff.mpr fun call _ => ?_
  rcases project_cases writer layout hmac settings call with
    ⟨hnone, -⟩ | ⟨post, -, henabled, hendpoint, -⟩
  · exact hnone
  · rcases h with hdisabled | hempty
    · rw [henabled] at hdisabled
      cases hdisabled
    · exact absurd hempty hendpoint

end Requests

/-! ## 8. The events of a batch -/

section Batch
variable {uuid5 : String → String} {payload : BatchPayload}

variable (payload) in
/-- The document and the events name the batch. -/
structure Addressed (s : OrchState) : Prop where
  batchId : s.progress.batchId = payload.batchId
  submissionId : s.progress.submissionId = payload.batchId
  events : ∀ e ∈ s.liveEvents, e.submission.batchId = payload.batchId

theorem batchId_of_build {eventType occurredAt correlationId traceparent : String}
    {progress : Progress} {sequence : Nat} {runId : Option String}
    {artifacts : Option (List ArtifactItem)} {event : LiveEvent}
    (h : buildLiveProgressEvent eventType progress occurredAt sequence correlationId traceparent runId
      artifacts = some event) :
    event.submission.batchId = orText progress.batchId progress.submissionId := by
  simp only [buildLiveProgressEvent] at h
  split at h
  · cases h
  · cases h
    rfl

/-- An event that is built from a document that still names the batch. -/
theorem Addressed.project {s s₀ s' : OrchState} {event : Option LiveEvent}
    (hs : Addressed payload s) (h : s₀.project event = some s')
    (hids : s₀.progress.batchId = s.progress.batchId ∧
      s₀.progress.submissionId = s.progress.submissionId)
    (hevents : s₀.liveEvents = s.liveEvents)
    (hevent : ∀ e ∈ event,
      e.submission.batchId = orText s₀.progress.batchId s₀.progress.submissionId) :
    Addressed payload s' := by
  obtain ⟨e, rfl, rfl⟩ := Option.map_eq_some_iff.mp h
  have hbatch := hids.1.trans hs.batchId
  have hsubmission := hids.2.trans hs.submissionId
  refine ⟨hbatch, hsubmission, fun e' he' => ?_⟩
  rcases List.mem_append.mp he' with hold | hnew
  · exact hs.events e' (hevents ▸ hold)
  · obtain rfl := List.mem_singleton.mp hnew
    rw [hevent _ rfl, hbatch, hsubmission, orText, ite_self]

theorem ids_recordDispatchedRun (progress : Progress) (runId updatedAt : String) :
    (recordDispatchedRun progress runId updatedAt).batchId = progress.batchId ∧
      (recordDispatchedRun progress runId updatedAt).submissionId = progress.submissionId := by
  unfold recordDispatchedRun
  split
  · exact ⟨rfl, rfl⟩
  · exact ⟨rfl, rfl⟩

theorem ids_recordRunResult (progress : Progress) (runResult : RunResult) (updatedAt : String) :
    (recordRunResult progress runResult updatedAt).batchId = progress.batchId ∧
      (recordRunResult progress runResult updatedAt).submissionId = progress.submissionId := by
  unfold recordRunResult
  split
  · exact ⟨rfl, rfl⟩
  · split
    · exact ⟨rfl, rfl⟩
    · split
      · exact ⟨rfl, rfl⟩
      · exact ⟨rfl, rfl⟩

theorem addressed_initial (createdAt : String) : Addressed payload (.initial uuid5 payload createdAt) :=
  ⟨rfl, rfl, nofun⟩

theorem addressed_recordDispatch {dispatchedAt runId : String} {s s' : OrchState}
    (hs : Addressed payload s) (h : recordDispatch payload dispatchedAt s runId = some s') :
    Addressed payload s' :=
  hs.project h (ids_recordDispatchedRun _ _ _) rfl fun _ he => batchId_of_build he

theorem addressed_announceRun {s s' : OrchState} {a : Arrival} (hs : Addressed payload s)
    (h : announceRun payload s a = some s') : Addressed payload s' :=
  hs.project h (ids_recordRunResult _ _ _) rfl fun _ he => batchId_of_build he

theorem addressed_reportApplication {s s' : OrchState} {applicationId : String} {a : Arrival}
    (hs : Addressed payload s) (h : reportApplication payload s applicationId a = some s') :
    Addressed payload s' := by
  unfold reportApplication at h
  split at h
  · cases h
    exact hs
  · split at h
    · refine hs.project h ⟨rfl, rfl⟩ rfl fun e he => ?_
      unfold buildApplicationTerminalLiveEvent at he
      split at he
      · cases he
      · exact batchId_of_build he
    · cases h
      exact hs

theorem addressed_consume {s s' : OrchState} {a : Arrival} (hs : Addressed payload s)
    (h : consume uuid5 payload s a = some s') : Addressed payload s' := by
  rw [consume_eq (mem_pending_of_consume h)] at h
  obtain ⟨s₁, hs₁, hrest⟩ := Option.bind_eq_some_iff.mp h
  obtain ⟨entry, -, hreport⟩ := Option.bind_eq_some_iff.mp hrest
  exact addressed_reportApplication (addressed_announceRun hs hs₁) hreport

theorem addressed_dispatched {createdAt dispatchedAt : String} {ids : List String} {s : OrchState}
    (hs : ids.foldlM (recordDispatch payload dispatchedAt) (.initial uuid5 payload createdAt) =
      some s) : Addressed payload s := by
  rw [Transition.foldlM_eq_exec] at hs
  exact Transition.exec_invariant (fun _ _ _ => addressed_recordDispatch)
    (addressed_initial createdAt) hs

theorem addressed_waitLoop {createdAt dispatchedAt : String} {arrivals : List Arrival}
    {s : OrchState} (hs : waitLoop uuid5 payload createdAt dispatchedAt arrivals = some s) :
    Addressed payload s := by
  obtain ⟨s₀, hs₀, hrun⟩ := Option.bind_eq_some_iff.mp hs
  exact Transition.exec_invariant (fun _ _ _ => addressed_consume) (addressed_dispatched hs₀) hrun

/-- At every yield the events name the batch. -/
theorem batchId_of_refines {p : YieldPoint} (hp : Refines uuid5 payload p) {e : LiveEvent}
    (he : e ∈ p.events) : e.submission.batchId = payload.batchId := by
  cases hp with
  | notStarted => cases he
  | staging createdAt => cases he
  | dispatching hids hne hs => exact (addressed_dispatched hs).events e he
  | waiting hs => exact (addressed_waitLoop hs).events e he
  | reporting hs ha hs' => exact (addressed_announceRun (addressed_waitLoop hs) hs').events e he
  | closing hs hs' =>
    have hclosing := (addressed_waitLoop hs).project hs' ⟨rfl, rfl⟩ rfl fun _ he' =>
      batchId_of_build he'
    exact hclosing.events e he

end Batch

end ProjectionLemmas

section Events
variable {uuid5 : String → String} {payload : BatchPayload} {float : String → φ}
  (writer : FloatWriter float) (layout : Layout) (hmac : List UInt8 → List UInt8 → List UInt8)
  (settings : ProjectionSettings)

/-- However far the orchestrator of a batch has come, and whatever SignalR and the identity endpoint
answered: the requests for the events that it has built were addressed to the group of the batch,
and show these events with increasing numbers, each with a token for its URL where there is an
access key. Then no event is left out. Nothing is sent when the projection is disabled or has no
endpoint. The event of `http_terminate` is not one of them. -/
theorem batch_events_projected (hu : Uuid5Spec uuid5) (hd : payload.DistinctApplications)
    {p : YieldPoint} (hp : Refines uuid5 payload p) {calls : List (LiveEvent × HubWorld)}
    (hcalls : calls.map Prod.fst = p.events) :
    (settings.liveProgressEnabled = false ∨ settings.resolveSignalrEndpoint.1 = "" →
        hubPosts layout writer.repr hmac settings calls = []) ∧
      ∃ sent : List (LiveEvent × HubWorld), sent.Sublist calls ∧
        List.Forall₂ (HubPost.Shows float hmac settings payload.batchId)
          (hubPosts layout writer.repr hmac settings calls) sent ∧
        (sent.map fun call => call.1.sequence).Pairwise (· < ·) ∧
        (settings.liveProgressEnabled = true → settings.resolveSignalrEndpoint.1 ≠ "" →
          settings.resolveSignalrEndpoint.2 ≠ "" → sent = calls) := by
  have hbatch : ∀ call ∈ calls, call.1.submission.batchId = payload.batchId := by
    intro call hcall
    exact batchId_of_refines hp (hcalls ▸ List.mem_map_of_mem hcall)
  have hsequences : (calls.map fun call => call.1.sequence).Pairwise (· < ·) := by
    have hmap : calls.map (fun call => call.1.sequence) = List.range' 1 p.events.length := by
      rw [← sequences_of_refines hu hd hp, ← hcalls, List.map_map]
      rfl
    rw [hmap]
    exact List.pairwise_lt_range' 1
  obtain ⟨sent, hsub, hshows, hall⟩ := hubPosts_shows writer layout hmac settings hbatch
  exact ⟨hubPosts_eq_nil writer layout hmac settings calls, sent, hsub, hshows,
    hsequences.sublist (hsub.map _), hall⟩

end Events

namespace Sample

def hubSettings : ProjectionSettings where
  liveProgressEnabled := true
  liveProgressTarget := "progressUpdated"
  liveProgressGroupPrefix := "batch"
  signalrConnectionString := "Endpoint=https://hub/;AccessKey=bQ==;Version=1.0;"
  signalrServiceEndpoint := ""
  signalrTokenScope := ""
  signalrHubName := "progress"

/-- SignalR fails. -/
def hubWorld : HubWorld where
  now := 1735689600
  getToken := fun _ => .error (.azureError "no identity")
  post := fun _ => .error (.httpError "503")

/-- A signature that is the text itself behind the key. -/
def plainHmac (key text : List UInt8) : List UInt8 := key ++ text

def hubCall (e : LiveEvent) : LiveEvent × HubWorld := (e, hubWorld)

end Sample

/-- Two runs of two applications, and requests for all of their events. -/
theorem batch_events_projected_sample :
    ∃ s, waitLoop Sample.uuid5 (Sample.payload Sample.batch1 ["app-1", "app-2"] 1)
        "2025-01-01T00:00:00+00:00" "2025-01-01T00:00:10+00:00" Sample.mixedArrivals = some s ∧
      List.Forall₂ (HubPost.Shows Json.readWhole Sample.plainHmac Sample.hubSettings Sample.batch1)
        (hubPosts .dumps Json.wholeFloats.repr Sample.plainHmac Sample.hubSettings
          (s.liveEvents.map Sample.hubCall)) (s.liveEvents.map Sample.hubCall) ∧
      (s.liveEvents.map LiveEvent.sequence).Pairwise (· < ·) := by
  have hone : OnePerRun Sample.uuid5 (Sample.payload Sample.batch1 ["app-1", "app-2"] 1)
      Sample.mixedArrivals := by decide
  obtain ⟨s, hs, -, -⟩ := waitLoop_spec Sample.uuid5_spec (by decide)
    "2025-01-01T00:00:00+00:00" "2025-01-01T00:00:10+00:00" hone
  have hcalls : (s.liveEvents.map Sample.hubCall).map Prod.fst = s.liveEvents := by
    rw [List.map_map]
    exact List.map_id _
  obtain ⟨-, sent, -, hshows, hsequences, hall⟩ := batch_events_projected Json.wholeFloats .dumps
    Sample.plainHmac Sample.hubSettings Sample.uuid5_spec (by decide) (.waiting hs) hcalls
  obtain rfl := hall rfl (by decide) (by decide)
  refine ⟨s, hs, hshows, ?_⟩
  rwa [List.map_map] at hsequences

end TalentMatch
