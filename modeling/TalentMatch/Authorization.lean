import Mathlib.Tactic.Linarith
import TalentMatch.KeyCaches
import TalentMatch.Host

/-!
# Who may act

`require_auth` of `api/auth.py` in front of the routes of `api/routes_assess.py`, over
any sequence of requests. The process keeps its caches of signing keys between them. The
answers of the identity provider, the clock and `jose.jwt` are arbitrary.

Results:
1. `host_changes_authorized`: with authentication on, every start and every termination
   that reaches the host is that of a request whose token was verified with a key that the
   provider served less than 300 seconds before. Polls need no token.
2. `withdrawn_keys_expire`: 300 seconds after the provider has changed its keys, no token
   is accepted but those that a new key verifies.
-/

namespace TalentMatch

variable {φ : Type}

/-! ## 1. `require_auth` -/

/-- The settings of `api/auth.py`. -/
structure AuthSettings where
  authRequired : Bool
  aadIssuer : String
  aadAudience : String

/-- `jose.jwt`: the header of a token, and its claims once RS256 has verified it with a key, for
an audience and an issuer. -/
structure Jose (φ : Type) where
  getUnverifiedHeader : String → Except String (Fields φ)
  decode : String → Fields φ → String → String → Except String (Fields φ)

/-- What `_decode_jwt` catches. -/
inductive DecodeError where
  | jose (message : String)
  | auth (e : AuthError)

/-- `HTTPException`. -/
structure HttpException where
  statusCode : Nat
  detail : String
  deriving DecidableEq

section Auth
variable (isZero : φ → Bool) (str : Json φ → String) (settings : AuthSettings) (jose : Jose φ)

/-- `str(fields.get("kid") or "")`. -/
def kidText (fields : Fields φ) : String :=
  if (valueAt fields "kid").truthy isZero then
    match valueAt fields "kid" with
    | .str s => s
    | v => str v
  else ""

/-- The key with the id of the token, or else the only key there is. -/
def selectKey (kid : String) (keys : List (Fields φ)) : Option (Fields φ) :=
  match if kid = "" then none else keys.find? fun key => kidText isZero str key = kid with
  | some key => some key
  | none =>
    match keys with
    | [key] => some key
    | _ => none

/-- `_get_signing_key`. -/
def getSigningKey (token : String) (call : JwksCall φ) (caches : KeyCaches φ) :
    Except DecodeError (Fields φ) × KeyCaches φ :=
  if settings.aadIssuer = "" ∨ settings.aadAudience = "" then
    (.error (.auth (.runtimeError
      "AAD issuer and audience must be configured when auth is required")), caches)
  else
    match jose.getUnverifiedHeader token with
    | .error message => (.error (.jose message), caches)
    | .ok header =>
      match getJwks isZero str { call with issuer := settings.aadIssuer } caches with
      | (.error e, caches) => (.error (.auth e), caches)
      | (.ok keys, caches) =>
        match selectKey isZero str (kidText isZero str header) keys with
        | some key => (.ok key, caches)
        | none => (.error (.auth (.runtimeError "Unable to resolve signing key for JWT")), caches)

/-- `_decode_jwt`. -/
def decodeJwt (token : String) (call : JwksCall φ) (caches : KeyCaches φ) :
    Except HttpException (Fields φ) × KeyCaches φ :=
  match getSigningKey isZero str settings jose token call caches with
  | (.error _, caches) => (.error ⟨401, "Invalid token"⟩, caches)
  | (.ok key, caches) =>
    match jose.decode token key settings.aadAudience settings.aadIssuer with
    | .error _ => (.error ⟨401, "Invalid token"⟩, caches)
    | .ok claims => (.ok claims, caches)

/-- `require_auth`. -/
def requireAuth (token : Option String) (call : JwksCall φ) (caches : KeyCaches φ) :
    Except HttpException (Fields φ) × KeyCaches φ :=
  if settings.authRequired then
    match token with
    | none => (.error ⟨401, "Missing bearer token"⟩, caches)
    | some token => decodeJwt isZero str settings jose token call caches
  else (.ok [], caches)

end Auth

/-! ## 2. The routes -/

/-- A request that passed the validation of its route. -/
inductive ApiCall where
  | submit (call : SubmitCall)
  | poll (submissionId : String)
  | cancel (submissionId : String)

/-- A request, with its token and the provider and the clock that `require_auth` meets. -/
structure ApiRequest (φ : Type) where
  call : ApiCall
  token : Option String
  keys : JwksCall φ

/-- A request of the API to the Functions host. -/
inductive HostCall (φ : Type) where
  | start (req : HostRequest φ)
  | status (instanceId : String)
  | terminate (instanceId : String) (req : HostRequest φ)

/-- The request can change something. -/
def HostCall.Changes : HostCall φ → Prop
  | .status _ => False
  | _ => True

/-- The route depends on `require_auth`. -/
def ApiCall.needsAuth : ApiCall → Bool
  | .poll _ => false
  | _ => true

/-- What the handler of the route sends to the host. -/
def ApiCall.hostCalls : ApiCall → List (HostCall φ)
  | .submit call =>
    if call.idempotencyKey ≠ call.body.batchId then [] else [.start call.startRequest]
  | .poll submissionId => [.status submissionId]
  | .cancel submissionId => [.terminate submissionId (cancelRequest "client requested cancel")]

section Serve
variable (isZero : φ → Bool) (str : Json φ → String) (settings : AuthSettings) (jose : Jose φ)

/-- A request: what it sends to the host, and the caches after it. -/
def serve (caches : KeyCaches φ) (r : ApiRequest φ) : List (HostCall φ) × KeyCaches φ :=
  if r.call.needsAuth then
    match requireAuth isZero str settings jose r.token r.keys caches with
    | (.ok _, caches) => (r.call.hostCalls, caches)
    | (.error _, caches) => ([], caches)
  else (r.call.hostCalls, caches)

/-- The requests to the host so far, and the caches of the process. -/
def serveAll (requests : List (ApiRequest φ)) : List (HostCall φ) × KeyCaches φ :=
  requests.foldl
    (fun s r =>
      let (calls, caches) := serve isZero str settings jose s.2 r
      (s.1 ++ calls, caches))
    ([], KeyCaches.empty)

/-- The call of `_get_jwks` that a token leads to. -/
def tokenCall (token : String) (call : JwksCall φ) : Option (JwksCall φ) :=
  if settings.aadIssuer = "" ∨ settings.aadAudience = "" then none
  else
    match jose.getUnverifiedHeader token with
    | .error _ => none
    | .ok _ => some { call with issuer := settings.aadIssuer }

/-- The call of `_get_jwks` that a request leads to. -/
def ApiRequest.jwksCall (r : ApiRequest φ) : Option (JwksCall φ) :=
  if r.call.needsAuth && settings.authRequired then
    r.token.bind fun token => tokenCall settings jose token r.keys
  else none

/-- The keys were served to the call at the place, or stored less than 300 seconds before by one of
the calls before it. -/
def ServedKeys (before : List (JwksCall φ)) (call : JwksCall φ) (uri : String)
    (keys : List (Fields φ)) : Prop :=
  AsksAt isZero str (reached isZero str before) call uri ∧
    ((∃ time, KeysStored isZero str before uri keys time ∧ call.keysReadAt < time + 300) ∨
      (fetchJson call.keysProvider uri).bind signingKeys = .ok keys)

/-- The token of the request was verified, for the audience and the issuer of the settings, with a
key of the issuer that was served in time and that has the id of the token or is the only one. -/
structure VerifiedWith (before : List (ApiRequest φ)) (r : ApiRequest φ) (key : Fields φ) :
    Prop where
  configured : settings.aadIssuer ≠ "" ∧ settings.aadAudience ≠ ""
  token : ∃ token header claims, r.token = some token ∧
    jose.getUnverifiedHeader token = .ok header ∧
    jose.decode token key settings.aadAudience settings.aadIssuer = .ok claims ∧
    ∃ uri keys, ServedKeys isZero str (before.filterMap (ApiRequest.jwksCall settings jose))
        { r.keys with issuer := settings.aadIssuer } uri keys ∧ key ∈ keys ∧
      (kidText isZero str key = kidText isZero str header ∨ keys = [key])

end Serve

namespace AuthorizationLemmas

variable {isZero : φ → Bool} {str : Json φ → String} {settings : AuthSettings} {jose : Jose φ}
  {call : JwksCall φ} {caches : KeyCaches φ} {token : String}

/-! ## 3. One request -/

theorem selectKey_eq_some {kid : String} {keys : List (Fields φ)} {key : Fields φ}
    (h : selectKey isZero str kid keys = some key) :
    key ∈ keys ∧ (kidText isZero str key = kid ∨ keys = [key]) := by
  unfold selectKey at h
  split at h
  · next key' hfound =>
    cases h
    split at hfound
    · cases hfound
    · exact ⟨List.mem_of_find?_eq_some hfound, .inl (by simpa using List.find?_some hfound)⟩
  · split at h
    · next only =>
      cases h
      exact ⟨List.mem_singleton_self _, .inr rfl⟩
    · cases h

/-- A call of `_get_jwks` meets the provider and the clock of its request. -/
theorem jwksCall_eq_some {r : ApiRequest φ} (h : r.jwksCall settings jose = some call) :
    call.keysProvider = r.keys.keysProvider ∧ call.keysStoredAt = r.keys.keysStoredAt := by
  unfold ApiRequest.jwksCall at h
  split at h
  · obtain ⟨token, -, htoken⟩ := Option.bind_eq_some_iff.mp h
    unfold tokenCall at htoken
    split at htoken
    · cases htoken
    · split at htoken
      · cases htoken
      · cases htoken
        exact ⟨rfl, rfl⟩
  · cases h

/-- The caches after `_get_signing_key`. -/
theorem getSigningKey_caches (token : String) (call : JwksCall φ) (caches : KeyCaches φ) :
    (getSigningKey isZero str settings jose token call caches).2 =
      (tokenCall settings jose token call).elim caches fun call =>
        (getJwks isZero str call caches).2 := by
  unfold getSigningKey tokenCall
  split
  · rfl
  · split
    · rfl
    · dsimp only [Option.elim_some]
      split
      · next e caches' heq => rw [heq]
      · next keys caches' heq =>
        rw [heq]
        split <;> rfl

theorem decodeJwt_caches (token : String) (call : JwksCall φ) (caches : KeyCaches φ) :
    (decodeJwt isZero str settings jose token call caches).2 =
      (getSigningKey isZero str settings jose token call caches).2 := by
  unfold decodeJwt
  split
  · next heq => rw [heq]
  · next heq =>
    rw [heq]
    split <;> rfl

/-- The caches after a request. -/
theorem serve_caches (caches : KeyCaches φ) (r : ApiRequest φ) :
    (serve isZero str settings jose caches r).2 =
      (r.jwksCall settings jose).elim caches fun call => (getJwks isZero str call caches).2 := by
  have hserve : (serve isZero str settings jose caches r).2 =
      if r.call.needsAuth then
        (requireAuth isZero str settings jose r.token r.keys caches).2
      else caches := by
    unfold serve
    split
    · split <;> next heq => rw [heq]
    · rfl
  rw [hserve, ApiRequest.jwksCall]
  cases r.call.needsAuth with
  | false => rfl
  | true =>
    rw [if_pos rfl, Bool.true_and]
    unfold requireAuth
    cases settings.authRequired with
    | false => rfl
    | true =>
      rw [if_pos rfl, if_pos rfl]
      cases r.token with
      | none => rfl
      | some token => exact (decodeJwt_caches ..).trans (getSigningKey_caches ..)

/-- The caches of the process are those of its calls of `_get_jwks`. -/
theorem serveAll_caches (requests : List (ApiRequest φ)) :
    (serveAll isZero str settings jose requests).2 =
      reached isZero str (requests.filterMap (ApiRequest.jwksCall settings jose)) := by
  induction requests using List.reverseRecOn with
  | nil => rfl
  | append_singleton requests r ih =>
    rw [serveAll, List.foldl_append, ← serveAll, List.filterMap_append]
    show (serve isZero str settings jose (serveAll isZero str settings jose requests).2 r).2 = _
    rw [serve_caches, ih]
    cases hcall : r.jwksCall settings jose with
    | none => simp [hcall]
    | some call =>
      rw [List.filterMap_cons_some hcall, List.filterMap_nil, reached_concat]
      rfl

theorem serveAll_concat (requests : List (ApiRequest φ)) (r : ApiRequest φ) :
    (serveAll isZero str settings jose (requests ++ [r])).1 =
      (serveAll isZero str settings jose requests).1 ++
        (serve isZero str settings jose (serveAll isZero str settings jose requests).2 r).1 := by
  rw [serveAll, List.foldl_append, ← serveAll]
  rfl

/-- The keys that `_get_jwks` returns were served. -/
theorem servedKeys_of_getJwks {before : List (JwksCall φ)} {keys : List (Fields φ)}
    (h : (getJwks isZero str call (reached isZero str before)).1 = .ok keys) :
    ∃ uri, ServedKeys isZero str before call uri keys := by
  cases hconfig : (getOpenidConfiguration call (reached isZero str before)).1 with
  | error e =>
    rw [getJwks_of_error hconfig] at h
    cases h
  | ok payload =>
    rw [getJwks_of_ok hconfig] at h
    split at h
    · cases h
    · next huri =>
      have hasks : AsksAt isZero str (reached isZero str before) call
          (jwksUri isZero str payload) :=
        ⟨payload, uses_or_receives_of_ok hconfig, rfl, huri⟩
      rw [getKeysAt_result, getOpenidConfiguration_jwks] at h
      cases hget : (TtlCache.get (reached isZero str before).jwks (jwksUri isZero str payload)
          call.keysReadAt).1 with
      | some cached =>
        rw [hget, Option.elim_some] at h
        cases h
        exact ⟨_, hasks, .inl ((freshUse before call).keys _ _ ⟨hasks, hget⟩)⟩
      | none =>
        rw [hget, Option.elim_none] at h
        exact ⟨_, hasks, .inr h⟩

/-- A request that is let through was verified. -/
theorem verifiedWith_of_ok {before : List (ApiRequest φ)} {r : ApiRequest φ} {claims : Fields φ}
    (hauth : settings.authRequired = true)
    (h : (requireAuth isZero str settings jose r.token r.keys
      (serveAll isZero str settings jose before).2).1 = .ok claims) :
    ∃ key, VerifiedWith isZero str settings jose before r key := by
  rw [serveAll_caches] at h
  unfold requireAuth at h
  rw [if_pos hauth] at h
  cases htoken : r.token with
  | none =>
    rw [htoken] at h
    cases h
  | some token =>
    simp only [htoken, decodeJwt] at h
    split at h
    · cases h
    · next key caches hkey =>
      split at h
      · cases h
      · next claims' hdecode =>
        unfold getSigningKey at hkey
        split at hkey
        · cases hkey
        · next hconfigured =>
          split at hkey
          · cases hkey
          · next header hheader =>
            split at hkey
            · cases hkey
            · next keys caches' hjwks =>
              split at hkey
              · next key' hselect =>
                cases hkey
                obtain ⟨hmem, hkid⟩ := selectKey_eq_some hselect
                obtain ⟨uri, hserved⟩ := servedKeys_of_getJwks (congrArg Prod.fst hjwks)
                exact ⟨key, not_or.mp hconfigured, token, header, claims', htoken, hheader,
                  hdecode, uri, keys, hserved, hmem, hkid⟩
              · cases hkey

theorem serve_of_isOk (r : ApiRequest φ)
    (h : (requireAuth isZero str settings jose r.token r.keys caches).1.isOk = true) :
    (serve isZero str settings jose caches r).1 = r.call.hostCalls := by
  unfold serve
  split
  · split
    · rfl
    · next e caches' heq =>
      rw [heq] at h
      cases h
  · rfl

/-- A request that changes something was verified. -/
theorem verified_of_serve {before : List (ApiRequest φ)} {r : ApiRequest φ} {hc : HostCall φ}
    (hauth : settings.authRequired = true)
    (h : hc ∈ (serve isZero str settings jose (serveAll isZero str settings jose before).2 r).1)
    (hchanges : hc.Changes) :
    hc ∈ r.call.hostCalls ∧ ∃ key, VerifiedWith isZero str settings jose before r key := by
  unfold serve at h
  split at h
  · split at h
    · next claims caches hok =>
      exact ⟨h, verifiedWith_of_ok hauth (congrArg Prod.fst hok)⟩
    · cases h
  · next hpoll =>
    cases hcall : r.call with
    | poll submissionId =>
      rw [hcall] at h
      cases List.mem_singleton.mp h
      exact hchanges.elim
    | submit call =>
      rw [hcall] at hpoll
      exact absurd rfl hpoll
    | cancel submissionId =>
      rw [hcall] at hpoll
      exact absurd rfl hpoll

end AuthorizationLemmas

open AuthorizationLemmas

/-! ## 4. Runs -/

/-- With authentication on, whatever the order of the requests and whatever the provider answers,
a start or a termination that reaches the host is sent by the handler of a request of the run
whose token was verified. -/
theorem host_changes_authorized (isZero : φ → Bool) (str : Json φ → String)
    (settings : AuthSettings) (jose : Jose φ) (hauth : settings.authRequired = true)
    (requests : List (ApiRequest φ)) {hc : HostCall φ}
    (h : hc ∈ (serveAll isZero str settings jose requests).1) (hchanges : hc.Changes) :
    ∃ before r, before ++ [r] <+: requests ∧ hc ∈ r.call.hostCalls ∧
      ∃ key, VerifiedWith isZero str settings jose before r key := by
  induction requests using List.reverseRecOn with
  | nil => cases h
  | append_singleton requests r ih =>
    rw [serveAll_concat] at h
    rcases List.mem_append.mp h with hold | hnew
    · obtain ⟨before, r', hrun, hverified⟩ := ih hold
      exact ⟨before, r', hrun.trans (List.prefix_append _ _), hverified⟩
    · exact ⟨requests, r, List.prefix_rfl, verified_of_serve hauth hnew hchanges⟩

/-- From a time on, the requests of a run get only keys that are good. -/
def RotatedTo (good : Fields φ → Prop) (time : ℚ) (requests : List (ApiRequest φ)) : Prop :=
  ∀ r ∈ requests, time ≤ r.keys.keysStoredAt → ∀ uri keys,
    (fetchJson r.keys.keysProvider uri).bind signingKeys = .ok keys → ∀ key ∈ keys, good key

/-- When the provider has changed its keys, whatever the processes kept of the old ones: 300
seconds later a request changes something only if its token was verified with a good key. -/
theorem withdrawn_keys_expire (isZero : φ → Bool) (str : Json φ → String)
    (settings : AuthSettings) (jose : Jose φ) (hauth : settings.authRequired = true)
    {good : Fields φ → Prop} {time : ℚ} {before : List (ApiRequest φ)} {r : ApiRequest φ}
    (hrotated : RotatedTo good time (before ++ [r])) (hlate : time + 300 ≤ r.keys.keysReadAt)
    (hclock : r.keys.keysReadAt ≤ r.keys.keysStoredAt) {hc : HostCall φ}
    (h : hc ∈ (serve isZero str settings jose (serveAll isZero str settings jose before).2 r).1)
    (hchanges : hc.Changes) :
    ∃ key, good key ∧ VerifiedWith isZero str settings jose before r key := by
  obtain ⟨-, key, hverified⟩ := verified_of_serve hauth h hchanges
  obtain ⟨-, -, -, -, -, -, uri, keys, ⟨-, hkeys⟩, hmem, -⟩ := hverified.token
  refine ⟨key, ?_, hverified⟩
  rcases hkeys with ⟨stored, ⟨earlier, call, hrun, ⟨-, -, hreceived⟩, hstored⟩, hfresh⟩ | hreceived
  · -- the keys were stored after the change, since they have not expired
    have hcall : call ∈ before.filterMap (ApiRequest.jwksCall settings jose) :=
      hrun.subset (List.mem_append_right _ (List.mem_singleton_self call))
    obtain ⟨q, hq, hqcall⟩ := List.mem_filterMap.mp hcall
    obtain ⟨hprovider, htime⟩ := jwksCall_eq_some hqcall
    have hafter : time ≤ q.keys.keysStoredAt := by
      rw [← htime, hstored]
      linarith
    rw [hprovider] at hreceived
    exact hrotated q (List.mem_append_left _ hq) hafter uri keys hreceived key hmem
  · have hafter : time ≤ r.keys.keysStoredAt := by linarith
    exact hrotated r (List.mem_append_right _ (List.mem_singleton_self r)) hafter uri keys hreceived
      key hmem

namespace Sample

def authSettings : AuthSettings where
  authRequired := true
  aadIssuer := issuer
  aadAudience := "api://awr-platform"

/-- Tokens that name their key are verified by it. -/
def jose : Jose ℚ where
  getUnverifiedHeader token := .ok [("kid", .str token)]
  decode token key _ _ :=
    match Dict.get? key "kid" with
    | some (.str kid) =>
      if kid = token then .ok [("sub", .str "user-1")] else .error "Signature verification failed."
    | _ => .error "Signature verification failed."

/-- A cancellation with a token for the key of the provider. -/
def cancelAt (time : ℚ) : ApiRequest ℚ where
  call := .cancel batch1
  token := some "kid-1"
  keys := callAt upProvider time

/-- One with that token while the provider answers with empty objects. -/
def cachedCancel : ApiRequest ℚ where
  call := .cancel batch2
  token := some "kid-1"
  keys := callAt emptyProvider 1

theorem keys_of_upProvider {uri : String} {keys : List (Fields ℚ)}
    (h : (fetchJson upProvider uri).bind signingKeys = .ok keys) : keys = [[("kid", .str "kid-1")]] := by
  by_cases hconfig : uri = configUrl issuer
  · have hnone : (fetchJson upProvider uri).bind signingKeys =
        .error (.runtimeError "JWKS payload did not include any signing keys") := by
      rw [fetchJson, upProvider, if_pos hconfig]
      rfl
    rw [hnone] at h
    cases h
  · by_cases huri : uri = "https://login.example.com/tenant/keys"
    · have hone : (fetchJson upProvider uri).bind signingKeys = .ok [[("kid", .str "kid-1")]] := by
        rw [fetchJson, upProvider, if_neg hconfig, if_pos huri]
        rfl
      rw [hone] at h
      exact (Except.ok.inj h).symm
    · have hnone : (fetchJson upProvider uri).bind signingKeys = .error (.http "404 Not Found") := by
        rw [fetchJson, upProvider, if_neg hconfig, if_neg huri]
        rfl
      rw [hnone] at h
      cases h

end Sample

open Sample in
/-- A second cancellation reaches the host with the keys that the first one has cached. -/
theorem host_changes_authorized_sample :
    ∃ before r, before ++ [r] <+: [cancelAt 0] ++ [cachedCancel] ∧
      HostCall.terminate batch2 (cancelRequest (φ := ℚ) "client requested cancel") ∈
        r.call.hostCalls ∧
      ∃ key, VerifiedWith (fun x => x == 0) (fun _ => "") authSettings jose before r key := by
  have hok : (requireAuth (fun x => x == 0) (fun _ => "") authSettings jose (some "kid-1")
      (callAt emptyProvider 1)
      (serveAll (fun x => x == 0) (fun _ => "") authSettings jose [cancelAt 0]).2).1.isOk =
        true := by
    decide +kernel
  have h : HostCall.terminate batch2 (cancelRequest "client requested cancel") ∈
      (serveAll (fun x => x == 0) (fun _ => "") authSettings jose
        ([cancelAt 0] ++ [cachedCancel])).1 := by
    rw [serveAll_concat, serve_of_isOk cachedCancel hok]
    exact List.mem_append_right _ (List.mem_singleton_self _)
  exact host_changes_authorized (fun x => x == 0) (fun _ => "") authSettings jose rfl _ h trivial

open Sample in
/-- So does one after 301 seconds, with a key that the provider still has then. -/
theorem withdrawn_keys_expire_sample :
    ∃ key, key = [("kid", .str "kid-1")] ∧
      VerifiedWith (fun x => x == 0) (fun _ => "") authSettings jose [cancelAt 0] (cancelAt 301)
        key := by
  have hrotated : RotatedTo (fun key : Fields ℚ => key = [("kid", .str "kid-1")]) 1
      ([cancelAt 0] ++ [cancelAt 301]) := by
    intro r hr _ uri keys hkeys key hkey
    have hprovider : r.keys.keysProvider = upProvider := by
      rcases List.mem_append.mp hr with hr | hr <;> cases List.mem_singleton.mp hr <;> rfl
    rw [hprovider] at hkeys
    rw [keys_of_upProvider hkeys] at hkey
    exact List.mem_singleton.mp hkey
  have h : HostCall.terminate batch1 (cancelRequest "client requested cancel") ∈
      (serve (fun x => x == 0) (fun _ => "") authSettings jose
        (serveAll (fun x => x == 0) (fun _ => "") authSettings jose [cancelAt 0]).2
        (cancelAt 301)).1 := by
    have hok : (requireAuth (fun x => x == 0) (fun _ => "") authSettings jose (some "kid-1")
        (callAt upProvider 301)
        (serveAll (fun x => x == 0) (fun _ => "") authSettings jose [cancelAt 0]).2).1.isOk =
          true := by
      decide +kernel
    rw [serve_of_isOk (cancelAt 301) hok]
    exact List.mem_singleton_self _
  exact withdrawn_keys_expire (fun x => x == 0) (fun _ => "") authSettings jose rfl hrotated
    (by norm_num [cancelAt, callAt]) le_rfl h trivial

end TalentMatch
