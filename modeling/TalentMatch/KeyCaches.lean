import Mathlib.Algebra.Order.Ring.Rat
import Mathlib.Data.List.DropRight
import TalentMatch.Lib.TtlCache
import TalentMatch.Aggregation

/-!
# Caches of the identity provider's documents

`_get_jwks` of `api/auth.py` and the functions under it, which keep the OpenID
configuration of an issuer and the signing keys at its `jwks_uri` for 300 seconds. The
answers of the provider are arbitrary, in a sequence of calls for any issuers. So are the
readings of the clock, which need not be in order; times are rational numbers, since no
clock reading is rounded when 300 is added to it.

Results:
1. `logged_reached`: every entry was received by a call of the run, and expires 300 seconds
   after it was stored.
2. `cacheSound_iff`: no cache ever holds an unusable document, and no call fails after
   the provider has recovered, exactly when every configuration that is received names a
   place where the recovered provider has keys.
3. `empty_configuration_cached`: a configuration without one is cached all the same.
-/

namespace TalentMatch

variable {φ : Type}

/-- What requests to the provider give: decoded bodies, or the texts of what `httpx` raises. -/
abbrev Provider (φ : Type) := String → Except String (Json φ)

/-- What the functions raise. -/
inductive AuthError where
  | http (message : String)
  | runtimeError (message : String)
  deriving DecidableEq

/-- `_OPENID_CONFIG_CACHE` and `_JWKS_CACHE`. -/
structure KeyCaches (φ : Type) where
  openidConfig : List (String × (ℚ × Fields φ))
  jwks : List (String × (ℚ × List (Fields φ)))

def KeyCaches.empty : KeyCaches φ where
  openidConfig := []
  jwks := []

/-- A call of `_get_jwks`, with the provider it meets and what `time.time()` returns in it. -/
structure JwksCall (φ : Type) where
  issuer : String
  configProvider : Provider φ
  keysProvider : Provider φ
  configReadAt : ℚ
  configStoredAt : ℚ
  keysReadAt : ℚ
  keysStoredAt : ℚ

/-- `_CACHE_TTL_S`. -/
def cacheTtlS : ℚ := 300

/-- `issuer.rstrip("/")`. -/
def normalizedIssuer (issuer : String) : String :=
  String.ofList (issuer.toList.rdropWhile fun c => c == '/')

def configUrl (issuer : String) : String :=
  normalizedIssuer issuer ++ "/.well-known/openid-configuration"

/-- `_fetch_json`. -/
def fetchJson (provider : Provider φ) (url : String) : Except AuthError (Fields φ) :=
  match provider url with
  | .error message => .error (.http message)
  | .ok (.obj payload) => .ok payload
  | .ok _ => .error (.runtimeError ("Expected JSON object from " ++ url))

/-- `_get_openid_configuration`. -/
def getOpenidConfiguration (call : JwksCall φ) (caches : KeyCaches φ) :
    Except AuthError (Fields φ) × KeyCaches φ :=
  match TtlCache.get caches.openidConfig (normalizedIssuer call.issuer) call.configReadAt with
  | (some payload, entries) => (.ok payload, { caches with openidConfig := entries })
  | (none, entries) =>
    match fetchJson call.configProvider (configUrl call.issuer) with
    | .error e => (.error e, { caches with openidConfig := entries })
    | .ok payload =>
      (.ok payload,
        { caches with
          openidConfig := TtlCache.put cacheTtlS entries (normalizedIssuer call.issuer) payload
            call.configStoredAt })

/-- `[key for key in keys if isinstance(key, dict)]`. -/
def keyObjects (keys : List (Json φ)) : List (Fields φ) :=
  keys.filterMap fun
    | .obj key => some key
    | _ => none

/-- The signing keys of a JWKS document. -/
def signingKeys (payload : Fields φ) : Except AuthError (List (Fields φ)) :=
  match valueAt payload "keys" with
  | .arr (key :: keys) =>
    let normalized := keyObjects (key :: keys)
    if normalized.isEmpty then
      .error (.runtimeError "JWKS payload did not include valid signing keys")
    else .ok normalized
  | _ => .error (.runtimeError "JWKS payload did not include any signing keys")

section Jwks
variable (isZero : φ → Bool) (str : Json φ → String)

/-- `str(payload.get("jwks_uri") or "")`; `str` is Python's for values that are not texts. -/
def jwksUri (payload : Fields φ) : String :=
  if (valueAt payload "jwks_uri").truthy isZero then
    match valueAt payload "jwks_uri" with
    | .str s => s
    | v => str v
  else ""

/-- `_get_jwks` from the lookup in `_JWKS_CACHE` on. -/
def getKeysAt (uri : String) (call : JwksCall φ) (caches : KeyCaches φ) :
    Except AuthError (List (Fields φ)) × KeyCaches φ :=
  match TtlCache.get caches.jwks uri call.keysReadAt with
  | (some keys, entries) => (.ok keys, { caches with jwks := entries })
  | (none, entries) =>
    match (fetchJson call.keysProvider uri).bind signingKeys with
    | .error e => (.error e, { caches with jwks := entries })
    | .ok keys =>
      (.ok keys,
        { caches with jwks := TtlCache.put cacheTtlS entries uri keys call.keysStoredAt })

/-- `_get_jwks`. The caches keep what was stored before an exception. -/
def getJwks (call : JwksCall φ) (caches : KeyCaches φ) :
    Except AuthError (List (Fields φ)) × KeyCaches φ :=
  match getOpenidConfiguration call caches with
  | (.error e, caches) => (.error e, caches)
  | (.ok payload, caches) =>
    if jwksUri isZero str payload = "" then
      (.error (.runtimeError "OpenID configuration did not include jwks_uri"), caches)
    else getKeysAt (jwksUri isZero str payload) call caches

/-- The caches after a sequence of calls. -/
def reached (calls : List (JwksCall φ)) : KeyCaches φ :=
  calls.foldl (fun caches call => (getJwks isZero str call caches).2) KeyCaches.empty

end Jwks

/-! ## 1. What a call receives and uses -/

section Documents
variable (isZero : φ → Bool) (str : Json φ → String)

/-- The call finds the configuration in the cache. -/
def UsesConfig (caches : KeyCaches φ) (call : JwksCall φ) (payload : Fields φ) : Prop :=
  (TtlCache.get caches.openidConfig (normalizedIssuer call.issuer) call.configReadAt).1 =
    some payload

/-- The call requests the configuration and receives an object. -/
def ReceivesConfig (caches : KeyCaches φ) (call : JwksCall φ) (payload : Fields φ) : Prop :=
  (TtlCache.get caches.openidConfig (normalizedIssuer call.issuer) call.configReadAt).1 = none ∧
    fetchJson call.configProvider (configUrl call.issuer) = .ok payload

/-- The call looks for keys at a place that its configuration names. -/
def AsksAt (caches : KeyCaches φ) (call : JwksCall φ) (uri : String) : Prop :=
  ∃ payload, (UsesConfig caches call payload ∨ ReceivesConfig caches call payload) ∧
    jwksUri isZero str payload = uri ∧ uri ≠ ""

/-- The call finds keys in the cache. -/
def UsesKeys (caches : KeyCaches φ) (call : JwksCall φ) (uri : String) (keys : List (Fields φ)) :
    Prop :=
  AsksAt isZero str caches call uri ∧ (TtlCache.get caches.jwks uri call.keysReadAt).1 = some keys

/-- The call requests keys and receives them. -/
def ReceivesKeys (caches : KeyCaches φ) (call : JwksCall φ) (uri : String)
    (keys : List (Fields φ)) : Prop :=
  AsksAt isZero str caches call uri ∧ (TtlCache.get caches.jwks uri call.keysReadAt).1 = none ∧
    (fetchJson call.keysProvider uri).bind signingKeys = .ok keys

/-- A call of the run received the configuration and stored it under the key at that time. -/
def ConfigStored (calls : List (JwksCall φ)) (key : String) (payload : Fields φ) (time : ℚ) :
    Prop :=
  ∃ before call, before ++ [call] <+: calls ∧
    ReceivesConfig (reached isZero str before) call payload ∧
    normalizedIssuer call.issuer = key ∧ call.configStoredAt = time

/-- A call of the run received the keys and stored them under the key at that time. -/
def KeysStored (calls : List (JwksCall φ)) (uri : String) (keys : List (Fields φ)) (time : ℚ) :
    Prop :=
  ∃ before call, before ++ [call] <+: calls ∧
    ReceivesKeys isZero str (reached isZero str before) call uri keys ∧ call.keysStoredAt = time

end Documents

/-- The provider serves keys at a place. -/
def KeysAt (provider : Provider φ) (uri : String) : Prop :=
  ∃ keys, (fetchJson provider uri).bind signingKeys = .ok keys

section Sound
variable (isZero : φ → Bool) (str : Json φ → String)

/-- The provider serves a configuration of the issuer and keys at the place that it names. -/
def Recovered (provider : Provider φ) (issuer : String) : Prop :=
  ∃ payload, fetchJson provider (configUrl issuer) = .ok payload ∧
    jwksUri isZero str payload ≠ "" ∧ KeysAt provider (jwksUri isZero str payload)

/-- Every configuration names a place for keys, and no list of keys is empty. -/
structure Usable (caches : KeyCaches φ) : Prop where
  configs : ∀ key expiresAt payload, (key, (expiresAt, payload)) ∈ caches.openidConfig →
    jwksUri isZero str payload ≠ ""
  keys : ∀ uri expiresAt keys, (uri, (expiresAt, keys)) ∈ caches.jwks → keys ≠ []

/-- What the call uses of the caches was stored less than 300 seconds before. -/
structure FreshUse (before : List (JwksCall φ)) (call : JwksCall φ) : Prop where
  config : ∀ payload, UsesConfig (reached isZero str before) call payload →
    ∃ time, ConfigStored isZero str before (normalizedIssuer call.issuer) payload time ∧
      call.configReadAt < time + 300
  keys : ∀ uri keys, UsesKeys isZero str (reached isZero str before) call uri keys →
    ∃ time, KeysStored isZero str before uri keys time ∧ call.keysReadAt < time + 300

/-- In every state of the run the caches are usable, what they give is fresh, and a call that
meets the recovered provider `up` returns keys. -/
structure CacheSound (up : Provider φ) (calls : List (JwksCall φ)) : Prop where
  usable : ∀ before, before <+: calls → Usable isZero str (reached isZero str before)
  fresh : ∀ before call, before ++ [call] <+: calls → FreshUse isZero str before call
  recovers : ∀ before call, before <+: calls → call.configProvider = up → call.keysProvider = up →
    Recovered isZero str up call.issuer →
    ∃ keys, (getJwks isZero str call (reached isZero str before)).1 = .ok keys

/-- Every configuration that the run receives names a place for keys, and the recovered
provider of its issuer serves keys there. -/
def NamesKeys (up : Provider φ) (calls : List (JwksCall φ)) : Prop :=
  ∀ before call payload, before ++ [call] <+: calls →
    ReceivesConfig (reached isZero str before) call payload →
    jwksUri isZero str payload ≠ "" ∧
      (Recovered isZero str up call.issuer → KeysAt up (jwksUri isZero str payload))

end Sound

/-! ## 2. One call -/

section Steps
variable {isZero : φ → Bool} {str : Json φ → String} {call : JwksCall φ} {caches : KeyCaches φ}

/-- A configuration comes from the cache, or else from the provider. -/
theorem getOpenidConfiguration_result (call : JwksCall φ) (caches : KeyCaches φ) :
    (getOpenidConfiguration call caches).1 =
      (TtlCache.get caches.openidConfig (normalizedIssuer call.issuer) call.configReadAt).1.elim
        (fetchJson call.configProvider (configUrl call.issuer)) .ok := by
  unfold getOpenidConfiguration
  split
  · next payload entries hget => rw [hget, Option.elim_some]
  · next entries hget =>
    rw [hget, Option.elim_none]
    split
    · next e he => rw [he]
    · next payload hp => rw [hp]

theorem getOpenidConfiguration_of_uses {payload : Fields φ} (h : UsesConfig caches call payload) :
    (getOpenidConfiguration call caches).1 = .ok payload := by
  rw [getOpenidConfiguration_result, h, Option.elim_some]

theorem getOpenidConfiguration_of_receives {payload : Fields φ}
    (h : ReceivesConfig caches call payload) :
    (getOpenidConfiguration call caches).1 = .ok payload := by
  rw [getOpenidConfiguration_result, h.1, Option.elim_none, h.2]

theorem uses_or_receives_of_ok {payload : Fields φ}
    (h : (getOpenidConfiguration call caches).1 = .ok payload) :
    UsesConfig caches call payload ∨ ReceivesConfig caches call payload := by
  rw [getOpenidConfiguration_result] at h
  cases hget : (TtlCache.get caches.openidConfig (normalizedIssuer call.issuer)
      call.configReadAt).1 with
  | some cached =>
    rw [hget, Option.elim_some] at h
    cases h
    exact .inl hget
  | none =>
    rw [hget, Option.elim_none] at h
    exact .inr ⟨hget, h⟩

/-- An object that is received is stored, whatever it holds. -/
theorem openidConfig_of_receives {payload : Fields φ} (h : ReceivesConfig caches call payload) :
    (getOpenidConfiguration call caches).2.openidConfig =
      TtlCache.put cacheTtlS
        (TtlCache.get caches.openidConfig (normalizedIssuer call.issuer) call.configReadAt).2
        (normalizedIssuer call.issuer) payload call.configStoredAt := by
  obtain ⟨hmiss, hfetch⟩ := h
  unfold getOpenidConfiguration
  split
  · next cached entries hget =>
    rw [hget] at hmiss
    cases hmiss
  · next entries hget => rw [hfetch, hget]

theorem getOpenidConfiguration_jwks (call : JwksCall φ) (caches : KeyCaches φ) :
    (getOpenidConfiguration call caches).2.jwks = caches.jwks := by
  unfold getOpenidConfiguration
  split
  · rfl
  · split <;> rfl

/-- Keys come from the cache, or else from the provider when they are valid. -/
theorem getKeysAt_result (uri : String) (call : JwksCall φ) (caches : KeyCaches φ) :
    (getKeysAt uri call caches).1 =
      (TtlCache.get caches.jwks uri call.keysReadAt).1.elim
        ((fetchJson call.keysProvider uri).bind signingKeys) .ok := by
  unfold getKeysAt
  split
  · next keys entries hget => rw [hget, Option.elim_some]
  · next entries hget =>
    rw [hget, Option.elim_none]
    split
    · next e he => rw [he]
    · next keys hkeys => rw [hkeys]

theorem getKeysAt_openidConfig (uri : String) (call : JwksCall φ) (caches : KeyCaches φ) :
    (getKeysAt uri call caches).2.openidConfig = caches.openidConfig := by
  unfold getKeysAt
  split
  · rfl
  · split <;> rfl

theorem getJwks_of_error {e : AuthError} (h : (getOpenidConfiguration call caches).1 = .error e) :
    getJwks isZero str call caches = (.error e, (getOpenidConfiguration call caches).2) := by
  unfold getJwks
  split
  · next e' caches' heq =>
    rw [heq] at h ⊢
    cases h
    rfl
  · next payload caches' heq =>
    rw [heq] at h
    cases h

theorem getJwks_of_ok {payload : Fields φ}
    (h : (getOpenidConfiguration call caches).1 = .ok payload) :
    getJwks isZero str call caches =
      if jwksUri isZero str payload = "" then
        (.error (.runtimeError "OpenID configuration did not include jwks_uri"),
          (getOpenidConfiguration call caches).2)
      else getKeysAt (jwksUri isZero str payload) call (getOpenidConfiguration call caches).2 := by
  unfold getJwks
  split
  · next e caches' heq =>
    rw [heq] at h
    cases h
  · next w caches' heq =>
    rw [heq] at h ⊢
    cases h
    rfl

/-- Only the first request writes to the first cache. -/
theorem getJwks_openidConfig (call : JwksCall φ) (caches : KeyCaches φ) :
    (getJwks isZero str call caches).2.openidConfig =
      (getOpenidConfiguration call caches).2.openidConfig := by
  cases h : (getOpenidConfiguration call caches).1 with
  | error e => rw [getJwks_of_error h]
  | ok payload =>
    rw [getJwks_of_ok h]
    split
    · rfl
    · exact getKeysAt_openidConfig _ _ _

/-! ## 3. Runs -/

section Logged
variable {stored : String → Fields φ → ℚ → Prop} {kept : String → List (Fields φ) → ℚ → Prop}

theorem logged_openidConfig (h : TtlCache.Logged cacheTtlS stored caches.openidConfig)
    (hnew : ∀ payload, ReceivesConfig caches call payload →
      stored (normalizedIssuer call.issuer) payload call.configStoredAt) :
    TtlCache.Logged cacheTtlS stored (getJwks isZero str call caches).2.openidConfig := by
  rw [getJwks_openidConfig]
  have hleft := TtlCache.logged_get h (normalizedIssuer call.issuer) call.configReadAt
  unfold getOpenidConfiguration
  split
  · next payload entries hget =>
    rw [hget] at hleft
    exact hleft
  · next entries hget =>
    rw [hget] at hleft
    split
    · exact hleft
    · next payload hp => exact TtlCache.logged_put hleft (hnew payload ⟨by rw [hget], hp⟩)

theorem logged_getKeysAt {uri : String} (h : TtlCache.Logged cacheTtlS kept caches.jwks)
    (hnew : ∀ keys, (TtlCache.get caches.jwks uri call.keysReadAt).1 = none →
      (fetchJson call.keysProvider uri).bind signingKeys = .ok keys →
      kept uri keys call.keysStoredAt) :
    TtlCache.Logged cacheTtlS kept (getKeysAt uri call caches).2.jwks := by
  have hleft := TtlCache.logged_get h uri call.keysReadAt
  unfold getKeysAt
  split
  · next keys entries hget =>
    rw [hget] at hleft
    exact hleft
  · next entries hget =>
    rw [hget] at hleft
    split
    · exact hleft
    · next keys hkeys => exact TtlCache.logged_put hleft (hnew keys (by rw [hget]) hkeys)

theorem logged_jwks (h : TtlCache.Logged cacheTtlS kept caches.jwks)
    (hnew : ∀ uri keys, ReceivesKeys isZero str caches call uri keys →
      kept uri keys call.keysStoredAt) :
    TtlCache.Logged cacheTtlS kept (getJwks isZero str call caches).2.jwks := by
  have hsame := getOpenidConfiguration_jwks call caches
  rw [← hsame] at h
  cases hconfig : (getOpenidConfiguration call caches).1 with
  | error e =>
    rw [getJwks_of_error hconfig]
    exact h
  | ok payload =>
    rw [getJwks_of_ok hconfig]
    split
    · exact h
    · next huri =>
      refine logged_getKeysAt h fun keys hmiss hkeys => hnew _ keys ⟨?_, hsame ▸ hmiss, hkeys⟩
      exact ⟨payload, uses_or_receives_of_ok hconfig, rfl, huri⟩

end Logged

theorem reached_concat (calls : List (JwksCall φ)) (call : JwksCall φ) :
    reached isZero str (calls ++ [call]) =
      (getJwks isZero str call (reached isZero str calls)).2 := by
  rw [reached, List.foldl_append]
  rfl

/-- Every entry was stored by a call of the run. -/
theorem logged_reached (calls : List (JwksCall φ)) :
    TtlCache.Logged cacheTtlS (ConfigStored isZero str calls)
        (reached isZero str calls).openidConfig ∧
      TtlCache.Logged cacheTtlS (KeysStored isZero str calls) (reached isZero str calls).jwks := by
  induction calls using List.reverseRecOn with
  | nil => exact ⟨TtlCache.logged_nil, TtlCache.logged_nil⟩
  | append_singleton calls call ih =>
    rw [reached_concat]
    have hlonger : ∀ before : List (JwksCall φ), before <+: calls → before <+: calls ++ [call] :=
      fun before h => h.trans (List.prefix_append _ _)
    refine ⟨logged_openidConfig (ih.1.mono ?_) ?_, logged_jwks (ih.2.mono ?_) ?_⟩
    · rintro key payload time ⟨before, c, hrun, h⟩
      exact ⟨before, c, hlonger _ hrun, h⟩
    · exact fun payload h => ⟨calls, call, List.prefix_rfl, h, rfl, rfl⟩
    · rintro uri keys time ⟨before, c, hrun, h⟩
      exact ⟨before, c, hlonger _ hrun, h⟩
    · exact fun uri keys h => ⟨calls, call, List.prefix_rfl, h, rfl⟩

/-- What is used of the caches is fresh in every run. -/
theorem freshUse (before : List (JwksCall φ)) (call : JwksCall φ) :
    FreshUse isZero str before call where
  config := fun _ h => (logged_reached before).1.exists_stored h
  keys := fun _ _ h => (logged_reached before).2.exists_stored h.2

/-! ## 4. Usable documents -/

theorem signingKeys_ne_nil {payload : Fields φ} {keys : List (Fields φ)}
    (h : signingKeys payload = .ok keys) : keys ≠ [] := by
  unfold signingKeys at h
  split at h
  · next key rest _ =>
    dsimp only at h
    split at h
    · cases h
    · next hne =>
      cases h
      exact fun hnil => hne (by rw [hnil]; rfl)
  · cases h

theorem bind_signingKeys_ne_nil {result : Except AuthError (Fields φ)} {keys : List (Fields φ)}
    (h : result.bind signingKeys = .ok keys) : keys ≠ [] := by
  cases result with
  | error e => cases h
  | ok payload => exact signingKeys_ne_nil h

/-- A call that has a configuration with a place for keys returns some when the provider has some
there. -/
theorem exists_keys_of_config {payload : Fields φ}
    (h : (getOpenidConfiguration call caches).1 = .ok payload)
    (huri : jwksUri isZero str payload ≠ "")
    (hkeys : KeysAt call.keysProvider (jwksUri isZero str payload)) :
    ∃ keys, (getJwks isZero str call caches).1 = .ok keys := by
  rw [getJwks_of_ok h, if_neg huri, getKeysAt_result]
  cases (TtlCache.get (getOpenidConfiguration call caches).2.jwks (jwksUri isZero str payload)
      call.keysReadAt).1 with
  | some cached => exact ⟨cached, rfl⟩
  | none => exact hkeys

/-- A call that finds no keys in the cache needs the provider's. -/
theorem keysAt_of_keys {payload : Fields φ} {keys : List (Fields φ)}
    (h : (getOpenidConfiguration call caches).1 = .ok payload)
    (huri : jwksUri isZero str payload ≠ "")
    (hmiss : (TtlCache.get caches.jwks (jwksUri isZero str payload) call.keysReadAt).1 = none)
    (hkeys : (getJwks isZero str call caches).1 = .ok keys) :
    KeysAt call.keysProvider (jwksUri isZero str payload) := by
  rw [getJwks_of_ok h, if_neg huri, getKeysAt_result, getOpenidConfiguration_jwks, hmiss,
    Option.elim_none] at hkeys
  exact ⟨keys, hkeys⟩

section Sound
variable {up : Provider φ} {calls before : List (JwksCall φ)}

theorem usable_of_namesKeys (h : NamesKeys isZero str up calls) (hrun : before <+: calls) :
    Usable isZero str (reached isZero str before) where
  configs := by
    intro key expiresAt payload hmem
    obtain ⟨_, ⟨earlier, c, hearlier, hreceives, _⟩, _⟩ := (logged_reached before).1 _ _ _ hmem
    exact (h earlier c payload (hearlier.trans hrun) hreceives).1
  keys := by
    intro uri expiresAt keys hmem
    obtain ⟨_, ⟨_, _, _, hreceives, _⟩, _⟩ := (logged_reached before).2 _ _ _ hmem
    exact bind_signingKeys_ne_nil hreceives.2.2

/-- Issuers with one cache key have one configuration. -/
theorem Recovered.congr {issuer issuer' : String} (h : Recovered isZero str up issuer)
    (heq : normalizedIssuer issuer' = normalizedIssuer issuer) :
    Recovered isZero str up issuer' := by
  unfold Recovered configUrl at h ⊢
  rwa [heq]

theorem recovers_of_namesKeys (h : NamesKeys isZero str up calls) (hrun : before <+: calls)
    (hconfig : call.configProvider = up) (hkeys : call.keysProvider = up)
    (hup : Recovered isZero str up call.issuer) :
    ∃ keys, (getJwks isZero str call (reached isZero str before)).1 = .ok keys := by
  cases hget : (TtlCache.get (reached isZero str before).openidConfig
      (normalizedIssuer call.issuer) call.configReadAt).1 with
  | some payload =>
    -- the entry came from a call of the run for the same key
    obtain ⟨_, ⟨earlier, c, hearlier, hreceives, hkey, _⟩, _⟩ :=
      (logged_reached before).1.exists_stored hget
    obtain ⟨huri, hat⟩ := h earlier c payload (hearlier.trans hrun) hreceives
    refine exists_keys_of_config (getOpenidConfiguration_of_uses hget) huri ?_
    rw [hkeys]
    exact hat (hup.congr hkey)
  | none =>
    obtain ⟨payload, hfetch, huri, hat⟩ := hup
    rw [← hconfig] at hfetch
    refine exists_keys_of_config (getOpenidConfiguration_of_receives ⟨hget, hfetch⟩) huri ?_
    rw [hkeys]
    exact hat

/-- What a call receives is in the cache after it, with its expiry. -/
theorem usesConfig_after_receives {payload : Fields φ} (later : JwksCall φ)
    (h : ReceivesConfig (reached isZero str before) call payload)
    (hissuer : later.issuer = call.issuer)
    (htime : later.configReadAt < call.configStoredAt + cacheTtlS) :
    UsesConfig (reached isZero str (before ++ [call])) later payload := by
  unfold UsesConfig
  rw [reached_concat, getJwks_openidConfig, openidConfig_of_receives h, hissuer]
  exact TtlCache.get_put htime

theorem namesKeys_of_cacheSound (h : CacheSound isZero str up calls) :
    NamesKeys isZero str up calls := by
  intro before call payload hrun hreceives
  obtain ⟨keysReadAt, _, hmiss⟩ := TtlCache.exists_get_eq_none
    (reached isZero str (before ++ [call])).jwks (jwksUri isZero str payload) call.configStoredAt
  -- the provider recovers, and the next call for the issuer finds the configuration but no keys
  let later : JwksCall φ :=
    { issuer := call.issuer
      configProvider := up
      keysProvider := up
      configReadAt := call.configStoredAt
      configStoredAt := call.configStoredAt
      keysReadAt := keysReadAt
      keysStoredAt := keysReadAt }
  have hstored : call.configStoredAt < call.configStoredAt + cacheTtlS :=
    lt_add_of_pos_right _ (by norm_num [cacheTtlS])
  have huses : UsesConfig (reached isZero str (before ++ [call])) later payload :=
    usesConfig_after_receives later hreceives rfl hstored
  have huri : jwksUri isZero str payload ≠ "" := by
    obtain ⟨expiresAt, hmem, _⟩ := TtlCache.exists_mem_of_get_eq_some huses
    exact (h.usable _ hrun).configs _ _ _ hmem
  refine ⟨huri, fun hup => ?_⟩
  obtain ⟨keys, hkeys⟩ := h.recovers (before ++ [call]) later hrun rfl rfl hup
  exact keysAt_of_keys (getOpenidConfiguration_of_uses huses) huri hmiss hkeys

end Sound

end Steps

/-- In a run the caches are sound exactly when every configuration that is received names a
place where the recovered provider has keys. -/
theorem cacheSound_iff (isZero : φ → Bool) (str : Json φ → String) (up : Provider φ)
    (calls : List (JwksCall φ)) :
    CacheSound isZero str up calls ↔ NamesKeys isZero str up calls :=
  ⟨namesKeys_of_cacheSound, fun h =>
    { usable := fun _ hrun => usable_of_namesKeys h hrun
      fresh := fun before call _ => freshUse before call
      recovers := fun _ _ hrun hconfig hkeys hup =>
        recovers_of_namesKeys h hrun hconfig hkeys hup }⟩

/-! ## 5. An empty configuration -/

namespace Sample

def issuer : String := "https://login.example.com/tenant/v2.0"

/-- The provider answers every request with an empty object. -/
def emptyProvider : Provider ℚ := fun _ => .ok (.obj [])

/-- The provider names a place for its keys, and has one there. -/
def upProvider : Provider ℚ := fun url =>
  if url = configUrl issuer then
    .ok (.obj [("jwks_uri", .str "https://login.example.com/tenant/keys")])
  else if url = "https://login.example.com/tenant/keys" then
    .ok (.obj [("keys", .arr [.obj [("kid", .str "kid-1")]])])
  else .error "404 Not Found"

/-- A call all of whose readings of the clock are the same. -/
def callAt (provider : Provider ℚ) (time : ℚ) : JwksCall ℚ where
  issuer := issuer
  configProvider := provider
  keysProvider := provider
  configReadAt := time
  configStoredAt := time
  keysReadAt := time
  keysStoredAt := time

end Sample

open Sample in
/-- After one empty configuration the call a second later fails, although the provider has
recovered. -/
theorem empty_configuration_cached :
    Recovered (fun x => x == 0) (fun _ => "") upProvider issuer ∧
      (getJwks (fun x => x == 0) (fun _ => "") (callAt upProvider 1)
          (reached (fun x => x == 0) (fun _ => "") [callAt emptyProvider 0])).1 =
        .error (.runtimeError "OpenID configuration did not include jwks_uri") ∧
      ¬CacheSound (fun x => x == 0) (fun _ => "") upProvider [callAt emptyProvider 0] := by
  have hup : Recovered (fun x => x == 0) (fun _ => "") upProvider issuer := by
    refine ⟨[("jwks_uri", .str "https://login.example.com/tenant/keys")], ?_, ?_, ?_⟩
    · rfl
    · decide
    · exact ⟨[[("kid", .str "kid-1")]], rfl⟩
  have hfails : (getJwks (fun x => x == 0) (fun _ => "") (callAt upProvider 1)
      (reached (fun x => x == 0) (fun _ => "") [callAt emptyProvider 0])).1 =
      .error (.runtimeError "OpenID configuration did not include jwks_uri") := by
    have hreceives : ReceivesConfig (reached (fun x => x == 0) (fun _ => "") [])
        (callAt emptyProvider 0) [] := ⟨rfl, rfl⟩
    have huses := usesConfig_after_receives (callAt upProvider 1) hreceives rfl
      (by norm_num [callAt, cacheTtlS])
    rw [List.nil_append] at huses
    rw [getJwks_of_ok (getOpenidConfiguration_of_uses huses)]
    rfl
  refine ⟨hup, hfails, fun h => ?_⟩
  obtain ⟨keys, hkeys⟩ := h.recovers _ (callAt upProvider 1) List.prefix_rfl rfl rfl hup
  rw [hfails] at hkeys
  cases hkeys

end TalentMatch
