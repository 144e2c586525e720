import TalentMatch.Lib.JsonText
import TalentMatch.Dispatch
import TalentMatch.Polling

/-!
# The message to the engine

`RunMessage` of `orchestrator/sb_contracts.py` with all its fields, as
`model_dump_json` writes it and `model_validate_json` reads it. The models of its
parameters allow extra fields, which are kept in their order after the declared
ones; the message itself forbids them.

The floats of `φ` are those that `model_dump_json` writes as numbers: it writes null
for `NaN` and the infinities, which validation accepts in an extra field.

Results:
1. `validateExtended_append`: a model with extra fields is read back from its fields.
2. `modelValidateJson_dump`: a message that is dumped is validated as itself, whatever
   extra fields its parameters have.
-/

namespace TalentMatch

open Json (Keyed KeyedFields KeyedItems FloatWriter Layout)

variable {φ : Type}

/-! ## 1. The models -/

/-- `RunProfile`. -/
structure RunProfile (φ : Type) where
  joinMode : Option String
  jsonTemplateBlobUri : Option String
  extra : Fields φ

/-- `OutputParams`. -/
structure OutputParams (φ : Type) where
  resultsContainer : Option String
  resultsPrefix : Option String
  extra : Fields φ

/-- `AoaiParams`. -/
structure AoaiParams (φ : Type) where
  deployment : Option String
  apiVersion : Option String
  maxOutputTokens : Option Int
  extra : Fields φ

/-- `RunParameters`. -/
structure RunParameters (φ : Type) where
  cvBlobUris : List String
  specBlobUri : Option String
  promptBlobUri : Option String
  runProfile : Option (RunProfile φ)
  returnArtifacts : Option Bool
  output : Option (OutputParams φ)
  aoai : Option (AoaiParams φ)
  extra : Fields φ

/-- `RunMessage`, with all its fields. -/
structure RunMessageBody (φ : Type) where
  messageId : String
  runId : String
  engine : String
  parameters : RunParameters φ
  correlationId : String
  enqueuedAt : String

/-- `RunParameters()`. -/
def RunParameters.default : RunParameters φ where
  cvBlobUris := []
  specBlobUri := none
  promptBlobUri := none
  runProfile := none
  returnArtifacts := some true
  output := none
  aoai := none
  extra := []

/-! ## 2. Dumping -/

def RunProfile.declared : List String := ["join_mode", "json_template_blob_uri"]
def OutputParams.declared : List String := ["results_container", "results_prefix"]
def AoaiParams.declared : List String := ["deployment", "api_version", "max_output_tokens"]
def RunParameters.declared : List String :=
  ["cv_blob_uris", "spec_blob_uri", "prompt_blob_uri", "run_profile", "return_artifacts", "output",
    "aoai"]
def RunMessageBody.declared : List String :=
  ["message_id", "run_id", "engine", "parameters", "correlation_id", "enqueued_at"]

def RunProfile.declaredFields (m : RunProfile φ) : Fields φ :=
  [("join_mode", nullable .str m.joinMode),
    ("json_template_blob_uri", nullable .str m.jsonTemplateBlobUri)]

def OutputParams.declaredFields (m : OutputParams φ) : Fields φ :=
  [("results_container", nullable .str m.resultsContainer),
    ("results_prefix", nullable .str m.resultsPrefix)]

def AoaiParams.declaredFields (m : AoaiParams φ) : Fields φ :=
  [("deployment", nullable .str m.deployment), ("api_version", nullable .str m.apiVersion),
    ("max_output_tokens", nullable .int m.maxOutputTokens)]

def RunProfile.toJson (m : RunProfile φ) : Json φ := .obj (m.declaredFields ++ m.extra)

def OutputParams.toJson (m : OutputParams φ) : Json φ := .obj (m.declaredFields ++ m.extra)

def AoaiParams.toJson (m : AoaiParams φ) : Json φ := .obj (m.declaredFields ++ m.extra)

theorem RunProfile.keys_declaredFields (m : RunProfile φ) :
    Dict.keys m.declaredFields = RunProfile.declared := rfl

theorem OutputParams.keys_declaredFields (m : OutputParams φ) :
    Dict.keys m.declaredFields = OutputParams.declared := rfl

theorem AoaiParams.keys_declaredFields (m : AoaiParams φ) :
    Dict.keys m.declaredFields = AoaiParams.declared := rfl

def RunParameters.declaredFields (m : RunParameters φ) : Fields φ :=
  [("cv_blob_uris", .arr (m.cvBlobUris.map .str)), ("spec_blob_uri", nullable .str m.specBlobUri),
    ("prompt_blob_uri", nullable .str m.promptBlobUri),
    ("run_profile", nullable RunProfile.toJson m.runProfile),
    ("return_artifacts", nullable .bool m.returnArtifacts),
    ("output", nullable OutputParams.toJson m.output),
    ("aoai", nullable AoaiParams.toJson m.aoai)]

theorem RunParameters.keys_declaredFields (m : RunParameters φ) :
    Dict.keys m.declaredFields = RunParameters.declared := rfl

def RunParameters.toJson (m : RunParameters φ) : Json φ := .obj (m.declaredFields ++ m.extra)

def RunMessageBody.fields (m : RunMessageBody φ) : Fields φ :=
  [("message_id", .str m.messageId), ("run_id", .str m.runId), ("engine", .str m.engine),
    ("parameters", m.parameters.toJson), ("correlation_id", .str m.correlationId),
    ("enqueued_at", .str m.enqueuedAt)]

/-- The message of `dispatch_run`, with the defaults of the fields that it does not set. -/
def RunMessage.modelBody (m : RunMessage) : RunMessageBody φ where
  messageId := m.messageId
  runId := m.runId
  engine := m.engine
  parameters :=
    { RunParameters.default with
      cvBlobUris := m.cvBlobUris
      promptBlobUri := some m.promptBlobUri }
  correlationId := m.correlationId
  enqueuedAt := m.enqueuedAt

/-- `msg.model_dump_json()`. -/
def RunMessageBody.modelDumpJson (repr : φ → String) (m : RunMessageBody φ) : String :=
  Json.text Layout.model repr (.obj m.fields)

/-! ## 3. Validating -/

/-- A strict `bool`. -/
def strictBool : Json φ → Option Bool
  | .bool b => some b
  | _ => none

/-- A field with a default that is not null. -/
def defaultField {α : Type} (read : Json φ → Option α) (default : α) (fields : Fields φ)
    (name : String) : Option α :=
  match Dict.get? fields name with
  | none => some default
  | some v => read v

/-- A model that allows extra fields: the declared ones are read, the others are kept. -/
def validateExtended {α : Type} (declared : List String)
    (read : Fields φ → Option (Fields φ → α)) : Json φ → Option α
  | .obj fields => (read fields).map fun make => make (Dict.remove declared fields)
  | _ => none

/-- `RunProfile.model_validate`. -/
def validateRunProfile : Json φ → Option (RunProfile φ) :=
  validateExtended RunProfile.declared fun fields => do
    let joinMode ← optionalField strictStr fields "join_mode"
    let jsonTemplateBlobUri ← optionalField strictStr fields "json_template_blob_uri"
    some fun extra => { joinMode, jsonTemplateBlobUri, extra }

/-- `OutputParams.model_validate`. -/
def validateOutputParams : Json φ → Option (OutputParams φ) :=
  validateExtended OutputParams.declared fun fields => do
    let resultsContainer ← optionalField strictStr fields "results_container"
    let resultsPrefix ← optionalField strictStr fields "results_prefix"
    some fun extra => { resultsContainer, resultsPrefix, extra }

/-- `AoaiParams.model_validate`. -/
def validateAoaiParams : Json φ → Option (AoaiParams φ) :=
  validateExtended AoaiParams.declared fun fields => do
    let deployment ← optionalField strictStr fields "deployment"
    let apiVersion ← optionalField strictStr fields "api_version"
    let maxOutputTokens ← optionalField strictInt fields "max_output_tokens"
    some fun extra => { deployment, apiVersion, maxOutputTokens, extra }

/-- A field `Optional[bool] = True`. -/
def returnArtifactsField (fields : Fields φ) : Option (Option Bool) :=
  match Dict.get? fields "return_artifacts" with
  | none => some (some true)
  | some _ => optionalField strictBool fields "return_artifacts"

/-- `RunParameters.model_validate`. -/
def validateRunParameters : Json φ → Option (RunParameters φ) :=
  validateExtended RunParameters.declared fun fields => do
    let cvBlobUris ← defaultField (strictList strictStr) [] fields "cv_blob_uris"
    let specBlobUri ← optionalField strictStr fields "spec_blob_uri"
    let promptBlobUri ← optionalField strictStr fields "prompt_blob_uri"
    let runProfile ← optionalField validateRunProfile fields "run_profile"
    let returnArtifacts ← returnArtifactsField fields
    let output ← optionalField validateOutputParams fields "output"
    let aoai ← optionalField validateAoaiParams fields "aoai"
    some fun extra =>
      { cvBlobUris, specBlobUri, promptBlobUri, runProfile, returnArtifacts, output, aoai, extra }

/-- `RunMessage.model_validate`, which takes no field that is not declared. -/
def validateRunMessage : Json φ → Option (RunMessageBody φ)
  | .obj fields => do
    let messageId ← requiredField strictStr fields "message_id"
    let runId ← requiredField strictStr fields "run_id"
    let engine ← requiredField strictStr fields "engine"
    let parameters ← defaultField validateRunParameters .default fields "parameters"
    let correlationId ← requiredField strictStr fields "correlation_id"
    let enqueuedAt ← requiredField strictStr fields "enqueued_at"
    if (Dict.remove RunMessageBody.declared fields).isEmpty then
      some { messageId, runId, engine, parameters, correlationId, enqueuedAt }
    else none
  | _ => none

/-- `RunMessage.model_validate_json(text)`. -/
def modelValidateJson (float : String → φ) (text : String) : Option (RunMessageBody φ) :=
  match Json.strictLoads float text with
  | .ok v => validateRunMessage v
  | .error _ => none

/-! ## 4. Extra fields -/

/-- Fields that a model with the declared ones `declared` keeps as extra. -/
structure KeptAsExtra (declared : List String) (extra : Fields φ) : Prop where
  nodup : (Dict.keys extra).Nodup
  fresh : ∀ k ∈ Dict.keys extra, k ∉ declared
  keyed : KeyedFields extra

/-- The extra fields of a message are that, and those of its parameters. -/
structure RunParameters.WellFormed (m : RunParameters φ) : Prop where
  extra : KeptAsExtra RunParameters.declared m.extra
  runProfile : ∀ p ∈ m.runProfile, KeptAsExtra RunProfile.declared p.extra
  output : ∀ p ∈ m.output, KeptAsExtra OutputParams.declared p.extra
  aoai : ∀ p ∈ m.aoai, KeptAsExtra AoaiParams.declared p.extra

namespace EngineContractLemmas

section Models
variable {declared : List String} {known extra : Fields φ}

theorem remove_append (hknown : Dict.keys known = declared) (h : KeptAsExtra declared extra) :
    Dict.remove declared (known ++ extra) = extra := by
  have hout : known.filter (fun p => p.1 ∉ declared) = [] := by
    refine List.filter_eq_nil_iff.mpr fun p hp => ?_
    have hmem : p.1 ∈ declared := hknown ▸ List.mem_map_of_mem hp
    simpa using hmem
  have hkeep : extra.filter (fun p => p.1 ∉ declared) = extra :=
    List.filter_eq_self.mpr fun p hp => by
      simpa using h.fresh p.1 (List.mem_map_of_mem hp)
  rw [Dict.remove, List.filter_append, hout, hkeep, List.nil_append]

/-- A dumped model has distinct keys. -/
theorem keyed_append (hknown : Dict.keys known = declared) (hn : declared.Nodup)
    (hvalues : KeyedFields known) (h : KeptAsExtra declared extra) : Keyed (.obj (known ++ extra)) := by
  have hkeys : (Dict.keys known).Nodup := hknown.symm ▸ hn
  refine ⟨?_, Json.keyedFields_iff.mpr fun p hp => ?_⟩
  · rw [Dict.keys, List.map_append]
    refine List.nodup_append.mpr ⟨hkeys, h.nodup, ?_⟩
    rintro k hk _ hk' rfl
    exact h.fresh k hk' (hknown ▸ hk)
  · rcases List.mem_append.mp hp with hp | hp
    · exact Json.keyedFields_iff.mp hvalues p hp
    · exact Json.keyedFields_iff.mp h.keyed p hp

/-- A model is read back from its declared fields and its extra ones. -/
theorem validateExtended_append {α : Type} {read : Fields φ → Option (Fields φ → α)}
    {m : α} (hknown : Dict.keys known = declared) (h : KeptAsExtra declared extra)
    (hread : (read (known ++ extra)).map (fun make => make extra) = some m) :
    validateExtended declared read (.obj (known ++ extra)) = some m := by
  rw [validateExtended, remove_append hknown h, hread]

end Models

section Fields
variable {α : Type} {read : Json φ → Option α} {encode : α → Json φ} {fields : Fields φ}
  {name : String}

/-- A field that is written as null when it is absent. -/
theorem optionalField_nullable {o : Option α}
    (hget : Dict.get? fields name = some (nullable encode o))
    (hread : ∀ a ∈ o, read (encode a) = some a) (hnull : ∀ a, encode a ≠ .null) :
    optionalField read fields name = some o := by
  unfold optionalField
  rw [hget]
  cases o with
  | none => rfl
  | some a =>
    simp only [nullable]
    split
    · next h => cases h
    · next h => exact absurd (Option.some.inj h) (hnull a)
    · next h =>
      cases h
      rw [hread a rfl]
      rfl

/-- A text that is written as null when it is absent. -/
theorem optionalField_str {o : Option String}
    (hget : Dict.get? fields name = some (nullable .str o)) :
    optionalField strictStr fields name = some o :=
  optionalField_nullable hget (fun _ _ => rfl) fun _ => by simp

theorem requiredField_eq {a : α} (hget : Dict.get? fields name = some (encode a))
    (hread : read (encode a) = some a) : requiredField read fields name = some a := by
  rw [requiredField, hget, Option.bind_some, hread]

theorem keyed_nullable {o : Option α} (h : ∀ a ∈ o, Keyed (encode a)) :
    Keyed (nullable encode o) := by
  cases o with
  | none => trivial
  | some a => exact h a rfl

theorem keyed_arr_map {l : List α} (h : ∀ a ∈ l, Keyed (encode a)) :
    Keyed (.arr (l.map encode)) := by
  refine Json.keyedItems_iff.mpr fun v hv => ?_
  obtain ⟨a, ha, rfl⟩ := List.mem_map.mp hv
  exact h a ha

end Fields

theorem keyed_str (o : Option String) : Keyed (nullable (φ := φ) .str o) :=
  keyed_nullable fun _ _ => trivial

theorem keyed_int (o : Option Int) : Keyed (nullable (φ := φ) .int o) :=
  keyed_nullable fun _ _ => trivial

/-! ## 5. Round trips -/

theorem validateRunProfile_toJson {m : RunProfile φ} (h : KeptAsExtra RunProfile.declared m.extra) :
    validateRunProfile m.toJson = some m := by
  have hjoin : optionalField strictStr (m.declaredFields ++ m.extra) "join_mode" =
      some m.joinMode := optionalField_str rfl
  have htemplate : optionalField strictStr (m.declaredFields ++ m.extra) "json_template_blob_uri" =
      some m.jsonTemplateBlobUri := optionalField_str rfl
  refine validateExtended_append m.keys_declaredFields h ?_
  simp only [hjoin, htemplate, Option.bind_eq_bind, Option.bind_some, Option.map_some]

theorem validateOutputParams_toJson {m : OutputParams φ}
    (h : KeptAsExtra OutputParams.declared m.extra) : validateOutputParams m.toJson = some m := by
  have hcontainer : optionalField strictStr (m.declaredFields ++ m.extra) "results_container" =
      some m.resultsContainer := optionalField_str rfl
  have hresults : optionalField strictStr (m.declaredFields ++ m.extra) "results_prefix" =
      some m.resultsPrefix := optionalField_str rfl
  refine validateExtended_append m.keys_declaredFields h ?_
  simp only [hcontainer, hresults, Option.bind_eq_bind, Option.bind_some, Option.map_some]

theorem validateAoaiParams_toJson {m : AoaiParams φ} (h : KeptAsExtra AoaiParams.declared m.extra) :
    validateAoaiParams m.toJson = some m := by
  have hdeployment : optionalField strictStr (m.declaredFields ++ m.extra) "deployment" =
      some m.deployment := optionalField_str rfl
  have hversion : optionalField strictStr (m.declaredFields ++ m.extra) "api_version" =
      some m.apiVersion := optionalField_str rfl
  have htokens : optionalField strictInt (m.declaredFields ++ m.extra) "max_output_tokens" =
      some m.maxOutputTokens := optionalField_nullable rfl (fun _ _ => rfl) fun _ => by simp
  refine validateExtended_append m.keys_declaredFields h ?_
  simp only [hdeployment, hversion, htokens, Option.bind_eq_bind, Option.bind_some,
    Option.map_some]

theorem returnArtifactsField_eq {o : Option Bool} {fields : Fields φ}
    (h : Dict.get? fields "return_artifacts" = some (nullable .bool o)) :
    returnArtifactsField fields = some o := by
  have hread : optionalField strictBool fields "return_artifacts" = some o :=
    optionalField_nullable h (fun _ _ => rfl) (fun _ => by simp)
  rw [returnArtifactsField, h, hread]

theorem validateRunParameters_toJson {m : RunParameters φ} (h : m.WellFormed) :
    validateRunParameters m.toJson = some m := by
  have hcvs : defaultField (strictList strictStr) [] (m.declaredFields ++ m.extra) "cv_blob_uris" =
      some m.cvBlobUris := (ReadsBack.str (φ := φ)).list.read_encode m.cvBlobUris |>.trans (by simp)
  have hspec : optionalField strictStr (m.declaredFields ++ m.extra) "spec_blob_uri" =
      some m.specBlobUri := optionalField_str rfl
  have hprompt : optionalField strictStr (m.declaredFields ++ m.extra) "prompt_blob_uri" =
      some m.promptBlobUri := optionalField_str rfl
  have hprofile : optionalField validateRunProfile (m.declaredFields ++ m.extra) "run_profile" =
      some m.runProfile :=
    optionalField_nullable rfl (fun p hp => validateRunProfile_toJson (h.runProfile p hp))
      (fun _ => by simp [RunProfile.toJson])
  have hreturn : returnArtifactsField (m.declaredFields ++ m.extra) = some m.returnArtifacts :=
    returnArtifactsField_eq rfl
  have houtput : optionalField validateOutputParams (m.declaredFields ++ m.extra) "output" =
      some m.output :=
    optionalField_nullable rfl (fun p hp => validateOutputParams_toJson (h.output p hp))
      (fun _ => by simp [OutputParams.toJson])
  have haoai : optionalField validateAoaiParams (m.declaredFields ++ m.extra) "aoai" =
      some m.aoai :=
    optionalField_nullable rfl (fun p hp => validateAoaiParams_toJson (h.aoai p hp))
      (fun _ => by simp [AoaiParams.toJson])
  refine validateExtended_append m.keys_declaredFields h.extra ?_
  simp only [hcvs, hspec, hprompt, hprofile, hreturn, houtput, haoai, Option.bind_eq_bind,
    Option.bind_some, Option.map_some]

/-- A dumped message is validated as itself. -/
theorem validateRunMessage_fields {m : RunMessageBody φ} (h : m.parameters.WellFormed) :
    validateRunMessage (.obj m.fields) = some m := by
  have hparameters : defaultField validateRunParameters .default m.fields "parameters" =
      some m.parameters := validateRunParameters_toJson h
  have hnone : Dict.remove RunMessageBody.declared m.fields = [] := rfl
  have hfield : ∀ name text, Dict.get? m.fields name = some (.str text) →
      requiredField strictStr m.fields name = some text := fun _ _ hget => requiredField_eq hget rfl
  simp only [validateRunMessage, hparameters, hnone, Option.bind_eq_bind, Option.bind_some,
    List.isEmpty_nil, if_true, hfield "message_id" _ rfl, hfield "run_id" _ rfl,
    hfield "engine" _ rfl, hfield "correlation_id" _ rfl,
    hfield "enqueued_at" _ rfl]

theorem keyed_runParameters {m : RunParameters φ} (h : m.WellFormed) :
    Keyed m.toJson := by
  have hprofile : Keyed (nullable RunProfile.toJson m.runProfile) :=
    keyed_nullable fun p hp => keyed_append p.keys_declaredFields (by decide)
      ⟨keyed_str _, keyed_str _, trivial⟩ (h.runProfile p hp)
  have houtput : Keyed (nullable OutputParams.toJson m.output) :=
    keyed_nullable fun p hp => keyed_append p.keys_declaredFields (by decide)
      ⟨keyed_str _, keyed_str _, trivial⟩ (h.output p hp)
  have haoai : Keyed (nullable AoaiParams.toJson m.aoai) :=
    keyed_nullable fun p hp => keyed_append p.keys_declaredFields (by decide)
      ⟨keyed_str _, keyed_str _, keyed_int _, trivial⟩ (h.aoai p hp)
  have hreturn : Keyed (nullable (φ := φ) .bool m.returnArtifacts) :=
    keyed_nullable fun _ _ => trivial
  refine keyed_append m.keys_declaredFields (by decide) ?_ h.extra
  exact ⟨keyed_arr_map fun _ _ => trivial, keyed_str _, keyed_str _, hprofile, hreturn, houtput,
    haoai, trivial⟩

/-- The message of `dispatch_run` has no extra fields. -/
theorem wellFormed_modelBody (m : RunMessage) : (m.modelBody (φ := φ)).parameters.WellFormed where
  extra := ⟨List.nodup_nil, fun _ hk => (by cases hk), trivial⟩
  runProfile := fun _ hp => by cases hp
  output := fun _ hp => by cases hp
  aoai := fun _ hp => by cases hp

/-- A message that is dumped is validated as itself, whatever extra fields its parameters
have. -/
theorem modelValidateJson_dump {float : String → φ} (writer : FloatWriter float)
    {m : RunMessageBody φ} (h : m.parameters.WellFormed) :
    modelValidateJson float (m.modelDumpJson writer.repr) = some m := by
  have hkeys : (Dict.keys m.fields).Nodup :=
    show RunMessageBody.declared.Nodup by decide
  have hkeyed : Keyed (.obj m.fields) :=
    ⟨hkeys, trivial, trivial, trivial, keyed_runParameters h, trivial, trivial, trivial⟩
  rw [modelValidateJson, RunMessageBody.modelDumpJson, Json.strictLoads_dumps writer _ hkeyed]
  exact validateRunMessage_fields h

end EngineContractLemmas

end TalentMatch
