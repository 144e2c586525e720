import TalentMatch.DlqReplay

/-!
# Spellings of a completion

An engine may write any of the aliased fields of a completion in camel case, and send
the object as it is, as a text or as bytes. Whatever it chooses, validation sees the
same fields.

Results:
1. `get?_normalizeFields`: what normalisation makes of each field.
2. `normalizeFields_idempotent`: applying it twice is applying it once.
3. `completion_spelling`: every spelling of a completion, by every carrier, is
   validated as the canonical object is.
-/

namespace TalentMatch

open Json (LoadsError)

variable {φ : Type}

/-! ## 1. Spellings -/

/-- The fields of the two messages. -/
def canonicalNames : List String :=
  ["run_id", "status", "duration_ms", "tokens_prompt", "tokens_completion", "error_message",
    "correlation_id", "traceparent", "artifacts"]

/-- The alias of a field, or the field itself where it has none. -/
def aliasOf (name : String) : String :=
  match completionAliases.find? fun p => p.2 == name with
  | some p => p.1
  | none => name

/-- How a field is written. -/
def spellingOf (renamed : List String) (name : String) : String :=
  if name ∈ renamed then aliasOf name else name

/-- The object with the fields in `renamed` written by their aliases. -/
def respell (renamed : List String) (canonical : Fields φ) : Fields φ :=
  canonical.map fun p => (spellingOf renamed p.1, p.2)

/-- A key that no message reads: not a field, and an alias only of a field that is
there anyway. -/
def IsExtra (canonical : Fields φ) (key : String) : Prop :=
  key ∉ canonicalNames ∧ ∀ p ∈ completionAliases, p.1 = key → p.2 ∈ Dict.keys canonical

/-- An object that means the same as a canonical one: some fields are written by their
aliases, there are further keys, and the order is any. -/
structure Spells (renamed : List String) (extra canonical spelled : Fields φ) : Prop where
  canonical_nodup : (Dict.keys canonical).Nodup
  canonical_names : ∀ key ∈ Dict.keys canonical, key ∈ canonicalNames
  extra_names : ∀ key ∈ Dict.keys extra, IsExtra canonical key
  spelled_nodup : (Dict.keys spelled).Nodup
  perm : spelled.Perm (respell renamed canonical ++ extra)

namespace SpellingLemmas

theorem alias_not_canonical : ∀ p ∈ completionAliases, p.1 ∉ canonicalNames := by decide

theorem targets_nodup : (completionAliases.map Prod.snd).Nodup := by decide

theorem alias_not_target : ∀ p ∈ completionAliases, p.1 ∉ completionAliases.map Prod.snd := by
  decide

theorem aliasOf_target : ∀ p ∈ completionAliases, aliasOf p.2 = p.1 := by decide

/-- A field has no alias, or is in the table with it. -/
theorem aliasOf_cases : ∀ name ∈ canonicalNames,
    (name ∉ completionAliases.map Prod.snd ∧ aliasOf name = name) ∨
      (aliasOf name, name) ∈ completionAliases := by decide

theorem aliasOf_injective : ∀ name ∈ canonicalNames, ∀ p ∈ completionAliases,
    aliasOf name = p.1 → name = p.2 := by decide

/-! ## 2. The alias loop -/

theorem get?_applyAlias_of_ne (fields : Fields φ) {p : String × String} {key : String}
    (h : key ≠ p.2) : Dict.get? (applyAlias fields p) key = Dict.get? fields key := by
  unfold applyAlias
  split
  · split
    · rfl
    · exact Dict.get?_set_of_ne fields _ h
  · rfl

theorem get?_applyAlias_target (fields : Fields φ) (p : String × String) :
    Dict.get? (applyAlias fields p) p.2 = (Dict.get? fields p.2).or (Dict.get? fields p.1) := by
  unfold applyAlias
  cases halias : Dict.get? fields p.1 with
  | none => simp
  | some v =>
    cases htarget : Dict.get? fields p.2 with
    | none => simp
    | some w => simp [htarget]

/-- The loop over any table whose targets are distinct and are no aliases. -/
theorem get?_foldl_applyAlias {aliases : List (String × String)}
    (hnodup : (aliases.map Prod.snd).Nodup)
    (halias : ∀ p ∈ aliases, p.1 ∉ aliases.map Prod.snd) (fields : Fields φ) :
    (∀ key, key ∉ aliases.map Prod.snd →
        Dict.get? (aliases.foldl applyAlias fields) key = Dict.get? fields key) ∧
      ∀ p ∈ aliases, Dict.get? (aliases.foldl applyAlias fields) p.2 =
        (Dict.get? fields p.2).or (Dict.get? fields p.1) := by
  induction aliases generalizing fields with
  | nil => exact ⟨fun _ _ => rfl, fun p hp => by cases hp⟩
  | cons q aliases ih =>
    rw [List.map_cons, List.nodup_cons] at hnodup
    have hrest : ∀ p ∈ aliases, p.1 ∉ aliases.map Prod.snd := by
      intro p hp hmem
      exact halias p (List.mem_cons_of_mem q hp) (List.mem_cons_of_mem _ hmem)
    obtain ⟨hother, htarget⟩ := ih hnodup.2 hrest (applyAlias fields q)
    constructor
    · intro key hkey
      rw [List.map_cons, List.mem_cons, not_or] at hkey
      rw [List.foldl_cons, hother key hkey.2, get?_applyAlias_of_ne fields hkey.1]
    · intro p hp
      rw [List.foldl_cons]
      rcases List.mem_cons.mp hp with rfl | hp
      · rw [hother p.2 hnodup.1, get?_applyAlias_target]
      · -- `q` writes neither the alias nor the target of `p`
        have hne : p.2 ≠ q.2 := by
          rintro heq
          exact hnodup.1 (heq ▸ List.mem_map_of_mem hp)
        have hne' : p.1 ≠ q.2 := by
          rintro heq
          refine halias p (List.mem_cons_of_mem q hp) ?_
          rw [heq]
          exact List.mem_cons_self
        rw [htarget p hp, get?_applyAlias_of_ne fields hne, get?_applyAlias_of_ne fields hne']

theorem get?_normalizeFields_target (fields : Fields φ) {p : String × String}
    (hp : p ∈ completionAliases) :
    Dict.get? (normalizeFields fields) p.2 =
      (Dict.get? fields p.2).or (Dict.get? fields p.1) :=
  (get?_foldl_applyAlias targets_nodup alias_not_target fields).2 p hp

theorem get?_normalizeFields_of_not_target (fields : Fields φ) {key : String}
    (h : key ∉ completionAliases.map Prod.snd) :
    Dict.get? (normalizeFields fields) key = Dict.get? fields key :=
  (get?_foldl_applyAlias targets_nodup alias_not_target fields).1 key h

/-- A turn of the loop does nothing where the target of each alias is there. -/
theorem foldl_applyAlias_of_settled {aliases : List (String × String)} {fields : Fields φ}
    (h : ∀ p ∈ aliases, (Dict.get? fields p.1).isSome → (Dict.get? fields p.2).isSome) :
    aliases.foldl applyAlias fields = fields := by
  induction aliases with
  | nil => rfl
  | cons p aliases ih =>
    have hsame : applyAlias fields p = fields := by
      unfold applyAlias
      split
      · next v hv =>
        rw [if_pos (h p List.mem_cons_self (by rw [hv]; rfl))]
      · rfl
    rw [List.foldl_cons, hsame]
    exact ih fun q hq => h q (List.mem_cons_of_mem p hq)

theorem normalizeFields_idempotent (fields : Fields φ) :
    normalizeFields (normalizeFields fields) = normalizeFields fields := by
  apply foldl_applyAlias_of_settled
  intro p hp hsome
  rw [get?_normalizeFields_of_not_target fields (alias_not_target p hp)] at hsome
  rw [get?_normalizeFields_target fields hp]
  cases Dict.get? fields p.2 with
  | some v => rfl
  | none => exact hsome

/-! ## 3. Reading a spelling -/

section Read
variable {renamed : List String} {extra canonical spelled : Fields φ}

theorem mem_spelled (h : Spells renamed extra canonical spelled) {key : String} {v : Json φ} :
    (key, v) ∈ spelled ↔
      (∃ name, (name, v) ∈ canonical ∧ spellingOf renamed name = key) ∨ (key, v) ∈ extra := by
  rw [h.perm.mem_iff, List.mem_append, respell, List.mem_map]
  refine or_congr_left ⟨?_, ?_⟩
  · rintro ⟨⟨name, w⟩, hmem, heq⟩
    cases heq
    exact ⟨name, hmem, rfl⟩
  · rintro ⟨name, hmem, rfl⟩
    exact ⟨(name, v), hmem, rfl⟩

theorem canonical_of_mem (h : Spells renamed extra canonical spelled) {name : String} {v : Json φ}
    (hmem : (name, v) ∈ canonical) : name ∈ canonicalNames :=
  h.canonical_names name (List.mem_map_of_mem hmem)

theorem not_extra_of_canonical (h : Spells renamed extra canonical spelled) {name : String}
    (hname : name ∈ canonicalNames) (v : Json φ) : (name, v) ∉ extra := fun hmem =>
  (h.extra_names name (List.mem_map_of_mem hmem)).1 hname

/-- A field that is written by a canonical name is that field. -/
theorem spellingOf_eq_canonical {name key : String} (hname : name ∈ canonicalNames)
    (hkey : key ∈ canonicalNames) (heq : spellingOf renamed name = key) : name = key := by
  unfold spellingOf at heq
  split at heq
  · rcases aliasOf_cases name hname with ⟨-, hsame⟩ | hmem
    · rw [← heq, hsame]
    · rw [← heq] at hkey
      exact absurd hkey (alias_not_canonical _ hmem)
  · exact heq

/-- A field is found under its own name unless it is written by its alias. -/
theorem get?_spelled_canonical (h : Spells renamed extra canonical spelled) {name : String}
    (hname : name ∈ canonicalNames) {v : Json φ} :
    Dict.get? spelled name = some v ↔
      (name, v) ∈ canonical ∧ spellingOf renamed name = name := by
  rw [Dict.get?_eq_some_iff h.spelled_nodup, mem_spelled h]
  constructor
  · rintro (⟨name', hmem, heq⟩ | hmem)
    · obtain rfl := spellingOf_eq_canonical (canonical_of_mem h hmem) hname heq
      exact ⟨hmem, heq⟩
    · exact absurd hmem (not_extra_of_canonical h hname v)
  · rintro ⟨hmem, heq⟩
    exact .inl ⟨name, hmem, heq⟩

/-- What is found under an alias is the field, or a further key. -/
theorem get?_spelled_alias (h : Spells renamed extra canonical spelled) {p : String × String}
    (hp : p ∈ completionAliases) {v : Json φ} :
    Dict.get? spelled p.1 = some v ↔
      ((p.2, v) ∈ canonical ∧ p.2 ∈ renamed) ∨ (p.1, v) ∈ extra := by
  rw [Dict.get?_eq_some_iff h.spelled_nodup, mem_spelled h]
  refine or_congr_left ⟨?_, ?_⟩
  · rintro ⟨name, hmem, heq⟩
    have hname := canonical_of_mem h hmem
    unfold spellingOf at heq
    split at heq
    · next hren =>
      obtain rfl := aliasOf_injective name hname p hp heq
      exact ⟨hmem, hren⟩
    · exact absurd (heq ▸ hname) (alias_not_canonical p hp)
  · rintro ⟨hmem, hren⟩
    exact ⟨p.2, hmem, by rw [spellingOf, if_pos hren, aliasOf_target p hp]⟩

/-- Normalisation finds every field of the canonical object, whatever its
spelling. -/
theorem get?_normalizeFields (h : Spells renamed extra canonical spelled) {name : String}
    (hname : name ∈ canonicalNames) :
    Dict.get? (normalizeFields spelled) name = Dict.get? canonical name := by
  apply Option.ext
  intro v
  rw [Dict.get?_eq_some_iff h.canonical_nodup]
  rcases aliasOf_cases name hname with ⟨hnot, hsame⟩ | hp
  · have hspelling : spellingOf renamed name = name := by
      unfold spellingOf
      split
      · exact hsame
      · rfl
    rw [get?_normalizeFields_of_not_target spelled hnot, get?_spelled_canonical h hname]
    exact ⟨And.left, fun hmem => ⟨hmem, hspelling⟩⟩
  · have hspelling : spellingOf renamed name = name ↔ name ∉ renamed := by
      unfold spellingOf
      split
      · next hren =>
        refine ⟨fun heq => ?_, fun hnot => absurd hren hnot⟩
        refine absurd ?_ (alias_not_canonical _ hp)
        show aliasOf name ∈ canonicalNames
        rw [heq]
        exact hname
      · next hren => exact ⟨fun _ => hren, fun _ => rfl⟩
    have hcanonical : ∀ w, Dict.get? spelled name = some w ↔ (name, w) ∈ canonical ∧ name ∉ renamed :=
      fun w => by rw [get?_spelled_canonical h hname, hspelling]
    have halias : ∀ w, Dict.get? spelled (aliasOf name) = some w ↔
        ((name, w) ∈ canonical ∧ name ∈ renamed) ∨ (aliasOf name, w) ∈ extra :=
      fun w => get?_spelled_alias h hp
    have htarget := get?_normalizeFields_target spelled hp
    rw [htarget, Option.or_eq_some_iff]
    constructor
    · rintro (hfound | ⟨hnone, hfound⟩)
      · exact ((hcanonical v).mp hfound).1
      · rcases (halias v).mp hfound with ⟨hmem, -⟩ | hextra
        · exact hmem
        · -- the further key is the alias of a field that is there, so it is not read
          have hkey := (h.extra_names _ (List.mem_map_of_mem hextra)).2 _ hp rfl
          obtain ⟨⟨name', w⟩, hmem, heq⟩ := List.mem_map.mp hkey
          have heq : name' = name := heq
          subst heq
          by_cases hren : name' ∈ renamed
          · have hw := (halias w).mpr (.inl ⟨hmem, hren⟩)
            rw [hfound] at hw
            cases hw
            exact hmem
          · have hw := (hcanonical w).mpr ⟨hmem, hren⟩
            rw [hnone] at hw
            cases hw
    · intro hmem
      by_cases hren : name ∈ renamed
      · refine .inr ⟨?_, (halias v).mpr (.inl ⟨hmem, hren⟩)⟩
        rw [Option.eq_none_iff_forall_ne_some]
        exact fun w hw => ((hcanonical w).mp hw).2 hren
      · exact .inl ((hcanonical v).mpr ⟨hmem, hren⟩)

end Read

/-- Normalisation has nothing to do on a canonical object. -/
theorem normalizeFields_canonical {canonical : Fields φ}
    (hnames : ∀ key ∈ Dict.keys canonical, key ∈ canonicalNames) :
    normalizeFields canonical = canonical := by
  apply foldl_applyAlias_of_settled
  intro p hp hsome
  obtain ⟨v, hv⟩ := Option.isSome_iff_exists.mp hsome
  have hkey : p.1 ∈ Dict.keys canonical := List.mem_map_of_mem (Dict.mem_of_get? hv)
  exact absurd (hnames p.1 hkey) (alias_not_canonical p hp)

/-- Validation reads the fields of the message only. -/
theorem validateRunResultMessage_congr {fields fields' : Fields φ}
    (h : ∀ name ∈ canonicalNames, Dict.get? fields name = Dict.get? fields' name) :
    validateRunResultMessage fields = validateRunResultMessage fields' := by
  simp only [canonicalNames, List.forall_mem_cons] at h
  obtain ⟨hrun, hstatus, hduration, hprompt, hcompletion, herror, hcorrelation, htrace,
    hartifacts, -⟩ := h
  simp only [validateRunResultMessage, requiredField, optionalField, hrun, hstatus, hduration,
    hprompt, hcompletion, herror, hcorrelation, htrace, hartifacts]

theorem validateFinishRunRequest_congr {fields fields' : Fields φ}
    (h : ∀ name ∈ canonicalNames, Dict.get? fields name = Dict.get? fields' name) :
    validateFinishRunRequest fields = validateFinishRunRequest fields' := by
  simp only [canonicalNames, List.forall_mem_cons] at h
  obtain ⟨-, hstatus, hduration, hprompt, hcompletion, herror, hcorrelation, htrace,
    hartifacts, -⟩ := h
  simp only [validateFinishRunRequest, requiredField, optionalField, hstatus, hduration,
    hprompt, hcompletion, herror, hcorrelation, htrace, hartifacts]

/-- The three carriers of an object. -/
def carriers (fields : Fields φ) (text : String) : List (CompletionPayload φ) :=
  [.value (.obj fields), .value (.str text), .bytes text.toByteArray]

theorem normalize_carriers {loads : String → Except LoadsError (Json φ)} {fields : Fields φ}
    {text : String} (h : loads text = .ok (.obj fields)) :
    ∀ payload ∈ carriers fields text,
      normalizeCompletionPayload loads payload = .ok (normalizeFields fields) := by
  intro payload hpayload
  simp only [carriers, List.mem_cons, List.not_mem_nil, or_false] at hpayload
  rcases hpayload with rfl | rfl | rfl
  · rfl
  · simp only [normalizeCompletionPayload, bind, Except.bind, h]
  · simp only [normalizeCompletionPayload, decodeUtf8_toByteArray, bind, Except.bind, h]

end SpellingLemmas

open SpellingLemmas

/-! ## 4. Validation of a spelling -/

/-- Every spelling of a completion, by every carrier, is validated as the canonical
object is, to the same message. Normalisation keeps the fields that are there, and
applying it twice is applying it once. -/
theorem completion_spelling {loads : String → Except LoadsError (Json φ)}
    {renamed : List String} {extra canonical spelled : Fields φ}
    (hspells : Spells renamed extra canonical spelled) {text : String}
    (hloads : loads text = .ok (.obj spelled)) :
    normalizeCompletionPayload loads (.value (.obj canonical)) = .ok canonical ∧
      (∀ payload ∈ carriers spelled text, ∃ fields,
        normalizeCompletionPayload loads payload = .ok fields ∧
        validateRunResultMessage fields = validateRunResultMessage canonical ∧
        validateFinishRunRequest fields = validateFinishRunRequest canonical) ∧
      (∀ (fields : Fields φ) (name : String) (v : Json φ),
        Dict.get? fields name = some v → Dict.get? (normalizeFields fields) name = some v) ∧
      ∀ fields : Fields φ, normalizeFields (normalizeFields fields) = normalizeFields fields := by
  have hsame : ∀ name ∈ canonicalNames, Dict.get? (normalizeFields spelled) name =
      Dict.get? canonical name := fun name hname => get?_normalizeFields hspells hname
  refine ⟨?_, ?_, fun fields name v hv => get?_normalized hv, normalizeFields_idempotent⟩
  · exact congrArg Except.ok (normalizeFields_canonical hspells.canonical_names)
  · intro payload hpayload
    exact ⟨_, normalize_carriers hloads payload hpayload, validateRunResultMessage_congr hsame,
      validateFinishRunRequest_congr hsame⟩

namespace Sample

/-- The object of `aliasedBody`. -/
def aliasedObject : Fields String :=
  [("runId", .str "c055d77e-9f11-5874-aa97-192185e2def4"), ("status", .str "Succeeded"),
    ("durationMs", .int 1200), ("tokensPrompt", .int 310), ("tokensCompletion", .int 88),
    ("correlationId", .str "corr-1")]

/-- The same with the canonical names. -/
def canonicalObject : Fields String :=
  [("run_id", .str "c055d77e-9f11-5874-aa97-192185e2def4"), ("status", .str "Succeeded"),
    ("duration_ms", .int 1200), ("tokens_prompt", .int 310), ("tokens_completion", .int 88),
    ("correlation_id", .str "corr-1")]

set_option maxRecDepth 4000 in
theorem loads_aliasedBody : loads aliasedBody = .ok (.obj aliasedObject) := by
  obtain ⟨cs, hcs, hparse⟩ : ∃ cs, aliasedBody.toList = cs ∧
      Json.loadsChars (some (Char.ofNat 0xfffd)) id cs = .ok (.obj aliasedObject) := by
    apply Exists.intro
    refine And.intro ?_ ?_
    · unfold aliasedBody
      simp only [String.toList_append]
      rewrite [String.toList_ofList, String.toList_ofList, String.toList_ofList]
      rfl
    · rfl
  exact (Json.loads_of_toList id hcs).trans hparse

theorem spells_aliasedObject :
    Spells ["run_id", "duration_ms", "tokens_prompt", "tokens_completion", "correlation_id"] []
      canonicalObject aliasedObject where
  canonical_nodup := by decide
  canonical_names := by decide
  extra_names key hkey := by cases hkey
  spelled_nodup := by decide
  perm := .of_eq rfl

end Sample

/-- The body in camel case. -/
theorem completion_spelling_sample :
    ∃ fields,
      normalizeCompletionPayload Sample.loads (.bytes Sample.aliasedBody.toByteArray) = .ok fields ∧
      validateRunResultMessage fields = validateRunResultMessage Sample.canonicalObject ∧
      validateFinishRunRequest fields = validateFinishRunRequest Sample.canonicalObject :=
  (completion_spelling Sample.spells_aliasedObject Sample.loads_aliasedBody).2.1 _
    (by simp [carriers])

end TalentMatch
