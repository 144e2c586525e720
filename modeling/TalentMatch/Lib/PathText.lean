import TalentMatch.Lib.Text

/-!
# Positions written as texts

A position in nested objects and arrays is a list of steps. `spell` writes it the usual
way, `a.b[0]`. It escapes nothing, so that two positions can have one text.

* `spell_eq_iff`: two positions have the same text exactly when they are `Confusable`:
  after their leading empty keys they are the same, or they part at a key and a longer
  one, whose end is the text of steps below the first.
* `not_confusable_of_plain`: positions whose keys have no separator are not.
-/

namespace PathText

/-! ## 1. Texts of positions -/

/-- One step down, into an object or an array. -/
inductive Step where
  | key (name : String)
  | index (i : Nat)
  deriving DecidableEq

/-- The text of a path with one more step. -/
def extend (path : String) : Step → String
  | .key name => if path = "" then name else path ++ "." ++ name
  | .index i => path ++ "[" ++ toString i ++ "]"

def spell (position : List Step) : String := position.foldl extend ""

/-- What a step adds to a path that is not empty. -/
def Step.text : Step → String
  | .key name => "." ++ name
  | .index i => "[" ++ toString i ++ "]"

/-- What steps add to a path that is not empty. -/
def below : List Step → String
  | [] => ""
  | s :: rest => s.text ++ below rest

/-- A position without its leading empty keys. -/
def strip (position : List Step) : List Step := position.dropWhile fun s => s == .key ""

/-! ## 2. Confusable positions -/

/-- After the same steps, the second position has a longer key than the first, and what
the key has more is written by steps of the first. -/
inductive KeysConfused : List Step → List Step → Prop
  | key {k u : String} {rest rest' : List Step} : u ≠ "" → below rest = u ++ below rest' →
      KeysConfused (.key k :: rest) (.key (k ++ u) :: rest')
  | step {s : Step} {rest rest' : List Step} : KeysConfused rest rest' →
      KeysConfused (s :: rest) (s :: rest')

/-- The same steps, or one has a key confused with steps of the other. -/
def KeysConfusable (position position' : List Step) : Prop :=
  position = position' ∨ KeysConfused position position' ∨ KeysConfused position' position

/-- The same, or the second begins with a key that begins as the index of the first. -/
inductive Confused : List Step → List Step → Prop
  | keys {position position' : List Step} : KeysConfused position position' →
      Confused position position'
  | start {i : Nat} {u : String} {rest rest' : List Step} : below rest = u ++ below rest' →
      Confused (.index i :: rest) (.key ((Step.index i).text ++ u) :: rest')

/-- Two positions that have the same text. -/
def Confusable (position position' : List Step) : Prop :=
  strip position = strip position' ∨ Confused (strip position) (strip position') ∨
    Confused (strip position') (strip position)

/-- A key without a separator. -/
def PlainKey (name : String) : Prop := '.' ∉ name.toList ∧ '[' ∉ name.toList

/-- All keys are plain, and the first step is not the empty key. -/
def Plain (position : List Step) : Prop :=
  (∀ name, .key name ∈ position → PlainKey name) ∧ position.head? ≠ some (.key "")

/-! ## 3. The text below a path -/

theorem extend_eq {path : String} (h : path ≠ "") (s : Step) : extend path s = path ++ s.text := by
  cases s with
  | key name => rw [extend, if_neg h, Step.text, String.append_assoc]
  | index i => simp only [extend, Step.text, String.append_assoc]

theorem text_ne_empty (s : Step) : s.text ≠ "" := by
  intro h
  have hlist := congrArg String.toList h
  cases s with
  | key name => simp [Step.text] at hlist
  | index i => simp [Step.text] at hlist

theorem append_ne_empty {a : String} (h : a ≠ "") (b : String) : a ++ b ≠ "" := by
  intro heq
  have hlist := congrArg String.toList heq
  rw [String.toList_append] at hlist
  exact h (String.toList_inj.mp (List.append_eq_nil_iff.mp hlist).1)

theorem foldl_extend {path : String} (h : path ≠ "") (rest : List Step) :
    rest.foldl extend path = path ++ below rest := by
  induction rest generalizing path with
  | nil => simp [below]
  | cons s rest ih =>
    rw [List.foldl_cons, extend_eq h, ih (append_ne_empty h _), below, String.append_assoc]

theorem spell_strip (position : List Step) : spell (strip position) = spell position := by
  induction position with
  | nil => rfl
  | cons s position ih =>
    rw [strip, List.dropWhile_cons]
    split
    · next hs =>
      rw [beq_iff_eq.mp hs]
      exact ih
    · rfl

@[simp] theorem extend_empty_key (name : String) : extend "" (.key name) = name := by
  rw [extend, if_pos rfl]

@[simp] theorem extend_empty_index (i : Nat) : extend "" (.index i) = (Step.index i).text := by
  rw [extend, Step.text, String.empty_append]

theorem extend_empty_ne {s : Step} (h : s ≠ .key "") : extend "" s ≠ "" := by
  cases s with
  | key name =>
    rw [extend_empty_key]
    rintro rfl
    exact h rfl
  | index i =>
    rw [extend_empty_index]
    exact text_ne_empty _

theorem spell_cons {s : Step} (h : s ≠ .key "") (rest : List Step) :
    spell (s :: rest) = extend "" s ++ below rest := by
  show rest.foldl extend (extend "" s) = _
  rw [foldl_extend (extend_empty_ne h)]

theorem spell_ne_empty {s : Step} (h : s ≠ .key "") (rest : List Step) : spell (s :: rest) ≠ "" := by
  rw [spell_cons h]
  exact append_ne_empty (extend_empty_ne h) _

/-- A position without leading empty keys does not begin with one. -/
theorem strip_cases (position : List Step) :
    strip position = [] ∨ ∃ s rest, s ≠ .key "" ∧ strip position = s :: rest := by
  induction position with
  | nil => exact .inl rfl
  | cons s position ih =>
    rw [strip, List.dropWhile_cons]
    split
    · exact ih
    · next hs => exact .inr ⟨s, position, fun h => hs (beq_iff_eq.mpr h), rfl⟩

/-- The text of steps is empty, or begins with a separator. -/
theorem below_cases (rest : List Step) :
    below rest = "" ∨ ∃ c cs, (c = '.' ∨ c = '[') ∧ (below rest).toList = c :: cs := by
  cases rest with
  | nil => exact .inl rfl
  | cons s rest =>
    right
    rw [below, String.toList_append]
    cases s with
    | key name => exact ⟨'.', _, .inl rfl, by rw [Step.text, String.toList_append]; rfl⟩
    | index i =>
      exact ⟨'[', _, .inr rfl, by rw [Step.text, String.toList_append, String.toList_append]; rfl⟩

/-- Two ways to cut one text. -/
theorem append_eq_append_cases {a b c d : String} (h : a ++ b = c ++ d) :
    (∃ u, c = a ++ u ∧ b = u ++ d) ∨ ∃ u, a = c ++ u ∧ d = u ++ b := by
  have hlist : a.toList ++ b.toList = c.toList ++ d.toList := by
    simpa using congrArg String.toList h
  rcases List.append_eq_append_iff.mp hlist with ⟨u, h1, h2⟩ | ⟨u, h1, h2⟩
  · exact .inl ⟨String.ofList u, String.toList_inj.mp (by simp [h1]),
      String.toList_inj.mp (by simp [h2])⟩
  · exact .inr ⟨String.ofList u, String.toList_inj.mp (by simp [h1]),
      String.toList_inj.mp (by simp [h2])⟩

theorem append_left_cancel {a b c : String} (h : a ++ b = a ++ c) : b = c := by
  have hlist : a.toList ++ b.toList = a.toList ++ c.toList := by
    simpa using congrArg String.toList h
  exact String.toList_inj.mp (List.append_cancel_left hlist)

/-- An index ends at its bracket. -/
theorem index_text_append {i j : Nat} {b b' : String}
    (h : (Step.index i).text ++ b = (Step.index j).text ++ b') : i = j ∧ b = b' := by
  have hlist : (toString i).toList ++ ']' :: b.toList = (toString j).toList ++ ']' :: b'.toList := by
    simpa [Step.text] using congrArg String.toList h
  obtain ⟨hd, hb⟩ := PyText.split_first (PyText.not_mem_decimal (by decide) i)
    (PyText.not_mem_decimal (by decide) j) hlist
  exact ⟨PyText.decimal_injective (String.toList_inj.mp hd), String.toList_inj.mp hb⟩

/-! ## 4. When two texts agree -/

theorem below_of_keysConfused {rest rest' : List Step} (h : KeysConfused rest rest') :
    below rest = below rest' := by
  induction h with
  | key _ h => rw [below, below, Step.text, Step.text, h, String.append_assoc, String.append_assoc,
      String.append_assoc]
  | step _ ih => rw [below, below, ih]

theorem KeysConfusable.cons {rest rest' : List Step} (h : KeysConfusable rest rest') (s : Step) :
    KeysConfusable (s :: rest) (s :: rest') := by
  rcases h with rfl | h | h
  · exact .inl rfl
  · exact .inr (.inl (.step h))
  · exact .inr (.inr (.step h))

/-- Two keys followed by the same text: one begins with the other. -/
theorem keysConfusable_of_keys {k k' : String} {rest rest' : List Step}
    (hrest : below rest = below rest' → KeysConfusable rest rest')
    (h : k ++ below rest = k' ++ below rest') :
    KeysConfusable (.key k :: rest) (.key k' :: rest') := by
  rcases append_eq_append_cases h with ⟨u, rfl, hu⟩ | ⟨u, rfl, hu⟩
  · by_cases hne : u = ""
    · subst hne
      rw [String.append_empty]
      exact (hrest (by rw [hu, String.empty_append])).cons _
    · exact .inr (.inl (.key hne hu))
  · by_cases hne : u = ""
    · subst hne
      rw [String.append_empty]
      exact (hrest (by rw [hu, String.empty_append])).cons _
    · exact .inr (.inr (.key hne hu))

theorem below_eq_iff {rest rest' : List Step} :
    below rest = below rest' ↔ KeysConfusable rest rest' := by
  constructor
  · intro h
    induction rest generalizing rest' with
    | nil =>
      cases rest' with
      | nil => exact .inl rfl
      | cons s rest' => exact absurd h.symm (append_ne_empty (text_ne_empty s) _)
    | cons s rest ih =>
      cases rest' with
      | nil => exact absurd h (append_ne_empty (text_ne_empty s) _)
      | cons s' rest' =>
        cases s with
        | key k =>
          cases s' with
          | key k' =>
            rw [below, below, Step.text, Step.text, String.append_assoc, String.append_assoc] at h
            exact keysConfusable_of_keys ih (append_left_cancel h)
          | index i =>
            -- one begins with a dot, the other with a bracket
            have hlist := congrArg String.toList h
            simp [below, Step.text] at hlist
        | index i =>
          cases s' with
          | key k' =>
            have hlist := congrArg String.toList h
            simp [below, Step.text] at hlist
          | index j =>
            obtain ⟨rfl, hrest⟩ := index_text_append h
            exact (ih hrest).cons _
  · rintro (rfl | h | h)
    · rfl
    · exact below_of_keysConfused h
    · exact (below_of_keysConfused h).symm

/-- What the texts of steps begin with has a separator. -/
theorem separator_mem {rest : List Step} {u b : String} (hu : u ≠ "") (h : below rest = u ++ b) :
    ∃ c ∈ u.toList, c = '.' ∨ c = '[' := by
  rcases below_cases rest with hempty | ⟨c, cs, hc, hrest⟩
  · exact absurd (h.symm.trans hempty) (append_ne_empty hu _)
  · cases hlist : u.toList with
    | nil => exact absurd (String.toList_inj.mp hlist) hu
    | cons d ds =>
      have htext := congrArg String.toList h
      rw [hrest, String.toList_append, hlist] at htext
      obtain ⟨rfl, -⟩ := List.cons.inj htext
      exact ⟨c, List.mem_cons_self, hc⟩

/-- A text that begins with an index does not cut it: it has a separator at the start
only. -/
theorem index_prefix {i : Nat} {k : String} (hk : k ≠ "") {rest rest' : List Step}
    (h : (Step.index i).text ++ below rest = k ++ below rest') :
    ∃ u, k = (Step.index i).text ++ u ∧ below rest = u ++ below rest' := by
  rcases append_eq_append_cases h with hcut | ⟨u, hu, hbelow⟩
  · exact hcut
  · by_cases hne : u = ""
    · subst hne
      refine ⟨"", ?_, ?_⟩
      · rw [String.append_empty, hu, String.append_empty]
      · rw [String.empty_append, hbelow, String.empty_append]
    · obtain ⟨c, hmem, hc⟩ := separator_mem hne hbelow
      have htext : '[' :: ((toString i).toList ++ [']']) = k.toList ++ u.toList := by
        rw [← String.toList_append, ← hu]
        simp [Step.text]
      cases hlist : k.toList with
      | nil => exact absurd (String.toList_inj.mp hlist) hk
      | cons d ds =>
        rw [hlist] at htext
        have hin : c ∈ (toString i).toList ++ [']'] := by
          rw [(List.cons.inj htext).2]
          exact List.mem_append_right _ hmem
        have hdigit : c.isDigit = false ∧ c ≠ ']' := by
          rcases hc with rfl | rfl
          · exact ⟨by decide, by decide⟩
          · exact ⟨by decide, by decide⟩
        rcases List.mem_append.mp hin with hi | hlast
        · exact absurd hi (PyText.not_mem_decimal hdigit.1 i)
        · exact absurd (List.mem_singleton.mp hlast) hdigit.2

theorem spell_of_confused {position position' : List Step}
    (h : Confused (strip position) (strip position')) : spell position = spell position' := by
  rw [← spell_strip position, ← spell_strip position']
  generalize hs : strip position = σ at h
  generalize hs' : strip position' = σ' at h
  have hfirst : ∀ {position s rest}, strip position = s :: rest → s ≠ .key "" := by
    intro position s rest heq
    rcases strip_cases position with hnil | ⟨s', rest', hne, hcons⟩
    · cases hnil.symm.trans heq
    · cases hcons.symm.trans heq
      exact hne
  cases h with
  | keys h =>
    cases h with
    | key _ hbelow =>
      rw [spell_cons (hfirst hs), spell_cons (hfirst hs'), extend_empty_key, extend_empty_key,
        hbelow, String.append_assoc]
    | step hrest => rw [spell_cons (hfirst hs), spell_cons (hfirst hs), below_of_keysConfused hrest]
  | start hbelow =>
    rw [spell_cons (hfirst hs), spell_cons (hfirst hs'), extend_empty_key, extend_empty_index,
      hbelow, String.append_assoc]

theorem KeysConfusable.confused {position position' : List Step}
    (h : KeysConfusable position position') :
    position = position' ∨ Confused position position' ∨ Confused position' position := by
  rcases h with h | h | h
  · exact .inl h
  · exact .inr (.inl (.keys h))
  · exact .inr (.inr (.keys h))

/-- Positions that do not begin with an empty key. -/
theorem confused_of_spell {s s' : Step} {rest rest' : List Step} (hs : s ≠ .key "")
    (hs' : s' ≠ .key "") (h : spell (s :: rest) = spell (s' :: rest')) :
    s :: rest = s' :: rest' ∨ Confused (s :: rest) (s' :: rest') ∨
      Confused (s' :: rest') (s :: rest) := by
  rw [spell_cons hs, spell_cons hs'] at h
  cases s with
  | key k =>
    cases s' with
    | key k' =>
      rw [extend_empty_key, extend_empty_key] at h
      exact (keysConfusable_of_keys below_eq_iff.mp h).confused
    | index j =>
      rw [extend_empty_key, extend_empty_index] at h
      obtain ⟨u, rfl, hu⟩ := index_prefix (fun hk => hs (by rw [hk])) h.symm
      exact .inr (.inr (.start hu))
  | index i =>
    cases s' with
    | key k' =>
      rw [extend_empty_key, extend_empty_index] at h
      obtain ⟨u, rfl, hu⟩ := index_prefix (fun hk => hs' (by rw [hk])) h
      exact .inr (.inl (.start hu))
    | index j =>
      rw [extend_empty_index, extend_empty_index] at h
      obtain ⟨rfl, hrest⟩ := index_text_append h
      exact ((below_eq_iff.mp hrest).cons _).confused

/-- Two positions have the same text exactly when they are confusable. -/
theorem spell_eq_iff {position position' : List Step} :
    spell position = spell position' ↔ Confusable position position' := by
  constructor
  · intro h
    rw [← spell_strip position, ← spell_strip position'] at h
    unfold Confusable
    rcases strip_cases position with hnil | ⟨s, rest, hs, hcons⟩
    · rcases strip_cases position' with hnil' | ⟨s', rest', hs', hcons'⟩
      · exact .inl (by rw [hnil, hnil'])
      · rw [hnil, hcons'] at h
        exact absurd h.symm (spell_ne_empty hs' rest')
    · rcases strip_cases position' with hnil' | ⟨s', rest', hs', hcons'⟩
      · rw [hcons, hnil'] at h
        exact absurd h (spell_ne_empty hs rest)
      · rw [hcons, hcons'] at h ⊢
        exact confused_of_spell hs hs' h
  · rintro (h | h | h)
    · rw [← spell_strip position, h, spell_strip]
    · exact spell_of_confused h
    · exact (spell_of_confused h).symm

/-! ## 5. Plain positions -/

theorem not_keysConfused_of_plain {position position' : List Step} (h : KeysConfused position position')
    (hplain : ∀ name, .key name ∈ position' → PlainKey name) : False := by
  induction h with
  | @key k u rest rest' hu hbelow =>
    obtain ⟨c, hmem, hc⟩ := separator_mem hu hbelow
    have hkey := hplain (k ++ u) List.mem_cons_self
    rw [PlainKey, String.toList_append] at hkey
    rcases hc with rfl | rfl
    · exact hkey.1 (List.mem_append_right _ hmem)
    · exact hkey.2 (List.mem_append_right _ hmem)
  | step _ ih => exact ih fun name hname => hplain name (List.mem_cons_of_mem _ hname)

theorem not_confused_of_plain {position position' : List Step} (h : Confused position position')
    (hplain : ∀ name, .key name ∈ position' → PlainKey name) : False := by
  cases h with
  | keys h => exact not_keysConfused_of_plain h hplain
  | @start i u rest rest' _ =>
    refine (hplain _ List.mem_cons_self).2 ?_
    simp [Step.text]

theorem strip_of_plain {position : List Step} (h : Plain position) : strip position = position := by
  cases position with
  | nil => rfl
  | cons s rest =>
    rw [strip, List.dropWhile_cons_of_neg]
    intro hs
    exact h.2 (by rw [List.head?_cons, beq_iff_eq.mp hs])

/-- Plain positions have different texts. -/
theorem not_confusable_of_plain {position position' : List Step} (h : Plain position)
    (h' : Plain position') (hne : position ≠ position') : ¬ Confusable position position' := by
  unfold Confusable
  rw [strip_of_plain h, strip_of_plain h']
  rintro (heq | hc | hc)
  · exact hne heq
  · exact not_confused_of_plain hc h'.1
  · exact not_confused_of_plain hc h.1

end PathText
