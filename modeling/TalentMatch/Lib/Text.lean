import Mathlib.Data.List.Basic
import Mathlib.Data.Nat.Digits.Defs

/-!
# Text in the Python runtime

The string methods that programs use to normalise free text, and the fact that
makes `"{a}:{b}:{n}"` a usable key.

* `strip` and `lower` are `str.strip()` and `str.lower()`. `lower` maps the
  ASCII letters. No other character has an ASCII lower case, except the Kelvin
  sign (`k`), so a comparison with an ASCII word without `k` reads the same.
* `key_injective`: a text joined from a part without the separator, an
  arbitrary part and a decimal number determines the three parts.
* `split_eq_iff`: what `str.split` returns.
-/

namespace PyText

/-! ## 1. Stripping and lower case -/

/-- The characters that `str.strip()` removes from both ends. -/
def isSpace (c : Char) : Bool :=
  let n := c.toNat
  (0x09 ≤ n && n ≤ 0x0d) || (0x1c ≤ n && n ≤ 0x20) || n == 0x85 || n == 0xa0 || n == 0x1680 ||
    (0x2000 ≤ n && n ≤ 0x200a) || n == 0x2028 || n == 0x2029 || n == 0x202f || n == 0x205f ||
    n == 0x3000

/-- `text.strip()`. -/
def strip (text : String) : String :=
  String.ofList (((text.toList.dropWhile isSpace).reverse.dropWhile isSpace).reverse)

/-- `text.lower()`. -/
def lower (text : String) : String :=
  String.ofList (text.toList.map Char.toLower)

theorem lower_toList (text : String) : (lower text).toList = text.toList.map Char.toLower := by
  simp [lower]

theorem isSpace_of_letter {c : Char} (h : 65 ≤ c.toNat) (h' : c.toNat ≤ 122) :
    isSpace c = false := by
  simp [isSpace]
  omega

/-- Lower case neither makes nor removes white space. -/
theorem isSpace_toLower (c : Char) : isSpace c.toLower = isSpace c := by
  unfold Char.toLower
  split
  · next h =>
    have h1 : 65 ≤ c.toNat := h.1
    have h2 : c.toNat ≤ 90 := h.2
    have hn : (c.val + ('a'.val - 'A'.val)).toNat = c.toNat + 32 := by
      rw [UInt32.toNat_add, show c.val.toNat = c.toNat from rfl,
        show ('a'.val - 'A'.val).toNat = 32 from rfl]
      omega
    rw [isSpace_of_letter h1 (by omega)]
    exact isSpace_of_letter (by rw [Char.toNat_mk]; omega) (by rw [Char.toNat_mk]; omega)
  · rfl

/-- A text without white space is left as it is by `strip`. -/
theorem strip_of_forall {text : String} (h : ∀ c ∈ text.toList, isSpace c = false) :
    strip text = text := by
  have hid : ∀ l : List Char, (∀ c ∈ l, isSpace c = false) → l.dropWhile isSpace = l := by
    intro l hl
    cases l with
    | nil => rfl
    | cons c l => exact List.dropWhile_cons_of_neg (by simp [hl c (by simp)])
  have h1 := hid _ h
  have h2 := hid text.toList.reverse (fun c hc => h c (List.mem_reverse.mp hc))
  simp [strip, h1, h2]

/-- So is a text whose lower case has no white space. -/
theorem strip_of_lower {text : String} (h : ∀ c ∈ (lower text).toList, isSpace c = false) :
    strip text = text := by
  refine strip_of_forall fun c hc => ?_
  rw [← isSpace_toLower]
  exact h _ (by rw [lower_toList]; exact List.mem_map_of_mem hc)

/-! ## 2. Keys joined with a separator -/

/-- A part without the separator ends at the first separator. -/
theorem split_first {sep : Char} {a a' b b' : List Char} (ha : sep ∉ a) (ha' : sep ∉ a')
    (h : a ++ sep :: b = a' ++ sep :: b') : a = a' ∧ b = b' := by
  induction a generalizing a' with
  | nil =>
    cases a' with
    | nil => exact ⟨rfl, by simpa using h⟩
    | cons c a' =>
      simp only [List.nil_append, List.cons_append, List.cons.injEq] at h
      exact absurd (by simp [h.1]) ha'
  | cons c a ih =>
    cases a' with
    | nil =>
      simp only [List.nil_append, List.cons_append, List.cons.injEq] at h
      exact absurd (by simp [h.1]) ha
    | cons c' a' =>
      simp only [List.cons_append, List.cons.injEq] at h
      obtain ⟨rfl, h⟩ := h
      obtain ⟨rfl, rfl⟩ := ih (fun hm => ha (by simp [hm])) (fun hm => ha' (by simp [hm])) h
      exact ⟨rfl, rfl⟩

/-- A part without the separator starts after the last separator. -/
theorem split_last {sep : Char} {a a' b b' : List Char} (hb : sep ∉ b) (hb' : sep ∉ b')
    (h : a ++ sep :: b = a' ++ sep :: b') : a = a' ∧ b = b' := by
  have hr : b.reverse ++ sep :: a.reverse = b'.reverse ++ sep :: a'.reverse := by
    simpa using congrArg List.reverse h
  obtain ⟨h1, h2⟩ := split_first (by simpa using hb) (by simpa using hb') hr
  exact ⟨List.reverse_injective h2, List.reverse_injective h1⟩

/-- A decimal number has digits only. -/
theorem not_mem_decimal {c : Char} (hc : c.isDigit = false) (n : Nat) : c ∉ (toString n).toList := by
  intro h
  rw [Nat.toString_eq_ofList_toDigits, String.toList_ofList] at h
  have hdigit := Nat.isDigit_of_mem_toDigits (by decide) (by decide) h
  rw [hc] at hdigit
  cases hdigit

theorem decimal_injective {m n : Nat} (h : toString m = toString n) : m = n := by
  rw [Nat.toString_eq_ofList_toDigits, Nat.toString_eq_ofList_toDigits] at h
  have hd : Nat.toDigits 10 m = Nat.toDigits 10 n := by
    simpa using congrArg String.toList h
  rw [← Nat.ofDigitChars_ten_toDigits (n := m), hd, Nat.ofDigitChars_ten_toDigits]

/-- `"{a}:{b}:{n}"` determines `a`, `b` and `n` when `a` has no colon. The
middle part is arbitrary: the first colon ends `a` and the last one starts `n`. -/
theorem key_injective {a a' b b' : String} {n n' : Nat} (ha : ':' ∉ a.toList) (ha' : ':' ∉ a'.toList)
    (h : a ++ ":" ++ b ++ ":" ++ toString n = a' ++ ":" ++ b' ++ ":" ++ toString n') :
    a = a' ∧ b = b' ∧ n = n' := by
  have hl : a.toList ++ ':' :: (b.toList ++ ':' :: (toString n).toList) =
      a'.toList ++ ':' :: (b'.toList ++ ':' :: (toString n').toList) := by
    simpa using congrArg String.toList h
  obtain ⟨h1, h2⟩ := split_first ha ha' hl
  obtain ⟨h3, h4⟩ := split_last (not_mem_decimal (by decide) n) (not_mem_decimal (by decide) n') h2
  exact ⟨String.toList_inj.mp h1, String.toList_inj.mp h3,
    decimal_injective (String.toList_inj.mp h4)⟩

/-- With `a` fixed, `"{a}:{b}:{n}"` determines `b` and `n` whatever `a` is. -/
theorem key_injective_of_prefix {a b b' : String} {n n' : Nat}
    (h : a ++ ":" ++ b ++ ":" ++ toString n = a ++ ":" ++ b' ++ ":" ++ toString n') :
    b = b' ∧ n = n' := by
  have hl : b.toList ++ ':' :: (toString n).toList = b'.toList ++ ':' :: (toString n').toList := by
    simpa using congrArg String.toList h
  obtain ⟨h1, h2⟩ := split_last (not_mem_decimal (by decide) n) (not_mem_decimal (by decide) n') hl
  exact ⟨String.toList_inj.mp h1, decimal_injective (String.toList_inj.mp h2)⟩

/-! ## 3. Splitting at a separator -/

/-- `text.split(sep)`, for one character. -/
def split (text : String) (sep : Char) : List String :=
  (text.toList.splitOn sep).map String.ofList

theorem not_mem_of_mem_splitOn {sep : Char} {text part : List Char}
    (h : part ∈ text.splitOn sep) : sep ∉ part := by
  induction text generalizing part with
  | nil =>
    rw [List.splitOn_nil, List.mem_singleton] at h
    simp [h]
  | cons c text ih =>
    rw [List.splitOn_cons_eq_if_modifyHead] at h
    split at h
    · rcases List.mem_cons.mp h with rfl | h
      · simp
      · exact ih h
    · next hc =>
      obtain ⟨first, rest, hsplit⟩ := List.exists_cons_of_ne_nil (List.splitOn_ne_nil sep text)
      rw [hsplit] at h ih
      rcases List.mem_cons.mp h with rfl | h
      · have hfirst := ih List.mem_cons_self
        intro hmem
        rcases List.mem_cons.mp hmem with rfl | hmem
        · exact hc BEq.rfl
        · exact hfirst hmem
      · exact ih (List.mem_cons_of_mem _ h)

/-- The parts of a text are those that the separator joins to it and that do not hold it. -/
theorem split_eq_iff {text : String} {sep : Char} {parts : List String} :
    split text sep = parts ↔
      parts ≠ [] ∧ [sep].intercalate (parts.map String.toList) = text.toList ∧
        ∀ part ∈ parts, sep ∉ part.toList := by
  have hback : ∀ l : List (List Char), (l.map String.ofList).map String.toList = l := by
    intro l
    rw [List.map_map]
    exact List.map_id'' (fun _ => String.toList_ofList) l
  constructor
  · rintro rfl
    refine ⟨by simp [split], ?_, ?_⟩
    · rw [split, hback]
      exact List.intercalate_splitOn sep
    · intro part hpart
      obtain ⟨chars, hchars, rfl⟩ := List.mem_map.mp hpart
      rw [String.toList_ofList]
      exact not_mem_of_mem_splitOn hchars
  · rintro ⟨hne, hjoin, hsep⟩
    have hsep' : ∀ chars ∈ parts.map String.toList, sep ∉ chars := by
      intro chars hchars
      obtain ⟨part, hpart, rfl⟩ := List.mem_map.mp hchars
      exact hsep part hpart
    rw [split, ← hjoin, List.splitOn_intercalate sep hsep' (by simpa using hne), List.map_map]
    exact List.map_id'' (fun _ => String.ofList_toList) parts

end PyText
