import Mathlib.Data.List.Induction
import Mathlib.Data.List.TakeWhile
import Mathlib.Algebra.Group.Defs
import TalentMatch.Lib.Text

/-!
# Hexadecimal integers in the Python runtime

`int(text, 16)` reads more than digits: white space at both ends, a sign, a `0x`
prefix, single underscores, and the decimal digits of other scripts. `f"{n:032x}"`
writes digits only.

* `int16_eq_some_iff`: the texts that `int(text, 16)` accepts are the literals of the
  grammar `Literal`, with its value.
* `literal_of_plain`: plain digits are literals, and their value is `value`.
* `formatHex_value`: written back in its own width, a plain text is the same up to
  letter case.
-/

namespace PyInt

/-! ## 1. Reading and writing -/

/-- The value of a hexadecimal digit. -/
def hexDigit (c : Char) : Option Nat :=
  if 48 ≤ c.toNat ∧ c.toNat ≤ 57 then some (c.toNat - 48)
  else if 97 ≤ c.toNat ∧ c.toNat ≤ 102 then some (c.toNat - 87)
  else if 65 ≤ c.toNat ∧ c.toNat ≤ 70 then some (c.toNat - 55)
  else none

/-- White space in ASCII, which an integer may have around it. -/
def isBlank (c : Char) : Bool := (9 ≤ c.toNat && c.toNat ≤ 13) || c == ' '

section Reading
variable (decimal : Char → Option (Fin 10))

/-- The ASCII character that stands for a character in a number. `decimal` gives the
decimal digits of Unicode. -/
def toAscii (c : Char) : Char :=
  if c.toNat < 127 then c
  else if PyText.isSpace c then ' '
  else
    match decimal c with
    | some d => Nat.digitChar d
    | none => '?'

/-- The text without its leading blanks, in ASCII. -/
def start (text : String) : List Char := (text.toList.map (toAscii decimal)).dropWhile isBlank

end Reading

def afterSign : List Char → List Char
  | '+' :: rest => rest
  | '-' :: rest => rest
  | text => text

/-- One underscore may follow the prefix. -/
def afterPrefix : List Char → List Char
  | '0' :: 'x' :: '_' :: rest => rest
  | '0' :: 'X' :: '_' :: rest => rest
  | '0' :: 'x' :: rest => rest
  | '0' :: 'X' :: rest => rest
  | text => text

/-- The digits of a number and the blanks after it. `ended` says that the character before was
a digit, so that an underscore may follow or the number end. -/
def readDigits : List Char → Bool → Nat → Option Nat
  | [], ended, n => if ended then some n else none
  | c :: rest, ended, n =>
    match hexDigit c with
    | some d => readDigits rest true (16 * n + d)
    | none =>
      if !ended then none
      else if c = '_' then readDigits rest false n
      else if (c :: rest).all isBlank then some n
      else none

/-- `int(text, 16)`, `none` where it raises `ValueError`. -/
def int16 (decimal : Char → Option (Fin 10)) (text : String) : Option Int :=
  (readDigits (afterPrefix (afterSign (start decimal text))) false 0).map fun n : Nat =>
    if (start decimal text).head? = some '-' then -(n : Int) else n

/-- `f"{i:0{width}x}"`. -/
def formatHex (width : Nat) : Int → List Char
  | .ofNat n => List.leftpad width '0' (Nat.toDigits 16 n)
  | .negSucc n => '-' :: List.leftpad (width - 1) '0' (Nat.toDigits 16 (n + 1))

/-! ## 2. The grammar -/

/-- Digits with single underscores between them, and the number they write. -/
inductive Digits : List Char → Nat → Prop
  | digit {c : Char} {d : Nat} : hexDigit c = some d → Digits [c] d
  | next {body : List Char} {n : Nat} {c : Char} {d : Nat} : Digits body n →
      hexDigit c = some d → Digits (body ++ [c]) (16 * n + d)
  | underscore {body : List Char} {n : Nat} {c : Char} {d : Nat} : Digits body n →
      hexDigit c = some d → Digits (body ++ ['_', c]) (16 * n + d)

def signs : List (List Char) := [[], ['+'], ['-']]

def prefixes : List (List Char) := [[], ['0', 'x'], ['0', 'X'], ['0', 'x', '_'], ['0', 'X', '_']]

/-- An integer literal and its value: blanks, a sign, a prefix, digits, blanks. -/
inductive Literal (decimal : Char → Option (Fin 10)) : String → Int → Prop
  | mk {text : String} {lead sign radix body trail : List Char} {n : Nat} :
      text.toList.map (toAscii decimal) = lead ++ (sign ++ (radix ++ (body ++ trail))) →
      (∀ c ∈ lead, isBlank c = true) → sign ∈ signs → radix ∈ prefixes → Digits body n →
      (∀ c ∈ trail, isBlank c = true) →
      Literal decimal text (if sign = ['-'] then -(n : Int) else n)

/-- Hexadecimal digits, as many as `width`. -/
def Plain (width : Nat) (text : List Char) : Prop :=
  text.length = width ∧ ∀ c ∈ text, hexDigit c ≠ none

/-- The number that plain digits write. -/
def value (text : List Char) : Nat := text.foldl (fun n c => 16 * n + (hexDigit c).getD 0) 0

/-! ## 3. Digits -/

/-- The digits with their values. -/
def digitTable : List (Char × Nat) :=
  "0123456789abcdef".toList.zipIdx ++ "ABCDEF".toList.zipIdx 10

/-- A character above ASCII is no digit. -/
theorem toNat_lt_of_hexDigit {c : Char} {d : Nat} (h : hexDigit c = some d) : c.toNat < 128 := by
  simp only [hexDigit] at h
  split at h
  · omega
  · split at h
    · omega
    · split at h
      · omega
      · cases h

theorem mem_digitTable {c : Char} {d : Nat} (h : hexDigit c = some d) : (c, d) ∈ digitTable := by
  have htable : ∀ k < 128, ∀ d ∈ hexDigit (Char.ofNat k), (Char.ofNat k, d) ∈ digitTable := by
    decide
  have hmem := htable c.toNat (toNat_lt_of_hexDigit h) d
  rw [Char.ofNat_toNat] at hmem
  exact hmem h

/-- What is so of every entry of the table is so of the digits. -/
theorem of_digitTable {P : Char → Nat → Prop} (h : ∀ p ∈ digitTable, P p.1 p.2) {c : Char} {d : Nat}
    (hd : hexDigit c = some d) : P c d :=
  h (c, d) (mem_digitTable hd)

/-- A digit is written in lower case. -/
theorem digitChar_of_hexDigit {c : Char} {d : Nat} (h : hexDigit c = some d) :
    Nat.digitChar d = c.toLower :=
  of_digitTable (P := fun c d => Nat.digitChar d = c.toLower) (by decide) h

theorem digit_lt {c : Char} {d : Nat} (h : hexDigit c = some d) : d < 16 :=
  of_digitTable (P := fun _ d => d < 16) (by decide) h

theorem not_isBlank_of_hexDigit {c : Char} {d : Nat} (h : hexDigit c = some d) :
    isBlank c = false :=
  of_digitTable (P := fun c _ => isBlank c = false) (by decide) h

theorem hexDigit_of_isBlank {c : Char} (h : isBlank c = true) : hexDigit c = none := by
  cases hd : hexDigit c with
  | none => rfl
  | some d =>
    rw [not_isBlank_of_hexDigit hd] at h
    cases h

/-- A number begins with a digit. -/
theorem Digits.exists_cons {body : List Char} {n : Nat} (h : Digits body n) :
    ∃ c rest, body = c :: rest ∧ hexDigit c ≠ none := by
  induction h with
  | @digit c d hd => exact ⟨c, [], rfl, by simp [hd]⟩
  | @next body n c d _ _ ih =>
    obtain ⟨c₀, rest, rfl, h₀⟩ := ih
    exact ⟨c₀, rest ++ [c], rfl, h₀⟩
  | @underscore body n c d _ _ ih =>
    obtain ⟨c₀, rest, rfl, h₀⟩ := ih
    exact ⟨c₀, rest ++ ['_', c], rfl, h₀⟩

/-- It holds digits and underscores only. -/
theorem Digits.forall_mem {body : List Char} {n : Nat} (h : Digits body n) :
    ∀ c ∈ body, hexDigit c ≠ none ∨ c = '_' := by
  induction h with
  | digit hd => simp [hd]
  | next _ hd ih => exact List.forall_mem_append.mpr ⟨ih, by simp [hd]⟩
  | underscore _ hd ih => exact List.forall_mem_append.mpr ⟨ih, by simp [hd]⟩

/-! ## 4. The reader accepts the grammar -/

theorem readDigits_digit {c : Char} {d : Nat} (h : hexDigit c = some d) (rest : List Char)
    (ended : Bool) (n : Nat) :
    readDigits (c :: rest) ended n = readDigits rest true (16 * n + d) := by
  simp only [readDigits, h]

theorem readDigits_underscore (rest : List Char) (n : Nat) :
    readDigits ('_' :: rest) true n = readDigits rest false n := by
  have hnone : hexDigit '_' = none := by decide
  simp [readDigits, hnone]

/-- Blanks end a number. -/
theorem readDigits_trail {trail : List Char} (h : ∀ c ∈ trail, isBlank c = true) (n : Nat) :
    readDigits trail true n = some n := by
  cases trail with
  | nil => rfl
  | cons c rest =>
    have hc := h c List.mem_cons_self
    have hunder : c ≠ '_' := by
      rintro rfl
      exact absurd hc (by decide)
    have hall : (c :: rest).all isBlank = true := List.all_eq_true.mpr h
    simp only [readDigits, hexDigit_of_isBlank hc, Bool.not_true, Bool.false_eq_true, if_false,
      if_neg hunder, hall, if_true]

/-- The digits of a literal are read one by one. -/
theorem readDigits_body {body : List Char} {n : Nat} (h : Digits body n) (rest : List Char) :
    readDigits (body ++ rest) false 0 = readDigits rest true n := by
  induction h generalizing rest with
  | digit hd =>
    rw [List.singleton_append, readDigits_digit hd, Nat.mul_zero, Nat.zero_add]
  | @next body n c d _ hd ih =>
    rw [List.append_assoc, ih, List.singleton_append, readDigits_digit hd]
  | @underscore body n c d _ hd ih =>
    rw [List.append_assoc, ih, List.cons_append, readDigits_underscore, List.singleton_append,
      readDigits_digit hd]

/-- What was read so far: nothing, a literal, or a literal and an underscore. -/
inductive Reading : List Char → Bool → Nat → Prop
  | start : Reading [] false 0
  | ended {read : List Char} {n : Nat} : Digits read n → Reading read true n
  | underscore {read : List Char} {n : Nat} : Digits read n → Reading (read ++ ['_']) false n

theorem Reading.digit {read : List Char} {ended : Bool} {n : Nat} (h : Reading read ended n)
    {c : Char} {d : Nat} (hd : hexDigit c = some d) : Digits (read ++ [c]) (16 * n + d) := by
  cases h with
  | start =>
    rw [Nat.mul_zero, Nat.zero_add]
    exact .digit hd
  | ended h => exact .next h hd
  | @underscore read n h =>
    rw [List.append_assoc]
    exact .underscore h hd

/-- A number that was read is a literal and blanks. -/
theorem Reading.complete {rest read : List Char} {ended : Bool} {n m : Nat}
    (h : Reading read ended n) (hread : readDigits rest ended n = some m) :
    ∃ body trail, rest = body ++ trail ∧ (∀ c ∈ trail, isBlank c = true) ∧
      Digits (read ++ body) m := by
  induction rest generalizing read ended n with
  | nil =>
    cases h with
    | start => cases hread
    | ended h =>
      cases hread
      exact ⟨[], [], rfl, fun c hc => (List.not_mem_nil hc).elim, by rwa [List.append_nil]⟩
    | underscore h => cases hread
  | cons c rest ih =>
    cases hd : hexDigit c with
    | some d =>
      rw [readDigits_digit hd] at hread
      obtain ⟨body, trail, rfl, htrail, hbody⟩ := ih (.ended (h.digit hd)) hread
      exact ⟨c :: body, trail, rfl, htrail, by simpa using hbody⟩
    | none =>
      simp only [readDigits, hd] at hread
      cases h with
      | start => cases hread
      | underscore h => cases hread
      | ended h =>
        simp only [Bool.not_true, Bool.false_eq_true, if_false] at hread
        split at hread
        · next hc =>
          subst hc
          obtain ⟨body, trail, rfl, htrail, hbody⟩ := ih (.underscore h) hread
          exact ⟨'_' :: body, trail, rfl, htrail, by simpa using hbody⟩
        · split at hread
          · next hall =>
            cases hread
            exact ⟨[], c :: rest, rfl, List.all_eq_true.mp hall, by rwa [List.append_nil]⟩
          · cases hread

theorem readDigits_eq_some_iff {text : List Char} {n : Nat} :
    readDigits text false 0 = some n ↔
      ∃ body trail, text = body ++ trail ∧ (∀ c ∈ trail, isBlank c = true) ∧ Digits body n := by
  constructor
  · exact Reading.start.complete
  · rintro ⟨body, trail, rfl, htrail, hbody⟩
    rw [readDigits_body hbody, readDigits_trail htrail]

/-- A sign is cut off. -/
theorem afterSign_spec (text : List Char) :
    ∃ sign ∈ signs, text = sign ++ afterSign text ∧ (text.head? = some '-' ↔ sign = ['-']) := by
  unfold afterSign
  split
  · exact ⟨['+'], by decide, rfl, by simp⟩
  · exact ⟨['-'], by decide, rfl, by simp⟩
  · next hplus hminus =>
    refine ⟨[], by decide, rfl, fun h => ?_, by simp⟩
    obtain ⟨rest, rfl⟩ := List.head?_eq_some_iff.mp h
    exact absurd rfl (hminus rest)

theorem afterPrefix_spec (text : List Char) :
    ∃ radix ∈ prefixes, text = radix ++ afterPrefix text := by
  unfold afterPrefix
  split
  · exact ⟨['0', 'x', '_'], by decide, rfl⟩
  · exact ⟨['0', 'X', '_'], by decide, rfl⟩
  · exact ⟨['0', 'x'], by decide, rfl⟩
  · exact ⟨['0', 'X'], by decide, rfl⟩
  · exact ⟨[], by decide, rfl⟩

/-- Nothing is cut off a text that begins with a digit and is not `0x…`. -/
theorem afterPrefix_of_digit {c : Char} {rest : List Char}
    (hrest : ∀ x ∈ rest.head?, x ≠ 'x' ∧ x ≠ 'X') : afterPrefix (c :: rest) = c :: rest := by
  unfold afterPrefix
  split
  · next heq =>
    cases heq
    exact absurd rfl (hrest 'x' rfl).1
  · next heq =>
    cases heq
    exact absurd rfl (hrest 'X' rfl).2
  · next heq =>
    cases heq
    exact absurd rfl (hrest 'x' rfl).1
  · next heq =>
    cases heq
    exact absurd rfl (hrest 'X' rfl).2
  · rfl

/-- A prefix is cut off, and nothing of the number after it. -/
theorem afterPrefix_append {radix : List Char} (h : radix ∈ prefixes) {c : Char} {rest : List Char}
    (hc : c ≠ '_') (hrest : ∀ x ∈ rest.head?, x ≠ 'x' ∧ x ≠ 'X') :
    afterPrefix (radix ++ c :: rest) = c :: rest := by
  simp only [prefixes, List.mem_cons, List.not_mem_nil, or_false] at h
  rcases h with rfl | rfl | rfl | rfl | rfl
  · exact afterPrefix_of_digit hrest
  · show afterPrefix ('0' :: 'x' :: c :: rest) = c :: rest
    simp [afterPrefix, hc]
  · show afterPrefix ('0' :: 'X' :: c :: rest) = c :: rest
    simp [afterPrefix, hc]
  · rfl
  · rfl

/-- Neither a blank nor more than the sign is cut off a sign and a number. -/
theorem afterSign_append {sign : List Char} (h : sign ∈ signs) {c : Char} (rest : List Char)
    (hc : hexDigit c ≠ none) :
    (sign ++ c :: rest).dropWhile isBlank = sign ++ c :: rest ∧
      afterSign (sign ++ c :: rest) = c :: rest ∧
      ((sign ++ c :: rest).head? = some '-' ↔ sign = ['-']) := by
  simp only [signs, List.mem_cons, List.not_mem_nil, or_false] at h
  rcases h with rfl | rfl | rfl
  · obtain ⟨d, hd⟩ := Option.ne_none_iff_exists'.mp hc
    refine ⟨?_, ?_, ⟨fun hhead => ?_, fun hsign => by cases hsign⟩⟩
    · exact List.dropWhile_cons_of_neg (by simp [not_isBlank_of_hexDigit hd])
    · show afterSign (c :: rest) = c :: rest
      unfold afterSign
      split
      · next heq =>
        cases heq
        exact absurd (by decide) hc
      · next heq =>
        cases heq
        exact absurd (by decide) hc
      · rfl
    · cases hhead
      exact absurd (by decide) hc
  · exact ⟨rfl, rfl, by simp⟩
  · exact ⟨rfl, rfl, by simp⟩

/-- The number of a literal, with the blanks after it, begins with a digit, and neither a sign
nor a prefix is cut off it. -/
theorem Digits.head_cases {body trail : List Char} {n : Nat} (h : Digits body n)
    (htrail : ∀ c ∈ trail, isBlank c = true) :
    ∃ c rest, body ++ trail = c :: rest ∧ hexDigit c ≠ none ∧
      ∀ x ∈ rest.head?, x ≠ 'x' ∧ x ≠ 'X' := by
  have hall := h.forall_mem
  obtain ⟨c, rest, rfl, hc⟩ := h.exists_cons
  refine ⟨c, rest ++ trail, rfl, hc, fun x hx => ?_⟩
  have hmem : x ∈ rest ++ trail := List.mem_of_head? hx
  have hchar : (hexDigit x ≠ none ∨ x = '_') ∨ isBlank x = true := by
    rcases List.mem_append.mp hmem with hm | hm
    · exact .inl (hall x (List.mem_cons_of_mem _ hm))
    · exact .inr (htrail x hm)
  constructor <;> rintro rfl <;> exact absurd hchar (by decide)

/-- A number with its prefix begins with a digit. -/
theorem head_of_prefixes {radix : List Char} (h : radix ∈ prefixes) {c : Char} (rest : List Char)
    (hc : hexDigit c ≠ none) :
    ∃ c' rest', radix ++ c :: rest = c' :: rest' ∧ hexDigit c' ≠ none := by
  simp only [prefixes, List.mem_cons, List.not_mem_nil, or_false] at h
  rcases h with rfl | rfl | rfl | rfl | rfl
  · exact ⟨c, rest, rfl, hc⟩
  · exact ⟨'0', _, rfl, by decide⟩
  · exact ⟨'0', _, rfl, by decide⟩
  · exact ⟨'0', _, rfl, by decide⟩
  · exact ⟨'0', _, rfl, by decide⟩

section Literals
variable {decimal : Char → Option (Fin 10)} {text : String} {i j : Int}

/-- A text that is read is a literal: what was cut off, the digits and the blanks after them. -/
theorem literal_of_int16 (h : int16 decimal text = some i) : Literal decimal text i := by
  obtain ⟨n, hn, hi⟩ := Option.map_eq_some_iff.mp h
  obtain ⟨sign, hsign, hcut, hhead⟩ := afterSign_spec (start decimal text)
  obtain ⟨radix, hradix, hcut'⟩ := afterPrefix_spec (afterSign (start decimal text))
  obtain ⟨body, trail, hbody, htrail, hdigits⟩ := readDigits_eq_some_iff.mp hn
  have htext : text.toList.map (toAscii decimal) =
      (text.toList.map (toAscii decimal)).takeWhile isBlank ++
        (sign ++ (radix ++ (body ++ trail))) := by
    rw [← hbody, ← hcut', ← hcut]
    exact List.takeWhile_append_dropWhile.symm
  have hlead : ∀ c ∈ (text.toList.map (toAscii decimal)).takeWhile isBlank, isBlank c = true :=
    fun c hc => List.mem_takeWhile_imp hc
  have hlit := Literal.mk htext hlead hsign hradix hdigits htrail
  rw [← hi]
  by_cases hs : sign = ['-']
  · rw [if_pos hs] at hlit
    rwa [if_pos (hhead.mpr hs)]
  · rw [if_neg hs] at hlit
    rwa [if_neg fun hm => hs (hhead.mp hm)]

/-- A literal is read: nothing is cut off beyond its own parts. -/
theorem int16_of_literal (h : Literal decimal text i) : int16 decimal text = some i := by
  cases h with
  | @mk lead sign radix body trail n htext hlead hsign hradix hdigits htrail =>
    obtain ⟨c, rest, hrest, hc, hx⟩ := hdigits.head_cases htrail
    have hunder : c ≠ '_' := by
      rintro rfl
      exact hc (by decide)
    obtain ⟨c', rest', hnumber, hc'⟩ := head_of_prefixes hradix rest hc
    obtain ⟨hblank, hafter, hhead⟩ := afterSign_append hsign rest' hc'
    have hstart : start decimal text = sign ++ c' :: rest' := by
      rw [start, htext, List.dropWhile_append_of_pos hlead, hrest, hnumber, hblank]
    have hread : readDigits (c :: rest) false 0 = some n :=
      readDigits_eq_some_iff.mpr ⟨body, trail, hrest.symm, htrail, hdigits⟩
    rw [int16, hstart, hafter, ← hnumber, afterPrefix_append hradix hunder hx, hread,
      Option.map_some, hnumber]
    simp only [hhead]

/-- `int(text, 16)` accepts the literals of the grammar, with their value. -/
theorem int16_eq_some_iff : int16 decimal text = some i ↔ Literal decimal text i :=
  ⟨literal_of_int16, int16_of_literal⟩

theorem Literal.unique (hi : Literal decimal text i) (hj : Literal decimal text j) : i = j :=
  Option.some.inj ((int16_of_literal hi).symm.trans (int16_of_literal hj))

end Literals

/-! ## 5. Plain digits -/

theorem value_append (text : List Char) (c : Char) :
    value (text ++ [c]) = 16 * value text + (hexDigit c).getD 0 := by
  rw [value, List.foldl_append]
  rfl

theorem getD_hexDigit_lt (c : Char) : (hexDigit c).getD 0 < 16 := by
  cases hd : hexDigit c with
  | none => decide
  | some d => exact digit_lt hd

theorem value_lt (text : List Char) : value text < 16 ^ text.length := by
  induction text using List.reverseRecOn with
  | nil => decide
  | append_singleton text c ih =>
    have hd := getD_hexDigit_lt c
    rw [value_append, List.length_append, List.length_singleton, Nat.pow_succ]
    omega

/-- Plain digits write zero when all of them are zero. -/
theorem value_eq_zero_iff {text : List Char} (h : ∀ c ∈ text, hexDigit c ≠ none) :
    value text = 0 ↔ ∀ c ∈ text, c = '0' := by
  induction text using List.reverseRecOn with
  | nil => exact ⟨fun _ c hc => (List.not_mem_nil hc).elim, fun _ => rfl⟩
  | append_singleton text c ih =>
    have ih := ih fun c hc => h c (List.mem_append_left _ hc)
    obtain ⟨d, hd⟩ := Option.ne_none_iff_exists'.mp (h c (by simp))
    have hzero : d = 0 ↔ c = '0' := by
      constructor
      · intro h0
        subst h0
        exact of_digitTable (P := fun c d => d = 0 → c = '0') (by decide) hd rfl
      · rintro rfl
        have h0 : hexDigit '0' = some 0 := by decide
        exact Option.some.inj (hd.symm.trans h0)
    rw [value_append, hd, Option.getD_some, List.forall_mem_append, List.forall_mem_singleton, ← ih,
      ← hzero]
    omega

theorem digits_of_plain {text : List Char} (h : ∀ c ∈ text, hexDigit c ≠ none) (hne : text ≠ []) :
    Digits text (value text) := by
  induction text using List.reverseRecOn with
  | nil => exact absurd rfl hne
  | append_singleton text c ih =>
    obtain ⟨d, hd⟩ := Option.ne_none_iff_exists'.mp (h c (by simp))
    rw [value_append, hd, Option.getD_some]
    by_cases htext : text = []
    · subst htext
      have hvalue : value [] = 0 := rfl
      rw [hvalue, Nat.mul_zero, Nat.zero_add]
      exact .digit hd
    · exact .next (ih (fun c hc => h c (List.mem_append_left _ hc)) htext) hd

theorem toAscii_of_hexDigit (decimal : Char → Option (Fin 10)) {c : Char} (h : hexDigit c ≠ none) :
    toAscii decimal c = c := by
  obtain ⟨d, hd⟩ := Option.ne_none_iff_exists'.mp h
  have hlt : c.toNat < 127 := of_digitTable (P := fun c _ => c.toNat < 127) (by decide) hd
  rw [toAscii, if_pos hlt]

/-- Plain digits are a literal. -/
theorem literal_of_plain (decimal : Char → Option (Fin 10)) {text : String}
    (h : ∀ c ∈ text.toList, hexDigit c ≠ none) (hne : text.toList ≠ []) :
    Literal decimal text (value text.toList) := by
  have hmap : text.toList.map (toAscii decimal) = [] ++ ([] ++ ([] ++ (text.toList ++ []))) := by
    rw [List.append_nil, List.map_congr_left fun c hc => toAscii_of_hexDigit decimal (h c hc)]
    exact List.map_id' _
  have hnil : ∀ c ∈ ([] : List Char), isBlank c = true := fun c hc => (List.not_mem_nil hc).elim
  have hlit := Literal.mk hmap hnil (by decide) (by decide) (digits_of_plain h hne) hnil
  rwa [if_neg (by decide)] at hlit

theorem leftpad_append_singleton (width : Nat) (z : Char) (text : List Char) (c : Char) :
    List.leftpad (width + 1) z (text ++ [c]) = List.leftpad width z text ++ [c] := by
  simp [List.leftpad]

/-- Written back in its own width, a plain text is the same in lower case. -/
theorem leftpad_value {text : List Char} (h : ∀ c ∈ text, hexDigit c ≠ none) (hne : text ≠ []) :
    List.leftpad text.length '0' (Nat.toDigits 16 (value text)) = text.map Char.toLower := by
  induction text using List.reverseRecOn with
  | nil => exact absurd rfl hne
  | append_singleton text c ih =>
    have ih := ih fun c hc => h c (List.mem_append_left _ hc)
    obtain ⟨d, hd⟩ := Option.ne_none_iff_exists'.mp (h c (by simp))
    have hdigit : Nat.toDigits 16 d = [c.toLower] := by
      rw [Nat.toDigits_of_lt_base (digit_lt hd), digitChar_of_hexDigit hd]
    rw [value_append, hd, Option.getD_some, List.length_append, List.length_singleton,
      List.map_append, List.map_singleton]
    rcases Nat.eq_zero_or_pos (value text) with hzero | hpos
    · rw [hzero, Nat.mul_zero, Nat.zero_add, hdigit]
      by_cases htext : text = []
      · subst htext
        rfl
      · -- the digits before the last are zeros
        rw [← ih htext, hzero, ← List.nil_append [c.toLower], leftpad_append_singleton]
        have hlen : text.length = text.length - 1 + 1 :=
          (Nat.sub_add_cancel (List.length_pos_iff.mpr htext)).symm
        rw [hlen, Nat.toDigits_zero, ← List.nil_append ['0'], leftpad_append_singleton]
        simp [List.leftpad, List.replicate_succ']
    · have htext : text ≠ [] := by
        rintro rfl
        exact absurd hpos (by decide)
      rw [← ih htext, ← Nat.toDigits_append_toDigits (by decide) hpos (digit_lt hd), hdigit,
        leftpad_append_singleton]

theorem formatHex_value {width : Nat} {text : List Char} (h : Plain width text) (hw : 0 < width) :
    formatHex width (value text) = text.map Char.toLower := by
  obtain ⟨rfl, hall⟩ := h
  exact leftpad_value hall (List.length_pos_iff.mp hw)

/-- The number of a literal of plain digits: its bound, when it is zero, and how it is printed. -/
theorem Literal.of_plain {decimal : Char → Option (Fin 10)} {text : String} {width : Nat} {i : Int}
    (hlit : Literal decimal text i) (h : Plain width text.toList) (hw : 0 < width) :
    (0 ≤ i ∧ i < 16 ^ width) ∧ (i ≠ 0 ↔ ∃ c ∈ text.toList, c ≠ '0') ∧
      String.ofList (formatHex width i) = PyText.lower text := by
  have hne : text.toList ≠ [] := List.length_pos_iff.mp (h.1 ▸ hw)
  have hi : i = value text.toList :=
    hlit.unique (literal_of_plain decimal h.2 hne)
  subst hi
  refine ⟨⟨Int.natCast_nonneg _, ?_⟩, ?_, ?_⟩
  · have hlt := value_lt text.toList
    rw [h.1] at hlt
    exact_mod_cast hlt
  · rw [Int.natCast_ne_zero, Ne, value_eq_zero_iff h.2]
    simp
  · rw [formatHex_value h hw, PyText.lower]

end PyInt
