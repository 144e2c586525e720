import TalentMatch.Lib.Json

/-!
# Writing JSON in the Python runtime

The texts of `json.dumps` and of pydantic's `model_dump_json`, and that the
parser of `Json` reads them back.

The writer of floats is a structure that carries what a writer must do: its texts
have the form of a float, and the reader undoes it. Python's `float.__repr__`
with the three names for the values that are no numbers is such a writer.

Results:

1. `stringRest_escape`: a string is read back from its escaped text.
2. `value_chars`: a value whose objects have distinct keys is read back from its
   text at the head of a longer one that does not go on like a number.
3. `loads_dumps`: so `json.loads` undoes `json.dumps`, and so does the parser of pydantic.
4. `rawDecode_obj`: `raw_decode` reads an object in front of any text.
5. `keyed_of_loads`: what `json.loads` returns has distinct keys.
6. `loads_of_strictLoads`: it reads what the parser of pydantic reads, and alike.
-/

namespace Json

variable {φ : Type}

/-! ## 1. The writer -/

/-- Whether a writer puts blanks after its separators and escapes what is not ASCII. -/
structure Layout where
  spaced : Bool
  ascii : Bool
  deriving DecidableEq

namespace Layout

/-- `json.dumps(value)`. -/
def dumps : Layout := ⟨true, true⟩

/-- `json.dumps(value, separators=(",", ":"))`. -/
def compact : Layout := ⟨false, true⟩

/-- `model_dump_json()`. -/
def model : Layout := ⟨false, false⟩

/-- What follows a comma or a colon. -/
def gap (layout : Layout) : List Char := if layout.spaced then [' '] else []

end Layout

/-- `\uXXXX`. -/
def unitText (n : Nat) : List Char :=
  ['\\', 'u', Nat.digitChar (n / 4096 % 16), Nat.digitChar (n / 256 % 16),
    Nat.digitChar (n / 16 % 16), Nat.digitChar (n % 16)]

/-- A character by its code units. -/
def unicodeText (c : Char) : List Char :=
  if c.toNat < 0x10000 then unitText c.toNat
  else unitText (0xd800 + (c.toNat - 0x10000) / 0x400) ++
    unitText (0xdc00 + (c.toNat - 0x10000) % 0x400)

def escapeChar (ascii : Bool) (c : Char) : List Char :=
  if c = '"' then ['\\', '"']
  else if c = '\\' then ['\\', '\\']
  else if c = '\n' then ['\\', 'n']
  else if c = '\r' then ['\\', 'r']
  else if c = '\t' then ['\\', 't']
  else if c = '\x0c' then ['\\', 'f']
  else if c = '\x08' then ['\\', 'b']
  else if c.toNat < 0x20 || (ascii && 0x7f ≤ c.toNat) then unicodeText c
  else [c]

def escape (ascii : Bool) (cs : List Char) : List Char := cs.flatMap (escapeChar ascii)

def quoted (ascii : Bool) (s : String) : List Char := '"' :: (escape ascii s.toList ++ ['"'])

section Writer
variable (layout : Layout) (repr : φ → String)

mutual

/-- The text of a value. -/
def chars : Json φ → List Char
  | .null => ['n', 'u', 'l', 'l']
  | .bool true => ['t', 'r', 'u', 'e']
  | .bool false => ['f', 'a', 'l', 's', 'e']
  | .int i => (toString i).toList
  | .float x => (repr x).toList
  | .str s => quoted layout.ascii s
  | .arr [] => ['[', ']']
  | .arr (v :: items) => '[' :: (chars v ++ charsOfItems items)
  | .obj [] => ['{', '}']
  | .obj ((k, v) :: fields) =>
    '{' :: (quoted layout.ascii k ++ ':' :: (layout.gap ++ (chars v ++ charsOfFields fields)))
termination_by structural v => v

/-- The items after the first one, with the closing bracket. -/
def charsOfItems : List (Json φ) → List Char
  | [] => [']']
  | v :: items => ',' :: (layout.gap ++ (chars v ++ charsOfItems items))
termination_by structural items => items

/-- The fields after the first one, with the closing brace. -/
def charsOfFields : List (String × Json φ) → List Char
  | [] => ['}']
  | (k, v) :: fields =>
    ',' :: (layout.gap ++
      (quoted layout.ascii k ++ ':' :: (layout.gap ++ (chars v ++ charsOfFields fields))))
termination_by structural fields => fields

end

/-- The text of a value, as one text. -/
def text (v : Json φ) : String := String.ofList (chars layout repr v)

end Writer

/-- `JSONDecoder().raw_decode(text)`: the value at the head, whatever follows it. -/
def rawDecode (float : String → φ) (text : String) : Except LoadsError (Json φ) :=
  match value (some (Char.ofNat 0xfffd)) float (2 * text.toList.length + 1) text.toList with
  | some (v, _) => .ok v
  | none => .error .decode

/-! ## 2. The texts of floats -/

def IntText (ds : List Char) : Prop :=
  ds = ['0'] ∨ ∃ c cs, ds = c :: cs ∧ c ≠ '0' ∧ ∀ d ∈ ds, d.isDigit

def FracText (cs : List Char) : Prop :=
  cs = [] ∨ ∃ ds, cs = '.' :: ds ∧ ds ≠ [] ∧ ∀ d ∈ ds, d.isDigit

def ExpText (cs : List Char) : Prop :=
  cs = [] ∨ ∃ e sign ds, cs = e :: (sign ++ ds) ∧ (e = 'e' ∨ e = 'E') ∧
    (sign = [] ∨ sign = ['+'] ∨ sign = ['-']) ∧ ds ≠ [] ∧ ∀ d ∈ ds, d.isDigit

/-- The text of a float: a number with a fraction or an exponent, or one of three names. -/
inductive FloatText : List Char → Prop
  | nan : FloatText ['N', 'a', 'N']
  | infinity : FloatText ['I', 'n', 'f', 'i', 'n', 'i', 't', 'y']
  | negInfinity : FloatText ['-', 'I', 'n', 'f', 'i', 'n', 'i', 't', 'y']
  | number {sign ds frac exp : List Char} : sign = [] ∨ sign = ['-'] → IntText ds →
      FracText frac → ExpText exp → frac ≠ [] ∨ exp ≠ [] → FloatText (sign ++ (ds ++ (frac ++ exp)))

/-- A writer of floats that `float` undoes. -/
structure FloatWriter (float : String → φ) where
  repr : φ → String
  form : ∀ x, FloatText (repr x).toList
  float_repr : ∀ x, float (repr x) = x

/-! ## 3. Distinct keys -/

mutual

/-- The keys of each object are distinct, as those of a dictionary are. -/
def Keyed : Json φ → Prop
  | .obj fields => (Dict.keys fields).Nodup ∧ KeyedFields fields
  | .arr items => KeyedItems items
  | .int _ => True
  | .float _ => True
  | .null => True
  | .bool _ => True
  | .str _ => True
termination_by structural v => v

def KeyedFields : List (String × Json φ) → Prop
  | [] => True
  | (_, v) :: fields => Keyed v ∧ KeyedFields fields
termination_by structural fields => fields

def KeyedItems : List (Json φ) → Prop
  | [] => True
  | v :: items => Keyed v ∧ KeyedItems items
termination_by structural items => items

end

theorem keyedItems_iff {items : List (Json φ)} : KeyedItems items ↔ ∀ v ∈ items, Keyed v := by
  induction items with
  | nil => simp [KeyedItems]
  | cons v items ih => simp [KeyedItems, ih]

theorem keyedFields_iff {fields : List (String × Json φ)} :
    KeyedFields fields ↔ ∀ p ∈ fields, Keyed p.2 := by
  induction fields with
  | nil => simp [KeyedFields]
  | cons p fields ih => simp [KeyedFields, ih]

/-! ## 4. Strings -/

theorem hexDigit_digitChar : ∀ {d : Nat}, d < 16 → hexDigit (Nat.digitChar d) = some d := by
  decide

theorem hex4_digits {n : Nat} (h : n < 0x10000) (rest : List Char) :
    hex4 (Nat.digitChar (n / 4096 % 16) :: Nat.digitChar (n / 256 % 16) ::
      Nat.digitChar (n / 16 % 16) :: Nat.digitChar (n % 16) :: rest) = some (n, rest) := by
  simp only [hex4, hexDigit_digitChar (Nat.mod_lt _ (by decide : 0 < 16)), Option.bind_eq_bind,
    Option.bind_some]
  congr 2
  omega

/-- A character is no surrogate. -/
theorem not_surrogate (c : Char) : c.toNat < 0xd800 ∨ 0xdfff < c.toNat := by
  have h := c.valid
  simp only [UInt32.isValidChar, Nat.isValidChar] at h
  rw [Char.toNat]
  omega

section Strings
variable (lone : Option Char)

/-- A character below U+10000 is read back from its code unit. -/
theorem unicodeEscape_unit {c : Char} (h : c.toNat < 0x10000) (rest : List Char) :
    unicodeEscape lone ((unitText c.toNat).tail.tail ++ rest) = some (c, rest) := by
  have hc := not_surrogate c
  simp only [unicodeEscape, unitText, List.tail_cons, List.cons_append, List.nil_append,
    hex4_digits h, Option.bind_eq_bind, Option.bind_some]
  rw [if_neg (by simp; omega), if_neg (by simp; omega), Char.ofNat_toNat]

/-- Two code units that form a pair. -/
theorem unicodeEscape_surrogates {hi lo : Nat} (h : 0xd800 ≤ hi) (h' : hi ≤ 0xdbff)
    (hl : 0xdc00 ≤ lo) (hl' : lo ≤ 0xdfff) (rest : List Char) :
    unicodeEscape lone ((unitText hi).tail.tail ++ (unitText lo ++ rest)) =
      some (Char.ofNat (0x10000 + (hi - 0xd800) * 0x400 + (lo - 0xdc00)), rest) := by
  have hhi : hi < 0x10000 := by omega
  have hlo : lo < 0x10000 := by omega
  simp only [unicodeEscape, unitText, List.tail_cons, List.cons_append, List.nil_append,
    hex4_digits hhi, hex4_digits hlo, Option.bind_eq_bind, Option.bind_some]
  rw [if_pos (by simp [h, h']), if_pos (by simp [hl, hl'])]

/-- A character from U+10000 on is read back from its surrogate pair. -/
theorem unicodeEscape_pair {c : Char} (h : 0x10000 ≤ c.toNat) (rest : List Char) :
    unicodeEscape lone ((unitText (0xd800 + (c.toNat - 0x10000) / 0x400)).tail.tail ++
      (unitText (0xdc00 + (c.toNat - 0x10000) % 0x400) ++ rest)) = some (c, rest) := by
  have hc : c.toNat < 0x110000 := by
    have h := c.valid
    simp only [UInt32.isValidChar, Nat.isValidChar] at h
    rw [Char.toNat]
    omega
  have hn : 0x10000 + (0xd800 + (c.toNat - 0x10000) / 0x400 - 0xd800) * 0x400 +
      (0xdc00 + (c.toNat - 0x10000) % 0x400 - 0xdc00) = c.toNat := by omega
  rw [unicodeEscape_surrogates lone (by omega) (by omega) (by omega) (by omega), hn, Char.ofNat_toNat]

/-- One character of a string, read back from its text. -/
theorem stringRest_unicode (c : Char) (fuel : Nat) (rest : List Char) :
    stringRest lone (fuel + 1) (unicodeText c ++ rest) =
      (stringRest lone fuel rest).map fun p => (c :: p.1, p.2) := by
  by_cases h : c.toNat < 0x10000
  · have hread := unicodeEscape_unit lone h rest
    simp only [unicodeText, h, if_true]
    simp only [unitText, List.tail_cons, List.cons_append, List.nil_append] at hread ⊢
    rw [stringRest, hread]
    simp only [Option.bind_eq_bind, Option.bind_some]
    cases stringRest lone fuel rest <;> rfl
  · have hread := unicodeEscape_pair lone (Nat.le_of_not_lt h) rest
    simp only [unicodeText, h, if_false, List.append_assoc]
    simp only [unitText, List.tail_cons, List.cons_append, List.nil_append] at hread ⊢
    rw [stringRest, hread]
    simp only [Option.bind_eq_bind, Option.bind_some]
    cases stringRest lone fuel rest <;> rfl

/-- A character that stands for itself in a string. -/
theorem stringRest_plain {c : Char} (hquote : c ≠ '"') (hslash : c ≠ '\\') (hc : 0x20 ≤ c.toNat)
    (fuel : Nat) (rest : List Char) :
    stringRest lone (fuel + 1) (c :: rest) =
      (stringRest lone fuel rest).map fun p => (c :: p.1, p.2) := by
  have hcontrol : ¬ (c.toNat < 0x20 || c == '\\') = true := by
    simp [hslash]
    omega
  rw [stringRest, if_neg hcontrol]
  · cases stringRest lone fuel rest <;> rfl
  · exact hquote
  · rintro _ rfl
    exact absurd rfl hslash
  · rintro _ _ rfl
    exact absurd rfl hslash

/-- A character written as a backslash and a letter. -/
theorem stringRest_simple {e d : Char} (hd : simpleEscape e = some d) (hu : e ≠ 'u') (fuel : Nat)
    (rest : List Char) :
    stringRest lone (fuel + 1) ('\\' :: e :: rest) =
      (stringRest lone fuel rest).map fun p => (d :: p.1, p.2) := by
  rw [stringRest, hd]
  · simp only [Option.bind_eq_bind, Option.bind_some]
    cases stringRest lone fuel rest <;> rfl
  · exact hu

theorem stringRest_escapeChar (ascii : Bool) (c : Char) (fuel : Nat) (rest : List Char) :
    stringRest lone (fuel + 1) (escapeChar ascii c ++ rest) =
      (stringRest lone fuel rest).map fun p => (c :: p.1, p.2) := by
  by_cases hquote : c = '"'
  · subst hquote
    exact stringRest_simple lone rfl (by decide) fuel rest
  by_cases hslash : c = '\\'
  · subst hslash
    exact stringRest_simple lone rfl (by decide) fuel rest
  by_cases hn : c = '\n'
  · subst hn
    exact stringRest_simple lone rfl (by decide) fuel rest
  by_cases hr : c = '\r'
  · subst hr
    exact stringRest_simple lone rfl (by decide) fuel rest
  by_cases ht : c = '\t'
  · subst ht
    exact stringRest_simple lone rfl (by decide) fuel rest
  by_cases hf : c = '\x0c'
  · subst hf
    exact stringRest_simple lone rfl (by decide) fuel rest
  by_cases hb : c = '\x08'
  · subst hb
    exact stringRest_simple lone rfl (by decide) fuel rest
  simp only [escapeChar, hquote, hslash, hn, hr, ht, hf, hb, if_false]
  split
  · exact stringRest_unicode lone c fuel rest
  · next h =>
    simp only [Bool.or_eq_true, decide_eq_true_eq, not_or, Nat.not_lt] at h
    exact stringRest_plain lone hquote hslash h.1 fuel rest

/-- A string is read back from its escaped text. -/
theorem stringRest_escape (ascii : Bool) (cs rest : List Char) {fuel : Nat}
    (h : cs.length < fuel) :
    stringRest lone fuel (escape ascii cs ++ '"' :: rest) = some (cs, rest) := by
  induction cs generalizing fuel with
  | nil =>
    obtain ⟨fuel, rfl⟩ : ∃ f, fuel = f + 1 := ⟨fuel - 1, by simp at h; omega⟩
    rfl
  | cons c cs ih =>
    obtain ⟨fuel, rfl⟩ : ∃ f, fuel = f + 1 := ⟨fuel - 1, by simp at h; omega⟩
    rw [escape, List.flatMap_cons, List.append_assoc, stringRest_escapeChar]
    rw [List.length_cons] at h
    rw [← escape, ih (by omega)]
    rfl

end Strings

/-! ## 5. Numbers -/

/-- A text that does not go on with a digit, a point or an exponent. -/
def Ends (rest : List Char) : Prop :=
  ∀ c ∈ rest.head?, c.isDigit = false ∧ c ≠ '.' ∧ c ≠ 'e' ∧ c ≠ 'E'

/-- A text that does not go on with a digit. -/
def NoDigitHead (rest : List Char) : Prop := ∀ c ∈ rest.head?, c.isDigit = false

theorem ends_nil : Ends [] := by
  intro c hc
  cases hc

theorem ends_cons {c : Char} {rest : List Char}
    (h : c.isDigit = false ∧ c ≠ '.' ∧ c ≠ 'e' ∧ c ≠ 'E') : Ends (c :: rest) := by
  intro c' hc'
  cases hc'
  exact h

theorem Ends.noDigitHead {rest : List Char} (h : Ends rest) : NoDigitHead rest :=
  fun c hc => (h c hc).1

theorem digits_append {ds rest : List Char} (hds : ∀ d ∈ ds, d.isDigit) (h : NoDigitHead rest) :
    digits (ds ++ rest) = (ds, rest) := by
  induction ds with
  | nil =>
    cases rest with
    | nil => rfl
    | cons c rest => simp [digits, h c rfl]
  | cons d ds ih =>
    have htail := ih fun x hx => hds x (List.mem_cons_of_mem d hx)
    simp only [digits, Prod.mk.injEq] at htail ⊢
    simp [hds d List.mem_cons_self, htail.1, htail.2]

theorem intPart_append {ds rest : List Char} (hds : IntText ds) (h : NoDigitHead rest) :
    intPart (ds ++ rest) = some (ds, rest) := by
  rcases hds with rfl | ⟨c, cs, rfl, hc, hdigits⟩
  · rfl
  · rw [List.cons_append, intPart]
    · rw [if_pos (hdigits c List.mem_cons_self), ← List.cons_append, digits_append hdigits h]
    · exact hc

theorem fracPart_append {frac rest : List Char} (hfrac : FracText frac) (h : NoDigitHead rest)
    (hpoint : rest.head? ≠ some '.') : fracPart (frac ++ rest) = (frac, rest) := by
  rcases hfrac with rfl | ⟨ds, rfl, hne, hdigits⟩
  · rw [List.nil_append, fracPart]
    rintro rest rfl
    exact hpoint rfl
  · rw [List.cons_append, fracPart, digits_append hdigits h, if_neg (by simpa using hne)]

theorem expPart_append {exp rest : List Char} (hexp : ExpText exp) (h : Ends rest) :
    expPart (exp ++ rest) = (exp, rest) := by
  rcases hexp with rfl | ⟨e, sign, ds, rfl, he, hsign, hne, hdigits⟩
  · cases rest with
    | nil => rfl
    | cons c rest => simp [expPart, (h c rfl).2.2.1, (h c rfl).2.2.2]
  · have hread := digits_append hdigits h.noDigitHead
    obtain ⟨d, ds, rfl⟩ := List.exists_cons_of_ne_nil hne
    have hd := hdigits d List.mem_cons_self
    have hmark : (e == 'e' || e == 'E') = true := by simpa using he
    simp only [List.cons_append, List.append_assoc, expPart, hmark, if_true]
    rcases hsign with rfl | rfl | rfl
    · have hplus : d ≠ '+' := by rintro rfl; cases hd
      have hminus : d ≠ '-' := by rintro rfl; cases hd
      simp only [List.nil_append, List.cons_append] at hread ⊢
      split
      · next heq => simp_all
      · next heq => simp_all
      · next heq => simp_all
    · simp only [List.cons_append, List.nil_append] at hread ⊢
      simp [hread]
    · simp only [List.cons_append, List.nil_append] at hread ⊢
      simp [hread]

/-- A fraction and an exponent do not start with a digit, and an exponent not with a point. -/
theorem head_expPart {exp rest : List Char} (hexp : ExpText exp) (h : Ends rest) :
    NoDigitHead (exp ++ rest) ∧ (exp ++ rest).head? ≠ some '.' := by
  rcases hexp with rfl | ⟨e, sign, ds, rfl, he, -, -, -⟩
  · exact ⟨h.noDigitHead, fun hpoint => (h '.' hpoint).2.1 rfl⟩
  · refine ⟨?_, ?_⟩
    · rintro c hc
      cases hc
      rcases he with rfl | rfl <;> rfl
    · rcases he with rfl | rfl <;> simp

theorem head_fracPart {frac rest : List Char} (hfrac : FracText frac) (h : NoDigitHead rest) :
    NoDigitHead (frac ++ rest) := by
  rcases hfrac with rfl | ⟨ds, rfl, -, -⟩
  · exact h
  · rintro c hc
    cases hc
    rfl

theorem head_intText {ds : List Char} (h : IntText ds) :
    ∃ d rest, ds = d :: rest ∧ d.isDigit = true := by
  rcases h with rfl | ⟨c, cs, rfl, -, hdigits⟩
  · exact ⟨'0', [], rfl, rfl⟩
  · exact ⟨c, cs, rfl, hdigits c List.mem_cons_self⟩

/-- A number is read up to its end. -/
theorem number_append (float : String → φ) {sign ds frac exp rest : List Char}
    (hsign : sign = [] ∨ sign = ['-']) (hds : IntText ds) (hfrac : FracText frac)
    (hexp : ExpText exp) (h : Ends rest) :
    number float (sign ++ (ds ++ (frac ++ (exp ++ rest)))) =
      some (if frac.isEmpty && exp.isEmpty then
          .int (if sign = ['-'] then -(natOfDigits ds : Int) else natOfDigits ds)
        else .float (float (String.ofList (sign ++ (ds ++ (frac ++ exp))))), rest) := by
  have hint := intPart_append hds (head_fracPart hfrac (head_expPart hexp h).1)
  have hfraction := fracPart_append hfrac (head_expPart hexp h).1 (head_expPart hexp h).2
  have hexponent := expPart_append hexp h
  rcases hsign with rfl | rfl
  · obtain ⟨d, ds, rfl, hd⟩ := head_intText hds
    have hminus : d ≠ '-' := by rintro rfl; cases hd
    rw [List.nil_append, number]
    · simp only [hint, hfraction, hexponent]
      split <;> simp
    · rintro rest' heq
      cases heq
      exact hminus rfl
  · rw [List.cons_append, List.nil_append, number]
    simp only [hint, hfraction, hexponent]
    split <;> simp

/-! ## 6. Integers -/

theorem natOfDigits_toDigits (n : Nat) : natOfDigits (Nat.toDigits 10 n) = n := by
  have h := Nat.ofDigitChars_ten_toDigits (n := n)
  rw [Nat.ofDigitChars_eq_foldl] at h
  simpa only [natOfDigits, Nat.mul_comm] using h

theorem intText_toDigits (n : Nat) : IntText (Nat.toDigits 10 n) := by
  induction n using Nat.strongRecOn with
  | ind n ih =>
    by_cases hn : n < 10
    · rw [Nat.toDigits_of_lt_base hn]
      have hdigit : ∀ d < 10, Nat.digitChar d = '0' ∨
          Nat.digitChar d ≠ '0' ∧ (Nat.digitChar d).isDigit := by decide
      rcases hdigit n hn with h | ⟨h, h'⟩
      · exact .inl (by rw [h])
      · exact .inr ⟨_, _, rfl, h, by simpa using h'⟩
    · rw [Nat.toDigits_of_base_le (by decide) (by omega)]
      have hlast : ∀ d < 10, (Nat.digitChar d).isDigit := by decide
      rcases ih (n / 10) (by omega) with h | ⟨c, cs, h, hc, hdigits⟩
      · -- the quotient of a number from ten on is not zero
        have hzero := natOfDigits_toDigits (n / 10)
        rw [h] at hzero
        have hpos : 0 < n / 10 := by omega
        rw [← hzero] at hpos
        exact absurd hpos (by decide)
      · refine .inr ⟨c, cs ++ [(n % 10).digitChar], by rw [h]; rfl, hc, ?_⟩
        intro d hd
        rcases List.mem_append.mp hd with hd | hd
        · exact hdigits d hd
        · rw [List.mem_singleton.mp hd]
          exact hlast _ (Nat.mod_lt _ (by decide))

/-- The text of an integer is a sign and the digits of its size. -/
theorem toList_toString (i : Int) :
    (toString i).toList = (if i < 0 then ['-'] else []) ++ Nat.toDigits 10 i.natAbs := by
  rw [Int.toString_eq_repr, Int.repr_eq_if]
  by_cases h : 0 ≤ i
  · have hsize : i.natAbs = i.toNat := by omega
    simp [h, Int.not_lt.mpr h, Nat.toList_repr, hsize]
  · have hsize : i.natAbs = (-i).toNat := by omega
    simp [h, Int.lt_of_not_ge h, Nat.toList_repr, hsize]

/-- An integer is read back from its text. -/
theorem number_toString (float : String → φ) (i : Int) {rest : List Char} (h : Ends rest) :
    number float ((toString i).toList ++ rest) = some (.int i, rest) := by
  have hsign : (if i < 0 then ['-'] else []) = [] ∨ (if i < 0 then ['-'] else []) = ['-'] := by
    split <;> simp
  have hread := number_append float hsign (intText_toDigits i.natAbs) (.inl rfl) (.inl rfl) h
  rw [toList_toString, List.append_assoc]
  simp only [List.nil_append, List.isEmpty_nil, Bool.and_self, if_true,
    natOfDigits_toDigits] at hread
  rw [hread]
  by_cases hi : i < 0
  · have hsize : -(i.natAbs : Int) = i := by omega
    rw [if_pos hi, if_pos rfl, hsize]
  · have hsize : (i.natAbs : Int) = i := by omega
    rw [if_neg hi, if_neg (List.cons_ne_nil _ _).symm, hsize]

/-- Reads a float without a fraction. -/
def readWhole (text : String) : Int :=
  if text.toList.head? = some '-' then -(natOfDigits (digits text.toList.tail).1 : Int)
  else natOfDigits (digits text.toList).1

/-- The integers as floats: a writer of floats exists. -/
def wholeFloats : FloatWriter readWhole where
  repr i := toString i ++ ".0"
  form i := by
    have hsign : (if i < 0 then ['-'] else []) = [] ∨ (if i < 0 then ['-'] else []) = ['-'] := by
      split <;> simp
    have hdigit : ∀ d ∈ ['0'], d.isDigit := by
      intro d hd
      rw [List.mem_singleton.mp hd]
      rfl
    have hfrac : FracText ['.', '0'] := .inr ⟨['0'], rfl, by simp, hdigit⟩
    have hform := FloatText.number hsign (intText_toDigits i.natAbs) hfrac (.inl rfl) (.inl (by simp))
    rwa [String.toList_append, toList_toString, List.append_assoc]
  float_repr i := by
    have hend : NoDigitHead ['.', '0'] := by
      rintro c hc
      cases hc
      rfl
    have hall : ∀ d ∈ Nat.toDigits 10 i.natAbs, d.isDigit := fun d hd =>
      Nat.isDigit_of_mem_toDigits (by decide) (by decide) hd
    have hread := digits_append hall hend
    have htext : (toString i ++ ".0").toList =
        (if i < 0 then ['-'] else []) ++ (Nat.toDigits 10 i.natAbs ++ ['.', '0']) := by
      rw [String.toList_append, toList_toString, List.append_assoc]
      rfl
    rw [readWhole, htext]
    by_cases hi : i < 0
    · simp only [hi, if_true, List.cons_append, List.nil_append, List.head?_cons, List.tail_cons,
        hread, natOfDigits_toDigits]
      omega
    · obtain ⟨d, ds, hds, hd⟩ := head_intText (intText_toDigits i.natAbs)
      have hminus : d ≠ '-' := by
        rintro rfl
        cases hd
      have hhead : (Nat.toDigits 10 i.natAbs ++ ['.', '0']).head? ≠ some '-' := by
        rw [hds]
        simpa using hminus
      simp only [hi, if_false, List.nil_append, hhead, hread, natOfDigits_toDigits]
      omega

/-! ## 7. Values -/

section Reading
variable {float : String → φ} (writer : FloatWriter float) (layout : Layout)

/-- A value is read from its text, with some fuel for each character; there is no lone
surrogate in it. -/
def Reads (v : Json φ) : Prop :=
  ∀ lone fuel rest, 2 * (chars layout writer.repr v).length ≤ fuel → Ends rest →
    value lone float fuel (chars layout writer.repr v ++ rest) = some (v, rest)

/-- A value that is read from its text whatever follows: its last character ends it. -/
def ReadsClosed (v : Json φ) : Prop :=
  ∀ lone fuel rest, 2 * (chars layout writer.repr v).length ≤ fuel →
    value lone float fuel (chars layout writer.repr v ++ rest) = some (v, rest)

/-- So are the items after a first one. -/
def ReadsItems (items : List (Json φ)) : Prop :=
  ∀ lone v fuel cs rest, Reads writer layout v →
    skipSpace cs = chars layout writer.repr v ++ (charsOfItems layout writer.repr items ++ rest) →
    2 * ((chars layout writer.repr v).length + (charsOfItems layout writer.repr items).length) + 1 ≤
      fuel →
    itemsRest lone float fuel cs = some (v :: items, rest)

/-- And the fields after a first one. -/
def ReadsFields (fields : List (String × Json φ)) : Prop :=
  ∀ lone k v fuel cs rest, Reads writer layout v →
    skipSpace cs = quoted layout.ascii k ++ ':' :: (layout.gap ++
      (chars layout writer.repr v ++ (charsOfFields layout writer.repr fields ++ rest))) →
    2 * ((quoted layout.ascii k).length + (chars layout writer.repr v).length +
      (charsOfFields layout writer.repr fields).length) + 1 ≤ fuel →
    fieldsRest lone float fuel cs = some ((k, v) :: fields, rest)

theorem value_digit {lone : Option Char} {c : Char} (hc : c.isDigit = true) (fuel : Nat)
    (cs : List Char) :
    value lone float (fuel + 1) (c :: cs) = number float (c :: cs) := by
  rw [value]
  all_goals
    rintro _ heq
    cases heq
    cases hc

theorem value_minus {lone : Option Char} {c : Char} (hc : c.isDigit = true) (fuel : Nat)
    (cs : List Char) :
    value lone float (fuel + 1) ('-' :: c :: cs) = number float ('-' :: c :: cs) := by
  rw [value]
  all_goals
    rintro _ heq
    cases heq <;> cases hc

/-- A text that starts like a number is read as one. -/
theorem value_number {lone : Option Char} {sign ds : List Char}
    (hsign : sign = [] ∨ sign = ['-']) (hds : IntText ds) (fuel : Nat) (rest : List Char) :
    value lone float (fuel + 1) (sign ++ (ds ++ rest)) = number float (sign ++ (ds ++ rest)) := by
  obtain ⟨d, ds, rfl, hd⟩ := head_intText hds
  rcases hsign with rfl | rfl
  · exact value_digit hd fuel (ds ++ rest)
  · exact value_minus hd fuel (ds ++ rest)

/-- The text of a value starts with no blank and closes no bracket. -/
theorem head_chars (v : Json φ) :
    ∃ c cs, chars layout writer.repr v = c :: cs ∧ skipSpace (c :: cs) = c :: cs ∧ c ≠ ']' := by
  have hdigit : ∀ {d : Char}, d.isDigit = true → ∀ cs, skipSpace (d :: cs) = d :: cs ∧ d ≠ ']' := by
    intro d hd cs
    refine ⟨?_, by rintro rfl; cases hd⟩
    rw [skipSpace, List.dropWhile_cons_of_neg]
    simp only [Bool.or_eq_true, beq_iff_eq, not_or]
    refine ⟨⟨⟨?_, ?_⟩, ?_⟩, ?_⟩ <;> (rintro rfl; cases hd)
  have hnumber : ∀ {sign ds : List Char} (rest : List Char), sign = [] ∨ sign = ['-'] →
      IntText ds → ∃ c cs, sign ++ (ds ++ rest) = c :: cs ∧ skipSpace (c :: cs) = c :: cs ∧
        c ≠ ']' := by
    rintro sign ds rest (rfl | rfl) hds
    · obtain ⟨d, ds, rfl, hd⟩ := head_intText hds
      exact ⟨d, _, rfl, hdigit hd _⟩
    · exact ⟨'-', _, rfl, rfl, by decide⟩
  cases v with
  | null => exact ⟨_, _, rfl, rfl, by decide⟩
  | bool b => cases b <;> exact ⟨_, _, rfl, rfl, by decide⟩
  | str s => exact ⟨_, _, rfl, rfl, by decide⟩
  | arr items => cases items <;> exact ⟨_, _, rfl, rfl, by decide⟩
  | obj fields => cases fields <;> exact ⟨_, _, rfl, rfl, by decide⟩
  | int i =>
    have hsign : (if i < 0 then ['-'] else []) = [] ∨ (if i < 0 then ['-'] else []) = ['-'] := by
      split <;> simp
    have h := hnumber [] hsign (intText_toDigits i.natAbs)
    rwa [List.append_nil, ← toList_toString] at h
  | float x =>
    have hform := writer.form x
    simp only [chars]
    generalize (writer.repr x).toList = cs at hform
    cases hform with
    | nan | infinity | negInfinity => exact ⟨_, _, rfl, rfl, by decide⟩
    | number hsign hds _ _ _ => exact hnumber _ hsign hds

theorem skipSpace_chars (v : Json φ) (rest : List Char) :
    skipSpace (chars layout writer.repr v ++ rest) = chars layout writer.repr v ++ rest := by
  obtain ⟨c, cs, h, hskip, -⟩ := head_chars writer layout v
  have hc : ∀ cs', skipSpace (c :: cs') = c :: cs' := by
    intro cs'
    rw [skipSpace, List.dropWhile_cons] at hskip ⊢
    split at hskip
    · next hblank =>
      have hlen := (List.dropWhile_suffix (p := fun c => c == ' ' || c == '\t' || c == '\n' ||
        c == '\r') (l := cs)).length_le
      rw [hskip, List.length_cons] at hlen
      omega
    · next hblank => rw [if_neg hblank]
  rw [h]
  exact hc _

/-- The fuel for a text is positive. -/
theorem fuel_succ {v : Json φ} {fuel : Nat}
    (h : 2 * (chars layout writer.repr v).length ≤ fuel) : ∃ f, fuel = f + 1 := by
  obtain ⟨c, cs, hcs, -, -⟩ := head_chars writer layout v
  rw [hcs, List.length_cons] at h
  exact ⟨fuel - 1, by omega⟩

/-- A float is read back from its text. -/
theorem reads_float (x : φ) : Reads writer layout (.float x) := by
  intro lone fuel rest hfuel hrest
  obtain ⟨fuel, rfl⟩ := fuel_succ writer layout hfuel
  have hform := writer.form x
  have hback := writer.float_repr x
  simp only [chars]
  generalize htext : (writer.repr x).toList = cs at hform
  have hx : float (String.ofList cs) = x := by
    rw [← htext, String.ofList_toList, hback]
  cases hform with
  | nan | infinity | negInfinity =>
    rw [← hx]
    rfl
  | @number sign ds frac exp hsign hds hfrac hexp hne =>
    have hmark : (frac.isEmpty && exp.isEmpty) = false := by
      rcases hne with h | h <;> simp [h]
    simp only [List.append_assoc]
    rw [value_number hsign hds, number_append float hsign hds hfrac hexp hrest, hmark,
      if_neg (by simp), hx]

theorem reads_int (i : Int) : Reads writer layout (.int i) := by
  intro lone fuel rest hfuel hrest
  have hsign : (if i < 0 then ['-'] else []) = [] ∨ (if i < 0 then ['-'] else []) = ['-'] := by
    split <;> simp
  obtain ⟨fuel, rfl⟩ := fuel_succ writer layout hfuel
  have hnumber := number_toString float i hrest
  simp only [chars]
  rw [toList_toString, List.append_assoc] at hnumber ⊢
  rw [value_number hsign (intText_toDigits i.natAbs), hnumber]

theorem length_le_escape (ascii : Bool) (cs : List Char) : cs.length ≤ (escape ascii cs).length := by
  have hone : ∀ c, 1 ≤ (escapeChar ascii c).length := by
    intro c
    unfold escapeChar unicodeText unitText
    repeat' split
    all_goals simp
  induction cs with
  | nil => simp
  | cons c cs ih =>
    have h := hone c
    simp only [escape, List.flatMap_cons, List.length_append, List.length_cons] at ih ⊢
    omega

theorem reads_str (s : String) : ReadsClosed writer layout (.str s) := by
  intro lone fuel rest hfuel
  have hlen := length_le_escape layout.ascii s.toList
  simp only [chars, quoted, List.length_cons, List.length_append] at hfuel
  obtain ⟨fuel, rfl⟩ : ∃ f, fuel = f + 1 := ⟨fuel - 1, by omega⟩
  have hshort : s.toList.length < fuel := by omega
  have hread := stringRest_escape lone layout.ascii s.toList rest hshort
  simp only [chars, quoted, List.cons_append, List.append_assoc, List.nil_append, value, hread,
    Option.bind_eq_bind, Option.bind_some, String.ofList_toList]

theorem skipSpace_gap (cs : List Char) : skipSpace (layout.gap ++ cs) = skipSpace cs := by
  unfold Layout.gap
  split <;> rfl

/-- A value in front of the rest of an array or an object. -/
theorem Reads.item {v : Json φ} (h : Reads writer layout v) (lone : Option Char) {fuel : Nat} {cs rest : List Char}
    {c : Char} (hcs : skipSpace cs = chars layout writer.repr v ++ c :: rest)
    (hc : c.isDigit = false ∧ c ≠ '.' ∧ c ≠ 'e' ∧ c ≠ 'E')
    (hfuel : 2 * (chars layout writer.repr v).length ≤ fuel) :
    value lone float fuel (skipSpace cs) = some (v, c :: rest) := by
  rw [hcs]
  exact h lone fuel _ hfuel (ends_cons hc)

theorem readsItems_nil : ReadsItems writer layout ([] : List (Json φ)) := by
  intro lone v fuel cs rest hv hcs hfuel
  obtain ⟨fuel, rfl⟩ : ∃ f, fuel = f + 1 := ⟨fuel - 1, by omega⟩
  have hread := hv.item writer layout lone hcs (by decide) (by omega : _ ≤ fuel)
  rw [itemsRest, hread]
  rfl

theorem readsItems_cons {v : Json φ} {items : List (Json φ)} (hv : Reads writer layout v)
    (hitems : ReadsItems writer layout items) : ReadsItems writer layout (v :: items) := by
  intro lone v' fuel cs rest hv' hcs hfuel
  obtain ⟨fuel, rfl⟩ : ∃ f, fuel = f + 1 := ⟨fuel - 1, by omega⟩
  simp only [charsOfItems, List.cons_append, List.append_assoc] at hcs
  simp only [charsOfItems, List.length_cons, List.length_append] at hfuel
  have hread := hv'.item writer layout lone hcs (by decide) (by omega : _ ≤ fuel)
  have hrest := hitems lone v fuel (layout.gap ++ (chars layout writer.repr v ++
    (charsOfItems layout writer.repr items ++ rest))) rest hv
    (by rw [skipSpace_gap, skipSpace_chars]) (by omega)
  rw [itemsRest, hread]
  simp only [Option.bind_eq_bind, Option.bind_some]
  rw [show ∀ cs, skipSpace (',' :: cs) = ',' :: cs from fun _ => rfl]
  simp only [hrest, Option.bind_some]

/-- What `fieldsRest` finds of one field. -/
theorem field_read (lone : Option Char) {k : String} {v : Json φ} (hv : Reads writer layout v) {fuel : Nat}
    {cs rest : List Char} {c : Char} (hc : c.isDigit = false ∧ c ≠ '.' ∧ c ≠ 'e' ∧ c ≠ 'E')
    (hcs : skipSpace cs = quoted layout.ascii k ++ ':' :: (layout.gap ++
      (chars layout writer.repr v ++ c :: rest)))
    (hfuel : 2 * ((quoted layout.ascii k).length + (chars layout writer.repr v).length) ≤ fuel) :
    ∃ atKey atColon atValue, skipSpace cs = '"' :: atKey ∧
      stringRest lone fuel atKey = some (k.toList, atColon) ∧ skipSpace atColon = ':' :: atValue ∧
      value lone float fuel (skipSpace atValue) = some (v, c :: rest) := by
  have hlen := length_le_escape layout.ascii k.toList
  simp only [quoted, List.length_cons, List.length_append] at hfuel
  have hshort : k.toList.length < fuel := by omega
  have hkey := stringRest_escape lone layout.ascii k.toList (':' :: (layout.gap ++
    (chars layout writer.repr v ++ c :: rest))) hshort
  have hread := hv lone fuel (c :: rest) (by omega) (ends_cons hc)
  exact ⟨_, _, _, by rw [hcs]; simp [quoted], hkey, rfl,
    by rw [skipSpace_gap layout, skipSpace_chars, hread]⟩

theorem readsFields_nil : ReadsFields writer layout ([] : List (String × Json φ)) := by
  intro lone k v fuel cs rest hv hcs hfuel
  obtain ⟨fuel, rfl⟩ : ∃ f, fuel = f + 1 := ⟨fuel - 1, by omega⟩
  obtain ⟨atKey, atColon, atValue, hquote, hkey, hcolon, hread⟩ :=
    field_read writer layout lone hv (by decide) hcs (by omega : _ ≤ fuel)
  simp only [fieldsRest, hquote, hkey, hcolon, hread, Option.bind_eq_bind, Option.bind_some,
    String.ofList_toList]
  rfl

theorem readsFields_cons {k : String} {v : Json φ} {fields : List (String × Json φ)}
    (hv : Reads writer layout v) (hfields : ReadsFields writer layout fields) :
    ReadsFields writer layout ((k, v) :: fields) := by
  intro lone k' v' fuel cs rest hv' hcs hfuel
  obtain ⟨fuel, rfl⟩ : ∃ f, fuel = f + 1 := ⟨fuel - 1, by omega⟩
  simp only [charsOfFields, List.cons_append, List.append_assoc] at hcs
  simp only [charsOfFields, List.length_cons, List.length_append] at hfuel
  have hrest := hfields lone k v fuel (layout.gap ++ (quoted layout.ascii k ++ ':' :: (layout.gap ++
    (chars layout writer.repr v ++ (charsOfFields layout writer.repr fields ++ rest))))) rest hv
    (by rw [skipSpace_gap]; rfl) (by omega)
  obtain ⟨atKey, atColon, atValue, hquote, hkey, hcolon, hread⟩ :=
    field_read writer layout lone hv' (by decide) hcs (by omega : _ ≤ fuel)
  simp only [fieldsRest, hquote, hkey, hcolon, hread, Option.bind_eq_bind, Option.bind_some,
    String.ofList_toList]
  rw [show ∀ cs, skipSpace (',' :: cs) = ',' :: cs from fun _ => rfl]
  simp only [hrest, Option.bind_some]

theorem reads_arr {items : List (Json φ)} (h : ∀ v ∈ items.head?, Reads writer layout v)
    (htail : ReadsItems writer layout items.tail) : ReadsClosed writer layout (.arr items) := by
  intro lone fuel rest hfuel
  obtain ⟨fuel, rfl⟩ := fuel_succ writer layout hfuel
  cases items with
  | nil => rfl
  | cons v items =>
    simp only [chars, List.length_cons, List.length_append] at hfuel
    have hitems := htail lone v fuel (chars layout writer.repr v ++
      (charsOfItems layout writer.repr items ++ rest)) rest (h v rfl)
      (skipSpace_chars writer layout v _) (by simp only [List.tail_cons]; omega)
    obtain ⟨c, cs, hcs, hskip, hc⟩ := head_chars writer layout v
    simp only [chars, List.cons_append, List.append_assoc, value, skipSpace_chars]
    simp only [List.tail_cons] at hitems
    split
    · next heq => simp_all
    · rw [hitems]
      rfl

theorem reads_obj {fields : List (String × Json φ)} (hkeys : (Dict.keys fields).Nodup)
    (h : ∀ p ∈ fields.head?, Reads writer layout p.2)
    (htail : ReadsFields writer layout fields.tail) : ReadsClosed writer layout (.obj fields) := by
  intro lone fuel rest hfuel
  obtain ⟨fuel, rfl⟩ := fuel_succ writer layout hfuel
  cases fields with
  | nil => rfl
  | cons p fields =>
    obtain ⟨k, v⟩ := p
    simp only [chars, List.length_cons, List.length_append] at hfuel
    have hfields := htail lone k v fuel (quoted layout.ascii k ++ ':' :: (layout.gap ++
      (chars layout writer.repr v ++ (charsOfFields layout writer.repr fields ++ rest)))) rest
      (h (k, v) rfl) rfl (by simp only [List.tail_cons]; omega)
    simp only [List.tail_cons, quoted, List.cons_append, List.append_assoc] at hfields
    simp only [chars, quoted, List.cons_append, List.append_assoc, value]
    rw [show ∀ cs, skipSpace ('"' :: cs) = '"' :: cs from fun _ => rfl]
    split
    · next heq => cases heq
    · simp only [hfields, Option.bind_eq_bind, Option.bind_some, Dict.ofPairs_of_nodup hkeys]

theorem ReadsClosed.reads {v : Json φ} (h : ReadsClosed writer layout v) : Reads writer layout v :=
  fun lone fuel rest hfuel _ => h lone fuel rest hfuel

mutual

theorem reads : ∀ {v : Json φ}, Keyed v → Reads writer layout v
  | .null, _ => by
    intro lone fuel rest hfuel _
    obtain ⟨fuel, rfl⟩ := fuel_succ writer layout hfuel
    rfl
  | .bool true, _ => by
    intro lone fuel rest hfuel _
    obtain ⟨fuel, rfl⟩ := fuel_succ writer layout hfuel
    rfl
  | .bool false, _ => by
    intro lone fuel rest hfuel _
    obtain ⟨fuel, rfl⟩ := fuel_succ writer layout hfuel
    rfl
  | .int i, _ => reads_int writer layout i
  | .float x, _ => reads_float writer layout x
  | .str s, _ => (reads_str writer layout s).reads
  | .arr items, h =>
    have ⟨hhead, htail⟩ := readsItems h
    (reads_arr writer layout hhead htail).reads
  | .obj fields, h =>
    have ⟨hhead, htail⟩ := readsFields h.2
    (reads_obj writer layout h.1 hhead htail).reads

/-- The first item and the others. -/
theorem readsItems : ∀ {items : List (Json φ)}, KeyedItems items →
    (∀ v ∈ items.head?, Reads writer layout v) ∧ ReadsItems writer layout items.tail
  | [], _ => ⟨fun v hv => (by cases hv), readsItems_nil writer layout⟩
  | [v], h => ⟨fun v' hv' => (by cases hv'; exact reads h.1), readsItems_nil writer layout⟩
  | v :: w :: items, h =>
    have ⟨hhead, htail⟩ := readsItems h.2
    ⟨fun v' hv' => (by cases hv'; exact reads h.1),
      readsItems_cons writer layout (hhead w rfl) htail⟩

/-- The value of the first field and the other fields. -/
theorem readsFields : ∀ {fields : List (String × Json φ)}, KeyedFields fields →
    (∀ p ∈ fields.head?, Reads writer layout p.2) ∧ ReadsFields writer layout fields.tail
  | [], _ => ⟨fun p hp => (by cases hp), readsFields_nil writer layout⟩
  | [(k, v)], h => ⟨fun p hp => (by cases hp; exact reads h.1), readsFields_nil writer layout⟩
  | (k, v) :: (k', w) :: fields, h =>
    have ⟨hhead, htail⟩ := readsFields h.2
    ⟨fun p hp => (by cases hp; exact reads h.1),
      readsFields_cons writer layout (hhead (k', w) rfl) htail⟩

end

/-! ## 8. Whole texts -/

/-- A value is read back from its text at the head of a longer one. -/
theorem value_chars (lone : Option Char) {v : Json φ} (h : Keyed v) {fuel : Nat}
    {rest : List Char} (hfuel : 2 * (chars layout writer.repr v).length ≤ fuel) (hrest : Ends rest) :
    value lone float fuel (chars layout writer.repr v ++ rest) = some (v, rest) :=
  reads writer layout h lone fuel rest hfuel hrest

theorem loadsChars_chars (lone : Option Char) {v : Json φ} (h : Keyed v) :
    loadsChars lone float (chars layout writer.repr v) = .ok v := by
  have hskip := skipSpace_chars writer layout v []
  have hread := value_chars writer layout lone h (Nat.le_succ _) ends_nil
  rw [List.append_nil] at hskip hread
  rw [loadsChars, hskip, hread]
  rfl

/-- `json.loads` undoes `json.dumps`. -/
theorem loads_dumps {v : Json φ} (h : Keyed v) :
    loads float (text layout writer.repr v) = .ok v := by
  rw [loads, text, String.toList_ofList]
  exact loadsChars_chars writer layout _ h

/-- So does the parser of pydantic. -/
theorem strictLoads_dumps {v : Json φ} (h : Keyed v) :
    strictLoads float (text layout writer.repr v) = .ok v := by
  rw [strictLoads, text, String.toList_ofList]
  exact loadsChars_chars writer layout none h

/-- The closing brace ends an object, so any text may follow it. -/
theorem rawDecode_obj {fields : List (String × Json φ)} (h : Keyed (.obj fields)) (rest : String) :
    rawDecode float (text layout writer.repr (.obj fields) ++ rest) = .ok (.obj fields) := by
  have ⟨hhead, htail⟩ := readsFields writer layout h.2
  have hfuel : 2 * (chars layout writer.repr (.obj fields)).length ≤
      2 * (chars layout writer.repr (.obj fields) ++ rest.toList).length + 1 := by
    rw [List.length_append]
    omega
  rw [rawDecode, String.toList_append, text, String.toList_ofList,
    reads_obj writer layout h.1 hhead htail _ _ _ hfuel]

end Reading

/-! ## 9. What the parser returns -/

section Returned
variable {lone : Option Char} {float : String → φ}

theorem keyed_number {cs rest : List Char} {v : Json φ} (h : number float cs = some (v, rest)) :
    Keyed v := by
  have hform : (∃ i, v = .int i) ∨ ∃ x, v = .float x := by
    unfold number at h
    split at h
    split at h
    · cases h
    · dsimp only at h
      split at h
      · cases h
        exact .inl ⟨_, rfl⟩
      · cases h
        exact .inr ⟨_, rfl⟩
  rcases hform with ⟨i, rfl⟩ | ⟨x, rfl⟩ <;> trivial

/-- One more unit of fuel: the values below have distinct keys, and `ofPairs` makes those
of an object distinct. -/
theorem keyed_read (fuel : Nat) :
    (∀ cs v rest, value lone float fuel cs = some (v, rest) → Keyed v) ∧
    (∀ cs items rest, itemsRest lone float fuel cs = some (items, rest) → KeyedItems items) ∧
    (∀ cs fields rest, fieldsRest lone float fuel cs = some (fields, rest) → KeyedFields fields) := by
  induction fuel with
  | zero => simp [value, itemsRest, fieldsRest]
  | succ fuel ih =>
    obtain ⟨hvalue, hitems, hfields⟩ := ih
    refine ⟨?_, ?_, ?_⟩
    · intro cs v rest h
      unfold value at h
      split at h
      · cases h; trivial
      · cases h; trivial
      · cases h; trivial
      · cases h; trivial
      · cases h; trivial
      · cases h; trivial
      · obtain ⟨⟨s, after⟩, -, h⟩ := Option.bind_eq_some_iff.mp h
        cases h
        trivial
      · split at h
        · cases h
          trivial
        · obtain ⟨⟨items, after⟩, hread, h⟩ := Option.bind_eq_some_iff.mp h
          cases h
          exact hitems _ _ _ hread
      · split at h
        · cases h
          exact ⟨List.nodup_nil, trivial⟩
        · obtain ⟨⟨fields, after⟩, hread, h⟩ := Option.bind_eq_some_iff.mp h
          cases h
          refine ⟨Dict.nodup_keys_ofPairs fields, keyedFields_iff.mpr fun p hp => ?_⟩
          exact keyedFields_iff.mp (hfields _ _ _ hread) p (Dict.mem_of_mem_ofPairs hp)
      · exact keyed_number h
    · intro cs items rest h
      rw [itemsRest] at h
      obtain ⟨⟨v, after⟩, hv, h⟩ := Option.bind_eq_some_iff.mp h
      dsimp only at h
      split at h
      · cases h
        exact ⟨hvalue _ _ _ hv, trivial⟩
      · obtain ⟨⟨items', after'⟩, hread, h⟩ := Option.bind_eq_some_iff.mp h
        cases h
        exact ⟨hvalue _ _ _ hv, hitems _ _ _ hread⟩
      · cases h
    · intro cs fields rest h
      rw [fieldsRest] at h
      split at h
      · obtain ⟨⟨k, atColon⟩, -, h⟩ := Option.bind_eq_some_iff.mp h
        dsimp only at h
        split at h
        · obtain ⟨⟨v, after⟩, hv, h⟩ := Option.bind_eq_some_iff.mp h
          dsimp only at h
          split at h
          · cases h
            exact ⟨hvalue _ _ _ hv, trivial⟩
          · obtain ⟨⟨fields', after'⟩, hread, h⟩ := Option.bind_eq_some_iff.mp h
            cases h
            exact ⟨hvalue _ _ _ hv, hfields _ _ _ hread⟩
          · cases h
        · cases h
      · cases h

/-- What `json.loads` returns has distinct keys. -/
theorem keyed_of_loads {text : String} {v : Json φ} (h : loads float text = .ok v) : Keyed v := by
  rw [loads, loadsChars] at h
  split at h
  · next v' rest hread =>
    split at h
    · cases h
      exact (keyed_read _).1 _ _ _ hread
    · cases h
  · cases h

end Returned

/-! ## 10. The two parsers -/

section Strict
variable {float : String → φ}

theorem unicodeEscape_of_strict {cs : List Char} {p : Char × List Char}
    (h : unicodeEscape none cs = some p) (lone : Option Char) : unicodeEscape lone cs = some p := by
  unfold unicodeEscape at h ⊢
  obtain ⟨⟨hi, rest⟩, hhex, h⟩ := Option.bind_eq_some_iff.mp h
  rw [hhex]
  simp only [Option.bind_eq_bind, Option.bind_some, Option.map_none] at h ⊢
  split at h
  · next hhigh =>
    rw [if_pos hhigh]
    split at h
    · split at h
      · next lo rest'' hlow =>
        split at h
        · next hpair =>
          simp only [hpair, if_true]
          exact h
        · cases h
      · cases h
    · cases h
  · next hhigh =>
    rw [if_neg hhigh]
    split at h
    · cases h
    · next hlow =>
      rw [if_neg hlow]
      exact h

theorem stringRest_of_strict (lone : Option Char) {fuel : Nat} {cs : List Char}
    {p : List Char × List Char} (h : stringRest none fuel cs = some p) :
    stringRest lone fuel cs = some p := by
  fun_induction stringRest none fuel cs generalizing p
  case case1 => cases h
  case case2 => cases h
  case case3 rest => exact h
  case case4 fuel rest ih =>
    obtain ⟨⟨c, after⟩, hc, h⟩ := Option.bind_eq_some_iff.mp h
    obtain ⟨⟨s, after'⟩, hs, h⟩ := Option.bind_eq_some_iff.mp h
    rw [stringRest, unicodeEscape_of_strict hc lone]
    simp only [Option.bind_eq_bind, Option.bind_some]
    rw [ih _ hs]
    exact h
  case case5 fuel e rest hu ih =>
    obtain ⟨c, hc, h⟩ := Option.bind_eq_some_iff.mp h
    obtain ⟨⟨s, after⟩, hs, h⟩ := Option.bind_eq_some_iff.mp h
    rw [stringRest_simple lone hc hu, ih hs]
    exact h
  case case6 => cases h
  case case7 fuel c rest hquote hu hslash hplain ih =>
    obtain ⟨⟨s, after⟩, hs, h⟩ := Option.bind_eq_some_iff.mp h
    rw [stringRest, if_neg hplain, ih hs]
    · exact h
    · exact hquote
    · exact hu
    · exact hslash

/-- With this fuel, what is read without lone surrogates is read alike with them. -/
structure ReadAlike (lone : Option Char) (float : String → φ) (fuel : Nat) : Prop where
  value : ∀ cs p, Json.value none float fuel cs = some p → Json.value lone float fuel cs = some p
  items : ∀ cs p, itemsRest none float fuel cs = some p → itemsRest lone float fuel cs = some p
  fields : ∀ cs p, fieldsRest none float fuel cs = some p → fieldsRest lone float fuel cs = some p

section Step
variable {lone : Option Char} {fuel : Nat}

theorem value_of_strict (ih : ReadAlike lone float fuel) {cs : List Char}
    {p : Json φ × List Char} (h : value none float (fuel + 1) cs = some p) :
    value lone float (fuel + 1) cs = some p := by
  unfold value at h
  split at h
  · exact h
  · exact h
  · exact h
  · exact h
  · exact h
  · exact h
  · obtain ⟨⟨s, after⟩, hs, h⟩ := Option.bind_eq_some_iff.mp h
    rw [value, stringRest_of_strict lone hs]
    exact h
  · rw [value]
    split at h
    · exact h
    · obtain ⟨⟨items, after⟩, hread, h⟩ := Option.bind_eq_some_iff.mp h
      rw [ih.items _ _ hread]
      exact h
  · rw [value]
    split at h
    · exact h
    · obtain ⟨⟨fields, after⟩, hread, h⟩ := Option.bind_eq_some_iff.mp h
      rw [ih.fields _ _ hread]
      exact h
  · rw [value]
    · exact h
    all_goals assumption

theorem itemsRest_of_strict (ih : ReadAlike lone float fuel) {cs : List Char}
    {p : List (Json φ) × List Char} (h : itemsRest none float (fuel + 1) cs = some p) :
    itemsRest lone float (fuel + 1) cs = some p := by
  rw [itemsRest] at h ⊢
  obtain ⟨⟨v, after⟩, hv, h⟩ := Option.bind_eq_some_iff.mp h
  rw [ih.value _ _ hv]
  simp only [Option.bind_eq_bind, Option.bind_some] at h ⊢
  split at h
  · exact h
  · obtain ⟨⟨items', after'⟩, hread, h⟩ := Option.bind_eq_some_iff.mp h
    rw [ih.items _ _ hread]
    exact h
  · cases h

theorem fieldsRest_of_strict (ih : ReadAlike lone float fuel) {cs : List Char}
    {p : List (String × Json φ) × List Char} (h : fieldsRest none float (fuel + 1) cs = some p) :
    fieldsRest lone float (fuel + 1) cs = some p := by
  rw [fieldsRest] at h ⊢
  split at h
  · obtain ⟨⟨k, atColon⟩, hk, h⟩ := Option.bind_eq_some_iff.mp h
    rw [stringRest_of_strict lone hk]
    simp only [Option.bind_eq_bind, Option.bind_some] at h ⊢
    split at h
    · obtain ⟨⟨v, after⟩, hv, h⟩ := Option.bind_eq_some_iff.mp h
      rw [ih.value _ _ hv]
      simp only [Option.bind_some] at h ⊢
      split at h
      · exact h
      · obtain ⟨⟨fields', after'⟩, hread, h⟩ := Option.bind_eq_some_iff.mp h
        rw [ih.fields _ _ hread]
        exact h
      · cases h
    · cases h
  · cases h

end Step

theorem read_of_strict (lone : Option Char) (fuel : Nat) : ReadAlike lone float fuel := by
  induction fuel with
  | zero => constructor <;> simp [value, itemsRest, fieldsRest]
  | succ fuel ih =>
    exact
      { value := fun _ _ => value_of_strict ih
        items := fun _ _ => itemsRest_of_strict ih
        fields := fun _ _ => fieldsRest_of_strict ih }

/-- What the parser of pydantic reads, `json.loads` reads alike. -/
theorem loads_of_strictLoads {text : String} {v : Json φ} (h : strictLoads float text = .ok v) :
    loads float text = .ok v := by
  rw [strictLoads, loadsChars] at h
  rw [loads, loadsChars]
  split at h
  · next v' rest hread =>
    rw [(read_of_strict _ _).value _ _ hread]
    exact h
  · cases h

end Strict

end Json
