import TalentMatch.Lib.Dict

/-!
# JSON in the Python runtime

The values of `json.loads`, for an arbitrary type `φ` of floating point numbers,
and the function itself. An object is a dictionary in insertion order; a repeated
key keeps its first place and its last value.

Integers are unbounded and depth is too: the limits of the Python runtime on both
are not modelled. A lone surrogate, which a Lean text cannot hold, is read as
U+FFFD by `json.loads`; the parser of pydantic does not accept it.

* `truthy`: the truth value of a JSON value in a condition.
* `loads`, `strictLoads`: the two parsers.
-/

/-- A decoded JSON value. -/
inductive Json (φ : Type) where
  | null
  | bool (b : Bool)
  | int (i : Int)
  | float (x : φ)
  | str (s : String)
  | arr (items : List (Json φ))
  | obj (fields : List (String × Json φ))

namespace Json

variable {φ : Type}

/-- `bool(value)`, where `isZero` recognises the zeros of `φ`. -/
def truthy (isZero : φ → Bool) : Json φ → Bool
  | null => false
  | bool b => b
  | int i => i != 0
  | float x => !isZero x
  | str s => s != ""
  | arr items => !items.isEmpty
  | obj fields => !fields.isEmpty

/-- What `json.loads` raises: a `JSONDecodeError`, or something else. -/
inductive LoadsError where
  | decode
  | other
  deriving DecidableEq

/-! ## 1. Tokens -/

def skipSpace (cs : List Char) : List Char :=
  cs.dropWhile fun c => c == ' ' || c == '\t' || c == '\n' || c == '\r'

def hexDigit (c : Char) : Option Nat :=
  if c.isDigit then some (c.toNat - '0'.toNat)
  else if 'a' ≤ c && c ≤ 'f' then some (c.toNat - 'a'.toNat + 10)
  else if 'A' ≤ c && c ≤ 'F' then some (c.toNat - 'A'.toNat + 10)
  else none

/-- Four hexadecimal digits. -/
def hex4 : List Char → Option (Nat × List Char)
  | a :: b :: c :: d :: rest => do
    let a ← hexDigit a
    let b ← hexDigit b
    let c ← hexDigit c
    let d ← hexDigit d
    some (((a * 16 + b) * 16 + c) * 16 + d, rest)
  | _ => none

section Strings
variable (lone : Option Char)

/-- What follows `\u`: one code unit, or two that form a surrogate pair. A surrogate that
is not part of a pair is read as `lone`, if it is accepted. -/
def unicodeEscape (cs : List Char) : Option (Char × List Char) := do
  let (hi, rest) ← hex4 cs
  if 0xd800 ≤ hi && hi ≤ 0xdbff then
    match rest with
    | '\\' :: 'u' :: rest' =>
      match hex4 rest' with
      | some (lo, rest'') =>
        if 0xdc00 ≤ lo && lo ≤ 0xdfff then
          some (Char.ofNat (0x10000 + (hi - 0xd800) * 0x400 + (lo - 0xdc00)), rest'')
        else lone.map fun c => (c, rest)
      | none => lone.map fun c => (c, rest)
    | _ => lone.map fun c => (c, rest)
  else if 0xdc00 ≤ hi && hi ≤ 0xdfff then lone.map fun c => (c, rest)
  else some (Char.ofNat hi, rest)

/-- A character escape other than `\u`. -/
def simpleEscape : Char → Option Char
  | '"' => some '"'
  | '\\' => some '\\'
  | '/' => some '/'
  | 'b' => some '\x08'
  | 'f' => some '\x0c'
  | 'n' => some '\n'
  | 'r' => some '\r'
  | 't' => some '\t'
  | _ => none

/-- The rest of a string after its opening quote. -/
def stringRest : Nat → List Char → Option (List Char × List Char)
  | 0, _ => none
  | _, [] => none
  | _ + 1, '"' :: rest => some ([], rest)
  | fuel + 1, '\\' :: 'u' :: rest => do
    let (c, rest) ← unicodeEscape lone rest
    let (cs, rest) ← stringRest fuel rest
    some (c :: cs, rest)
  | fuel + 1, '\\' :: e :: rest => do
    let c ← simpleEscape e
    let (cs, rest) ← stringRest fuel rest
    some (c :: cs, rest)
  | fuel + 1, c :: rest =>
    -- control characters are not allowed inside a string
    if c.toNat < 0x20 || c == '\\' then none
    else do
      let (cs, rest) ← stringRest fuel rest
      some (c :: cs, rest)

end Strings

def digits (cs : List Char) : List Char × List Char :=
  (cs.takeWhile Char.isDigit, cs.dropWhile Char.isDigit)

/-- The digits before the point: no leading zero unless it is alone. -/
def intPart : List Char → Option (List Char × List Char)
  | '0' :: rest => some (['0'], rest)
  | c :: rest => if c.isDigit then some (digits (c :: rest)) else none
  | [] => none

/-- An optional fraction. -/
def fracPart : List Char → List Char × List Char
  | '.' :: rest =>
    if (digits rest).1.isEmpty then ([], '.' :: rest)
    else ('.' :: (digits rest).1, (digits rest).2)
  | cs => ([], cs)

/-- An optional exponent. -/
def expPart (cs : List Char) : List Char × List Char :=
  match cs with
  | e :: rest =>
    if e == 'e' || e == 'E' then
      let (sign, rest') : List Char × List Char :=
        match rest with
        | '+' :: r => (['+'], r)
        | '-' :: r => (['-'], r)
        | r => ([], r)
      if (digits rest').1.isEmpty then ([], cs)
      else (e :: sign ++ (digits rest').1, (digits rest').2)
    else ([], cs)
  | [] => ([], [])

def natOfDigits (ds : List Char) : Nat :=
  ds.foldl (fun n c => n * 10 + (c.toNat - '0'.toNat)) 0

section Parser
variable (lone : Option Char) (float : String → φ)

/-- A number: an integer unless it has a fraction or an exponent. -/
def number (cs : List Char) : Option (Json φ × List Char) :=
  let (negative, body) : Bool × List Char :=
    match cs with
    | '-' :: rest => (true, rest)
    | rest => (false, rest)
  match intPart body with
  | none => none
  | some (ds, rest) =>
    let (frac, rest) := fracPart rest
    let (exp, rest) := expPart rest
    if frac.isEmpty && exp.isEmpty then
      let n : Int := natOfDigits ds
      some (.int (if negative then -n else n), rest)
    else
      let sign := if negative then ['-'] else []
      some (.float (float (String.ofList (sign ++ ds ++ frac ++ exp))), rest)

/-! ## 2. Values -/

mutual

/-- A value, at the head of the text. -/
def value : Nat → List Char → Option (Json φ × List Char)
  | 0, _ => none
  | fuel + 1, cs =>
    match cs with
    | 'n' :: 'u' :: 'l' :: 'l' :: rest => some (.null, rest)
    | 't' :: 'r' :: 'u' :: 'e' :: rest => some (.bool true, rest)
    | 'f' :: 'a' :: 'l' :: 's' :: 'e' :: rest => some (.bool false, rest)
    | 'N' :: 'a' :: 'N' :: rest => some (.float (float "NaN"), rest)
    | 'I' :: 'n' :: 'f' :: 'i' :: 'n' :: 'i' :: 't' :: 'y' :: rest =>
      some (.float (float "Infinity"), rest)
    | '-' :: 'I' :: 'n' :: 'f' :: 'i' :: 'n' :: 'i' :: 't' :: 'y' :: rest =>
      some (.float (float "-Infinity"), rest)
    | '"' :: rest => do
      let (s, rest) ← stringRest lone fuel rest
      some (.str (String.ofList s), rest)
    | '[' :: rest =>
      match skipSpace rest with
      | ']' :: rest => some (.arr [], rest)
      | rest => do
        let (items, rest) ← itemsRest fuel rest
        some (.arr items, rest)
    | '{' :: rest =>
      match skipSpace rest with
      | '}' :: rest => some (.obj [], rest)
      | rest => do
        let (fields, rest) ← fieldsRest fuel rest
        some (.obj (Dict.ofPairs fields), rest)
    | cs => number float cs

/-- The items of an array from the first one to the closing bracket. -/
def itemsRest : Nat → List Char → Option (List (Json φ) × List Char)
  | 0, _ => none
  | fuel + 1, cs => do
    let (v, rest) ← value fuel (skipSpace cs)
    match skipSpace rest with
    | ']' :: rest => some ([v], rest)
    | ',' :: rest =>
      let (items, rest) ← itemsRest fuel rest
      some (v :: items, rest)
    | _ => none

/-- The fields of an object from the first one to the closing brace. -/
def fieldsRest : Nat → List Char → Option (List (String × Json φ) × List Char)
  | 0, _ => none
  | fuel + 1, cs =>
    match skipSpace cs with
    | '"' :: rest => do
      let (k, rest) ← stringRest lone fuel rest
      match skipSpace rest with
      | ':' :: rest =>
        let (v, rest) ← value fuel (skipSpace rest)
        match skipSpace rest with
        | '}' :: rest => some ([(String.ofList k, v)], rest)
        | ',' :: rest =>
          let (fields, rest) ← fieldsRest fuel rest
          some ((String.ofList k, v) :: fields, rest)
        | _ => none
      | _ => none
    | _ => none

end

/-- The value that the characters of a text spell. -/
def loadsChars (cs : List Char) : Except LoadsError (Json φ) :=
  match value lone float (2 * cs.length + 1) (skipSpace cs) with
  | some (v, rest) => if (skipSpace rest).isEmpty then .ok v else .error .decode
  | none => .error .decode

/-- `json.loads(text)`. -/
def loads (text : String) : Except LoadsError (Json φ) :=
  loadsChars (some (Char.ofNat 0xfffd)) float text.toList

/-- The parser of pydantic, which does not accept lone surrogates. -/
def strictLoads (text : String) : Except LoadsError (Json φ) := loadsChars none float text.toList

theorem loads_of_toList {text : String} {cs : List Char} (h : text.toList = cs) :
    loads float text = loadsChars (some (Char.ofNat 0xfffd)) float cs := by
  rw [← h]
  rfl

end Parser

end Json
