import TalentMatch.Lib.Base64Url
import TalentMatch.Lib.JsonText
import TalentMatch.Lib.Text

/-!
# Signed tokens in compact form

`header.payload.signature`: two JSON texts and a signature of both, each in base64 for
URLs. The signature is a function of the bytes of `header.payload`.

* `compact`: the token of a header and a payload.
* `verify`: what a reader does that knows the signature function. It returns the header
  and the payload of a token that was signed.
* `verify_compact`: a token is verified, and gives back its header and its payload.
-/

namespace Jwt

open Json (LoadsError Layout FloatWriter Keyed)

variable {φ : Type}

/-! ## 1. Parts -/

/-- The bytes of a text. -/
def utf8 (text : String) : List UInt8 := text.toByteArray.data.toList

/-- The text of bytes. -/
def text? (bytes : List UInt8) : Option String := String.fromUTF8? ⟨bytes.toArray⟩

theorem text?_utf8 (text : String) : text? (utf8 text) = some text := by
  have hvalid : ByteArray.IsValidUTF8 text.toByteArray := text.isValidUTF8
  have hbytes : (⟨(utf8 text).toArray⟩ : ByteArray) = text.toByteArray := rfl
  rw [text?, hbytes]
  simp only [String.fromUTF8?, hvalid, dif_pos]
  rfl

/-- A part of a token. -/
def part (bytes : List UInt8) : String := String.ofList (Base64Url.encode bytes)

def readPart (text : String) : Option (List UInt8) := Base64Url.decode text.toList

theorem readPart_part (bytes : List UInt8) : readPart (part bytes) = some bytes := by
  rw [readPart, part, String.toList_ofList, Base64Url.decode_encode]

theorem dot_not_mem_part (bytes : List UInt8) : '.' ∉ (part bytes).toList := by
  rw [part, String.toList_ofList]
  intro h
  exact absurd (Base64Url.mem_alphabet_of_mem_encode h) (by decide)

/-! ## 2. Tokens -/

section Tokens
variable (float : String → φ) (layout : Layout) (repr : φ → String)
  (sign : List UInt8 → List UInt8)

/-- A JSON value as a part. -/
def jsonPart (v : Json φ) : String := part (utf8 (Json.text layout repr v))

def readJsonPart (text : String) : Option (Json φ) :=
  (readPart text).bind fun bytes => (text? bytes).bind fun text => (Json.loads float text).toOption

/-- The token of a header and a payload. -/
def compact (header payload : Json φ) : String :=
  let input := jsonPart layout repr header ++ "." ++ jsonPart layout repr payload
  input ++ "." ++ part (sign (utf8 input))

/-- The header and the payload of a token, when its signature is theirs. -/
def verify (token : String) : Option (Json φ × Json φ) :=
  match PyText.split token '.' with
  | [header, payload, signature] => do
    let signed ← readPart signature
    if signed = sign (utf8 (header ++ "." ++ payload)) then
      let header ← readJsonPart float header
      let payload ← readJsonPart float payload
      some (header, payload)
    else none
  | _ => none

end Tokens

section Verify
variable {float : String → φ} (writer : FloatWriter float) (layout : Layout)
  (sign : List UInt8 → List UInt8) {header payload : Json φ}

theorem readJsonPart_jsonPart {v : Json φ} (h : Keyed v) :
    readJsonPart float (jsonPart layout writer.repr v) = some v := by
  rw [readJsonPart, jsonPart, readPart_part, Option.bind_some, text?_utf8, Option.bind_some,
    Json.loads_dumps writer layout h]
  rfl

/-- A token has its three parts. -/
theorem split_compact (repr : φ → String) (header payload : Json φ) :
    PyText.split (compact layout repr sign header payload) '.' =
      [jsonPart layout repr header, jsonPart layout repr payload,
        part (sign (utf8 (jsonPart layout repr header ++ "." ++ jsonPart layout repr payload)))] := by
  refine PyText.split_eq_iff.mpr ⟨by simp, ?_, ?_⟩
  · simp [compact, List.intercalate, List.intersperse]
  · intro p hp
    simp only [List.mem_cons, List.not_mem_nil, or_false] at hp
    rcases hp with rfl | rfl | rfl <;> exact dot_not_mem_part _

/-- A token is verified, and gives back its header and its payload. -/
theorem verify_compact (hheader : Keyed header) (hpayload : Keyed payload) :
    verify float sign (compact layout writer.repr sign header payload) = some (header, payload) := by
  rw [verify, split_compact]
  simp only [readPart_part, Option.bind_eq_bind, Option.bind_some, if_true,
    readJsonPart_jsonPart writer layout hheader, readJsonPart_jsonPart writer layout hpayload]

end Verify

end Jwt
