import Mathlib.Data.List.DropRight
import Mathlib.Data.List.Basic

/-!
# Base64 for URLs

The alphabet of base64 in which `-` and `_` stand for `+` and `/`. A group of three bytes
is four characters, and a shorter last group is padded with `=`. Bytes are numbers below
256 in the type `UInt8`.

* `encode`: the text without its padding. It is `padded` without the `=` at the end
  (`rdropWhile_padded`).
* `decode_encode`: it is read back.
* `mem_alphabet_of_mem_encode`: it has characters of the alphabet only.
-/

namespace Base64Url

/-! ## 1. The alphabet -/

def alphabet : List Char :=
  "ABCDEFGHIJKLMNOPQRSTUVWXYZabcdefghijklmnopqrstuvwxyz0123456789-_".toList

/-- The character for six bits. -/
def symbol (n : Nat) : Char := alphabet.getD n '='

/-- The six bits of a character. -/
def value (c : Char) : Option Nat := alphabet.idxOf? c

theorem value_symbol {n : Nat} (h : n < 64) : value (symbol n) = some n := by
  have hall : ∀ n : Fin 64, value (symbol n) = some n.val := by decide +kernel
  exact hall ⟨n, h⟩

theorem symbol_mem {n : Nat} (h : n < 64) : symbol n ∈ alphabet := by
  have hall : ∀ n : Fin 64, symbol n ∈ alphabet := by decide +kernel
  exact hall ⟨n, h⟩

/-! ## 2. Writing and reading -/

/-- The characters of the bytes, without padding. -/
def encode : List UInt8 → List Char
  | a :: b :: c :: rest =>
    symbol (a.toNat / 4) :: symbol (a.toNat % 4 * 16 + b.toNat / 16) ::
      symbol (b.toNat % 16 * 4 + c.toNat / 64) :: symbol (c.toNat % 64) :: encode rest
  | [a, b] =>
    [symbol (a.toNat / 4), symbol (a.toNat % 4 * 16 + b.toNat / 16), symbol (b.toNat % 16 * 4)]
  | [a] => [symbol (a.toNat / 4), symbol (a.toNat % 4 * 16)]
  | [] => []

/-- The characters of the bytes, in groups of four. -/
def padded : List UInt8 → List Char
  | a :: b :: c :: rest =>
    symbol (a.toNat / 4) :: symbol (a.toNat % 4 * 16 + b.toNat / 16) ::
      symbol (b.toNat % 16 * 4 + c.toNat / 64) :: symbol (c.toNat % 64) :: padded rest
  | [a, b] => encode [a, b] ++ ['=']
  | [a] => encode [a] ++ ['=', '=']
  | [] => []

/-- The bytes of characters without padding. -/
def decode : List Char → Option (List UInt8)
  | p :: q :: r :: s :: rest => do
    let p ← value p
    let q ← value q
    let r ← value r
    let s ← value s
    let bytes ← decode rest
    some (UInt8.ofNat (p * 4 + q / 16) :: UInt8.ofNat (q % 16 * 16 + r / 4) ::
      UInt8.ofNat (r % 4 * 64 + s) :: bytes)
  | [p, q, r] => do
    let p ← value p
    let q ← value q
    let r ← value r
    if r % 4 = 0 then some [UInt8.ofNat (p * 4 + q / 16), UInt8.ofNat (q % 16 * 16 + r / 4)]
    else none
  | [p, q] => do
    let p ← value p
    let q ← value q
    if q % 16 = 0 then some [UInt8.ofNat (p * 4 + q / 16)] else none
  | [_] => none
  | [] => some []

/-! ## 3. What is written is read back -/

theorem toNat_lt (a : UInt8) : a.toNat < 256 := a.toNat_lt_size

/-- A byte from its two halves, at six and two bits. -/
theorem byte_first (a : UInt8) {n : Nat} (h : n < 16) :
    UInt8.ofNat (a.toNat / 4 * 4 + (a.toNat % 4 * 16 + n) / 16) = a := by
  have hsum : a.toNat / 4 * 4 + (a.toNat % 4 * 16 + n) / 16 = a.toNat := by omega
  rw [hsum, UInt8.ofNat_toNat]

/-- At four and four bits. -/
theorem byte_second (a b : UInt8) {n : Nat} (h : n < 4) :
    UInt8.ofNat ((a.toNat % 4 * 16 + b.toNat / 16) % 16 * 16 + (b.toNat % 16 * 4 + n) / 4) = b := by
  have hlt := toNat_lt b
  have hsum : (a.toNat % 4 * 16 + b.toNat / 16) % 16 * 16 + (b.toNat % 16 * 4 + n) / 4 = b.toNat := by
    omega
  rw [hsum, UInt8.ofNat_toNat]

/-- At two and six bits. -/
theorem byte_third (b c : UInt8) :
    UInt8.ofNat ((b.toNat % 16 * 4 + c.toNat / 64) % 4 * 64 + c.toNat % 64) = c := by
  have hlt := toNat_lt c
  have hsum : (b.toNat % 16 * 4 + c.toNat / 64) % 4 * 64 + c.toNat % 64 = c.toNat := by omega
  rw [hsum, UInt8.ofNat_toNat]

theorem decode_encode (bytes : List UInt8) : decode (encode bytes) = some bytes := by
  fun_induction encode bytes with
  | case1 a b c rest ih =>
    have ha := toNat_lt a
    have hb := toNat_lt b
    have hc := toNat_lt c
    rw [decode, value_symbol (by omega), value_symbol (by omega), value_symbol (by omega),
      value_symbol (by omega), ih]
    simp only [Option.bind_eq_bind, Option.bind_some,
      byte_first a (show b.toNat / 16 < 16 by omega), byte_second a b (show c.toNat / 64 < 4 by omega),
      byte_third b c]
  | case2 a b =>
    have ha := toNat_lt a
    have hb := toNat_lt b
    have hpad : b.toNat % 16 * 4 % 4 = 0 := by omega
    have hsecond := byte_second a b (show 0 < 4 by omega)
    rw [Nat.add_zero] at hsecond
    rw [decode, value_symbol (by omega), value_symbol (by omega), value_symbol (by omega)]
    simp only [Option.bind_eq_bind, Option.bind_some, if_pos hpad,
      byte_first a (show b.toNat / 16 < 16 by omega), hsecond]
  | case3 a =>
    have ha := toNat_lt a
    have hpad : a.toNat % 4 * 16 % 16 = 0 := by omega
    have hfirst := byte_first a (show 0 < 16 by omega)
    rw [Nat.add_zero] at hfirst
    rw [decode, value_symbol (by omega), value_symbol (by omega)]
    simp only [Option.bind_eq_bind, Option.bind_some, if_pos hpad, hfirst]
  | case4 => rfl

theorem mem_alphabet_of_mem_encode {bytes : List UInt8} {x : Char} (h : x ∈ encode bytes) :
    x ∈ alphabet := by
  fun_induction encode bytes with
  | case1 a b c rest ih =>
    have ha := toNat_lt a
    have hb := toNat_lt b
    have hc := toNat_lt c
    simp only [List.mem_cons] at h
    rcases h with rfl | rfl | rfl | rfl | h
    · exact symbol_mem (by omega)
    · exact symbol_mem (by omega)
    · exact symbol_mem (by omega)
    · exact symbol_mem (by omega)
    · exact ih h
  | case2 a b =>
    have ha := toNat_lt a
    have hb := toNat_lt b
    simp only [List.mem_cons, List.not_mem_nil, or_false] at h
    rcases h with rfl | rfl | rfl <;> exact symbol_mem (by omega)
  | case3 a =>
    have ha := toNat_lt a
    simp only [List.mem_cons, List.not_mem_nil, or_false] at h
    rcases h with rfl | rfl <;> exact symbol_mem (by omega)
  | case4 => cases h

/-- The padding is what follows the characters. -/
theorem padded_eq (bytes : List UInt8) : ∃ n, padded bytes = encode bytes ++ List.replicate n '=' := by
  fun_induction padded bytes with
  | case1 a b c rest ih =>
    obtain ⟨n, hn⟩ := ih
    exact ⟨n, by rw [hn, encode]; rfl⟩
  | case2 a b => exact ⟨1, rfl⟩
  | case3 a => exact ⟨2, rfl⟩
  | case4 => exact ⟨0, rfl⟩

/-- Without the padding the text is `encode`. -/
theorem rdropWhile_padded (bytes : List UInt8) :
    (padded bytes).rdropWhile (· == '=') = encode bytes := by
  obtain ⟨n, hn⟩ := padded_eq bytes
  rw [hn]
  clear hn
  induction n with
  | zero =>
    rw [List.replicate_zero, List.append_nil]
    refine List.rdropWhile_eq_self_iff.mpr fun hne hlast => ?_
    have hmem := mem_alphabet_of_mem_encode (List.getLast_mem hne)
    rw [eq_of_beq hlast] at hmem
    exact absurd hmem (by decide)
  | succ n ih =>
    rw [List.replicate_succ', ← List.append_assoc, List.rdropWhile_concat_pos _ _ _ rfl]
    exact ih

end Base64Url
