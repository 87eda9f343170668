import Mathlib.Data.List.Basic

/-!
# Hexadecimal text

Byte strings as text with two lower-case digits per byte. Decoding also accepts upper-case
digits and refuses text of odd length. It works on the UTF-8 bytes of the text.
-/

namespace Hex

/-- The lower-case digit of a number below 16. -/
def digit (n : ℕ) : Char :=
  if n < 10 then Char.ofNat (48 + n) else Char.ofNat (87 + n)

/-- The number that the code of a digit stands for. -/
def digitValue (c : UInt8) : Option ℕ :=
  let n := c.toNat
  if 48 ≤ n ∧ n ≤ 57 then some (n - 48)
  else if 97 ≤ n ∧ n ≤ 102 then some (n - 87)
  else if 65 ≤ n ∧ n ≤ 70 then some (n - 55)
  else none

/-- The digits of a byte, high half first. -/
def byteDigits (b : UInt8) : List Char := [digit (b.toNat / 16), digit (b.toNat % 16)]

/-- The text of a byte string. -/
def encode (bytes : List UInt8) : String := String.ofList (bytes.flatMap byteDigits)

/-- The bytes that pairs of digits stand for. -/
def decodeDigits : List UInt8 → Option (List UInt8)
  | [] => some []
  | [_] => none
  | hi :: lo :: rest => do
    let h ← digitValue hi
    let l ← digitValue lo
    let bytes ← decodeDigits rest
    some (UInt8.ofNat (16 * h + l) :: bytes)

/-- The bytes of a text, if it has an even number of characters and all are digits. -/
def decode (text : String) : Option (List UInt8) := decodeDigits text.toByteArray.data.toList

/-- A digit is one byte of text, and that byte reads as the number. -/
theorem exists_utf8EncodeChar_digit {n : ℕ} (h : n < 16) :
    ∃ c, String.utf8EncodeChar (digit n) = [c] ∧ digitValue c = some n := by
  have hall : ∀ m : Fin 16, ∃ c, String.utf8EncodeChar (digit m) = [c] ∧
      digitValue c = some m.val := by
    intro m
    refine ⟨(digit m).toUInt8, ?_⟩
    revert m
    decide
  exact hall ⟨n, h⟩

theorem decodeDigits_utf8_byteDigits (bytes : List UInt8) :
    decodeDigits ((bytes.flatMap byteDigits).flatMap String.utf8EncodeChar) = some bytes := by
  induction bytes with
  | nil => rfl
  | cons b bytes ih =>
    have hb : b.toNat < 256 := b.toNat_lt
    obtain ⟨hi, hhi, hhiv⟩ := exists_utf8EncodeChar_digit (show b.toNat / 16 < 16 by omega)
    obtain ⟨lo, hlo, hlov⟩ := exists_utf8EncodeChar_digit (show b.toNat % 16 < 16 by omega)
    have hhalves : 16 * (b.toNat / 16) + b.toNat % 16 = b.toNat := Nat.div_add_mod _ _
    simp only [List.flatMap_cons, byteDigits, hhi, hlo, List.cons_append, List.nil_append,
      decodeDigits, hhiv, hlov, ih, Option.bind_eq_bind, Option.bind_some, hhalves,
      UInt8.ofNat_toNat]

/-- Every byte needs two digits. -/
theorem length_of_decodeDigits {digits bytes : List UInt8} (h : decodeDigits digits = some bytes) :
    digits.length = 2 * bytes.length := by
  induction digits using decodeDigits.induct generalizing bytes with
  | case1 =>
    obtain rfl := Option.some.inj h
    rfl
  | case2 => cases h
  | case3 hi lo rest ih =>
    simp only [decodeDigits, Option.bind_eq_bind, Option.bind_eq_some_iff, Option.some.injEq] at h
    obtain ⟨_, _, _, _, tail, htail, rfl⟩ := h
    have hrest := ih htail
    simp only [List.length_cons]
    omega

/-- What decodes consists of digits. -/
theorem digitValue_of_decodeDigits {digits bytes : List UInt8}
    (h : decodeDigits digits = some bytes) : ∀ c ∈ digits, (digitValue c).isSome = true := by
  induction digits using decodeDigits.induct generalizing bytes with
  | case1 => rintro c ⟨⟩
  | case2 => cases h
  | case3 hi lo rest ih =>
    simp only [decodeDigits, Option.bind_eq_bind, Option.bind_eq_some_iff, Option.some.injEq] at h
    obtain ⟨_, hhi, _, hlo, tail, htail, _⟩ := h
    rw [List.forall_mem_cons, List.forall_mem_cons]
    exact ⟨by rw [hhi]; rfl, by rw [hlo]; rfl, ih htail⟩

/-- The text of a byte string decodes to the byte string. -/
@[simp]
theorem decode_encode (bytes : List UInt8) : decode (encode bytes) = some bytes := by
  rw [decode, encode]
  have hbytes : (String.ofList (bytes.flatMap byteDigits)).toByteArray.data.toList =
      (bytes.flatMap byteDigits).flatMap String.utf8EncodeChar := by
    simp [List.utf8Encode]
  rw [hbytes, decodeDigits_utf8_byteDigits]

@[simp]
theorem encode_nil : encode [] = "" := rfl

end Hex
