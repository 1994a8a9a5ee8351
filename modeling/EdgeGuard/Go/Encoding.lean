import EdgeGuard.Go.Strings
import Mathlib.Tactic.Ring

/-! The text encodings of Go's `encoding/hex` and `encoding/base64` packages
(`RawURLEncoding`), with the round trips that make an encoded value readable
again. Decoders accept more than encoders produce: either case of a hexadecimal
digit, and line breaks or nonzero trailing bits in base64. -/
namespace EdgeGuard.Go

def hexDigits : Str := lit "0123456789abcdef"

def hexDigit (value : Nat) : UInt8 := hexDigits.getD value 0

/-- `hex.fromHexChar`. -/
def fromHexChar (c : UInt8) : Option Nat :=
  if 48 ≤ c ∧ c ≤ 57 then some (c.toNat - 48)
  else if 97 ≤ c ∧ c ≤ 102 then some (c.toNat - 97 + 10)
  else if 65 ≤ c ∧ c ≤ 70 then some (c.toNat - 65 + 10)
  else none

def hexEncode (bytes : List UInt8) : Str :=
  bytes.flatMap (fun byte => [hexDigit (byte.toNat / 16), hexDigit (byte.toNat % 16)])

/-- `hex.DecodeString`; an odd length or a character outside the alphabet fails. -/
def hexDecode : Str → Option (List UInt8)
  | [] => some []
  | [_] => none
  | high :: low :: rest => do
    let a ← fromHexChar high
    let b ← fromHexChar low
    let tail ← hexDecode rest
    some (UInt8.ofNat (a * 16 + b) :: tail)

private theorem ofNat_eq {value : Nat} {byte : UInt8} (same : value = byte.toNat) :
    UInt8.ofNat value = byte := by
  rw [same, UInt8.ofNat_toNat]

theorem fromHexChar_hexDigit : ∀ value < 16, fromHexChar (hexDigit value) = some value := by
  decide

private theorem hexDigit_mem : ∀ value < 16, hexDigit value ∈ hexDigits := by decide

theorem hexDecode_hexEncode (bytes : List UInt8) : hexDecode (hexEncode bytes) = some bytes := by
  induction bytes with
  | nil => rfl
  | cons byte rest ih =>
    have bound := byte.toNat_lt
    have high := fromHexChar_hexDigit (byte.toNat / 16) (by omega)
    have low := fromHexChar_hexDigit (byte.toNat % 16) (by omega)
    have join : UInt8.ofNat (byte.toNat / 16 * 16 + byte.toNat % 16) = byte := ofNat_eq (by omega)
    change hexDecode (hexDigit _ :: hexDigit _ :: hexEncode rest) = _
    simp only [hexDecode, high, low, ih, Option.bind_eq_bind, Option.bind_some, join]

theorem hexEncode_injective : Function.Injective hexEncode := by
  intro a b same
  have decoded := hexDecode_hexEncode a
  rw [same, hexDecode_hexEncode] at decoded
  exact (Option.some.inj decoded).symm

/-- Every character of a decodable text is a hexadecimal digit. -/
theorem hexDecode_isSome {s : Str} (decoded : (hexDecode s).isSome = true) :
    ∀ c ∈ s, (fromHexChar c).isSome = true := by
  induction s using hexDecode.induct with
  | case1 => simp
  | case2 => simp [hexDecode] at decoded
  | case3 high low rest ih =>
    simp only [hexDecode, Option.bind_eq_bind, Option.isSome_bind, Option.any_eq_true] at decoded
    obtain ⟨a, first, b, second, tail, later, _⟩ := decoded
    have more := ih (Option.isSome_iff_exists.mpr ⟨tail, later⟩)
    intro c member
    simp only [List.mem_cons] at member
    rcases member with rfl | rfl | inside
    · exact Option.isSome_iff_exists.mpr ⟨a, first⟩
    · exact Option.isSome_iff_exists.mpr ⟨b, second⟩
    · exact more c inside

theorem hexEncode_length (bytes : List UInt8) : (hexEncode bytes).length = 2 * bytes.length := by
  induction bytes with
  | nil => rfl
  | cons byte rest ih =>
    change (hexDigit _ :: hexDigit _ :: hexEncode rest).length = _
    simp only [List.length_cons, ih]
    ring

theorem hexEncode_digits (bytes : List UInt8) : ∀ c ∈ hexEncode bytes, c ∈ hexDigits := by
  intro c member
  obtain ⟨byte, _, inside⟩ := List.mem_flatMap.mp member
  have bound := byte.toNat_lt
  simp only [List.mem_cons, List.not_mem_nil, or_false] at inside
  rcases inside with rfl | rfl
  · exact hexDigit_mem _ (by omega)
  · exact hexDigit_mem _ (by omega)

theorem hexEncode_visible (bytes : List UInt8) : ∀ c ∈ hexEncode bytes, visible c = true := by
  have digits : ∀ c ∈ hexDigits, visible c = true := List.all_eq_true.mp (by decide)
  intro c member
  exact digits c (hexEncode_digits bytes c member)

theorem trimSpace_hexEncode (bytes : List UInt8) : trimSpace (hexEncode bytes) = hexEncode bytes := by
  apply trimSpace_of_visible
  · intro c first
    exact hexEncode_visible bytes c (List.mem_of_mem_head? first)
  · intro c last
    exact hexEncode_visible bytes c (List.mem_of_getLast? last)

def base64Alphabet : Str :=
  lit "ABCDEFGHIJKLMNOPQRSTUVWXYZabcdefghijklmnopqrstuvwxyz0123456789-_"

def base64Digit (value : Nat) : UInt8 := base64Alphabet.getD value 0

def base64Value (c : UInt8) : Option Nat := base64Alphabet.idxOf? c

/-- `base64.RawURLEncoding.EncodeToString`: three bytes to four digits, and a
shorter last group of two or three digits. -/
def base64Encode : List UInt8 → Str
  | [] => []
  | [a] => [base64Digit (a.toNat / 4), base64Digit (a.toNat % 4 * 16)]
  | [a, b] => [base64Digit (a.toNat / 4), base64Digit (a.toNat % 4 * 16 + b.toNat / 16),
      base64Digit (b.toNat % 16 * 4)]
  | a :: b :: c :: rest => base64Digit (a.toNat / 4) ::
      base64Digit (a.toNat % 4 * 16 + b.toNat / 16) ::
      base64Digit (b.toNat % 16 * 4 + c.toNat / 64) ::
      base64Digit (c.toNat % 64) :: base64Encode rest

/-- The bytes of a digit sequence. Bits of the last group that fill no byte are
dropped; a single left-over digit fails. -/
def base64Bytes : List Nat → Option (List UInt8)
  | [] => some []
  | [_] => none
  | [a, b] => some [UInt8.ofNat (a * 4 + b / 16)]
  | [a, b, c] => some [UInt8.ofNat (a * 4 + b / 16), UInt8.ofNat (b % 16 * 16 + c / 4)]
  | a :: b :: c :: d :: rest => do
    let tail ← base64Bytes rest
    some (UInt8.ofNat (a * 4 + b / 16) :: UInt8.ofNat (b % 16 * 16 + c / 4) ::
      UInt8.ofNat (c % 4 * 64 + d) :: tail)

/-- `base64.RawURLEncoding.DecodeString`, which skips carriage returns and line
feeds wherever they stand. -/
def base64Decode (s : Str) : Option (List UInt8) := do
  let digits ← (s.filter (fun c => c != 13 && c != 10)).mapM base64Value
  base64Bytes digits

private theorem base64Value_digit : ∀ value < 64, base64Value (base64Digit value) = some value := by
  decide

private theorem base64Digit_mem (value : Nat) (small : value < 64) :
    base64Digit value ∈ base64Alphabet := by
  have inside : value < base64Alphabet.length := small
  rw [base64Digit, List.getD_eq_getElem?_getD, List.getElem?_eq_getElem inside, Option.getD_some]
  exact List.getElem_mem inside

private theorem base64Alphabet_unbroken :
    ∀ c ∈ base64Alphabet, (c != 13 && c != 10) = true := List.all_eq_true.mp (by decide)

theorem base64Encode_digits (bytes : List UInt8) :
    ∀ c ∈ base64Encode bytes, c ∈ base64Alphabet := by
  fun_induction base64Encode bytes with
  | case1 => simp
  | case2 a =>
    have := a.toNat_lt
    simp only [List.mem_cons, List.not_mem_nil, or_false]
    rintro c (rfl | rfl) <;> exact base64Digit_mem _ (by omega)
  | case3 a b =>
    have := a.toNat_lt
    have := b.toNat_lt
    simp only [List.mem_cons, List.not_mem_nil, or_false]
    rintro c (rfl | rfl | rfl) <;> exact base64Digit_mem _ (by omega)
  | case4 a b c rest ih =>
    have := a.toNat_lt
    have := b.toNat_lt
    have := c.toNat_lt
    simp only [List.mem_cons]
    rintro digit (rfl | rfl | rfl | rfl | member)
    · exact base64Digit_mem _ (by omega)
    · exact base64Digit_mem _ (by omega)
    · exact base64Digit_mem _ (by omega)
    · exact base64Digit_mem _ (by omega)
    · exact ih digit member

theorem base64Encode_visible (bytes : List UInt8) : ∀ c ∈ base64Encode bytes, visible c = true := by
  have digits : ∀ c ∈ base64Alphabet, visible c = true := List.all_eq_true.mp (by decide)
  intro c member
  exact digits c (base64Encode_digits bytes c member)

/-- The digits of an encoding are read back as the bytes they came from. -/
private theorem base64_digits_bytes (bytes : List UInt8) :
    ((base64Encode bytes).mapM base64Value).bind base64Bytes = some bytes := by
  fun_induction base64Encode bytes with
  | case1 => rfl
  | case2 a =>
    have := a.toNat_lt
    have first := base64Value_digit (a.toNat / 4) (by omega)
    have second := base64Value_digit (a.toNat % 4 * 16) (by omega)
    have byte : UInt8.ofNat (a.toNat / 4 * 4 + a.toNat % 4 * 16 / 16) = a := ofNat_eq (by omega)
    simp only [List.mapM_cons, List.mapM_nil, first, second, Option.pure_def, Option.bind_eq_bind,
      Option.bind_some, base64Bytes, byte]
  | case3 a b =>
    have := a.toNat_lt
    have := b.toNat_lt
    have first := base64Value_digit (a.toNat / 4) (by omega)
    have second := base64Value_digit (a.toNat % 4 * 16 + b.toNat / 16) (by omega)
    have third := base64Value_digit (b.toNat % 16 * 4) (by omega)
    have byte₁ : UInt8.ofNat (a.toNat / 4 * 4 + (a.toNat % 4 * 16 + b.toNat / 16) / 16) = a :=
      ofNat_eq (by omega)
    have byte₂ : UInt8.ofNat ((a.toNat % 4 * 16 + b.toNat / 16) % 16 * 16 +
        b.toNat % 16 * 4 / 4) = b := ofNat_eq (by omega)
    simp only [List.mapM_cons, List.mapM_nil, first, second, third, Option.pure_def,
      Option.bind_eq_bind, Option.bind_some, base64Bytes, byte₁, byte₂]
  | case4 a b c rest ih =>
    have := a.toNat_lt
    have := b.toNat_lt
    have := c.toNat_lt
    have first := base64Value_digit (a.toNat / 4) (by omega)
    have second := base64Value_digit (a.toNat % 4 * 16 + b.toNat / 16) (by omega)
    have third := base64Value_digit (b.toNat % 16 * 4 + c.toNat / 64) (by omega)
    have fourth := base64Value_digit (c.toNat % 64) (by omega)
    have byte₁ : UInt8.ofNat (a.toNat / 4 * 4 + (a.toNat % 4 * 16 + b.toNat / 16) / 16) = a :=
      ofNat_eq (by omega)
    have byte₂ : UInt8.ofNat ((a.toNat % 4 * 16 + b.toNat / 16) % 16 * 16 +
        (b.toNat % 16 * 4 + c.toNat / 64) / 4) = b := ofNat_eq (by omega)
    have byte₃ : UInt8.ofNat ((b.toNat % 16 * 4 + c.toNat / 64) % 4 * 64 + c.toNat % 64) = c :=
      ofNat_eq (by omega)
    obtain ⟨digits, read, decoded⟩ := Option.bind_eq_some_iff.mp ih
    simp only [List.mapM_cons, first, second, third, fourth, read, Option.pure_def,
      Option.bind_eq_bind, Option.bind_some, base64Bytes, decoded, byte₁, byte₂, byte₃]

theorem base64Decode_base64Encode (bytes : List UInt8) :
    base64Decode (base64Encode bytes) = some bytes := by
  have unbroken : (base64Encode bytes).filter (fun c => c != 13 && c != 10) = base64Encode bytes := by
    rw [List.filter_eq_self]
    intro c member
    exact base64Alphabet_unbroken c (base64Encode_digits bytes c member)
  simpa only [base64Decode, unbroken, Option.bind_eq_bind] using base64_digits_bytes bytes

theorem base64Encode_injective : Function.Injective base64Encode := by
  intro a b same
  have decoded := base64Decode_base64Encode a
  rw [same, base64Decode_base64Encode] at decoded
  exact (Option.some.inj decoded).symm

end EdgeGuard.Go
