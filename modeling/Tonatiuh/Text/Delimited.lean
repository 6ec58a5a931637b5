import Mathlib.Data.List.Basic

/-! Texts made of fields: hexadecimal digits, and fields joined by a separator; and texts that are
cut.

`toHex` and `join` write, `fromHex` and `split` read; reading what was written gives it back. -/

namespace Tonatiuh.Text

abbrev Bytes := List UInt8

/-! ## Hexadecimal digits -/

def hexDigits : List Char := "0123456789abcdef".toList

/-- The digit of a half byte. -/
def hexDigit (n : Nat) : Char := hexDigits.getD n '0'

/-- The value of a digit, of either case. -/
def hexValue (c : Char) : Option Nat :=
  if c.isDigit then some (c.toNat - '0'.toNat)
  else if 'a' ≤ c ∧ c ≤ 'f' then some (c.toNat - 'a'.toNat + 10)
  else if 'A' ≤ c ∧ c ≤ 'F' then some (c.toNat - 'A'.toNat + 10)
  else none

def toHex : Bytes → List Char
  | [] => []
  | b :: bytes => hexDigit (b.toNat / 16) :: hexDigit (b.toNat % 16) :: toHex bytes

/-- The bytes up to the first pair of characters that are not two digits. -/
def fromHex : List Char → Bytes
  | a :: b :: rest =>
    match hexValue a, hexValue b with
    | some x, some y => UInt8.ofNat (16 * x + y) :: fromHex rest
    | _, _ => []
  | _ => []

theorem hexValue_hexDigit : ∀ n < 16, hexValue (hexDigit n) = some n := by decide

theorem hexDigit_mem : ∀ n < 16, hexDigit n ∈ hexDigits := by decide

theorem fromHex_toHex (bytes : Bytes) : fromHex (toHex bytes) = bytes := by
  induction bytes with
  | nil => rfl
  | cons b bytes ih =>
    have hb : b.toNat < 256 := b.toNat_lt
    have hhigh := hexValue_hexDigit (b.toNat / 16) (by omega)
    have hlow := hexValue_hexDigit (b.toNat % 16) (by omega)
    have hjoin : 16 * (b.toNat / 16) + b.toNat % 16 = b.toNat := Nat.div_add_mod ..
    simp [toHex, fromHex, hhigh, hlow, hjoin, ih]

theorem toHex_eq_nil {bytes : Bytes} : toHex bytes = [] ↔ bytes = [] := by
  cases bytes <;> simp [toHex]

theorem mem_toHex {bytes : Bytes} {c : Char} (h : c ∈ toHex bytes) : c ∈ hexDigits := by
  induction bytes with
  | nil => cases h
  | cons b bytes ih =>
    have hb : b.toNat < 256 := b.toNat_lt
    rcases List.mem_cons.mp h with rfl | h
    · exact hexDigit_mem _ (by omega)
    rcases List.mem_cons.mp h with rfl | h
    · exact hexDigit_mem _ (by omega)
    · exact ih h

theorem colon_not_mem_toHex (bytes : Bytes) : ':' ∉ toHex bytes := fun h =>
  absurd (mem_toHex h) (by decide)

/-! ## UTF-8 -/

def utf8 (s : String) : Bytes := s.toByteArray.data.toList

/-- The text with this encoding, if the bytes are well formed. -/
def ofUtf8? (bytes : Bytes) : Option String := String.fromUTF8? ⟨bytes.toArray⟩

theorem ofUtf8?_utf8 (s : String) : ofUtf8? (utf8 s) = some s := by
  simp only [ofUtf8?, utf8, Array.toArray_toList]
  exact dif_pos s.isValidUTF8

theorem utf8_eq_nil {s : String} : utf8 s = [] ↔ s = "" := by
  rw [utf8, Array.toList_eq_nil_iff, ← String.toByteArray_inj]
  exact ⟨fun h => congrArg ByteArray.mk h, fun h => congrArg ByteArray.data h⟩

/-! ## Separators -/

def join (sep : Char) (parts : List String) : String :=
  String.ofList ([sep].intercalate (parts.map String.toList))

def split (sep : Char) (s : String) : List String := (s.toList.splitOn sep).map String.ofList

theorem split_join {parts : List String} (hne : parts ≠ [])
    (hsep : ∀ p ∈ parts, sep ∉ p.toList) : split sep (join sep parts) = parts := by
  have hsplit : ([sep].intercalate (parts.map String.toList)).splitOn sep =
      parts.map String.toList := by
    apply List.splitOn_intercalate
    · intro l hl
      obtain ⟨p, hp, rfl⟩ := List.mem_map.mp hl
      exact hsep p hp
    · simpa using hne
  simp [split, join, hsplit, Function.comp_def]

/-! ## Texts that are cut -/

/-- `slice(0, n)`, which counts UTF-16 code units, as it is sent: half of a character becomes
U+FFFD. -/
def slice : Nat → List Char → List Char
  | 0, _ | _, [] => []
  | n + 1, c :: cs =>
    if c.toNat < 0x10000 then c :: slice n cs
    else
      match n with
      | 0 => [.ofNat 0xFFFD]
      | n + 1 => c :: slice n cs

example : slice 3 "a😀b".toList = "a😀".toList ∧ slice 2 "a😀b".toList = "a�".toList := by decide

end Tonatiuh.Text
