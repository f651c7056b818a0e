import Mathlib.Data.List.Basic

/-!
# Hexadecimal texts of bytes

Two digits for each byte.  Reading skips blanks between the bytes and takes letters of either case; what was written is read
back (`decode_encode`).
-/

namespace Hex

def digit (n : Nat) : Char := "0123456789abcdef".toList.getD n '0'

def encode (bytes : List UInt8) : List Char := bytes.flatMap fun b => [digit (b.toNat / 16), digit (b.toNat % 16)]

/-- The value of a digit. -/
def value (c : Char) : Option Nat :=
  if '0' ≤ c ∧ c ≤ '9' then some (c.toNat - '0'.toNat)
  else if 'a' ≤ c ∧ c ≤ 'f' then some (c.toNat - 'a'.toNat + 10)
  else if 'A' ≤ c ∧ c ≤ 'F' then some (c.toNat - 'A'.toNat + 10)
  else none

def decode : List Char → Option (List UInt8)
  | [] => some []
  | [c] => if c.isWhitespace then some [] else none
  | c :: d :: rest =>
    if c.isWhitespace then decode (d :: rest)
    else
      match value c, value d, decode rest with
      | some high, some low, some bytes => some (UInt8.ofNat (16 * high + low) :: bytes)
      | _, _, _ => none

theorem value_digit : ∀ n < 16, value (digit n) = some n := by decide

theorem isWhitespace_digit : ∀ n < 16, (digit n).isWhitespace = false := by decide

theorem encode_cons (b : UInt8) (bytes : List UInt8) :
    encode (b :: bytes) = digit (b.toNat / 16) :: digit (b.toNat % 16) :: encode bytes := rfl

theorem decode_encode (bytes : List UInt8) : decode (encode bytes) = some bytes := by
  induction bytes with
  | nil => rfl
  | cons b bytes ih =>
    have hb := b.toNat_lt
    have hbyte : UInt8.ofNat (16 * (b.toNat / 16) + b.toNat % 16) = b := by
      rw [Nat.div_add_mod, UInt8.ofNat_toNat]
    rw [encode_cons]
    unfold decode
    rw [isWhitespace_digit _ (by omega), value_digit _ (by omega), value_digit _ (by omega), ih]
    dsimp only
    rw [hbyte]
    rfl

end Hex
