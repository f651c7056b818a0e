import Mathlib.Algebra.Group.Nat.Defs

/-!
# Numbers in fields of fixed width

The bytes of a number, the lowest first or the highest first, in a field of fixed width, and the number that bytes stand for.
-/

namespace LittleEndian

/-- The bytes of `n` in a field of `width` bytes. -/
def bytes (width n : Nat) : List UInt8 := (List.range width).map fun i => UInt8.ofNat (n / 256 ^ i)

/-- The number that bytes stand for. -/
def value (bs : List UInt8) : Nat := bs.foldr (fun b n => b.toNat + 256 * n) 0

@[simp] theorem length_bytes (width n : Nat) : (bytes width n).length = width := by
  unfold bytes
  rw [List.length_map, List.length_range]

theorem bytes_succ (width n : Nat) : bytes (width + 1) n = UInt8.ofNat n :: bytes width (n / 256) := by
  unfold bytes
  rw [List.range_succ_eq_map, List.map_cons, List.map_map, pow_zero, Nat.div_one]
  refine congrArg _ (List.map_congr_left fun i _ => ?_)
  rw [Function.comp_apply, pow_succ', Nat.div_div_eq_div_mul]

/-- A number that fits into the field is read back. -/
theorem value_bytes {width n : Nat} (h : n < 256 ^ width) : value (bytes width n) = n := by
  induction width generalizing n with
  | zero =>
    rw [pow_zero] at h
    obtain rfl : n = 0 := by omega
    rfl
  | succ width ih =>
    have hhigh : value (bytes width (n / 256)) = n / 256 := ih (Nat.div_lt_of_lt_mul (by rwa [pow_succ'] at h))
    rw [bytes_succ]
    show (UInt8.ofNat n).toNat + 256 * value (bytes width (n / 256)) = n
    rw [hhigh, UInt8.toNat_ofNat']
    omega

theorem value_lt (bs : List UInt8) : value bs < 256 ^ bs.length := by
  induction bs with
  | nil => exact Nat.one_pos
  | cons b bs ih =>
    have hb := b.toNat_lt
    show b.toNat + 256 * value bs < 256 ^ (bs.length + 1)
    rw [pow_succ']
    omega

/-- Bytes are those of the number they stand for. -/
theorem bytes_value (bs : List UInt8) : bytes bs.length (value bs) = bs := by
  induction bs with
  | nil => rfl
  | cons b bs ih =>
    have hb := b.toNat_lt
    have hvalue : value (b :: bs) = b.toNat + 256 * value bs := rfl
    have hlow : UInt8.ofNat (value (b :: bs)) = b := by
      rw [← UInt8.toNat_inj, UInt8.toNat_ofNat', hvalue]
      omega
    have hhigh : value (b :: bs) / 256 = value bs := by
      rw [hvalue]
      omega
    rw [List.length_cons, bytes_succ, hlow, hhigh, ih]

end LittleEndian

/-! ### The highest byte first -/

namespace BigEndian

def bytes (width n : Nat) : List UInt8 := (LittleEndian.bytes width n).reverse

def value (bs : List UInt8) : Nat := LittleEndian.value bs.reverse

@[simp] theorem length_bytes (width n : Nat) : (bytes width n).length = width := by
  unfold bytes
  rw [List.length_reverse, LittleEndian.length_bytes]

theorem value_bytes {width n : Nat} (h : n < 256 ^ width) : value (bytes width n) = n := by
  unfold value bytes
  rw [List.reverse_reverse, LittleEndian.value_bytes h]

end BigEndian
