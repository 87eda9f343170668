import Mathlib.Algebra.Group.Nat.Defs
import Mathlib.Tactic.Common

/-!
# Blocks of addresses

An address of `w` bits is a number below `2 ^ w`. A block has all addresses that agree with its base
in their first bits.
-/

/-- A block of addresses: a base and how many leading bits of it count. -/
structure AddressBlock where
  base : ℕ
  bits : ℕ

namespace AddressBlock

/-- Whether an address of `w` bits is in the block. -/
def contains (block : AddressBlock) (w address : ℕ) : Bool :=
  address / 2 ^ (w - block.bits) == block.base / 2 ^ (w - block.bits)

/-- Membership in a block as a division by its size. -/
theorem contains_iff {block : AddressBlock} {w d q address : ℕ} (hd : 2 ^ (w - block.bits) = d)
    (hq : block.base / d = q) : block.contains w address = true ↔ address / d = q := by
  rw [contains, hd, hq, beq_iff_eq]

/-- Membership in a block of one address. -/
theorem contains_iff_eq {block : AddressBlock} {w q address : ℕ} (hd : w - block.bits = 0)
    (hq : block.base = q) : block.contains w address = true ↔ address = q := by
  rw [contains, hd, hq, beq_iff_eq, Nat.pow_zero, Nat.div_one, Nat.div_one]

/-- Whether an address of `w` bits is in one of the blocks. -/
def anyContains (blocks : List AddressBlock) (w address : ℕ) : Bool :=
  blocks.any (·.contains w address)

end AddressBlock

/-- A mask of leading bits keeps the multiple of a power of two that is not above the number. -/
theorem BitVec.toNat_and_allOnes_shiftLeft {w : ℕ} (x : BitVec w) (k : ℕ) :
    (x &&& BitVec.allOnes w <<< k).toNat = x.toNat / 2 ^ k * 2 ^ k := by
  have hlt : x.toNat / 2 ^ k * 2 ^ k < 2 ^ w :=
    Nat.lt_of_le_of_lt (Nat.div_mul_le_self _ _) x.isLt
  rw [← BitVec.shiftLeft_ushiftRight, BitVec.toNat_shiftLeft, BitVec.toNat_ushiftRight,
    Nat.shiftLeft_eq, Nat.shiftRight_eq_div_pow, Nat.mod_eq_of_lt hlt]

/-- A comparison under a mask of leading bits, in numbers. -/
theorem BitVec.and_allOnes_shiftLeft_eq {w : ℕ} (x y : BitVec w) (k : ℕ) :
    x &&& BitVec.allOnes w <<< k = y ↔ x.toNat / 2 ^ k * 2 ^ k = y.toNat := by
  rw [← BitVec.toNat_inj, BitVec.toNat_and_allOnes_shiftLeft]
