import Mathlib.Algebra.Group.Nat.Defs
import Mathlib.Logic.Function.Iterate
import Mathlib.Tactic.Common

/-!
# Cyclic redundancy checks

The reflected shift register of a CRC: it takes in a byte at its low end and moves down bit by bit,
and the polynomial is added when a one falls out. The register is linear in exclusive or.

A suffix whose number of bits is a power of two leaves at most one register as it is, if the
polynomial has an even number of ones: in characteristic two, `2 ^ k` steps plus the identity are
the step plus the identity, `2 ^ k` times.
-/

namespace Crc

variable {w : ℕ}

/-- One bit falls out at the low end. -/
def step (poly s : BitVec w) : BitVec w :=
  if s.getLsbD 0 then (s >>> 1) ^^^ poly else s >>> 1

/-- One byte is taken in. -/
def update (poly s : BitVec w) (byte : UInt8) : BitVec w :=
  (step poly)^[8] (s ^^^ byte.toBitVec.setWidth w)

/-- The register after a byte string. -/
def register (poly s : BitVec w) (bytes : List UInt8) : BitVec w := bytes.foldl (update poly) s

/-- CRC-32: the register starts with ones and is complemented at the end. -/
def crc32 (bytes : List UInt8) : BitVec 32 := ~~~register 0xEDB88320 0xFFFFFFFF bytes

/-! ### Linearity -/

section Linear

variable (poly : BitVec w)

theorem step_xor (s t : BitVec w) : step poly (s ^^^ t) = step poly s ^^^ step poly t := by
  have hcancel : ∀ a b : BitVec w, a ^^^ poly ^^^ (b ^^^ poly) = a ^^^ b := by
    intro a b
    rw [BitVec.xor_comm b poly, BitVec.xor_assoc, ← BitVec.xor_assoc poly, BitVec.xor_self,
      BitVec.zero_xor]
  unfold step
  rw [BitVec.getLsbD_xor, BitVec.ushiftRight_xor_distrib]
  cases s.getLsbD 0 <;> cases t.getLsbD 0
  · rfl
  · exact BitVec.xor_assoc _ _ _
  · show s >>> 1 ^^^ t >>> 1 ^^^ poly = s >>> 1 ^^^ poly ^^^ t >>> 1
    rw [BitVec.xor_assoc, BitVec.xor_comm (t >>> 1), ← BitVec.xor_assoc]
  · exact (hcancel _ _).symm

theorem iterate_step_xor (n : ℕ) (s t : BitVec w) :
    (step poly)^[n] (s ^^^ t) = (step poly)^[n] s ^^^ (step poly)^[n] t := by
  induction n generalizing s t with
  | zero => rfl
  | succ n ih => rw [Function.iterate_succ_apply, step_xor, ih]; rfl

/-- What a byte string does to two registers differs by what its bits do to their difference. -/
theorem register_xor_register (s t : BitVec w) (bytes : List UInt8) :
    register poly s bytes ^^^ register poly t bytes =
      (step poly)^[8 * bytes.length] (s ^^^ t) := by
  induction bytes generalizing s t with
  | nil => rfl
  | cons byte bytes ih =>
    have hbyte : update poly s byte ^^^ update poly t byte = (step poly)^[8] (s ^^^ t) := by
      rw [update, update, ← iterate_step_xor]
      congr 1
      rw [BitVec.xor_comm t, BitVec.xor_assoc, ← BitVec.xor_assoc _ _ t, BitVec.xor_self,
        BitVec.zero_xor]
    have hlength : 8 * (byte :: bytes).length = 8 * bytes.length + 8 := by
      rw [List.length_cons, Nat.mul_succ]
    rw [hlength, Function.iterate_add_apply, ← hbyte, ← ih]
    rfl

end Linear

theorem register_append (poly s : BitVec w) (bytes bytes' : List UInt8) :
    register poly s (bytes ++ bytes') = register poly (register poly s bytes) bytes' :=
  List.foldl_append

/-! ### Fixed registers -/

section Fixed

/-- For a linear map, the power `2 ^ k` plus the identity is the power `2 ^ k` of the map plus the
identity. -/
theorem iterate_two_pow_xor {f : BitVec w → BitVec w}
    (hf : ∀ s t, f (s ^^^ t) = f s ^^^ f t) (k : ℕ) (s : BitVec w) :
    f^[2 ^ k] s ^^^ s = (fun t => f t ^^^ t)^[2 ^ k] s := by
  induction k generalizing f with
  | zero => rfl
  | succ k ih =>
    have hsquare : ∀ t, (fun t => f t ^^^ t)^[2] t = f (f t) ^^^ t := by
      intro t
      show f (f t ^^^ t) ^^^ (f t ^^^ t) = f (f t) ^^^ t
      rw [hf, BitVec.xor_assoc, ← BitVec.xor_assoc (f t), BitVec.xor_self, BitVec.zero_xor]
    rw [Nat.pow_succ', Function.iterate_mul, Function.iterate_mul]
    rw [@ih f^[2] fun s t => by simp only [Function.iterate_succ_apply,
      Function.iterate_zero_apply, hf]]
    congr 1
    funext t
    exact (hsquare t).symm

variable (poly : BitVec w)

/-- The parity of the `n` highest bits. -/
def highParity : ℕ → Bool
  | 0 => false
  | n + 1 => (highParity n) ^^ poly.getLsbD (w - (n + 1))

/-- A register that the bit step keeps is zero, if the polynomial has an even number of ones. -/
theorem eq_zero_of_step_eq (hparity : highParity poly w = false) {s : BitVec w}
    (h : step poly s = s) : s = 0#w := by
  have hbit : ∀ i, s.getLsbD i = (s.getLsbD (i + 1) ^^ (s.getLsbD 0 && poly.getLsbD i)) := by
    intro i
    conv_lhs => rw [← h, step]
    cases s.getLsbD 0 <;> simp [BitVec.getLsbD_ushiftRight, Nat.add_comm]
  -- each bit is the lowest one times the parity of the polynomial from there on
  have hhigh : ∀ n ≤ w, s.getLsbD (w - n) = (s.getLsbD 0 && highParity poly n) := by
    intro n
    induction n with
    | zero =>
      intro _
      rw [highParity, Bool.and_false, Nat.sub_zero]
      exact BitVec.getLsbD_of_ge _ _ (Nat.le_refl w)
    | succ n ih =>
      intro hn
      have hindex : w - (n + 1) + 1 = w - n := by omega
      rw [hbit, hindex, ih (by omega), highParity, ← Bool.and_xor_distrib_left]
  have hlow : s.getLsbD 0 = false := by
    have hall := hhigh w (Nat.le_refl w)
    rwa [Nat.sub_self, hparity, Bool.and_false] at hall
  refine BitVec.eq_of_getLsbD_eq fun i hi => ?_
  have hi' := hhigh (w - i) (Nat.sub_le w i)
  rw [Nat.sub_sub_self (Nat.le_of_lt hi), hlow, Bool.false_and] at hi'
  rw [hi', BitVec.getLsbD_zero]

/-- A byte string whose number of bits is a power of two keeps at most one register. -/
theorem eq_of_register_eq (hparity : highParity poly w = false) {bytes : List UInt8} {k : ℕ}
    (hbits : 8 * bytes.length = 2 ^ k) {s t : BitVec w} (hs : register poly s bytes = s)
    (ht : register poly t bytes = t) : s = t := by
  have hfixed : (step poly)^[2 ^ k] (s ^^^ t) = s ^^^ t := by
    rw [← hbits, ← register_xor_register, hs, ht]
  have hpower : (fun d => step poly d ^^^ d)^[2 ^ k] (s ^^^ t) = 0#w := by
    rw [← iterate_two_pow_xor (step_xor poly), hfixed, BitVec.xor_self]
  -- the step plus the identity has a trivial kernel, and so have its powers
  have hkernel : ∀ n d, (fun d => step poly d ^^^ d)^[n] d = 0#w → d = 0#w := by
    intro n
    induction n with
    | zero => exact fun d h => h
    | succ n ih =>
      intro d h
      have hstep := ih _ h
      exact eq_zero_of_step_eq poly hparity (BitVec.xor_eq_zero_iff.1 hstep)
  exact BitVec.xor_eq_zero_iff.1 (hkernel _ _ hpower)

end Fixed

/-- Among the messages, a suffix whose number of bits is a power of two keeps the CRC-32 of those
with one value only. -/
theorem crc32_append_eq_iff {suffix : List UInt8} {k : ℕ} (hbits : 8 * suffix.length = 2 ^ k)
    {fixed : BitVec 32} (hfixed : register 0xEDB88320 (~~~fixed) suffix = ~~~fixed)
    (message : List UInt8) :
    crc32 (message ++ suffix) = crc32 message ↔ crc32 message = fixed := by
  have hnot : ∀ a b : BitVec 32, ~~~a = b ↔ a = ~~~b := by
    intro a b
    constructor
    · rintro rfl
      exact (BitVec.not_not).symm
    · rintro rfl
      exact BitVec.not_not
  unfold crc32
  rw [register_append, hnot, BitVec.not_not, hnot]
  constructor
  · intro h
    exact eq_of_register_eq _ (by decide) hbits h hfixed
  · intro h
    rw [h]
    exact hfixed

end Crc
