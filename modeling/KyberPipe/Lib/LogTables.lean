import Mathlib.Algebra.Field.Defs
import Mathlib.Algebra.Group.Hom.Basic

/-!
# Fields from tables of logarithms

An additive group whose nonzero elements are listed as the powers of a generator is multiplied by
adding exponents. This file shows that the group is a field under this multiplication if the step
from one power to the next is an additive map.
-/

/-- The nonzero elements of an additive group as powers `exp 0, …, exp (N - 1)` with their
exponents. The step to the next power is additive. -/
structure LogTables (A : Type*) [AddCommGroup A] (N : ℕ) where
  exp : ℕ → A
  log : A → ℕ
  /-- Multiplication by the generator. -/
  next : A →+ A
  pos : 0 < N
  exp_ne_zero : ∀ i < N, exp i ≠ 0
  log_lt : ∀ a, a ≠ 0 → log a < N
  exp_log : ∀ a, a ≠ 0 → exp (log a) = a
  log_exp : ∀ i < N, log (exp i) = i
  next_exp : ∀ i < N, next (exp i) = exp ((i + 1) % N)

namespace LogTables

variable {A : Type*} [AddCommGroup A] {N : ℕ} (T : LogTables A N)

/-- The `n`-th power behind a power is found by adding exponents. -/
theorem iterate_next_exp (n : ℕ) {i : ℕ} (hi : i < N) :
    T.next^[n] (T.exp i) = T.exp ((i + n) % N) := by
  induction n with
  | zero => rw [Function.iterate_zero_apply, Nat.add_zero, Nat.mod_eq_of_lt hi]
  | succ n ih =>
    rw [Function.iterate_succ_apply', ih, T.next_exp _ (Nat.mod_lt _ T.pos), Nat.mod_add_mod,
      Nat.add_assoc]

variable [DecidableEq A]

/-- Multiplication by adding exponents. -/
def mul (a b : A) : A := if a = 0 ∨ b = 0 then 0 else T.exp ((T.log a + T.log b) % N)

/-- Inversion by negating the exponent. -/
def inv (a : A) : A := if a = 0 then 0 else T.exp ((N - T.log a) % N)

theorem zero_mul (a : A) : T.mul 0 a = 0 := if_pos (.inl rfl)

theorem mul_comm (a b : A) : T.mul a b = T.mul b a := by
  simp only [mul, or_comm, Nat.add_comm]

section Nonzero

variable {a b : A}

theorem mul_of_ne (ha : a ≠ 0) (hb : b ≠ 0) : T.mul a b = T.exp ((T.log a + T.log b) % N) :=
  if_neg (not_or.2 ⟨ha, hb⟩)

theorem mul_ne_zero (ha : a ≠ 0) (hb : b ≠ 0) : T.mul a b ≠ 0 := by
  rw [T.mul_of_ne ha hb]
  exact T.exp_ne_zero _ (Nat.mod_lt _ T.pos)

theorem log_mul (ha : a ≠ 0) (hb : b ≠ 0) : T.log (T.mul a b) = (T.log a + T.log b) % N := by
  rw [T.mul_of_ne ha hb, T.log_exp _ (Nat.mod_lt _ T.pos)]

/-- Multiplication by an element iterates the step to the next power. -/
theorem mul_eq_iterate (ha : a ≠ 0) (b : A) : T.mul a b = T.next^[T.log a] b := by
  by_cases hb : b = 0
  · rw [hb, T.mul_comm, T.zero_mul, iterate_map_zero]
  · have hpower := T.iterate_next_exp (T.log a) (T.log_lt b hb)
    rw [T.exp_log b hb] at hpower
    rw [T.mul_of_ne ha hb, hpower, Nat.add_comm]

end Nonzero

theorem mul_add (a b c : A) : T.mul a (b + c) = T.mul a b + T.mul a c := by
  by_cases ha : a = 0
  · rw [ha, T.zero_mul, T.zero_mul, T.zero_mul, add_zero]
  · rw [T.mul_eq_iterate ha, T.mul_eq_iterate ha, T.mul_eq_iterate ha, iterate_map_add]

theorem mul_assoc (a b c : A) : T.mul (T.mul a b) c = T.mul a (T.mul b c) := by
  by_cases ha : a = 0
  · rw [ha, T.zero_mul, T.zero_mul, T.zero_mul]
  by_cases hb : b = 0
  · rw [hb, T.mul_comm a 0, T.zero_mul, T.zero_mul, T.mul_comm a 0, T.zero_mul]
  by_cases hc : c = 0
  · rw [hc, T.mul_comm _ 0, T.zero_mul, T.mul_comm b 0, T.zero_mul, T.mul_comm a 0, T.zero_mul]
  -- both sides are the power whose exponent is the sum of the three
  rw [T.mul_of_ne (T.mul_ne_zero ha hb) hc, T.mul_of_ne ha (T.mul_ne_zero hb hc),
    T.log_mul ha hb, T.log_mul hb hc, Nat.mod_add_mod, Nat.add_mod_mod, Nat.add_assoc]

theorem exp_zero_mul (a : A) : T.mul (T.exp 0) a = a := by
  rw [T.mul_eq_iterate (T.exp_ne_zero 0 T.pos), T.log_exp 0 T.pos, Function.iterate_zero_apply]

theorem mul_inv_cancel (a : A) (ha : a ≠ 0) : T.mul a (T.inv a) = T.exp 0 := by
  have hlog := T.log_lt a ha
  have hinv : T.inv a = T.exp ((N - T.log a) % N) := if_neg ha
  have hlt : (N - T.log a) % N < N := Nat.mod_lt _ T.pos
  rw [hinv, T.mul_of_ne ha (T.exp_ne_zero _ hlt), T.log_exp _ hlt, Nat.add_mod_mod,
    Nat.add_sub_cancel' (Nat.le_of_lt hlog), Nat.mod_self]

/-- The field of the tables. -/
abbrev field : Field A where
  mul := T.mul
  one := T.exp 0
  inv := T.inv
  mul_assoc := T.mul_assoc
  one_mul := T.exp_zero_mul
  mul_one a := (T.mul_comm a _).trans (T.exp_zero_mul a)
  zero_mul := T.zero_mul
  mul_zero a := (T.mul_comm a 0).trans (T.zero_mul a)
  mul_comm := T.mul_comm
  left_distrib := T.mul_add
  right_distrib a b c := by
    change T.mul (a + b) c = T.mul a c + T.mul b c
    rw [T.mul_comm, T.mul_add, T.mul_comm c a, T.mul_comm c b]
  mul_inv_cancel := T.mul_inv_cancel
  inv_zero := if_pos rfl
  exists_pair_ne := ⟨T.exp 0, 0, T.exp_ne_zero 0 T.pos⟩
  nnqsmul := _
  nnqsmul_def _ _ := rfl
  qsmul := _
  qsmul_def _ _ := rfl

end LogTables
