import Mathlib.Data.List.Basic
import Mathlib.Data.Nat.Notation

/-!
# Sliding windows

How many of a list of times fall into a window of a fixed width. A limiter that admits a new time
only if few of the earlier ones are recent keeps every window small, wherever the window starts.
-/

namespace Window

variable {w n c x t : ℕ} {times : List ℕ}

/-- How many of the times lie in the half-open window of width `w` that starts at `a`. -/
def count (w a : ℕ) (times : List ℕ) : ℕ := times.countP fun t => a ≤ t ∧ t < a + w

/-- How many of the times lie less than `w` before `t`, or after `t`. -/
def recent (w t : ℕ) (times : List ℕ) : ℕ := times.countP fun x => t < x + w

/-- Every window of width `w` has at most `n` of the times. -/
def Sparse (n w : ℕ) (times : List ℕ) : Prop := ∀ a, count w a times ≤ n

theorem sparse_nil (n w : ℕ) : Sparse n w [] := fun _ => Nat.zero_le n

@[simp]
theorem recent_nil (w t : ℕ) : recent w t [] = 0 := rfl

theorem recent_concat (w t x : ℕ) (times : List ℕ) :
    recent w t (times ++ [x]) = recent w t times + if t < x + w then 1 else 0 := by
  by_cases h : t < x + w <;> simp [recent, List.countP_append, h]

/-- Later on fewer times are recent. -/
theorem recent_anti (h : c ≤ t) (times : List ℕ) : recent w t times ≤ recent w c times := by
  refine List.countP_mono_left fun x _ hx => ?_
  rw [decide_eq_true_iff] at hx ⊢
  omega

/-- Forgetting what is not recent any more does not show later. -/
theorem recent_filter (h : c ≤ t) (times : List ℕ) :
    recent w t (times.filter fun x => c < x + w) = recent w t times := by
  rw [recent, recent, List.countP_filter]
  refine List.countP_congr fun x _ => ?_
  simp only [decide_eq_true_eq, Bool.and_eq_true]
  omega

/-- Nothing is recent once every time is `w` back. -/
theorem recent_eq_zero (h : ∀ x ∈ times, x + w ≤ t) : recent w t times = 0 := by
  rw [recent, List.countP_eq_zero]
  intro x hx
  have := h x hx
  rw [decide_eq_true_iff]
  omega

/-- Admission rule. A time may be added if, at a check before it, fewer than `n` of the earlier
times were recent. -/
theorem Sparse.concat (h : Sparse n w times) (hfew : recent w c times < n) (hcx : c ≤ x) :
    Sparse n w (times ++ [x]) := by
  intro a
  have hold := h a
  rw [count, List.countP_append, ← count]
  by_cases hx : a ≤ x ∧ x < a + w
  · -- the earlier times of this window were recent at the check
    have hle : count w a times ≤ recent w c times := by
      refine List.countP_mono_left fun y _ hy => ?_
      rw [decide_eq_true_iff] at hy ⊢
      omega
    simp only [List.countP_singleton, decide_eq_true_eq, if_pos hx]
    omega
  · simp only [List.countP_singleton, decide_eq_true_eq, if_neg hx]
    omega

end Window
