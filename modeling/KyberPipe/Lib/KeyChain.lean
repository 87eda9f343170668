import KyberPipe.Lib.AssocMap

/-!
# Symmetric key chains

A key chain advances a secret state by `step` and reads one output key `out` off every
position. Two chains that start from different seeds never meet, provided that `step` and
`out` are injective and that no seed is itself a later position of some chain.
-/

/-- A chain of keys: the transition to the next position and the output of a position. -/
structure KeyChain (K : Type*) where
  /-- The state at the next position. -/
  step : K → K
  /-- The output key of a position. -/
  out : K → K

namespace KeyChain

variable {K ι : Type*} (c : KeyChain K)

variable (seed : K)

/-- The chain state `n` positions after `seed`. -/
def stateAt (n : ℕ) : K := c.step^[n] seed

/-- The output key `n` positions after `seed`. -/
def keyAt (n : ℕ) : K := c.out (c.stateAt seed n)

/-- A state that no step leads to. Chains are started from seeds only. -/
def IsSeed (k : K) : Prop := ∀ k', c.step k' ≠ k

@[simp]
theorem stateAt_zero : c.stateAt seed 0 = seed := rfl

theorem stateAt_succ (n : ℕ) :
    c.stateAt seed (n + 1) = c.step (c.stateAt seed n) :=
  Function.iterate_succ_apply' _ _ _

@[simp]
theorem step_stateAt (n : ℕ) :
    c.step (c.stateAt seed n) = c.stateAt seed (n + 1) :=
  (c.stateAt_succ seed n).symm

@[simp]
theorem out_stateAt (n : ℕ) : c.out (c.stateAt seed n) = c.keyAt seed n := rfl

@[simp]
theorem stateAt_stateAt (m n : ℕ) :
    c.stateAt (c.stateAt seed m) n = c.stateAt seed (m + n) := by
  rw [stateAt, stateAt, stateAt, ← Function.iterate_add_apply, Nat.add_comm]

@[simp]
theorem keyAt_stateAt (m n : ℕ) : c.keyAt (c.stateAt seed m) n = c.keyAt seed (m + n) := by
  rw [keyAt, stateAt_stateAt, keyAt]

section Separation

variable {c}

section

variable (hstep : Function.Injective c.step)
include hstep

/-- Chains with injective steps meet only if they share their seed and their position. -/
theorem stateAt_inj {a b : K} (ha : c.IsSeed a) (hb : c.IsSeed b) {m n : ℕ}
    (h : c.stateAt a m = c.stateAt b n) : a = b ∧ m = n := by
  induction m generalizing n with
  | zero =>
    cases n with
    | zero => exact ⟨h, rfl⟩
    | succ n =>
      rw [stateAt_succ, stateAt_zero] at h
      exact absurd h.symm (ha _)
  | succ m ih =>
    cases n with
    | zero =>
      rw [stateAt_succ, stateAt_zero] at h
      exact absurd h (hb _)
    | succ n =>
      rw [stateAt_succ, stateAt_succ] at h
      obtain ⟨hab, hmn⟩ := ih (hstep h)
      exact ⟨hab, congrArg (· + 1) hmn⟩

/-- Chains with injective steps that meet at one position are the same chain. -/
theorem stateAt_left_inj {a b : K} {n : ℕ} (h : c.stateAt a n = c.stateAt b n) : a = b :=
  hstep.iterate n h

/-- An output key determines the seed and the position it was read from. -/
theorem keyAt_inj (hout : Function.Injective c.out) {a b : K} (ha : c.IsSeed a) (hb : c.IsSeed b)
    {m n : ℕ} (h : c.keyAt a m = c.keyAt b n) : a = b ∧ m = n :=
  stateAt_inj hstep ha hb (hout h)

end

end Separation

/-- Advance the chain by `n` positions and collect the output keys passed on the way, the
key of the `i`-th position under `label i`. -/
def collect [DecidableEq ι] (label : ℕ → ι) (k : K) : ℕ → K × AList (fun _ : ι => K)
  | 0 => (k, ∅)
  | n + 1 =>
    let passed := collect label k n
    (c.step passed.1, passed.2.insert (label n) (c.out passed.1))

section Collect

variable [DecidableEq ι] (label : ℕ → ι) (k : K)

@[simp]
theorem collect_fst (n : ℕ) : (c.collect label k n).1 = c.stateAt k n := by
  induction n with
  | zero => rfl
  | succ n ih => rw [collect, ih, step_stateAt]

/-- A collected key is the output of the position it is labelled with. -/
theorem exists_of_lookup_collect {n : ℕ} {i : ι} {key : K}
    (h : (c.collect label k n).2.lookup i = some key) :
    ∃ j < n, i = label j ∧ key = c.keyAt k j := by
  induction n with
  | zero => simp [collect] at h
  | succ n ih =>
    simp only [collect, collect_fst] at h
    by_cases hi : i = label n
    · subst hi
      rw [AList.lookup_insert] at h
      exact ⟨n, Nat.lt_succ_self n, rfl, (Option.some.inj h).symm⟩
    · rw [AList.lookup_insert_ne hi] at h
      obtain ⟨j, hj, hij, hkey⟩ := ih h
      exact ⟨j, Nat.lt_succ_of_lt hj, hij, hkey⟩

/-- Every passed position is collected. -/
theorem lookup_collect_of_lt (hlabel : Function.Injective label) {n j : ℕ} (hj : j < n) :
    (c.collect label k n).2.lookup (label j) = some (c.keyAt k j) := by
  induction n with
  | zero => exact absurd hj (Nat.not_lt_zero j)
  | succ n ih =>
    simp only [collect, collect_fst]
    by_cases hjn : j = n
    · subst hjn
      exact AList.lookup_insert _
    · rw [AList.lookup_insert_ne (fun h => hjn (hlabel h))]
      exact ih (by omega)

theorem size_collect_le (n : ℕ) : (c.collect label k n).2.size ≤ n := by
  induction n with
  | zero => simp [collect]
  | succ n ih =>
    simp only [collect]
    by_cases hmem : label n ∈ (c.collect label k n).2
    · have herase := ((c.collect label k n).2.size_erase_le (label n))
      have hsize : ((c.collect label k n).2.insert (label n) (c.out (c.collect label k n).1)).size =
            ((c.collect label k n).2.erase (label n)).size + 1 := by
        rw [AList.size, AList.entries_insert, List.length_cons]
        rfl
      omega
    · rw [AList.size_insert_of_notMem hmem]
      omega

end Collect

end KeyChain
