import Mathlib.LinearAlgebra.Lagrange

/-!
# Threshold secret sharing over a field

A secret is the constant term of a polynomial, and a share of it is a value of the polynomial at a
nonzero point. As many values as the polynomial has coefficients give the secret back by Lagrange
interpolation at zero. One value less fits every secret, with exactly one choice of the other
coefficients.
-/

open Polynomial

namespace SecretSharing

variable {F : Type*} [Field F]

/-! ### Polynomials from coefficients -/

/-- The polynomial with a list of coefficients, the constant term first. -/
noncomputable def ofCoeffs : List F → F[X]
  | [] => 0
  | c :: cs => C c + X * ofCoeffs cs

/-- Horner's rule. -/
theorem eval_ofCoeffs (cs : List F) (x : F) :
    (ofCoeffs cs).eval x = cs.foldr (fun c r => r * x + c) 0 := by
  induction cs with
  | nil => simp [ofCoeffs]
  | cons c cs ih => simp [ofCoeffs, ih, mul_comm, add_comm]

theorem eval_zero_ofCoeffs_cons (secret : F) (cs : List F) :
    (ofCoeffs (secret :: cs)).eval 0 = secret := by
  simp [ofCoeffs]

theorem coeff_ofCoeffs (cs : List F) (j : ℕ) : (ofCoeffs cs).coeff j = cs.getD j 0 := by
  induction cs generalizing j with
  | nil => simp [ofCoeffs]
  | cons c cs ih =>
    cases j with
    | zero => simp [ofCoeffs]
    | succ j => simp [ofCoeffs, ih]

theorem degree_ofCoeffs_lt (cs : List F) : (ofCoeffs cs).degree < cs.length := by
  rw [degree_lt_iff_coeff_zero]
  intro j hj
  rw [coeff_ofCoeffs, List.getD_eq_getElem?_getD, List.getElem?_eq_none hj, Option.getD_none]

/-- A polynomial of low degree has the coefficients it has. -/
theorem ofCoeffs_ofFn_coeff {t : ℕ} {q : F[X]} (hq : q.degree < t) :
    ofCoeffs (List.ofFn fun j : Fin t => q.coeff j) = q := by
  ext j
  rw [coeff_ofCoeffs]
  by_cases hj : j < t
  · simp [hj]
  · simp [hj, (degree_lt_iff_coeff_zero q t).1 hq j (not_lt.1 hj)]

/-! ### Reconstruction -/

/-- Values of a polynomial of low degree at distinct points give its value everywhere. -/
theorem sum_lagrange_eq_eval {m : ℕ} {p : F[X]} (hp : p.degree < m) {v : Fin m → F}
    (hv : Function.Injective v) (x : F) :
    ∑ i, p.eval (v i) *
        ((∏ j ∈ Finset.univ.erase i, (x - v j)) *
          (∏ j ∈ Finset.univ.erase i, (v i - v j))⁻¹) = p.eval x := by
  have hinterpolate := Lagrange.eq_interpolate (s := Finset.univ) (f := p) hv.injOn
    (by simpa using hp)
  conv_rhs => rw [hinterpolate, Lagrange.interpolate_apply, eval_finsetSum]
  refine Finset.sum_congr rfl fun i _ => ?_
  rw [eval_mul, eval_C, Lagrange.basis, eval_prod]
  simp only [Lagrange.basisDivisor, eval_mul, eval_C, eval_sub, eval_X]
  rw [Finset.prod_mul_distrib, Finset.prod_inv_distrib, mul_comm (_⁻¹)]

/-! ### Secrecy -/

/-- At a nonzero point a share fixes the value of the polynomial of the other coefficients. -/
theorem eval_cons_eq_iff {secret x y : F} (hx : x ≠ 0) (cs : List F) :
    (ofCoeffs (secret :: cs)).eval x = y ↔ (ofCoeffs cs).eval x = (y - secret) / x := by
  simp only [ofCoeffs, eval_add, eval_C, eval_mul, eval_X]
  rw [eq_div_iff hx, eq_sub_iff_add_eq', mul_comm x]

/-- As many shares as there are other coefficients fit every secret, in exactly one way. -/
theorem existsUnique_coeffs {ι : Type*} [Fintype ι] {t : ℕ} (hcard : Fintype.card ι = t)
    {v : ι → F} (hv : Function.Injective v) (hne : ∀ i, v i ≠ 0) (secret : F) (y : ι → F) :
    ∃! c : Fin t → F, ∀ i, (ofCoeffs (secret :: List.ofFn c)).eval (v i) = y i := by
  classical
  have huniv : (Finset.univ : Finset ι).card = t := hcard
  let q := Lagrange.interpolate Finset.univ v fun i => (y i - secret) / v i
  have hdegree : q.degree < t := by
    rw [← huniv]
    exact Lagrange.degree_interpolate_lt _ hv.injOn
  have hvalue : ∀ i, q.eval (v i) = (y i - secret) / v i := fun i =>
    Lagrange.eval_interpolate_at_node _ hv.injOn (Finset.mem_univ i)
  refine ⟨fun j => q.coeff j, fun i => ?_, fun c hc => ?_⟩
  · rw [eval_cons_eq_iff (hne i), ofCoeffs_ofFn_coeff hdegree, hvalue]
  · -- two polynomials of low degree with the same values have the same coefficients
    have hsame : ofCoeffs (List.ofFn c) = q := by
      refine eq_of_degrees_lt_of_eval_index_eq Finset.univ hv.injOn ?_ (huniv ▸ hdegree) ?_
      · rw [huniv]
        simpa using degree_ofCoeffs_lt (List.ofFn c)
      · intro i _
        rw [hvalue, (eval_cons_eq_iff (hne i) _).1 (hc i)]
    ext j
    rw [← hsame, coeff_ofCoeffs]
    simp

end SecretSharing
