import Mathlib.SetTheory.Cardinal.Finite
import KyberPipe.Crypto.Shamir
import KyberPipe.Lib.SecretSharing

/-!
# Reconstruction and secrecy of shares

The polynomials of `shamir.rs` are those of threshold secret sharing over the field of bytes. So
any list of enough distinct shares gives the secret back, and one share less than the threshold
fits every secret in exactly one way.
-/

namespace KyberPipe

open Polynomial SecretSharing

/-! ### The loops as sums and products -/

namespace Gf256

theorem mk_xor_eq_sub (a b : UInt8) : (⟨a ^^^ b⟩ : Gf256) = ⟨a⟩ - ⟨b⟩ :=
  (mk_xor a b).trans (sub_eq_add_neg (⟨a⟩ : Gf256) ⟨b⟩).symm

theorem mk_one : (⟨1⟩ : Gf256) = 1 := rfl

theorem mk_zero : (⟨0⟩ : Gf256) = 0 := rfl

/-- Horner's method evaluates the polynomial of the coefficients. -/
theorem mk_gf256Eval (coeffs : Bytes) (x : UInt8) :
    (⟨gf256Eval coeffs x⟩ : Gf256) = (ofCoeffs (coeffs.map mk)).eval ⟨x⟩ := by
  rw [gf256Eval, List.foldl_reverse, eval_ofCoeffs, List.foldr_map]
  induction coeffs with
  | nil => rfl
  | cons c cs ih => rw [List.foldr_cons, List.foldr_cons, mk_xor, mk_mul, ih]

section Interpolation

variable (points : List (UInt8 × UInt8)) (x : UInt8)

theorem prod_zipIdx_map {M α : Type*} [CommMonoid M] (l : List α) (f : α → ℕ → M) :
    (l.zipIdx.map fun e => f e.1 e.2).prod = ∏ j : Fin l.length, f (l.get j) j := by
  rw [← List.prod_ofFn]
  congr 1
  apply List.ext_getElem
  · simp
  · intro j _ _
    simp

theorem sum_zipIdx_map {M α : Type*} [AddCommMonoid M] (l : List α) (f : α → ℕ → M) :
    (l.zipIdx.map fun e => f e.1 e.2).sum = ∑ j : Fin l.length, f (l.get j) j := by
  rw [← List.sum_ofFn]
  congr 1
  apply List.ext_getElem
  · simp
  · intro j _ _
    simp

/-- The inner loop multiplies the factors of the other points. -/
theorem mk_gf256BasisFraction (i : Fin points.length) (xi : UInt8) :
    (⟨(gf256BasisFraction points x i xi).1⟩ : Gf256) =
        ∏ j ∈ Finset.univ.erase i, (⟨x⟩ - ⟨(points.get j).1⟩) ∧
      (⟨(gf256BasisFraction points x i xi).2⟩ : Gf256) =
        ∏ j ∈ Finset.univ.erase i, (⟨xi⟩ - ⟨(points.get j).1⟩) := by
  have hloop : ∀ (l : List ((UInt8 × UInt8) × ℕ)) (fraction : UInt8 × UInt8),
      let result := l.foldl (fun fraction point =>
        if i.val ≠ point.2 then
          (mul fraction.1 (x ^^^ point.1.1), mul fraction.2 (xi ^^^ point.1.1))
        else fraction) fraction
      (⟨result.1⟩ : Gf256) = ⟨fraction.1⟩ *
          (l.map fun e => if i.val ≠ e.2 then (⟨x⟩ - ⟨e.1.1⟩ : Gf256) else 1).prod ∧
        (⟨result.2⟩ : Gf256) = ⟨fraction.2⟩ *
          (l.map fun e => if i.val ≠ e.2 then (⟨xi⟩ - ⟨e.1.1⟩ : Gf256) else 1).prod := by
    intro l
    induction l with
    | nil => simp
    | cons point l ih =>
      intro fraction
      simp only [List.foldl_cons, List.map_cons, List.prod_cons]
      by_cases hi : i.val ≠ point.2
      · simp only [if_pos hi]
        obtain ⟨hnum, hden⟩ :=
          ih (mul fraction.1 (x ^^^ point.1.1), mul fraction.2 (xi ^^^ point.1.1))
        rw [hnum, hden, mk_mul, mk_mul, mk_xor_eq_sub, mk_xor_eq_sub, mul_assoc, mul_assoc]
        exact ⟨rfl, rfl⟩
      · simp only [if_neg hi, one_mul]
        exact ih fraction
  have hprod : ∀ f : UInt8 × UInt8 → Gf256,
      (points.zipIdx.map fun e => if i.val ≠ e.2 then f e.1 else 1).prod =
        ∏ j ∈ Finset.univ.erase i, f (points.get j) := by
    intro f
    rw [prod_zipIdx_map points fun point j => if i.val ≠ j then f point else 1,
      ← Finset.filter_ne, Finset.prod_filter]
    simp only [ne_eq, Fin.ext_iff]
  obtain ⟨hnum, hden⟩ := hloop points.zipIdx (1, 1)
  rw [hprod fun point => ⟨x⟩ - ⟨point.1⟩, mk_one, one_mul] at hnum
  rw [hprod fun point => ⟨xi⟩ - ⟨point.1⟩, mk_one, one_mul] at hden
  exact ⟨hnum, hden⟩

theorem mk_gf256LagrangeInterpolate :
    (⟨gf256LagrangeInterpolate points x⟩ : Gf256) =
      ∑ i : Fin points.length, ⟨(points.get i).2⟩ *
        ((∏ j ∈ Finset.univ.erase i, (⟨x⟩ - ⟨(points.get j).1⟩)) *
          (∏ j ∈ Finset.univ.erase i, (⟨(points.get i).1⟩ - ⟨(points.get j).1⟩))⁻¹) := by
  have hloop : ∀ (l : List ((UInt8 × UInt8) × ℕ)) (result : UInt8)
      (g : (UInt8 × UInt8) → ℕ → UInt8),
      (⟨l.foldl (fun result point => result ^^^ g point.1 point.2) result⟩ : Gf256) =
        ⟨result⟩ + (l.map fun e => (⟨g e.1 e.2⟩ : Gf256)).sum := by
    intro l result g
    induction l generalizing result with
    | nil => simp
    | cons point l ih => rw [List.foldl_cons, ih, mk_xor, List.map_cons, List.sum_cons, add_assoc]
  rw [gf256LagrangeInterpolate, hloop points.zipIdx 0 fun point i =>
    mul point.2 (mul (gf256BasisFraction points x i point.1).1
      (inv (gf256BasisFraction points x i point.1).2)),
    mk_zero, zero_add, sum_zipIdx_map points fun point i => (⟨mul point.2
      (mul (gf256BasisFraction points x i point.1).1
        (inv (gf256BasisFraction points x i point.1).2))⟩ : Gf256)]
  refine Finset.sum_congr rfl fun i _ => ?_
  obtain ⟨hnum, hden⟩ := mk_gf256BasisFraction points x i (points.get i).1
  rw [mk_mul, mk_mul, mk_inv, hnum, hden]

variable {points}

/-- Interpolation through points of a polynomial of low degree gives its values. -/
theorem mk_gf256LagrangeInterpolate_eq_eval {p : Gf256[X]} (hp : p.degree < points.length)
    (hnodup : (points.map Prod.fst).Nodup)
    (hpoints : ∀ point ∈ points, p.eval ⟨point.1⟩ = ⟨point.2⟩) :
    (⟨gf256LagrangeInterpolate points x⟩ : Gf256) = p.eval ⟨x⟩ := by
  have hinj : Function.Injective fun i : Fin points.length => (⟨(points.get i).1⟩ : Gf256) := by
    intro i j hij
    have hpoint : points.get i = points.get j :=
      List.inj_on_of_nodup_map hnodup (List.get_mem points i) (List.get_mem points j)
        (congrArg byte hij)
    exact List.nodup_iff_injective_get.1 hnodup.of_map hpoint
  rw [← sum_lagrange_eq_eval hp hinj, mk_gf256LagrangeInterpolate]
  refine Finset.sum_congr rfl fun i _ => ?_
  rw [hpoints _ (List.get_mem points i)]

end Interpolation

end Gf256

/-! ### Splitting -/

/-- The x coordinate of a share. -/
def xCoord (idx : ℕ) : UInt8 := UInt8.ofNat (idx + 1)

/-- The value of a share for a byte of the secret with its random coefficients. -/
def shareValue (k : ℕ) (byte : UInt8) (row : ℕ → UInt8) (idx : ℕ) : UInt8 :=
  gf256Eval (byte :: (List.range (k - 1)).map row) (xCoord idx)

/-- The share at an index. -/
def shareAt (secret : Bytes) (k : ℕ) (random : ℕ → ℕ → UInt8) (idx : ℕ) : Bytes :=
  xCoord idx :: UInt8.ofNat k ::
    secret.zipIdx.map fun byte => shareValue k byte.1 (random byte.2) idx

/-- The parameters that `split_secret_shamir` accepts. -/
structure ValidThreshold (k n : ℕ) : Prop where
  pos : 1 ≤ k
  le : k ≤ n
  le_max : n ≤ 255

section Split

variable {secret : Bytes} {k n : ℕ} {random : ℕ → ℕ → UInt8}

/-- A loop that appends to every share appends the values of all its rounds. -/
theorem foldl_mapIdx_append {α : Type*} (l : List α) (shares : List Bytes) (g : α → ℕ → UInt8) :
    l.foldl (fun shares a => shares.mapIdx fun idx share => share ++ [g a idx]) shares =
      shares.mapIdx fun idx share => share ++ l.map fun a => g a idx := by
  induction l generalizing shares with
  | nil => apply List.ext_getElem <;> simp
  | cons a l ih =>
    rw [List.foldl_cons, ih, List.mapIdx_mapIdx]
    simp [Function.comp_def]

theorem splitSecretShamir_eq (hvalid : ValidThreshold k n) :
    splitSecretShamir secret k n random =
      .ok ((List.range n).map (shareAt secret k random)) := by
  obtain ⟨hpos, hle, hmax⟩ := hvalid
  simp only [splitSecretShamir]
  rw [if_neg (by omega)]
  have hloop := foldl_mapIdx_append secret.zipIdx
    ((List.range n).map fun idx => [xCoord idx, UInt8.ofNat k])
    fun byte idx => shareValue k byte.1 (random byte.2) idx
  refine congrArg Except.ok (hloop.trans ?_)
  apply List.ext_getElem
  · simp
  · intro idx _ _
    simp [shareAt]

theorem toNat_xCoord {idx : ℕ} (h : idx < 255) : (xCoord idx).toNat = idx + 1 := by
  rw [xCoord, UInt8.toNat_ofNat']
  omega

theorem xCoord_inj {i j : ℕ} (hi : i < 255) (hj : j < 255) (h : xCoord i = xCoord j) : i = j := by
  have hnat := congrArg UInt8.toNat h
  rw [toNat_xCoord hi, toNat_xCoord hj] at hnat
  omega

theorem mk_xCoord_ne_zero {idx : ℕ} (h : idx < 255) : (⟨xCoord idx⟩ : Gf256) ≠ 0 := by
  intro hzero
  have hnat := congrArg UInt8.toNat (Gf256.mk_eq_zero.1 hzero)
  rw [toNat_xCoord h] at hnat
  exact absurd hnat (by simp)

/-- The polynomial of a byte with its random coefficients. -/
noncomputable def bytePoly (k : ℕ) (byte : UInt8) (row : ℕ → UInt8) : Gf256[X] :=
  ofCoeffs (⟨byte⟩ :: (List.range (k - 1)).map fun j => ⟨row j⟩)

theorem degree_bytePoly (hk : 1 ≤ k) (byte : UInt8) (row : ℕ → UInt8) :
    (bytePoly k byte row).degree < k := by
  have hlow := degree_ofCoeffs_lt
    ((⟨byte⟩ : Gf256) :: (List.range (k - 1)).map fun j => ⟨row j⟩)
  rw [List.length_cons, List.length_map, List.length_range, Nat.sub_add_cancel hk] at hlow
  exact hlow

theorem mk_shareValue (byte : UInt8) (row : ℕ → UInt8) (idx : ℕ) :
    (⟨shareValue k byte row idx⟩ : Gf256) = (bytePoly k byte row).eval ⟨xCoord idx⟩ := by
  rw [shareValue, Gf256.mk_gf256Eval, bytePoly, List.map_cons, List.map_map]
  rfl

theorem getElem?_shareAt (i idx : ℕ) :
    (shareAt secret k random idx)[i + 2]? =
      secret[i]?.map fun byte => shareValue k byte (random i) idx := by
  simp [shareAt, Function.comp_def]

theorem length_shareAt (idx : ℕ) : (shareAt secret k random idx).length = secret.length + 2 := by
  simp [shareAt]

end Split

/-! ### Reconstruction -/

theorem any_adjacent_eq_false {l : List UInt8} (h : l.Nodup) :
    ((l.zip l.tail).any fun pair => pair.1 = pair.2) = false := by
  rw [List.any_eq_false]
  rintro ⟨a, b⟩ hmem
  obtain ⟨i, hi⟩ := List.mem_iff_getElem?.1 hmem
  obtain ⟨ha, hb⟩ := List.getElem?_zip_eq_some.1 hi
  rw [List.getElem?_tail] at hb
  intro heq
  obtain rfl : a = b := by simpa using heq
  have hsame : i = i + 1 :=
    (List.getElem?_inj (List.getElem?_eq_some_iff.1 ha).1 h).1 (ha.trans hb.symm)
  omega

section Reconstruct

variable {secret : Bytes} {k n : ℕ} {random : ℕ → ℕ → UInt8} {chosen : List Bytes}

theorem exists_index {α : Type*} {f : ℕ → α} {chosen : List α}
    (hchosen : chosen ⊆ (List.range n).map f) {share : α} (hmem : share ∈ chosen) :
    ∃ idx < n, f idx = share := by
  simpa using hchosen hmem

theorem nodup_xCoords (hmax : n ≤ 255)
    (hchosen : chosen ⊆ (List.range n).map (shareAt secret k random))
    (hnodup : chosen.Nodup) : (chosen.map (·.headD 0)).Nodup := by
  refine List.Nodup.map_on ?_ hnodup
  intro share hmem share' hmem' hhead
  obtain ⟨idx, hidx, rfl⟩ := exists_index hchosen hmem
  obtain ⟨idx', hidx', rfl⟩ := exists_index hchosen hmem'
  rw [xCoord_inj (by omega) (by omega) hhead]

/-- The values of as many shares as the threshold interpolate to the byte of the secret. -/
theorem interpolate_shares (hvalid : ValidThreshold k n)
    (hchosen : chosen ⊆ (List.range n).map (shareAt secret k random))
    (hnodup : chosen.Nodup) (hlength : chosen.length = k) {i : ℕ} {byte : UInt8}
    (hbyte : secret[i]? = some byte) :
    gf256LagrangeInterpolate
      (chosen.map fun share => (share.headD 0, share.getD (i + 2) 0)) 0 = byte := by
  have heval : (⟨gf256LagrangeInterpolate
      (chosen.map fun share => (share.headD 0, share.getD (i + 2) 0)) 0⟩ : Gf256) =
        (bytePoly k byte (random i)).eval 0 := by
    refine Gf256.mk_gf256LagrangeInterpolate_eq_eval 0 ?_ ?_ ?_
    · rw [List.length_map, hlength]
      exact degree_bytePoly hvalid.pos byte (random i)
    · rw [List.map_map]
      exact nodup_xCoords hvalid.le_max hchosen hnodup
    · rw [List.forall_mem_map]
      intro share hmem
      obtain ⟨idx, -, rfl⟩ := exists_index hchosen hmem
      rw [List.getD_eq_getElem?_getD, getElem?_shareAt, hbyte]
      exact (mk_shareValue byte (random i) idx).symm
  rw [bytePoly, eval_zero_ofCoeffs_cons] at heval
  exact congrArg Gf256.byte heval

/-- Distinct shares of a split, at least as many as its threshold, give the secret back. -/
theorem reconstructSecretShamir_of_shares (hsecret : secret ≠ []) (hvalid : ValidThreshold k n)
    (hchosen : chosen ⊆ (List.range n).map (shareAt secret k random))
    (hnodup : chosen.Nodup) (hlength : k ≤ chosen.length) :
    reconstructSecretShamir chosen k = .ok secret := by
  have hpositive : 0 < secret.length := List.length_pos_iff.2 hsecret
  have hlengths : ∀ share ∈ chosen, share.length = secret.length + 2 := by
    intro share hmem
    obtain ⟨idx, -, rfl⟩ := exists_index hchosen hmem
    exact length_shareAt idx
  -- only as many shares as the threshold are used
  have htaken : chosen.take k ⊆ (List.range n).map (shareAt secret k random) :=
    List.Subset.trans (List.take_subset k chosen) hchosen
  have hdistinct : (chosen.take k).Nodup := hnodup.sublist (List.take_sublist k chosen)
  have hsorted : ((chosen.take k).map (·.headD 0)).mergeSort.Nodup :=
    (List.mergeSort_perm _ _).nodup_iff.2 (nodup_xCoords hvalid.le_max htaken hdistinct)
  have hnonempty : (chosen.take k).any (·.isEmpty) = false := by
    rw [List.any_eq_false]
    intro share hmem
    have hlong := hlengths share (List.mem_of_mem_take hmem)
    simp [← List.length_pos_iff, hlong]
  obtain ⟨first, rest, rfl⟩ : ∃ first rest, chosen = first :: rest :=
    List.exists_cons_of_length_pos (hvalid.pos.trans hlength)
  have hfirst : first.length = secret.length + 2 := hlengths first List.mem_cons_self
  have hsame : (first :: rest).any (·.length ≠ first.length) = false := by
    rw [List.any_eq_false]
    intro share hmem
    simp [hlengths share hmem, hfirst]
  simp only [reconstructSecretShamir, hsame, hnonempty, any_adjacent_eq_false hsorted,
    Bool.false_eq_true, if_false, if_neg (Nat.not_lt.2 hlength)]
  rw [if_neg (by omega), if_neg (by omega), hfirst, Nat.add_sub_cancel]
  refine congrArg Except.ok (List.ext_getElem (by simp) fun i hi hi' => ?_)
  rw [List.getElem_map, List.getElem_range]
  refine interpolate_shares hvalid htaken hdistinct ?_ (List.getElem?_eq_getElem hi')
  rw [List.length_take, min_eq_left hlength]

end Reconstruct

section WithMeta

variable (P : IntegrityPrimitives) {secret verifyKey : Bytes} {timestamp : UInt64} {k n : ℕ}
variable {random : ℕ → ℕ → UInt8}

/-- The share with metadata at an index. -/
def metaShareAt (secret : Bytes) (k n : ℕ) (random : ℕ → ℕ → UInt8) (verifyKey : Bytes)
    (timestamp : UInt64) (idx : ℕ) : ShamirShare :=
  let share : ShamirShare :=
    { index := UInt8.ofNat idx, threshold := UInt8.ofNat k, total := UInt8.ofNat n, timestamp,
      data := shareAt secret k random idx, mac := zeros32, verifyKey,
      secretHash := computeSecretHash P secret }
  { share with mac := computeShareMac P verifyKey share }

theorem splitSecretShamirWithMeta_eq (hvalid : ValidThreshold k n) :
    splitSecretShamirWithMeta P secret k n random verifyKey timestamp =
      .ok ((List.range n).map (metaShareAt P secret k n random verifyKey timestamp)) := by
  rw [splitSecretShamirWithMeta, splitSecretShamir_eq hvalid]
  refine congrArg Except.ok ?_
  apply List.ext_getElem
  · simp
  · intro idx _ _
    simp [metaShareAt]

/-- A share of a split with a nonzero hash and key passes the public verification. -/
theorem verifySharePublic_metaShareAt (hhash : computeSecretHash P secret ≠ zeros32)
    (hkey : verifyKey ≠ zeros32) {idx : ℕ} (hidx : idx < 255) :
    verifySharePublic P (metaShareAt P secret k n random verifyKey timestamp idx) = true := by
  let share := metaShareAt P secret k n random verifyKey timestamp idx
  have hx : share.data.headD 0 = UInt8.ofNat (min (share.index.toNat + 1) 255) := by
    have hindex : share.index.toNat = idx := by
      change (UInt8.ofNat idx).toNat = idx
      rw [UInt8.toNat_ofNat', Nat.mod_eq_of_lt (by omega)]
    rw [hindex, min_eq_left (by omega)]
    rfl
  have hzero : ¬ (share.secretHash = zeros32 ∨ share.verifyKey = zeros32) :=
    not_or.2 ⟨hhash, hkey⟩
  change verifySharePublic P share = true
  rw [verifySharePublic, if_neg (not_not.2 hx), if_neg hzero]
  -- the code is computed over everything but the code itself
  exact decide_eq_true rfl

theorem checkShare_metaShareAt (hhash : computeSecretHash P secret ≠ zeros32)
    (hkey : verifyKey ≠ zeros32) (first : ℕ) {idx : ℕ} (hidx : idx < 255) :
    checkShare P (metaShareAt P secret k n random verifyKey timestamp first)
      (metaShareAt P secret k n random verifyKey timestamp idx) = .ok () := by
  rw [checkShare, if_neg (by simp [metaShareAt]), if_neg (by simp [metaShareAt]),
    verifySharePublic_metaShareAt P hhash hkey hidx]
  rfl

theorem forM_eq_ok {α : Type*} {l : List α} {f : α → Except KyberError Unit} :
    l.forM f = .ok () ↔ ∀ a ∈ l, f a = .ok () := by
  induction l with
  | nil => simp [List.forM, pure, Except.pure]
  | cons a l ih =>
    rw [List.forall_mem_cons, ← ih]
    change (f a >>= fun _ => l.forM f) = .ok () ↔ _
    cases f a with
    | error e => exact iff_of_false (fun h => nomatch h) fun h => nomatch h.1
    | ok => exact (and_iff_right rfl).symm

/-- Distinct shares of a split with metadata, at least as many as its threshold, pass all checks
and give the secret back. -/
theorem reconstructShamirWithMeta_of_shares (hsecret : secret ≠ []) (hvalid : ValidThreshold k n)
    (hhash : computeSecretHash P secret ≠ zeros32) (hkey : verifyKey ≠ zeros32)
    {chosen : List ShamirShare}
    (hchosen : chosen ⊆ (List.range n).map (metaShareAt P secret k n random verifyKey timestamp))
    (hnodup : chosen.Nodup) (hlength : k ≤ chosen.length) :
    reconstructShamirWithMeta P chosen k = .ok secret := by
  have htaken : chosen.take k ⊆
      (List.range n).map (metaShareAt P secret k n random verifyKey timestamp) :=
    List.Subset.trans (List.take_subset k chosen) hchosen
  have hdistinct : (chosen.take k).Nodup := hnodup.sublist (List.take_sublist k chosen)
  have hcount : (chosen.take k).length = k := by
    rw [List.length_take, min_eq_left hlength]
  have hdata : reconstructSecretShamir ((chosen.take k).map (·.data)) k = .ok secret := by
    have hshares : (chosen.take k).map (·.data) ⊆
        (List.range n).map (shareAt secret k random) := by
      have hmap := List.map_subset (·.data) htaken
      rwa [List.map_map] at hmap
    refine reconstructSecretShamir_of_shares hsecret hvalid hshares ?_ ?_
    · refine List.Nodup.map_on ?_ hdistinct
      intro share hmem share' hmem' hsame
      obtain ⟨idx, hidx, rfl⟩ := exists_index htaken hmem
      obtain ⟨idx', hidx', rfl⟩ := exists_index htaken hmem'
      have hcoord : xCoord idx = xCoord idx' := congrArg (·.headD 0) hsame
      have hmax := hvalid.le_max
      rw [xCoord_inj (by omega) (by omega) hcoord]
    · rw [List.length_map, hcount]
  obtain ⟨first, rest, hcons⟩ : ∃ first rest, chosen.take k = first :: rest :=
    List.exists_cons_of_length_pos (hvalid.pos.trans_eq hcount.symm)
  obtain ⟨idx₀, -, hfirst⟩ := exists_index htaken (hcons ▸ List.mem_cons_self)
  have hchecks : (first :: rest).forM (checkShare P first) = .ok () := by
    refine forM_eq_ok.2 fun share hmem => ?_
    obtain ⟨idx, hidx, rfl⟩ := exists_index htaken (hcons ▸ hmem)
    rw [← hfirst]
    exact checkShare_metaShareAt P hhash hkey idx₀ (hidx.trans_le hvalid.le_max)
  rw [hcons] at hdata
  simp only [reconstructShamirWithMeta, hcons, hchecks, hdata, if_neg (Nat.not_lt.2 hlength)]
  rw [if_pos]
  rw [← hfirst]
  rfl

end WithMeta

/-- Every list of at least `k` distinct shares of a split of a secret reconstructs the secret, and
so does every such list of shares with metadata if the hash of the secret and the verification key
are not zero. -/
theorem reconstruct_split (P : IntegrityPrimitives) {secret : Bytes} (hsecret : secret ≠ [])
    {k n : ℕ} (hvalid : ValidThreshold k n) (random : ℕ → ℕ → UInt8) (verifyKey : Bytes)
    (timestamp : UInt64) :
    (∃ shares, splitSecretShamir secret k n random = .ok shares ∧
      ∀ chosen : List Bytes, chosen ⊆ shares → chosen.Nodup → k ≤ chosen.length →
        reconstructSecretShamir chosen k = .ok secret) ∧
    (computeSecretHash P secret ≠ zeros32 → verifyKey ≠ zeros32 →
      ∃ shares, splitSecretShamirWithMeta P secret k n random verifyKey timestamp = .ok shares ∧
        ∀ chosen : List ShamirShare, chosen ⊆ shares → chosen.Nodup → k ≤ chosen.length →
          reconstructShamirWithMeta P chosen k = .ok secret) := by
  constructor
  · refine ⟨_, splitSecretShamir_eq hvalid, fun chosen hchosen hnodup hlength => ?_⟩
    exact reconstructSecretShamir_of_shares hsecret hvalid hchosen hnodup hlength
  · intro hhash hkey
    refine ⟨_, splitSecretShamirWithMeta_eq P hvalid, fun chosen hchosen hnodup hlength => ?_⟩
    exact reconstructShamirWithMeta_of_shares P hsecret hvalid hhash hkey hchosen hnodup hlength

/-- Two of three shares of a secret of one byte, in another order and with metadata. -/
theorem reconstruct_split_two_of_three :
    reconstructSecretShamir [[3, 2, 35], [1, 2, 45]] 2 = .ok [42] ∧
      ∃ shares,
        splitSecretShamirWithMeta ⟨id, fun _ key _ => key, fun key message => key ++ message⟩
          [42] 2 3 (fun _ _ => 7) [1] 0 = .ok shares ∧
        reconstructShamirWithMeta ⟨id, fun _ key _ => key, fun key message => key ++ message⟩
          (shares.drop 1) 2 = .ok [42] := by
  have hsecret : ([42] : Bytes) ≠ [] := by decide
  have hvalid : ValidThreshold 2 3 := ⟨by decide, by decide, by decide⟩
  obtain ⟨⟨shares, hsplit, hplain⟩, hmeta⟩ :=
    reconstruct_split ⟨id, fun _ key _ => key, fun key message => key ++ message⟩ hsecret hvalid
      (fun _ _ => 7) [1] 0
  constructor
  · have hshares : splitSecretShamir [42] 2 3 (fun _ _ => 7) =
        .ok [[1, 2, 45], [2, 2, 36], [3, 2, 35]] := by
      decide +kernel
    obtain rfl := Except.ok.inj (hshares.symm.trans hsplit)
    exact hplain _ (by decide) (by decide) (by decide)
  · obtain ⟨shares', hsplit', hrun⟩ := hmeta (by decide) (by decide)
    have hlast : (splitSecretShamirWithMeta
        ⟨id, fun _ key _ => key, fun key message => key ++ message⟩ [42] 2 3 (fun _ _ => 7) [1]
        0).toOption.all
          (fun shares => decide ((shares.drop 1).Nodup ∧ 2 ≤ (shares.drop 1).length)) = true := by
      decide +kernel
    rw [hsplit'] at hlast
    obtain ⟨hnodup, hlength⟩ := of_decide_eq_true hlast
    exact ⟨shares', hsplit', hrun _ (List.drop_subset 1 shares') hnodup hlength⟩

/-! ### Secrecy -/

/-- Random coefficients as they are drawn, from a choice for each byte of a secret. -/
def drawn {L t : ℕ} (choice : Fin L → Fin t → UInt8) (i j : ℕ) : UInt8 :=
  if h : i < L ∧ j < t then choice ⟨i, h.1⟩ ⟨j, h.2⟩ else 0

/-- A choice of coefficients produces the given bytes in the shares of an adversary. -/
def Produces (secret : Bytes) (k n : ℕ) (known : Finset ℕ) (bytes : ℕ → ℕ → UInt8)
    (choice : Fin secret.length → Fin (k - 1) → UInt8) : Prop :=
  ∃ shares, splitSecretShamir secret k n (drawn choice) = .ok shares ∧
    ∀ idx ∈ known, ∃ share, shares[idx]? = some share ∧
      ∀ i < secret.length, share[i + 2]? = some (bytes idx i)

section Secrecy

variable {secret : Bytes} {k n : ℕ} {known : Finset ℕ} {bytes : ℕ → ℕ → UInt8}

theorem bytePoly_drawn (choice : Fin secret.length → Fin (k - 1) → UInt8) (i : Fin secret.length)
    (byte : UInt8) :
    bytePoly k byte (drawn choice i) = ofCoeffs (⟨byte⟩ :: List.ofFn fun j => ⟨choice i j⟩) := by
  have hrow : ((List.range (k - 1)).map fun j => (⟨drawn choice i j⟩ : Gf256)) =
      List.ofFn fun j => ⟨choice i j⟩ := by
    apply List.ext_getElem
    · simp
    · intro j hj _
      simp at hj
      simp [drawn, hj]
  rw [bytePoly, hrow]

/-- A choice produces the bytes exactly if the polynomial of each byte of the secret has them as
its values. -/
theorem produces_iff (hvalid : ValidThreshold k n) (hknown : ∀ idx ∈ known, idx < n)
    (choice : Fin secret.length → Fin (k - 1) → UInt8) :
    Produces secret k n known bytes choice ↔
      ∀ (i : Fin secret.length) (idx : known),
        (ofCoeffs (⟨secret.get i⟩ :: List.ofFn fun j => ⟨choice i j⟩)).eval
          (⟨xCoord idx⟩ : Gf256) = ⟨bytes idx i⟩ := by
  have hvalue : ∀ (i : Fin secret.length) (idx : ℕ),
      (shareAt secret k (drawn choice) idx)[i.val + 2]? = some (bytes idx i) ↔
        (ofCoeffs (⟨secret.get i⟩ :: List.ofFn fun j => ⟨choice i j⟩)).eval
          (⟨xCoord idx⟩ : Gf256) = ⟨bytes idx i⟩ := by
    intro i idx
    have hbyte : secret[i.val]? = some (secret.get i) := List.getElem?_eq_getElem i.isLt
    rw [getElem?_shareAt, hbyte, Option.map_some, Option.some_inj, ← bytePoly_drawn,
      ← mk_shareValue, Gf256.mk.injEq]
  rw [Produces, splitSecretShamir_eq hvalid]
  constructor
  · rintro ⟨_, hshares, h⟩ i ⟨idx, hidx⟩
    obtain rfl := Except.ok.inj hshares
    obtain ⟨share, hshare, hbytes⟩ := h idx hidx
    rw [List.getElem?_map, List.getElem?_range (hknown idx hidx)] at hshare
    obtain rfl := Option.some.inj hshare
    exact (hvalue i idx).1 (hbytes i i.isLt)
  · intro h
    refine ⟨_, rfl, fun idx hidx => ⟨shareAt secret k (drawn choice) idx, ?_, fun i hi => ?_⟩⟩
    · rw [List.getElem?_map, List.getElem?_range (hknown idx hidx)]
      rfl
    · exact (hvalue ⟨i, hi⟩ idx).2 (h ⟨i, hi⟩ ⟨idx, hidx⟩)

/-- Any bytes at one share less than the threshold are produced by exactly one choice. -/
theorem existsUnique_produces (hvalid : ValidThreshold k n) (hknown : ∀ idx ∈ known, idx < n)
    (hcard : known.card = k - 1) (secret : Bytes) (bytes : ℕ → ℕ → UInt8) :
    ∃! choice, Produces secret k n known bytes choice := by
  have hlt : ∀ idx : known, idx.val < 255 := fun idx =>
    (hknown idx idx.2).trans_le hvalid.le_max
  have hinj : Function.Injective fun idx : known => (⟨xCoord idx⟩ : Gf256) := fun i j hsame =>
    Subtype.ext (xCoord_inj (hlt i) (hlt j) (congrArg Gf256.byte hsame))
  have hne : ∀ idx : known, (⟨xCoord idx⟩ : Gf256) ≠ 0 := fun idx => mk_xCoord_ne_zero (hlt idx)
  have hbyte : ∀ i : Fin secret.length, ∃! c : Fin (k - 1) → Gf256, ∀ idx : known,
      (ofCoeffs (⟨secret.get i⟩ :: List.ofFn c)).eval (⟨xCoord idx⟩ : Gf256) = ⟨bytes idx i⟩ :=
    fun i => existsUnique_coeffs (by simpa using hcard) hinj hne _ _
  choose c hc hunique using hbyte
  refine ⟨fun i j => (c i j).byte, ?_, fun choice hchoice => ?_⟩
  · exact (produces_iff hvalid hknown _).2 hc
  · funext i j
    have hrow := hunique i (fun j => ⟨choice i j⟩) ((produces_iff hvalid hknown choice).1 hchoice i)
    exact congrArg Gf256.byte (congrFun hrow j)

/-- Whatever the bytes of an adversary at `k - 1` shares are, the number of choices of coefficients
that produce them is the same for all secrets of a length, and it is one. -/
theorem shamir_secrecy (hvalid : ValidThreshold k n) (hknown : ∀ idx ∈ known, idx < n)
    (hcard : known.card = k - 1) (bytes : ℕ → ℕ → UInt8) (secret secret' : Bytes)
    (_hlength : secret.length = secret'.length) :
    Nat.card { choice // Produces secret k n known bytes choice } =
        Nat.card { choice // Produces secret' k n known bytes choice } ∧
      Nat.card { choice // Produces secret k n known bytes choice } = 1 := by
  have hone : ∀ secret, Nat.card { choice // Produces secret k n known bytes choice } = 1 := by
    intro secret
    obtain ⟨choice, hchoice, hunique⟩ := existsUnique_produces hvalid hknown hcard secret bytes
    rw [Nat.card_eq_one_iff_unique]
    refine ⟨⟨fun a b => Subtype.ext ?_⟩, ⟨choice, hchoice⟩⟩
    rw [hunique a a.2, hunique b b.2]
  exact ⟨(hone secret).trans (hone secret').symm, hone secret⟩

/-- One share of a secret of two bytes with the threshold two. -/
theorem shamir_secrecy_of_one_share :
    Nat.card { choice // Produces [1, 2] 2 3 {1} (fun _ _ => 9) choice } =
        Nat.card { choice // Produces [3, 4] 2 3 {1} (fun _ _ => 9) choice } ∧
      Nat.card { choice // Produces [1, 2] 2 3 {1} (fun _ _ => 9) choice } = 1 :=
  shamir_secrecy ⟨by decide, by decide, by decide⟩ (by decide) rfl (fun _ _ => 9) [1, 2] [3, 4] rfl

end Secrecy

end KyberPipe
