import Mathlib.Data.List.Perm.Subperm
import Mathlib.Data.List.ProdSigma
import KyberPipe.Crypto.Primitives

/-!
# Image rotations

The rotations of `qr_scanner.rs` are nested loops that assign one cell of the output buffer from
one cell of the image. An access outside a buffer is a panic, `none` here.
-/

namespace KyberPipe.QrScanner

/-- The turns of two nested loops, as pairs of the outer and the inner variable. -/
def turns (rows cols : ℕ) : List (ℕ × ℕ) := List.range rows ×ˢ List.range cols

/-- Nested loops over `y` and `x` with the body `out[dst(y, x)] = luma[src(y, x)]`. -/
def copyCells (dst src : ℕ × ℕ → ℕ) (cells : List (ℕ × ℕ)) (luma out : Bytes) : Option Bytes :=
  cells.foldlM (fun out c => if dst c < out.length then (luma[src c]?).map (out.set (dst c))
    else none) out

/-- The cell that a turn of `rotate_90_into` writes. -/
def dst90 (h : ℕ) (c : ℕ × ℕ) : ℕ := c.2 * h + (h - 1 - c.1)

/-- The cell that a turn of `rotate_180_into` writes. -/
def dst180 (w h : ℕ) (c : ℕ × ℕ) : ℕ := (h - 1 - c.1) * w + (w - 1 - c.2)

/-- The cell that a turn of `rotate_270_into` writes. -/
def dst270 (h : ℕ) (c : ℕ × ℕ) : ℕ := c.1 * h + c.2

/-- `rotate_90_into` -/
def rotate90Into (luma : Bytes) (w h : ℕ) (out : Bytes) : Option Bytes :=
  copyCells (dst90 h) (fun c => c.1 * w + c.2) (turns h w) luma out

/-- `rotate_180_into` -/
def rotate180Into (luma : Bytes) (w h : ℕ) (out : Bytes) : Option Bytes :=
  copyCells (dst180 w h) (fun c => c.1 * w + c.2) (turns h w) luma out

/-- `rotate_270_into` -/
def rotate270Into (luma : Bytes) (w h : ℕ) (out : Bytes) : Option Bytes :=
  copyCells (dst270 h) (fun c => c.2 * w + (w - 1 - c.1)) (turns w h) luma out

/-! ## Loops that assign cells -/

variable {dst : ℕ × ℕ → ℕ} {rows cols : ℕ}

@[simp]
theorem mem_turns {c : ℕ × ℕ} : c ∈ turns rows cols ↔ c.1 < rows ∧ c.2 < cols := by
  obtain ⟨y, x⟩ := c
  simp [turns]

/-- Loops that stay within the buffers and write no cell twice leave in each cell that they write
what they read for it. -/
theorem exists_copyCells (src : ℕ × ℕ → ℕ) (luma out : Bytes) {cells : List (ℕ × ℕ)}
    (hdst : ∀ c ∈ cells, dst c < out.length)
    (hsrc : ∀ c ∈ cells, src c < luma.length) (hnodup : (cells.map dst).Nodup) :
    ∃ r, copyCells dst src cells luma out = some r ∧ r.length = out.length ∧
      (∀ c ∈ cells, r[dst c]? = luma[src c]?) ∧ ∀ d ∉ cells.map dst, r[d]? = out[d]? := by
  induction cells generalizing out with
  | nil => exact ⟨out, rfl, rfl, by simp, by simp⟩
  | cons c cells ih =>
    rw [List.map_cons, List.nodup_cons] at hnodup
    have hc := hdst c List.mem_cons_self
    have hs := hsrc c List.mem_cons_self
    have hread := List.getElem?_eq_getElem hs
    let next := out.set (dst c) luma[src c]
    obtain ⟨r, hr, hlen, hcells, hothers⟩ := ih next
      (fun c' hc' => by simpa [next] using hdst c' (List.mem_cons_of_mem _ hc'))
      (fun c' hc' => hsrc c' (List.mem_cons_of_mem _ hc')) hnodup.2
    refine ⟨r, ?_, by simpa [next] using hlen, ?_, fun d hd => ?_⟩
    · rw [copyCells, List.foldlM_cons, if_pos hc, hread]
      exact hr
    · rintro c' (_ | ⟨_, hc'⟩)
      · -- the later turns leave the cell alone
        rw [hothers _ hnodup.1, hread]
        simp [next, hc]
      · exact hcells c' hc'
    · rw [List.map_cons, List.mem_cons, not_or] at hd
      rw [hothers d hd.2]
      simp [next, Ne.symm hd.1]

/-- Loops over an injective map into a buffer of as many cells as turns write every cell once. -/
theorem map_turns_perm (hlt : ∀ y < rows, ∀ x < cols, dst (y, x) < rows * cols)
    (hinj : ∀ c ∈ turns rows cols, ∀ c' ∈ turns rows cols, dst c = dst c' → c = c') :
    ((turns rows cols).map dst).Perm (List.range (rows * cols)) := by
  have hturns : (turns rows cols).Nodup := List.nodup_range.product List.nodup_range
  have hnodup : ((turns rows cols).map dst).Nodup := hturns.map_on hinj
  have hsub : (turns rows cols).map dst ⊆ List.range (rows * cols) := by
    intro d hd
    obtain ⟨c, hc, rfl⟩ := List.mem_map.1 hd
    exact List.mem_range.2 (hlt c.1 (mem_turns.1 hc).1 c.2 (mem_turns.1 hc).2)
  refine (List.subperm_of_subset hnodup hsub).perm_of_length_le ?_
  rw [List.length_map, turns, List.length_product]
  simp

/-- Two numbers below `n` and their quotients are told apart. -/
theorem eq_of_mul_add_eq {n a b a' b' : ℕ} (hb : b < n) (hb' : b' < n)
    (h : a * n + b = a' * n + b') : a = a' ∧ b = b' := by
  have hn : 0 < n := Nat.zero_lt_of_lt hb
  rw [Nat.mul_comm a, Nat.mul_comm a'] at h
  have hdiv : a = a' := by
    have hq := congrArg (· / n) h
    simpa [Nat.mul_add_div hn, Nat.div_eq_of_lt hb, Nat.div_eq_of_lt hb'] using hq
  subst hdiv
  exact ⟨rfl, Nat.add_left_cancel h⟩

theorem mul_add_lt {n m a b : ℕ} (ha : a < m) (hb : b < n) : a * n + b < m * n :=
  calc a * n + b < a * n + n := Nat.add_lt_add_left hb _
    _ = (a + 1) * n := (Nat.succ_mul a n).symm
    _ ≤ m * n := Nat.mul_le_mul_right n ha

/-! ## The three rotations -/

theorem dst90_perm (w h : ℕ) : ((turns h w).map (dst90 h)).Perm (List.range (h * w)) := by
  refine map_turns_perm (fun y hy x hx => ?_) ?_
  · rw [Nat.mul_comm h w]
    exact mul_add_lt hx (by omega)
  · rintro ⟨y, x⟩ hc ⟨y', x'⟩ hc' heq
    obtain ⟨hy, hx⟩ := mem_turns.1 hc
    obtain ⟨hy', hx'⟩ := mem_turns.1 hc'
    obtain ⟨rfl, hrow⟩ := eq_of_mul_add_eq (n := h) (by omega) (by omega) heq
    exact Prod.ext (by dsimp only at *; omega) rfl

theorem dst180_perm (w h : ℕ) : ((turns h w).map (dst180 w h)).Perm (List.range (h * w)) := by
  refine map_turns_perm (fun y hy x hx => mul_add_lt (by omega) (by omega)) ?_
  rintro ⟨y, x⟩ hc ⟨y', x'⟩ hc' heq
  obtain ⟨hy, hx⟩ := mem_turns.1 hc
  obtain ⟨hy', hx'⟩ := mem_turns.1 hc'
  obtain ⟨hrow, hcol⟩ := eq_of_mul_add_eq (n := w) (by omega) (by omega) heq
  exact Prod.ext (by dsimp only at *; omega) (by dsimp only at *; omega)

theorem dst270_perm (w h : ℕ) : ((turns w h).map (dst270 h)).Perm (List.range (w * h)) := by
  refine map_turns_perm (fun y hy x hx => mul_add_lt hy hx) ?_
  rintro ⟨y, x⟩ hc ⟨y', x'⟩ hc' heq
  obtain ⟨hrow, hcol⟩ := eq_of_mul_add_eq (mem_turns.1 hc).2 (mem_turns.1 hc').2 heq
  exact Prod.ext hrow hcol

/-- Loops that write every cell of the output once, from cells of the image. -/
theorem exists_copyCells_turns (src : ℕ × ℕ → ℕ) (luma : Bytes) {out : Bytes}
    (hperm : ((turns rows cols).map dst).Perm (List.range (rows * cols)))
    (hsrc : ∀ c ∈ turns rows cols, src c < luma.length) (hout : out.length = rows * cols) :
    ∃ r, copyCells dst src (turns rows cols) luma out = some r ∧ r.length = rows * cols ∧
      ∀ c ∈ turns rows cols, r[dst c]? = luma[src c]? := by
  have hdst : ∀ c ∈ turns rows cols, dst c < out.length := fun c hc => by
    rw [hout, ← List.mem_range]
    exact hperm.subset (List.mem_map_of_mem hc)
  obtain ⟨r, hr, hlen, hcells, -⟩ :=
    exists_copyCells src luma out hdst hsrc (hperm.nodup_iff.2 List.nodup_range)
  exact ⟨r, hr, hlen.trans hout, hcells⟩

/-- Buffers that agree on every written cell are equal. -/
theorem eq_of_written {r r' : Bytes}
    (hperm : ((turns rows cols).map dst).Perm (List.range (rows * cols)))
    (hlen : r.length = rows * cols) (hlen' : r'.length = rows * cols)
    (h : ∀ c ∈ turns rows cols, r[dst c]? = r'[dst c]?) : r = r' := by
  refine List.ext_getElem? fun d => ?_
  rcases Nat.lt_or_ge d (rows * cols) with hd | hd
  · obtain ⟨c, hc, rfl⟩ := List.mem_map.1 (hperm.symm.subset (List.mem_range.2 hd))
    exact h c hc
  · rw [List.getElem?_eq_none (by omega), List.getElem?_eq_none (by omega)]

/-- On buffers of matching length no rotation reads or writes outside them, each writes every cell
of its output once, a rotation by 270 degrees undoes one by 90 degrees, and a rotation by 180
degrees is two by 90 degrees. -/
theorem image_rotations_compose (w h : ℕ) {luma out out' : Bytes} (hluma : luma.length = h * w)
    (hout : out.length = h * w) (hout' : out'.length = h * w) :
    ∃ r90 r180 r270,
      (rotate90Into luma w h out = some r90 ∧ rotate180Into luma w h out = some r180 ∧
        rotate270Into luma w h out = some r270) ∧
      (((turns h w).map (dst90 h)).Perm (List.range (h * w)) ∧
        ((turns h w).map (dst180 w h)).Perm (List.range (h * w)) ∧
        ((turns w h).map (dst270 h)).Perm (List.range (w * h))) ∧
      rotate270Into r90 h w out' = some luma ∧ rotate90Into r90 h w out' = some r180 := by
  have hcell : ∀ c ∈ turns h w, c.1 * w + c.2 < luma.length := fun c hc => by
    rw [hluma]
    exact mul_add_lt (mem_turns.1 hc).1 (mem_turns.1 hc).2
  have hcomm : w * h = h * w := Nat.mul_comm w h
  obtain ⟨r90, hr90, hlen90, hcells90⟩ :=
    exists_copyCells_turns (fun c => c.1 * w + c.2) luma (dst90_perm w h) hcell hout
  obtain ⟨r180, hr180, hlen180, hcells180⟩ :=
    exists_copyCells_turns (fun c => c.1 * w + c.2) luma (dst180_perm w h) hcell hout
  obtain ⟨r270, hr270, -, -⟩ := exists_copyCells_turns
    (fun c => c.2 * w + (w - 1 - c.1)) luma (dst270_perm w h)
    (fun c hc => by
      rw [hluma]
      exact mul_add_lt (mem_turns.1 hc).2 (by have := (mem_turns.1 hc).1; omega))
    (hout.trans hcomm.symm)
  refine ⟨r90, r180, r270, ⟨hr90, hr180, hr270⟩,
    ⟨dst90_perm w h, dst180_perm w h, dst270_perm w h⟩, ?_, ?_⟩
  · -- turn `(y, x)` of the second rotation reads the cell that turn `(y, x)` of the first wrote
    obtain ⟨r, hr, hlen, hcells⟩ := exists_copyCells_turns
      (fun c => c.2 * h + (h - 1 - c.1)) r90 (dst270_perm h w)
      (fun c hc => by
        rw [hlen90, ← hcomm]
        exact mul_add_lt (mem_turns.1 hc).2 (by have := (mem_turns.1 hc).1; omega)) hout'
    rw [rotate270Into, hr, eq_of_written (dst270_perm h w) hlen hluma]
    exact fun c hc => (hcells c hc).trans (hcells90 c hc)
  · obtain ⟨r, hr, hlen, hcells⟩ := exists_copyCells_turns
      (fun c => c.1 * h + c.2) r90 (dst90_perm h w)
      (fun c hc => by
        rw [hlen90, ← hcomm]
        exact mul_add_lt (mem_turns.1 hc).1 (mem_turns.1 hc).2) (hout'.trans hcomm.symm)
    rw [rotate90Into, hr, eq_of_written (dst180_perm w h) (hlen.trans hcomm) hlen180]
    rintro ⟨y, x⟩ hc
    have hmid : (x, h - 1 - y) ∈ turns w h := by
      obtain ⟨hy, hx⟩ := mem_turns.1 hc
      exact mem_turns.2 ⟨hx, by dsimp only at *; omega⟩
    -- the cell of turn `(y, x)` after two rotations is the one after a half turn
    exact ((hcells _ hmid).trans (hcells90 _ hc)).trans (hcells180 _ hc).symm

/-- A 3 by 2 image. -/
theorem image_rotations_compose_three_by_two :
    ∃ r90 r180 r270 : Bytes,
      (rotate90Into [1, 2, 3, 4, 5, 6] 3 2 [0, 0, 0, 0, 0, 0] = some r90 ∧
        rotate180Into [1, 2, 3, 4, 5, 6] 3 2 [0, 0, 0, 0, 0, 0] = some r180 ∧
        rotate270Into [1, 2, 3, 4, 5, 6] 3 2 [0, 0, 0, 0, 0, 0] = some r270) ∧
      rotate270Into r90 2 3 [0, 0, 0, 0, 0, 0] = some [1, 2, 3, 4, 5, 6] ∧
      rotate90Into r90 2 3 [0, 0, 0, 0, 0, 0] = some r180 := by
  have hluma : ([1, 2, 3, 4, 5, 6] : Bytes).length = 2 * 3 := rfl
  have hout : ([0, 0, 0, 0, 0, 0] : Bytes).length = 2 * 3 := rfl
  obtain ⟨r90, r180, r270, hrotated, -, hback⟩ := image_rotations_compose 3 2 hluma hout hout
  exact ⟨r90, r180, r270, hrotated, hback⟩

end KyberPipe.QrScanner
