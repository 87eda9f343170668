import Mathlib.Data.List.Basic

/-!
# Streams in chunks

A stream hands out its elements in chunks of its own choice, and a reader takes what the current
chunk has, up to the room in its buffer. However the chunks are cut and whatever room the reader
offers, reading on until it has `n` elements or the stream ends gives the first `n` elements of the
stream and leaves the rest.
-/

/-- What is still to come of a stream. A chunk is never empty: a read without elements is the end
of the stream. -/
structure Chunks (α : Type*) where
  chunks : List (List α)
  ne_nil : ∀ chunk ∈ chunks, chunk ≠ []

namespace Chunks

variable {α : Type*}

/-- All elements that are still to come. -/
def contents (s : Chunks α) : List α := s.chunks.flatten

/-- One read into a buffer with room for `n` elements. -/
def read (n : ℕ) (s : Chunks α) : List α × Chunks α :=
  match h : s.chunks with
  | [] => ([], s)
  | chunk :: rest =>
    if hfits : chunk.length ≤ n then
      (chunk, ⟨rest, fun c hc => s.ne_nil c (h ▸ List.mem_cons_of_mem chunk hc)⟩)
    else
      (chunk.take n, ⟨chunk.drop n :: rest, fun c hc => by
        rcases List.mem_cons.1 hc with rfl | hc
        · simpa using hfits
        · exact s.ne_nil c (h ▸ List.mem_cons_of_mem chunk hc)⟩)

/-- A read splits what is to come. -/
theorem read_append (n : ℕ) (s : Chunks α) :
    (s.read n).1 ++ (s.read n).2.contents = s.contents := by
  unfold read contents
  split
  · rename_i h
    simp [h]
  · rename_i chunk rest h
    split_ifs
    · simp [h]
    · simp [h, ← List.append_assoc]

theorem length_read_le (n : ℕ) (s : Chunks α) : (s.read n).1.length ≤ n := by
  unfold read
  split
  · exact Nat.zero_le n
  · split_ifs with hfits
    · exact hfits
    · exact List.length_take_le _ _

/-- A read with room for an element gets none only at the end of the stream. -/
theorem contents_eq_nil_of_read {n : ℕ} (hn : 0 < n) {s : Chunks α} (h : (s.read n).1 = []) :
    s.contents = [] := by
  unfold read at h
  split at h
  · rename_i hnil
    rw [contents, hnil]
    rfl
  · rename_i chunk rest hcons
    have hchunk : chunk ≠ [] := s.ne_nil chunk (by rw [hcons]; exact List.mem_cons_self)
    split_ifs at h with hfits
    · exact absurd h hchunk
    · rcases List.take_eq_nil_iff.1 h with hzero | hnil
      · omega
      · exact absurd hnil hchunk

/-- Read on until `n` elements are there or the stream ends. The `k`-th read offers room for at
most `room k + 1` elements. -/
def gather (room : ℕ → ℕ) (n : ℕ) (s : Chunks α) : List α × Chunks α :=
  if n = 0 then ([], s)
  else
    let r := s.read (min (room 0 + 1) n)
    if r.1 = [] then ([], r.2)
    else
      let rest := gather (fun k => room (k + 1)) (n - r.1.length) r.2
      (r.1 ++ rest.1, rest.2)
  termination_by n
  decreasing_by
    rename_i hn hr
    exact Nat.sub_lt (Nat.pos_of_ne_zero hn) (List.length_pos_iff.2 hr)

/-- What is gathered is the front of the stream, and the rest is left. -/
theorem gather_eq (room : ℕ → ℕ) (n : ℕ) (s : Chunks α) :
    (s.gather room n).1 = s.contents.take n ∧ (s.gather room n).2.contents = s.contents.drop n := by
  fun_induction gather room n s with
  | case1 room s => exact ⟨rfl, rfl⟩
  | case2 room n s hn r hr =>
    -- the stream has ended
    have hnil : s.contents = [] := contents_eq_nil_of_read (by omega) hr
    have hsplit := read_append (min (room 0 + 1) n) s
    rw [hnil] at hsplit ⊢
    exact ⟨List.take_nil.symm, (List.append_eq_nil_iff.1 hsplit).2.trans List.drop_nil.symm⟩
  | case3 room n s hn r hr rest ih =>
    have hle : r.1.length ≤ n := Nat.le_trans (length_read_le _ s) (Nat.min_le_right _ _)
    have hsplit : s.contents = r.1 ++ r.2.contents := (read_append _ s).symm
    constructor
    · rw [ih.1, hsplit, List.take_append, List.take_of_length_le hle]
    · rw [ih.2, hsplit, List.drop_append, List.drop_of_length_le hle, List.nil_append]

end Chunks
