import Mathlib.Data.Finset.Card
import Mathlib.Data.Finset.Dedup

/-!
# Recent elements

A first-in-first-out buffer of distinct elements with a capacity: an element that is present is not
moved, and a new one pushes out the oldest if the buffer is full. A new element stays as long as
fewer distinct others than the capacity are pushed after it.
-/

namespace Recent

variable {α : Type*}

/-- The buffer holds an element, and what stands behind it is distinct and among some others. -/
def HeldBefore (x : α) (others : Finset α) (buffer : List α) : Prop :=
  ∃ front back, buffer = front ++ x :: back ∧ back.Nodup ∧ ∀ y ∈ back, y ∈ others

variable {capacity : ℕ} {buffer : List α} {x y : α} {others : Finset α}

theorem HeldBefore.mem (h : HeldBefore x others buffer) : x ∈ buffer := by
  obtain ⟨front, back, rfl, -, -⟩ := h
  exact List.mem_append_right _ List.mem_cons_self

theorem HeldBefore.mono {others' : Finset α} (h : HeldBefore x others buffer)
    (hsub : others ⊆ others') : HeldBefore x others' buffer := by
  obtain ⟨front, back, heq, hnodup, hback⟩ := h
  exact ⟨front, back, heq, hnodup, fun y hy => hsub (hback y hy)⟩

theorem heldBefore_concat {front back : List α} (hnodup : back.Nodup)
    (hback : ∀ z ∈ back, z ∈ others) (hnew : y ∉ back) (hy : y ∈ others) :
    HeldBefore x others (front ++ x :: back ++ [y]) := by
  refine ⟨front, back ++ [y], by simp, ?_, fun z hz => ?_⟩
  · rw [← List.concat_eq_append]
    exact hnodup.concat hnew
  · rcases List.mem_append.1 hz with hz | hz
    · exact hback z hz
    · rwa [List.mem_singleton.1 hz]

variable [DecidableEq α]

/-- An element is pushed into a buffer. -/
def push (capacity : ℕ) (buffer : List α) (x : α) : List α :=
  if x ∈ buffer then buffer
  else (if capacity ≤ buffer.length then buffer.tail else buffer) ++ [x]

/-- A new element is the last one. -/
theorem heldBefore_push (hx : x ∉ buffer) : HeldBefore x ∅ (push capacity buffer x) := by
  rw [push, if_neg hx]
  exact ⟨_, [], rfl, List.nodup_nil, fun y hy => absurd hy List.not_mem_nil⟩

theorem length_lt_of_nodup {back : List α} (hnodup : back.Nodup)
    (hback : ∀ z ∈ back, z ∈ others) (hy : y ∉ back) (hothers : y ∈ others) :
    back.length < others.card := by
  have hsub : insert y back.toFinset ⊆ others := by
    intro z hz
    rcases Finset.mem_insert.1 hz with rfl | hz
    · exact hothers
    · exact hback z (List.mem_toFinset.1 hz)
  have hcard := Finset.card_le_card hsub
  rw [Finset.card_insert_of_notMem (fun hmem => hy (List.mem_toFinset.1 hmem)),
    List.toFinset_card_of_nodup hnodup] at hcard
  omega

section

variable (h : HeldBefore x others buffer)
include h

/-- One push of one of the others does not push the element out, if there are fewer of them than the
capacity. -/
theorem HeldBefore.push (hy : y ∈ others) (hcard : others.card < capacity) :
    HeldBefore x others (Recent.push capacity buffer y) := by
  unfold Recent.push
  split_ifs with hmem hfull
  · exact h
  all_goals
    obtain ⟨front, back, rfl, hnodup, hback⟩ := h
    have hnew : y ∉ back := fun hmem' =>
      hmem (List.mem_append_right _ (List.mem_cons_of_mem _ hmem'))
  · cases front with
    | nil =>
      -- the element would be the oldest one in a full buffer
      have hlength := length_lt_of_nodup hnodup hback hnew hy
      rw [List.nil_append, List.length_cons] at hfull
      omega
    | cons first front => exact heldBefore_concat hnodup hback hnew hy
  · exact heldBefore_concat hnodup hback hnew hy

theorem HeldBefore.push_self : HeldBefore x others (Recent.push capacity buffer x) := by
  rw [Recent.push, if_pos h.mem]
  exact h

theorem HeldBefore.foldl_push (hcard : others.card < capacity) {ys : List α}
    (hys : ∀ y ∈ ys, y = x ∨ y ∈ others) :
    HeldBefore x others (ys.foldl (Recent.push capacity) buffer) := by
  induction ys generalizing buffer with
  | nil => exact h
  | cons y ys ih =>
    have hrest : ∀ z ∈ ys, z = x ∨ z ∈ others := fun z hz => hys z (List.mem_cons_of_mem _ hz)
    rcases hys y List.mem_cons_self with rfl | hy
    · exact ih h.push_self hrest
    · exact ih (h.push hy hcard) hrest

end

/-- A new element is still there after any pushes with fewer distinct others than the capacity. -/
theorem mem_foldl_push (hx : x ∉ buffer) {ys : List α}
    (hcard : (ys.toFinset.erase x).card < capacity) :
    x ∈ ys.foldl (push capacity) (push capacity buffer x) := by
  have hstart : HeldBefore x (ys.toFinset.erase x) (push capacity buffer x) :=
    (heldBefore_push hx).mono (Finset.empty_subset _)
  refine (hstart.foldl_push hcard fun y hy => ?_).mem
  rw [Finset.mem_erase, List.mem_toFinset]
  exact or_iff_not_imp_left.2 fun hne => ⟨hne, hy⟩

end Recent
