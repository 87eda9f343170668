import KyberPipe.Lib.AssocMap
import Mathlib.Algebra.Group.Nat.Defs
import Mathlib.Data.List.Dedup

/-!
# Tables of numbered entries

A table hands out increasing numbers for its entries and holds at most a given number of them. At
its cap, the entry whose number comes first when the keys of the hash map are listed makes room; the
order is an argument. The age of a number is the position of its last occurrence in a log.
-/

namespace List

variable {α : Type*} [DecidableEq α]

/-- In the order of last occurrence, what does not occur in the second list comes first. -/
theorem dedup_append_filter (l l' : List α) :
    (l ++ l').dedup = l.dedup.filter (· ∉ l') ++ l'.dedup := by
  induction l with
  | nil => simp
  | cons b l ih =>
    by_cases hmem : b ∈ l
    · rw [cons_append, dedup_cons_of_mem (mem_append_left _ hmem), ih, dedup_cons_of_mem hmem]
    · by_cases hb : b ∈ l'
      · rw [cons_append, dedup_cons_of_mem (mem_append_right _ hb), ih,
          dedup_cons_of_notMem hmem, filter_cons_of_neg (by simpa using hb)]
      · rw [cons_append, dedup_cons_of_notMem (by simp [hmem, hb]), ih,
          dedup_cons_of_notMem hmem, filter_cons_of_pos (by simpa using hb), cons_append]

/-- If the first selected element in the order of last occurrence occurs in the second list, all
selected elements do. -/
theorem mem_of_find?_dedup_append {l l' : List α} {p : α → Bool} {a b : α}
    (hfind : (l ++ l').dedup.find? p = some a) (ha : a ∈ l') (hb : b ∈ l ++ l')
    (hp : p b = true) : b ∈ l' := by
  by_contra hb'
  have hfirst : b ∈ l.dedup.filter (· ∉ l') := by
    rw [mem_filter, mem_dedup]
    exact ⟨(mem_append.1 hb).resolve_right hb', by simpa using hb'⟩
  rw [dedup_append_filter, find?_append] at hfind
  -- so the search ends in the first part, which has no element of the second list
  cases hcase : (l.dedup.filter (· ∉ l')).find? p with
  | none => exact (find?_eq_none.1 hcase b hfirst) hp
  | some c =>
    rw [hcase, Option.some_or, Option.some_inj] at hfind
    have hc := (mem_filter.1 (mem_of_find?_eq_some hcase)).2
    rw [hfind, decide_eq_true_eq] at hc
    exact hc ha

/-- If the first element of a set in the order of last occurrence is `a`, the set has at most one
element more than the list after `a`. -/
theorem length_le_of_find?_dedup {live l l' : List α} {a : α} (hnodup : live.Nodup)
    (hsub : ∀ x ∈ live, x ∈ l ++ a :: l')
    (hfind : (l ++ a :: l').dedup.find? (· ∈ live) = some a) : live.length ≤ l'.length + 1 := by
  have hsuffix : live ⊆ a :: l' := fun x hx =>
    mem_of_find?_dedup_append hfind mem_cons_self (hsub x hx) (by simpa using hx)
  exact (subperm_of_subset hnodup hsuffix).length_le

end List

/-- An order in which a hash map lists its keys: any order, each key once. -/
structure Iteration where
  order : List ℕ → List ℕ
  perm : ∀ keys, (order keys).Perm keys

/-- The numbers that stay when room is made for one more. -/
def Iteration.makeRoom (it : Iteration) (cap : ℕ) (keys : List ℕ) : List ℕ :=
  if cap ≤ keys.length then
    match (it.order keys).head? with
    | some first => keys.erase first
    | none => keys
  else keys

/-- Numbered entries and the next number. -/
structure HandleTable (α : Type*) where
  entries : AList (fun _ : ℕ => α) := ∅
  nextHandle : ℕ := 1

namespace HandleTable

variable {α : Type*} (t : HandleTable α)

/-- The numbers in use. -/
def live : List ℕ := t.entries.keys

/-- Add an entry. At the cap, the entry that the hash map lists first is removed before. -/
def add (cap : ℕ) (it : Iteration) (value : α) : ℕ × HandleTable α :=
  let entries :=
    if cap ≤ t.entries.size then
      match (it.order t.entries.keys).head? with
      | some oldest => t.entries.erase oldest
      | none => t.entries
    else t.entries
  (t.nextHandle,
    { entries := entries.insert t.nextHandle value
      nextHandle := (t.nextHandle + 1) % 2 ^ 64 })

/-- Remove an entry and say whether it existed. -/
def remove (handle : ℕ) : Bool × HandleTable α :=
  ((t.entries.lookup handle).isSome, { t with entries := t.entries.erase handle })

/-- Remove all entries. -/
def clear : HandleTable α := { t with entries := ∅ }

variable {t}

theorem nodup_live : t.live.Nodup := t.entries.keys_nodup

theorem mem_live_add {cap : ℕ} {it : Iteration} {value : α} {x : ℕ} :
    x ∈ (t.add cap it value).2.live ↔ x = t.nextHandle ∨ x ∈ it.makeRoom cap t.live := by
  have hsize : t.live.length = t.entries.size := List.length_map _
  rw [live, ← AList.mem_keys]
  unfold add Iteration.makeRoom
  rw [hsize]
  refine (AList.mem_insert _).trans (or_congr_right ?_)
  split_ifs with hcap
  · show x ∈ (match (it.order t.entries.keys).head? with
      | some oldest => t.entries.erase oldest
      | none => t.entries) ↔ x ∈ match (it.order t.entries.keys).head? with
        | some first => t.entries.keys.erase first
        | none => t.entries.keys
    cases (it.order t.entries.keys).head? with
    | none => exact AList.mem_keys
    | some first => rw [AList.mem_keys, AList.keys_erase]
  · exact AList.mem_keys

theorem mem_live_remove {handle x : ℕ} :
    x ∈ (t.remove handle).2.live ↔ x ∈ t.live ∧ handle ≠ x := by
  show x ∈ (t.entries.erase handle).keys ↔ x ∈ t.entries.keys ∧ handle ≠ x
  rw [← AList.mem_keys, ← AList.mem_keys, AList.mem_erase, and_comm, ne_comm]

theorem not_mem_live_clear {x : ℕ} : x ∉ t.clear.live := AList.notMem_empty x

/-- What makes room at the cap is the entry that is listed first. -/
theorem mem_makeRoom {cap : ℕ} {it : Iteration} {keys : List ℕ} (hnodup : keys.Nodup)
    (hpos : 0 < cap) (hcap : cap ≤ keys.length) :
    ∃ first ∈ keys, (it.order keys).head? = some first ∧
      ∀ x, x ∈ it.makeRoom cap keys ↔ x ∈ keys ∧ x ≠ first := by
  have hne : it.order keys ≠ [] := by
    intro hnil
    have hlength := (it.perm keys).length_eq
    rw [hnil, List.length_nil] at hlength
    omega
  obtain ⟨first, hfirst⟩ := Option.isSome_iff_exists.1 (List.isSome_head?.2 hne)
  refine ⟨first, (it.perm keys).mem_iff.1 (List.mem_of_mem_head? hfirst), hfirst, fun x => ?_⟩
  rw [Iteration.makeRoom, if_pos hcap, hfirst]
  exact (hnodup.mem_erase_iff).trans and_comm

end HandleTable
