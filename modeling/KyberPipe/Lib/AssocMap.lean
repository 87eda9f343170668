import Mathlib.Data.List.AList
import Mathlib.Data.List.MinMax
import Mathlib.Logic.Function.Iterate

/-!
# Finite maps

Additions to `AList`: retention by key, updates from the entries of another map, and trimming
to a budget by removing the smallest keys one after another.
-/

namespace AList

variable {α : Type*} {β : α → Type*}

/-- The number of entries of a finite map. -/
def size (m : AList β) : ℕ := m.entries.length

@[simp]
theorem size_empty : size (∅ : AList β) = 0 := rfl

/-- Keep only the entries whose key satisfies `p`. -/
def retain (p : α → Bool) (m : AList β) : AList β where
  entries := m.entries.filter fun e => p e.1
  nodupKeys := m.nodupKeys.sublist List.filter_sublist

theorem size_retain_le (p : α → Bool) (m : AList β) : (m.retain p).size ≤ m.size :=
  List.length_filter_le _ _

variable [DecidableEq α]

theorem lookup_retain (p : α → Bool) (m : AList β) (k : α) :
    (m.retain p).lookup k = if p k then m.lookup k else none := by
  ext v
  have hmem : v ∈ (m.retain p).lookup k ↔ p k ∧ v ∈ m.lookup k := by
    rw [mem_lookup_iff, mem_lookup_iff]
    simp [retain, and_comm]
  split_ifs with hp
  · simpa [hp] using hmem
  · simpa [hp] using hmem

theorem lookup_retain_of_pos {p : α → Bool} (m : AList β) {k : α} (hp : p k = true) :
    (m.retain p).lookup k = m.lookup k := by
  rw [lookup_retain, if_pos hp]

variable {m : AList β}

theorem lookup_of_lookup_retain {p : α → Bool} {k : α} {v : β k}
    (h : (m.retain p).lookup k = some v) : p k = true ∧ m.lookup k = some v := by
  rw [lookup_retain] at h
  split_ifs at h with hp
  exact ⟨hp, h⟩

theorem size_insert_of_notMem {a : α} {b : β a} (h : a ∉ m) : (m.insert a b).size = m.size + 1 := by
  rw [size, entries_insert_of_notMem h, List.length_cons, size]

theorem size_erase_le (a : α) (m : AList β) : (m.erase a).size ≤ m.size := by
  have hlen : (m.erase a).keys.length ≤ m.keys.length := by
    rw [keys_erase]
    exact List.length_erase_le
  simpa [size, keys, List.keys] using hlen

theorem size_erase_of_mem {a : α} (h : a ∈ m) : (m.erase a).size + 1 = m.size := by
  have hlen : (m.erase a).keys.length + 1 = m.keys.length := by
    rw [keys_erase, List.length_erase_of_mem (mem_keys.1 h)]
    have hpos : 0 < m.keys.length := List.length_pos_of_mem (mem_keys.1 h)
    omega
  simpa [size, keys, List.keys] using hlen

variable {a k : α}

theorem ne_of_lookup_erase {v : β k} (h : (m.erase a).lookup k = some v) : k ≠ a := by
  rintro rfl
  rw [lookup_erase] at h
  cases h

theorem lookup_of_lookup_erase {v : β k} (h : (m.erase a).lookup k = some v) :
    m.lookup k = some v := by
  rwa [lookup_erase_ne (ne_of_lookup_erase h)] at h

omit [DecidableEq α] in
theorem entries_isEmpty_of_ne (h : m ≠ ∅) : m.entries.isEmpty = false := by
  cases hentries : m.entries with
  | nil => exact absurd (AList.ext hentries) h
  | cons _ _ => rfl

/-- A map without values is empty. -/
theorem eq_empty_of_lookup_eq_none (h : ∀ a, m.lookup a = none) : m = ∅ := by
  apply AList.ext
  apply List.eq_nil_iff_forall_not_mem.2
  intro e he
  have hsome := mem_lookup_iff.2 he
  rw [h e.1] at hsome
  cases hsome

/-- A looked-up value of a left-biased union comes from one of its two sides. -/
theorem lookup_union (a : α) (m₁ m₂ : AList β) :
    (m₁ ∪ m₂).lookup a = (m₁.lookup a).or (m₂.lookup a) := by
  by_cases h : a ∈ m₁
  · obtain ⟨b, hb⟩ := Option.isSome_iff_exists.1 (lookup_isSome.2 h)
    rw [lookup_union_left h, hb, Option.some_or]
  · rw [lookup_union_right h, lookup_eq_none.2 h, Option.none_or]

theorem size_union_le (m₁ m₂ : AList β) : (m₁ ∪ m₂).size ≤ m₁.size + m₂.size := by
  obtain ⟨l₁, h₁⟩ := m₁
  simp only [size, union_entries]
  clear h₁
  induction l₁ generalizing m₂ with
  | nil => simp
  | cons e l ih =>
    have herase : (m₂.erase e.1).entries.length ≤ m₂.entries.length := m₂.size_erase_le e.1
    have htail := ih (m₂.erase e.1)
    simp only [List.kunion_cons, List.length_cons]
    change (List.kunion l (m₂.erase e.1).entries).length + 1 ≤ _
    omega

section Upsert

variable {γ : α → Type*}

/-- Write at key `a` what `g` makes of the value there; `none` leaves the map as it is. -/
def upsert (a : α) (g : Option (β a) → Option (β a)) (m : AList β) : AList β :=
  match g (m.lookup a) with
  | some v => m.insert a v
  | none => m

theorem lookup_upsert_self (a : α) (g : Option (β a) → Option (β a)) (m : AList β) :
    (m.upsert a g).lookup a = (g (m.lookup a)).or (m.lookup a) := by
  unfold upsert
  split
  · rename_i v hv
    rw [lookup_insert, hv, Option.some_or]
  · rename_i hnone
    rw [hnone, Option.none_or]

theorem lookup_upsert_ne (h : k ≠ a) (g : Option (β a) → Option (β a)) (m : AList β) :
    (m.upsert a g).lookup k = m.lookup k := by
  unfold upsert
  split
  · exact lookup_insert_ne h
  · rfl

/-- `upsert` for every entry of another map in turn. -/
def upsertFrom (m : AList β) (src : AList γ) (g : ∀ a, γ a → Option (β a) → Option (β a)) :
    AList β :=
  src.entries.foldl (fun m e => m.upsert e.1 (g e.1 e.2)) m

theorem lookup_foldl_upsert {l : List (Sigma γ)} (hl : l.NodupKeys)
    (g : ∀ a, γ a → Option (β a) → Option (β a)) (m : AList β) (k : α) :
    (l.foldl (fun m e => m.upsert e.1 (g e.1 e.2)) m).lookup k =
      ((l.dlookup k).bind fun c => g k c (m.lookup k)).or (m.lookup k) := by
  induction l generalizing m with
  | nil => rfl
  | cons e l ih =>
    obtain ⟨a, c⟩ := e
    obtain ⟨hnotMem, hl⟩ := List.nodupKeys_cons.1 hl
    rw [List.foldl_cons, ih hl]
    by_cases h : k = a
    · -- the key occurs once, so the later entries leave it alone
      subst h
      rw [List.dlookup_eq_none.2 hnotMem, Option.bind_none, Option.none_or, lookup_upsert_self,
        List.dlookup_cons_eq, Option.bind_some]
    · rw [lookup_upsert_ne h, List.dlookup_cons_ne _ _ h]

/-- Each key of the other map is written once, from what the map held there before. -/
theorem lookup_upsertFrom (m : AList β) (src : AList γ)
    (g : ∀ a, γ a → Option (β a) → Option (β a)) (k : α) :
    (m.upsertFrom src g).lookup k =
      ((src.lookup k).bind fun c => g k c (m.lookup k)).or (m.lookup k) :=
  lookup_foldl_upsert src.nodupKeys g m k

end Upsert

section Eviction

variable {ι : Type*} [LinearOrder ι] (rank : α → ι)

/-- Remove the entry whose key has the smallest rank, if there is one. -/
def eraseMin (m : AList β) : AList β :=
  match m.keys.argmin rank with
  | some k => m.erase k
  | none => m

/-- Remove smallest entries until at most `budget` of them are left. -/
def evictTo (budget : ℕ) (m : AList β) : AList β :=
  (eraseMin rank)^[m.size - budget] m

variable {budget : ℕ}

theorem evictTo_of_size_le (h : m.size ≤ budget) : m.evictTo rank budget = m := by
  simp [evictTo, Nat.sub_eq_zero_of_le h]

theorem lookup_of_lookup_eraseMin {k : α} {v : β k} (h : (m.eraseMin rank).lookup k = some v) :
    m.lookup k = some v := by
  unfold eraseMin at h
  split at h
  · exact lookup_of_lookup_erase h
  · exact h

theorem lookup_of_lookup_evictTo {k : α} {v : β k} (h : (m.evictTo rank budget).lookup k = some v) :
    m.lookup k = some v := by
  unfold evictTo at h
  generalize m.size - budget = n at h
  induction n generalizing m with
  | zero => exact h
  | succ n ih =>
    rw [Function.iterate_succ_apply] at h
    exact lookup_of_lookup_eraseMin rank (ih h)

/-- Eviction removes exactly one entry of a non-empty map. -/
theorem size_eraseMin (m : AList β) : (m.eraseMin rank).size = m.size - 1 := by
  unfold eraseMin
  split
  · rename_i k hk
    have hmem : k ∈ m := mem_keys.2 (List.argmin_mem hk)
    have hsize := size_erase_of_mem hmem
    omega
  · rename_i hk
    have hnil : m.keys = [] := List.argmin_eq_none.1 hk
    have hzero : m.size = 0 := by simpa [size, keys, List.keys] using hnil
    omega

theorem size_iterate_eraseMin (n : ℕ) (m : AList β) :
    ((eraseMin rank)^[n] m).size = m.size - n := by
  induction n generalizing m with
  | zero => simp
  | succ n ih =>
    rw [Function.iterate_succ_apply, ih, size_eraseMin]
    omega

/-- Eviction keeps its budget. -/
theorem size_evictTo_le (budget : ℕ) (m : AList β) : (m.evictTo rank budget).size ≤ budget := by
  rw [evictTo, size_iterate_eraseMin]
  omega

theorem mem_of_mem_eraseMin {k : α} (h : k ∈ m.eraseMin rank) : k ∈ m := by
  obtain ⟨v, hv⟩ := Option.isSome_iff_exists.1 (lookup_isSome.2 h)
  exact lookup_isSome.1 (by rw [lookup_of_lookup_eraseMin rank hv]; rfl)

theorem mem_of_mem_iterate_eraseMin {k : α} {n : ℕ} (h : k ∈ (eraseMin rank)^[n] m) : k ∈ m := by
  induction n generalizing m with
  | zero => exact h
  | succ n ih =>
    rw [Function.iterate_succ_apply] at h
    exact mem_of_mem_eraseMin rank (ih h)

/-- What is left ranks above every key that was removed. -/
theorem rank_lt_of_mem_iterate_eraseMin (hrank : Function.Injective rank) {k k' : α} {n : ℕ}
    (hk : k ∈ m) (hgone : k ∉ (eraseMin rank)^[n] m) (hk' : k' ∈ (eraseMin rank)^[n] m) :
    rank k < rank k' := by
  induction n generalizing m with
  | zero => exact absurd hk hgone
  | succ n ih =>
    rw [Function.iterate_succ_apply] at hgone hk'
    by_cases hstays : k ∈ m.eraseMin rank
    · exact ih hstays hgone hk'
    · -- the key was the smallest one, and the rest comes from the other keys
      have hnext := mem_of_mem_iterate_eraseMin rank hk'
      have hne : k ≠ k' := fun h => hstays (h ▸ hnext)
      have hold := mem_of_mem_eraseMin rank hnext
      unfold eraseMin at hstays
      split at hstays
      · rename_i k₀ hk₀
        obtain rfl : k = k₀ := by
          by_contra hother
          exact hstays (mem_erase.2 ⟨hother, hk⟩)
        exact lt_of_le_of_ne (List.le_of_mem_argmin (mem_keys.1 hold) hk₀)
          fun h => hne (hrank h)
      · exact absurd hk hstays

/-- The keys of a map that rank at least as high as `k`. -/
def keysFrom (m : AList β) (k : α) : List α := m.keys.filter fun k' => rank k ≤ rank k'

/-- The smallest key is not the one of an entry with fewer keys above it than there are keys. -/
theorem lookup_eraseMin_of_lt {k : α} (h : (m.keysFrom rank k).length < m.size) :
    (m.eraseMin rank).lookup k = m.lookup k := by
  unfold eraseMin
  split
  · rename_i k₀ hk₀
    refine lookup_erase_ne ?_
    rintro rfl
    -- all keys would rank at least as high as the smallest one
    have hall : m.keysFrom rank k = m.keys :=
      List.filter_eq_self.2 fun k' hk' => decide_eq_true (List.le_of_mem_argmin hk' hk₀)
    rw [hall] at h
    simp [size, keys, List.keys] at h
  · rfl

theorem length_keysFrom_eraseMin_le (m : AList β) (k : α) :
    ((m.eraseMin rank).keysFrom rank k).length ≤ (m.keysFrom rank k).length := by
  unfold eraseMin
  split
  · rw [keysFrom, keys_erase]
    exact (List.erase_sublist.filter _).length_le
  · exact le_rfl

/-- An entry with at most `budget` keys from it on survives the eviction to `budget`. -/
theorem lookup_evictTo_of_keysFrom_le {k : α} (h : (m.keysFrom rank k).length ≤ budget) :
    (m.evictTo rank budget).lookup k = m.lookup k := by
  unfold evictTo
  generalize hn : m.size - budget = n
  induction n generalizing m with
  | zero => rfl
  | succ n ih =>
    have hlt : (m.keysFrom rank k).length < m.size := by omega
    rw [Function.iterate_succ_apply, ih ((length_keysFrom_eraseMin_le rank m k).trans h)
      (by rw [size_eraseMin]; omega), lookup_eraseMin_of_lt rank hlt]

end Eviction

end AList
