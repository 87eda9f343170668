import Mathlib.Data.Set.Insert
import Mathlib.Data.List.Pairwise

/-!
# Deterministic machines

A machine answers every input with an output and a next state. This file has the rules by
which facts about one step become facts about whole runs: invariants, and relations between
the events a run emits.
-/

/-- A deterministic transducer with states `σ`, inputs `α` and outputs `β`. -/
structure Machine (σ α β : Type*) where
  /-- The output for an input and the state after it. -/
  step : σ → α → β × σ

namespace Machine

variable {σ α β τ : Type*} (m : Machine σ α β)

/-- The inputs of a run paired with their outputs, and the state the run ends in. -/
def run (s : σ) : List α → List (α × β) × σ
  | [] => ([], s)
  | a :: as =>
    let rest := run (m.step s a).2 as
    ((a, (m.step s a).1) :: rest.1, rest.2)

@[simp]
theorem run_nil (s : σ) : m.run s [] = ([], s) := rfl

@[simp]
theorem run_cons_fst (s : σ) (a : α) (as : List α) :
    (m.run s (a :: as)).1 = (a, (m.step s a).1) :: (m.run (m.step s a).2 as).1 := rfl

@[simp]
theorem run_cons_snd (s : σ) (a : α) (as : List α) :
    (m.run s (a :: as)).2 = (m.run (m.step s a).2 as).2 := rfl

/-- A run over two input lists is the run over the first followed by the run over the
second. -/
theorem run_append (s : σ) (as bs : List α) :
    m.run s (as ++ bs) =
      ((m.run s as).1 ++ (m.run (m.run s as).2 bs).1, (m.run (m.run s as).2 bs).2) := by
  induction as generalizing s with
  | nil => rfl
  | cons a as ih => simp [run, ih]

variable {m}
variable {s : σ}

variable (Inv : σ → Prop)

/-- What every step preserves holds at the end of every run. -/
theorem run_invariant (hstep : ∀ s a, Inv s → Inv (m.step s a).2) (hs : Inv s) (as : List α) :
    Inv (m.run s as).2 := by
  induction as generalizing s with
  | nil => exact hs
  | cons a as ih => exact ih (hstep s a hs)

/-- Every input meets `Allowed` in the state in which it arrives. -/
def Follows (m : Machine σ α β) (Allowed : σ → α → Prop) : σ → List α → Prop
  | _, [] => True
  | s, a :: as => Allowed s a ∧ Follows m Allowed (m.step s a).2 as

/-- Whether a run follows a decidable rule can be evaluated. -/
def decidableFollows (m : Machine σ α β) (Allowed : σ → α → Prop)
    [∀ s a, Decidable (Allowed s a)] : ∀ s as, Decidable (m.Follows Allowed s as)
  | _, [] => .isTrue trivial
  | s, a :: as =>
    have := decidableFollows m Allowed (m.step s a).2 as
    inferInstanceAs (Decidable (Allowed s a ∧ m.Follows Allowed (m.step s a).2 as))

instance {Allowed : σ → α → Prop} [∀ s a, Decidable (Allowed s a)] (s : σ) (as : List α) :
    Decidable (m.Follows Allowed s as) :=
  decidableFollows m Allowed s as

variable {Allowed Allowed' : σ → α → Prop}
variable {as : List α}

/-- A run that follows a rule follows every weaker one. -/
theorem Follows.mono (himp : ∀ s a, Allowed s a → Allowed' s a)
    (hfollows : m.Follows Allowed s as) : m.Follows Allowed' s as := by
  induction as generalizing s with
  | nil => trivial
  | cons a as ih => exact ⟨himp s a hfollows.1, ih hfollows.2⟩

/-- A run that follows two rules follows both together. -/
theorem Follows.and (hfollows : m.Follows Allowed s as) (hfollows' : m.Follows Allowed' s as) :
    m.Follows (fun s a => Allowed s a ∧ Allowed' s a) s as := by
  induction as generalizing s with
  | nil => trivial
  | cons a as ih => exact ⟨⟨hfollows.1, hfollows'.1⟩, ih hfollows.2 hfollows'.2⟩

/-- What every allowed step preserves holds at the end of every run of allowed steps. -/
theorem run_invariant_of_follows {Allowed : σ → α → Prop}
    (hstep : ∀ s a, Inv s → Allowed s a → Inv (m.step s a).2) (hs : Inv s)
    (hfollows : m.Follows Allowed s as) : Inv (m.run s as).2 := by
  induction as generalizing s with
  | nil => exact hs
  | cons a as ih => exact ih (hstep s a hs hfollows.1) hfollows.2

/-- Output rule. What every allowed step from a state of the invariant guarantees of its answer
holds of all answers of a run of allowed steps. -/
theorem forall_mem_run_of_follows {Allowed : σ → α → Prop} {good : β → Prop}
    (hstep : ∀ s a, Inv s → Allowed s a → Inv (m.step s a).2)
    (hgood : ∀ s a, Inv s → Allowed s a → good (m.step s a).1) (hs : Inv s)
    (hfollows : m.Follows Allowed s as) : ∀ e ∈ (m.run s as).1, good e.2 := by
  induction as generalizing s with
  | nil => rintro e ⟨⟩
  | cons a as ih =>
    rw [run_cons_fst, List.forall_mem_cons]
    exact ⟨hgood s a hs hfollows.1, ih (hstep s a hs hfollows.1) hfollows.2⟩

/-- Budget rule. If every allowed step whose answer is not `fresh` pays for a costly answer out of
a budget, a run of such steps has at most as many costly answers as its budget. -/
theorem run_countP_add_le {Allowed : σ → α → Prop} (budget : σ → ℕ) {costly fresh : β → Bool}
    (hstep : ∀ s a, Inv s → Allowed s a → Inv (m.step s a).2)
    (hcost : ∀ s a, Inv s → Allowed s a → fresh (m.step s a).1 = false →
      (costly (m.step s a).1).toNat + budget (m.step s a).2 ≤ budget s) (hs : Inv s)
    (hfollows : m.Follows Allowed s as) (hquiet : ∀ e ∈ (m.run s as).1, fresh e.2 = false) :
    (m.run s as).1.countP (fun e => costly e.2) + budget (m.run s as).2 ≤ budget s := by
  induction as generalizing s with
  | nil => simp
  | cons a as ih =>
    rw [run_cons_fst, List.forall_mem_cons] at hquiet
    have hfirst := hcost s a hs hfollows.1 hquiet.1
    have hrest := ih (hstep s a hs hfollows.1) hfollows.2 hquiet.2
    rw [run_cons_fst, run_cons_snd, List.countP_cons]
    cases hcostly : costly (m.step s a).1 <;> simp [hcostly] at hfirst ⊢ <;> omega

/-- Order rule. If every allowed step from a state of the invariant leads to a state of the
invariant that is related to it, any two states of a run of allowed steps are related. -/
theorem run_take_related {Allowed : σ → α → Prop} {R : σ → σ → Prop} (hrefl : ∀ s, R s s)
    (htrans : ∀ a b c, R a b → R b c → R a c)
    (hstep : ∀ s a, Inv s → Allowed s a → Inv (m.step s a).2 ∧ R s (m.step s a).2) (hs : Inv s)
    (hfollows : m.Follows Allowed s as) {j k : ℕ} (hjk : j ≤ k) :
    R (m.run s (as.take j)).2 (m.run s (as.take k)).2 := by
  induction as generalizing s j k with
  | nil =>
    rw [List.take_nil, List.take_nil]
    exact hrefl s
  | cons a as ih =>
    obtain ⟨hinv, hrel⟩ := hstep s a hs hfollows.1
    cases k with
    | zero =>
      rw [Nat.le_zero.1 hjk]
      exact hrefl _
    | succ k =>
      cases j with
      | zero => exact htrans _ _ _ hrel (ih hinv hfollows.2 (Nat.zero_le k))
      | succ j => exact ih hinv hfollows.2 (Nat.succ_le_succ_iff.1 hjk)

/-- Removal rule. Let `keep` translate some inputs of `m` to inputs of a machine `m'` that answers
them in the same way. If every other input of a run leaves the state alone, the translated inputs
alone end in the same state and get the same answers. -/
theorem run_filterMap {α' : Type*} {m' : Machine σ α' β} (keep : α → Option α')
    (hkeep : ∀ s a a', keep a = some a' → m'.step s a' = m.step s a)
    (hdrop : ∀ k a, as[k]? = some a → keep a = none →
      (m.step (m.run s (as.take k)).2 a).2 = (m.run s (as.take k)).2) :
    m'.run s (as.filterMap keep) =
      ((m.run s as).1.filterMap (fun p => (keep p.1).map (·, p.2)), (m.run s as).2) := by
  induction as generalizing s with
  | nil => rfl
  | cons a as ih =>
    have htail : ∀ k b, as[k]? = some b → keep b = none →
        (m.step (m.run (m.step s a).2 (as.take k)).2 b).2 =
          (m.run (m.step s a).2 (as.take k)).2 := by
      intro k b hk hb
      simpa using hdrop (k + 1) b (by simpa using hk) hb
    have hrest := ih htail
    cases ha : keep a with
    | none =>
      have hsame : (m.step s a).2 = s := by simpa using hdrop 0 a rfl ha
      rw [List.filterMap_cons_none ha, run_cons_fst, run_cons_snd,
        List.filterMap_cons_none (by simp [ha]), ← hrest, hsame]
    | some a' =>
      rw [List.filterMap_cons_some ha, run_cons_fst, run_cons_snd,
        List.filterMap_cons_some (b := (a', (m.step s a).1)) (by simp [ha])]
      simp only [run, hkeep s a a' ha, hrest]

/-- The events a list of inputs and outputs stands for. -/
def emitted (emit : α → β → Option τ) (trace : List (α × β)) : List τ :=
  trace.filterMap fun p => emit p.1 p.2

@[simp]
theorem emitted_nil (emit : α → β → Option τ) : emitted emit [] = [] := rfl

variable {emit : α → β → Option τ}

theorem emitted_cons_none {a : α} {b : β} (h : emit a b = none) (trace : List (α × β)) :
    emitted emit ((a, b) :: trace) = emitted emit trace :=
  List.filterMap_cons_none h

theorem emitted_cons_some {a : α} {b : β} {t : τ} (h : emit a b = some t) (trace : List (α × β)) :
    emitted emit ((a, b) :: trace) = t :: emitted emit trace :=
  List.filterMap_cons_some h

/-- The machine that keeps a log of its events, for rules that speak about them. -/
def logged (m : Machine σ α β) (emit : α → β → Option τ) : Machine (σ × List τ) α β where
  step s a := ((m.step s.1 a).1, (m.step s.1 a).2, s.2 ++ (emit a (m.step s.1 a).1).toList)

theorem logged_run (emit : α → β → Option τ) (s : σ) (log : List τ) (as : List α) :
    (m.logged emit).run (s, log) as =
      ((m.run s as).1, (m.run s as).2, log ++ emitted emit (m.run s as).1) := by
  induction as generalizing s log with
  | nil => simp
  | cons a as ih =>
    have hrest := ih (m.step s a).2 (log ++ (emit a (m.step s a).1).toList)
    simp only [run, logged] at hrest ⊢
    rw [hrest]
    cases he : emit a (m.step s a).1 with
    | none => rw [emitted_cons_none he]; simp
    | some t => rw [emitted_cons_some he]; simp

variable {seen : Set τ} {R : τ → τ → Prop}

/-- Emission rule. If an allowed step that emits `t` finds every earlier event related to `t` and
keeps the invariant with `t` added, and every other allowed step keeps the invariant, the events of
a run of allowed steps are pairwise related. -/
theorem emitted_pairwise_of_follows {Allowed : σ → α → Prop} (Inv : σ → Set τ → Prop)
    (hquiet : ∀ s a seen, Allowed s a → Inv s seen → emit a (m.step s a).1 = none →
      Inv (m.step s a).2 seen)
    (hemit : ∀ s a seen t, Allowed s a → Inv s seen → emit a (m.step s a).1 = some t →
      (∀ u ∈ seen, R u t) ∧ Inv (m.step s a).2 (insert t seen)) (hs : Inv s seen)
    (has : m.Follows Allowed s as) :
    (∀ u ∈ seen, ∀ t ∈ emitted emit (m.run s as).1, R u t) ∧
      (emitted emit (m.run s as).1).Pairwise R := by
  induction as generalizing s seen with
  | nil => exact ⟨by simp, List.Pairwise.nil⟩
  | cons a as ih =>
    rw [run_cons_fst]
    cases he : emit a (m.step s a).1 with
    | none =>
      rw [emitted_cons_none he]
      exact ih (hquiet s a seen has.1 hs he) has.2
    | some t =>
      rw [emitted_cons_some he]
      obtain ⟨hseen, hinv⟩ := hemit s a seen t has.1 hs he
      obtain ⟨hlater, hpair⟩ := ih hinv has.2
      refine ⟨fun u hu v hv => ?_, ?_⟩
      · rcases List.mem_cons.1 hv with rfl | hv
        · exact hseen u hu
        · exact hlater u (Set.mem_insert_of_mem t hu) v hv
      · exact List.pairwise_cons.2 ⟨hlater t (Set.mem_insert t seen), hpair⟩

/-- Trace rule. If every allowed step keeps an invariant about the state and the list of the events
so far, the invariant holds at the end of every run of allowed steps. -/
theorem run_emitted_of_follows {Allowed : σ → α → Prop} (Inv : σ → List τ → Prop)
    (hstep : ∀ s a seen, Inv s seen → Allowed s a →
      Inv (m.step s a).2 (seen ++ (emit a (m.step s a).1).toList)) {seen : List τ} (hs : Inv s seen)
    (hfollows : m.Follows Allowed s as) :
    Inv (m.run s as).2 (seen ++ emitted emit (m.run s as).1) := by
  induction as generalizing s seen with
  | nil => simpa using hs
  | cons a as ih =>
    have hrest := ih (hstep s a seen hs hfollows.1) hfollows.2
    rw [run_cons_fst, run_cons_snd]
    cases he : emit a (m.step s a).1 with
    | none =>
      rw [emitted_cons_none he]
      simpa [he] using hrest
    | some t =>
      rw [emitted_cons_some he]
      simpa [he] using hrest

/-- A rule about inputs alone is followed if every input meets it. -/
theorem follows_of_forall {Ok : α → Prop} (has : ∀ a ∈ as, Ok a) :
    m.Follows (fun _ a => Ok a) s as := by
  induction as generalizing s with
  | nil => trivial
  | cons a as ih =>
    rw [List.forall_mem_cons] at has
    exact ⟨has.1, ih has.2⟩

/-- Emission rule for a condition on the inputs alone. -/
theorem emitted_pairwise (Inv : σ → Set τ → Prop) (Ok : α → Prop)
    (hquiet : ∀ s a seen, Ok a → Inv s seen → emit a (m.step s a).1 = none →
      Inv (m.step s a).2 seen)
    (hemit : ∀ s a seen t, Ok a → Inv s seen → emit a (m.step s a).1 = some t →
      (∀ u ∈ seen, R u t) ∧ Inv (m.step s a).2 (insert t seen)) (hs : Inv s seen)
    (has : ∀ a ∈ as, Ok a) :
    (∀ u ∈ seen, ∀ t ∈ emitted emit (m.run s as).1, R u t) ∧
      (emitted emit (m.run s as).1).Pairwise R :=
  emitted_pairwise_of_follows Inv hquiet hemit hs (follows_of_forall has)

/-- Every event of a run is emitted by one of its inputs, in the state reached before it. -/
theorem exists_of_mem_emitted {t : τ} (h : t ∈ emitted emit (m.run s as).1) :
    ∃ k a, as[k]? = some a ∧ emit a (m.step (m.run s (as.take k)).2 a).1 = some t := by
  induction as generalizing s with
  | nil => simp at h
  | cons a as ih =>
    rw [run_cons_fst] at h
    have htail : t ∈ emitted emit (m.run (m.step s a).2 as).1 →
        ∃ k b, (a :: as)[k]? = some b ∧
          emit b (m.step (m.run s ((a :: as).take k)).2 b).1 = some t := by
      intro ht
      obtain ⟨k, b, hk, hb⟩ := ih ht
      exact ⟨k + 1, b, by simpa using hk, by simpa using hb⟩
    cases he : emit a (m.step s a).1 with
    | none =>
      rw [emitted_cons_none he] at h
      exact htail h
    | some u =>
      rw [emitted_cons_some he] at h
      rcases List.mem_cons.1 h with rfl | h
      · exact ⟨0, a, rfl, by simpa using he⟩
      · exact htail h

section Lists

variable {m : Machine σ α (List τ)}

/-- All that a run of a machine that answers with lists puts out. -/
def flattened (trace : List (α × List τ)) : List τ := trace.flatMap (·.2)

/-- A run over two input lists that follows a rule does so over the first and, from where that
ends, over the second. -/
theorem follows_append {β : Type*} {m : Machine σ α β} {Allowed : σ → α → Prop} {as bs : List α} :
    m.Follows Allowed s (as ++ bs) ↔
      m.Follows Allowed s as ∧ m.Follows Allowed (m.run s as).2 bs := by
  induction as generalizing s with
  | nil => simp [Follows]
  | cons a as ih => simp [Follows, ih, and_assoc]

end Lists

end Machine
