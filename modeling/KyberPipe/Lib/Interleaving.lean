import KyberPipe.Lib.Machine

/-!
# Interleavings of threads

Threads take turns on a shared state. A turn is one critical section: it reads and writes the
shared state and moves the thread to its next program point. A schedule names the thread of every
turn, so the runs of a pool are all interleavings of its threads.
-/

/-- What a thread at a program point `π` does to the shared state `σ` in one critical section. -/
structure Program (σ π β : Type*) where
  /-- The output of the section, the shared state after it, and the next program point. -/
  step : σ → π → β × σ × π

/-- A shared state and the program points of the threads that work on it. -/
structure Pool (σ π : Type*) where
  shared : σ
  threads : List π

namespace Program

variable {σ π β : Type*} (prog : Program σ π β)

/-- The machine that runs the named thread for one critical section. A turn of a thread that
does not exist changes nothing. -/
def machine : Machine (Pool σ π) ℕ (Option β) where
  step pool i :=
    match pool.threads[i]? with
    | none => (none, pool)
    | some p =>
      let turn := prog.step pool.shared p
      (some turn.1, ⟨turn.2.1, pool.threads.set i turn.2.2⟩)

variable {prog} {pool : Pool σ π} {i : ℕ} {p : π}

theorem machine_step_of_none (h : pool.threads[i]? = none) :
    prog.machine.step pool i = (none, pool) := by
  simp [machine, h]

theorem machine_step_of_some (h : pool.threads[i]? = some p) :
    prog.machine.step pool i =
      (some (prog.step pool.shared p).1,
        ⟨(prog.step pool.shared p).2.1, pool.threads.set i (prog.step pool.shared p).2.2⟩) := by
  simp [machine, h]

/-! ### Threads that run alone -/

variable (prog) in
/-- The shared state and the program point of a thread after a number of critical sections in a
row. -/
def alone (s : σ) (p : π) : ℕ → σ × π
  | 0 => (s, p)
  | n + 1 => alone (prog.step s p).2.1 (prog.step s p).2.2 n

variable (prog) in
/-- Proof outlines. An assertion about the shared state and the program point that every section
keeps holds after any number of sections in a row. -/
theorem alone_invariant (Outline : σ → π → Prop)
    (hstep : ∀ s p, Outline s p → Outline (prog.step s p).2.1 (prog.step s p).2.2) {s : σ} {p : π}
    (h : Outline s p) (n : ℕ) : Outline (prog.alone s p n).1 (prog.alone s p n).2 := by
  induction n generalizing s p with
  | zero => exact h
  | succ n ih => exact ih (hstep s p h)

variable (prog) in
theorem alone_add (s : σ) (p : π) (m n : ℕ) :
    prog.alone s p (m + n) = prog.alone (prog.alone s p m).1 (prog.alone s p m).2 n := by
  induction m generalizing s p with
  | zero => rw [Nat.zero_add, alone]
  | succ m ih =>
    rw [Nat.succ_add, alone, alone]
    exact ih _ _

/-- A thread at its end stays there. -/
theorem alone_of_stopped {s : σ} (h : (prog.step s p).2 = (s, p)) (n : ℕ) :
    prog.alone s p n = (s, p) := by
  induction n with
  | zero => rfl
  | succ n ih =>
    rw [alone, h]
    exact ih

/-- A thread that has reached its end after `m` sections is there after any more of them. -/
theorem alone_eq_of_stopped {s s' : σ} {p' : π} {m n : ℕ} (hmn : m ≤ n)
    (h : prog.alone s p m = (s', p')) (hstop : (prog.step s' p').2 = (s', p')) :
    prog.alone s p n = (s', p') := by
  obtain ⟨k, rfl⟩ := Nat.exists_eq_add_of_le hmn
  rw [alone_add, h]
  exact alone_of_stopped hstop k

end Program

namespace Pool

variable {σ π : Type*} {pool : Pool σ π} {i : ℕ} {p' : π} {σ' : σ}

/-- Interference rule. If the thread that had the turn meets its assertion afterwards and the
turn keeps the assertions of all threads, every thread of the new pool meets its assertion. -/
theorem forall_mem_set (Local : σ → π → Prop) (h : ∀ q ∈ pool.threads, Local pool.shared q)
    (hown : Local σ' p') (hother : ∀ q ∈ pool.threads, Local pool.shared q → Local σ' q) :
    ∀ q ∈ pool.threads.set i p', Local σ' q := by
  intro q hq
  rcases List.mem_or_eq_of_mem_set hq with hq | rfl
  · exact hother q hq (h q hq)
  · exact hown

/-- Counter abstraction. How many threads a classification puts in a class. -/
def countAt {κ : Type*} [BEq κ] (of : π → κ) (k : κ) (threads : List π) : ℕ :=
  threads.countP (of · == k)

variable {threads : List π} {κ : Type*}

/-- A turn changes the number of threads in a class by the change of the thread that had the
turn. -/
theorem countAt_set_add [BEq κ] {p : π} (of : π → κ) (k : κ) (p' : π) (h : threads[i]? = some p) :
    countAt of k (threads.set i p') + (of p == k).toNat =
      countAt of k threads + (of p' == k).toNat := by
  induction threads generalizing i with
  | nil => cases h
  | cons head rest ih =>
    cases i with
    | zero =>
      obtain rfl : head = p := Option.some.inj h
      cases hold : of head == k <;> cases hnew : of p' == k <;> simp [countAt, hold, hnew]
    | succ i =>
      have hrest : countAt of k (rest.set i p') + _ = countAt of k rest + _ := ih h
      simp only [countAt, List.set_cons_succ, List.countP_cons] at hrest ⊢
      omega

variable {f : π → Option κ}

/-- What the threads hold does not change if the thread that had the turn keeps what it holds. -/
theorem filterMap_set_of_eq {p : π} (h : threads[i]? = some p) (hf : f p' = f p) :
    (threads.set i p').filterMap f = threads.filterMap f := by
  induction threads generalizing i with
  | nil => cases h
  | cons head rest ih =>
    cases i with
    | zero =>
      obtain rfl : head = p := Option.some.inj h
      rw [List.set_cons_zero, List.filterMap_cons, List.filterMap_cons, hf]
    | succ i =>
      rw [List.set_cons_succ, List.filterMap_cons, List.filterMap_cons, ih h]

/-- A thread that gives up what it holds takes one piece from what the threads hold. -/
theorem perm_filterMap_set {p : π} {b : κ} (h : threads[i]? = some p) (hp : f p = some b)
    (hp' : f p' = none) : (threads.filterMap f).Perm (b :: (threads.set i p').filterMap f) := by
  induction threads generalizing i with
  | nil => cases h
  | cons head rest ih =>
    cases i with
    | zero =>
      obtain rfl : head = p := Option.some.inj h
      rw [List.set_cons_zero, List.filterMap_cons_some hp, List.filterMap_cons_none hp']
    | succ i =>
      rw [List.set_cons_succ]
      cases hhead : f head with
      | none =>
        rw [List.filterMap_cons_none hhead, List.filterMap_cons_none hhead]
        exact ih h
      | some c =>
        rw [List.filterMap_cons_some hhead, List.filterMap_cons_some hhead]
        exact ((ih h).cons c).trans (.swap b c _)

theorem countAt_eq_zero [BEq κ] [LawfulBEq κ] {of : π → κ} {k : κ} :
    countAt of k threads = 0 ↔ ∀ p ∈ threads, of p ≠ k := by
  simp [countAt, List.countP_eq_zero]

end Pool
