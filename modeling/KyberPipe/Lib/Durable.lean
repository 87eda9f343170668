import Mathlib.Data.Nat.Notation
import Mathlib.Logic.Function.Basic

/-!
# Durable storage and crashes

Programs that change a durable state by atomic operations. A crash between two operations keeps
what the operations before it did and loses the rest of the program.
-/

universe u v

/-- A program of atomic operations `ω` on a durable state `σ`. -/
inductive Script (σ : Type u) (ω : Type v) : Type (max u v) where
  /-- Nothing is left to do. -/
  | done
  /-- Perform an operation and go on with whether it succeeded. -/
  | perform (op : ω) (next : Bool → Script σ ω)
  /-- Go on with what the state is. -/
  | inspect (next : σ → Script σ ω)

namespace Script

variable {σ : Type u} {ω : Type v} (apply : ω → σ → Option σ)

/-- One program after the other. -/
def andThen : Script σ ω → Script σ ω → Script σ ω
  | done, rest => rest
  | perform op next, rest => perform op fun ok => (next ok).andThen rest
  | inspect next, rest => inspect fun s => (next s).andThen rest

/-- The state that a crash right after `n` operations leaves. An operation that cannot be
applied fails and changes nothing. -/
def crashAfter : Script σ ω → ℕ → σ → σ
  | done, _, s => s
  | perform _ _, 0, s => s
  | perform op next, n + 1, s =>
    match apply op s with
    | some s' => (next true).crashAfter n s'
    | none => (next false).crashAfter n s
  | inspect next, n, s => (next s).crashAfter n s

/-- The state after the whole program. -/
def complete : Script σ ω → σ → σ
  | done, s => s
  | perform op next, s =>
    match apply op s with
    | some s' => (next true).complete s'
    | none => (next false).complete s
  | inspect next, s => (next s).complete s

/-- The operations that a program tries and the state it leaves behind where operations can fail.
`outcomes` tells for one operation after the other whether it may succeed; those beyond its end
may. A failed operation changes nothing. -/
def attempt : Script σ ω → List Bool → σ → List ω × σ
  | done, _, s => ([], s)
  | perform op next, outcomes, s =>
    match if outcomes.headD true then apply op s else none with
    | some s' =>
      let rest := (next true).attempt outcomes.tail s'
      (op :: rest.1, rest.2)
    | none =>
      let rest := (next false).attempt outcomes.tail s
      (op :: rest.1, rest.2)
  | inspect next, outcomes, s => (next s).attempt outcomes s

/-- Every operation that the program may perform keeps `Inv`. -/
def Keeps (Inv : σ → Prop) : Script σ ω → Prop
  | done => True
  | perform op next =>
    (∀ s s', Inv s → apply op s = some s' → Inv s') ∧ ∀ ok, (next ok).Keeps Inv
  | inspect next => ∀ s, (next s).Keeps Inv

/-- Running a program to its end is a crash after enough operations. -/
theorem exists_crashAfter_eq_complete (script : Script σ ω) (s : σ) :
    ∃ n, script.crashAfter apply n s = script.complete apply s := by
  induction script generalizing s with
  | done => exact ⟨0, rfl⟩
  | perform op next ih =>
    cases happly : apply op s with
    | some s' =>
      obtain ⟨n, hn⟩ := ih true s'
      exact ⟨n + 1, by simp only [crashAfter, complete, happly, hn]⟩
    | none =>
      obtain ⟨n, hn⟩ := ih false s
      exact ⟨n + 1, by simp only [crashAfter, complete, happly, hn]⟩
  | inspect next ih => exact ih s s

/-- Without failures an attempt is the whole program. -/
theorem attempt_snd (script : Script σ ω) {outcomes : List Bool} (hok : ∀ ok ∈ outcomes, ok = true)
    (s : σ) : (script.attempt apply outcomes s).2 = script.complete apply s := by
  induction script generalizing outcomes s with
  | done => rfl
  | perform op next ih =>
    have hhead : outcomes.headD true = true := by
      cases outcomes with
      | nil => rfl
      | cons ok rest => exact hok ok List.mem_cons_self
    have htail : ∀ ok ∈ outcomes.tail, ok = true := fun ok hmem =>
      hok ok (List.mem_of_mem_tail hmem)
    rw [attempt, complete, if_pos hhead]
    cases apply op s with
    | some s' => exact ih true htail s'
    | none => exact ih false htail s
  | inspect next ih => exact ih s hok s

variable {apply} {Inv : σ → Prop}

/-- What every operation keeps holds at every crash. -/
theorem Keeps.crashAfter {script : Script σ ω} (h : script.Keeps apply Inv) {s : σ} (hs : Inv s)
    (n : ℕ) : Inv (script.crashAfter apply n s) := by
  induction script generalizing n s with
  | done => exact hs
  | perform op next ih =>
    cases n with
    | zero => exact hs
    | succ n =>
      unfold Script.crashAfter
      split
      · rename_i s' happly
        exact ih true (h.2 true) (h.1 s s' hs happly) n
      · exact ih false (h.2 false) hs n
  | inspect next ih => exact ih s (h s) hs n

theorem Keeps.complete {script : Script σ ω} (h : script.Keeps apply Inv) {s : σ} (hs : Inv s) :
    Inv (script.complete apply s) := by
  obtain ⟨n, hn⟩ := exists_crashAfter_eq_complete apply script s
  rw [← hn]
  exact h.crashAfter hs n

theorem Keeps.andThen {script rest : Script σ ω} (h : script.Keeps apply Inv)
    (hrest : rest.Keeps apply Inv) : (script.andThen rest).Keeps apply Inv := by
  induction script with
  | done => exact hrest
  | perform op next ih => exact ⟨h.1, fun ok => ih ok (h.2 ok)⟩
  | inspect next ih => exact fun s => ih s (h s)

@[simp]
theorem complete_andThen (script rest : Script σ ω) (s : σ) :
    (script.andThen rest).complete apply s = rest.complete apply (script.complete apply s) := by
  induction script generalizing s with
  | done => rfl
  | perform op next ih =>
    simp only [Script.andThen, Script.complete]
    split
    · exact ih true _
    · exact ih false _
  | inspect next ih => exact ih s s

end Script

/-! ## Storage -/

/-- What is stored at each location. -/
abbrev Storage (ι : Type u) (τ : Type v) := ι → Option τ

/-- The atomic operations on a storage. -/
inductive StorageOp (ι : Type u) (τ : Type v) where
  | write (at_ : ι) (text : τ)
  /-- Force what is stored at a location to the medium. -/
  | sync (at_ : ι)
  | rename (source target : ι)
  | remove (at_ : ι)

namespace StorageOp

variable {ι : Type u} {τ : Type v} [DecidableEq ι]

/-- The effect of an operation. Only a write succeeds at a location that holds nothing. -/
def apply : StorageOp ι τ → Storage ι τ → Option (Storage ι τ)
  | write i text, d => some (Function.update d i (some text))
  | sync i, d => (d i).map fun _ => d
  | rename i j, d => (d i).map fun text => Function.update (Function.update d i none) j (some text)
  | remove i, d => (d i).map fun _ => Function.update d i none

/-- The locations that an operation may change. -/
def Touches : StorageOp ι τ → ι → Prop
  | write i _, k => k = i
  | sync _, _ => False
  | rename i j, k => k = i ∨ k = j
  | remove i, k => k = i

/-- An operation leaves the other locations alone. -/
theorem apply_of_not_touches {op : StorageOp ι τ} {d d' : Storage ι τ}
    (h : op.apply d = some d') {k : ι} (hk : ¬op.Touches k) : d' k = d k := by
  cases op with
  | write i text =>
    obtain rfl := Option.some.inj h
    exact Function.update_of_ne hk _ _
  | sync i =>
    obtain ⟨_, _, rfl⟩ := Option.map_eq_some_iff.1 h
    rfl
  | rename i j =>
    obtain ⟨text, _, rfl⟩ := Option.map_eq_some_iff.1 h
    obtain ⟨hi, hj⟩ := not_or.1 hk
    rw [Function.update_of_ne hj, Function.update_of_ne hi]
  | remove i =>
    obtain ⟨_, _, rfl⟩ := Option.map_eq_some_iff.1 h
    exact Function.update_of_ne hk _ _

end StorageOp
