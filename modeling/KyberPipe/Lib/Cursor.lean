import Mathlib.Algebra.Group.Nat.Defs
import Mathlib.Data.List.Basic

/-!
# Reads behind a cursor

A decoder that walks over a slice with a cursor adds machine words and takes ranges of the slice.
Either can stop the program. Such a decoder is written here in a monad that keeps these faults apart
from the refusals of the decoder, and compared with one that takes elements off a list.
-/

/-- What a successful sequence of two computations did. -/
theorem Except.exists_of_bind_eq_ok {ε α β : Type} {x : Except ε α} {k : α → Except ε β} {b : β}
    (h : x >>= k = .ok b) : ∃ a, x = .ok a ∧ k a = .ok b := by
  cases x with
  | ok a => exact ⟨a, rfl, h⟩
  | error e => cases h

namespace Cursor

/-- Why a read stops the program. -/
inductive Fault where
  /-- A sum does not fit into 64 bits. -/
  | overflow
  /-- A range or an index lies outside of its slice. -/
  | outOfBounds
  deriving DecidableEq

/-- How a computation ends without a result: with a fault, or with a refusal of its own. -/
inductive Stop (ε : Type) where
  | fault (f : Fault)
  | refused (e : ε)
  deriving DecidableEq

/-- Computations that may stop. -/
abbrev Checked (ε : Type) := Except (Stop ε)

/-- A slice in memory. No allocation takes more than `isize::MAX` bytes. -/
structure Slice (α : Type) where
  toList : List α
  length_lt : toList.length < 2 ^ 63

section Operations

variable {α ε : Type}

/-- Addition of two `usize` values of 64 bits. -/
def add (a b : ℕ) : Checked ε ℕ := if a + b < 2 ^ 64 then .ok (a + b) else .error (.fault .overflow)

/-- The elements of a slice from `start` up to `stop`. -/
def range (data : List α) (start stop : ℕ) : Checked ε (List α) :=
  if start ≤ stop ∧ stop ≤ data.length then .ok ((data.drop start).take (stop - start))
  else .error (.fault .outOfBounds)

/-- One element of a slice. -/
def index (data : List α) (i : ℕ) : Checked ε α :=
  match data[i]? with
  | some a => .ok a
  | none => .error (.fault .outOfBounds)

/-- A slice as an array of `n` elements, which it has to have. -/
def exactly (n : ℕ) (data : List α) : Checked ε (List α) :=
  if data.length = n then .ok data else .error (.fault .outOfBounds)

theorem add_of_lt {a b : ℕ} (h : a + b < 2 ^ 64) : (add a b : Checked ε ℕ) = .ok (a + b) :=
  if_pos h

/-- A range of `n` elements inside of the slice is what a list reader takes off the front. -/
theorem range_add {data : List α} {start n : ℕ} (h : start + n ≤ data.length) :
    (range data start (start + n) : Checked ε (List α)) = .ok ((data.drop start).take n) := by
  rw [range, if_pos ⟨Nat.le_add_right start n, h⟩, Nat.add_sub_cancel_left]

theorem exactly_of_length {n : ℕ} {data : List α} (h : data.length = n) :
    (exactly n data : Checked ε (List α)) = .ok data :=
  if_pos h

@[simp]
theorem ok_bind {β : Type} (a : α) (k : α → Checked ε β) : (.ok a : Checked ε α) >>= k = k a := rfl

end Operations

/-! ## Decoders without faults -/

section Lift

variable {ε : Type}

instance : MonadLift (Except ε) (Checked ε) where
  monadLift
    | .ok a => .ok a
    | .error e => .error (.refused e)

instance : MonadLift Option (Checked Unit) where
  monadLift
    | some a => .ok a
    | none => .error (.refused ())

instance : LawfulMonadLift (Except ε) (Checked ε) where
  monadLift_pure _ := rfl
  monadLift_bind x f := by
    cases x with
    | ok a => rfl
    | error e => rfl

instance : LawfulMonadLift Option (Checked Unit) where
  monadLift_pure _ := rfl
  monadLift_bind x f := by
    cases x with
    | some a => rfl
    | none => rfl

end Lift

/-! ## Comparison with list readers -/

section Compare

variable {α β γ ε : Type} {F : Type → Type} [Monad F] [LawfulMonad F]
  [MonadLiftT F (Checked ε)] [LawfulMonadLiftT F (Checked ε)] {data : List α}

/-- With room for `room` elements behind its cursor, the cursor reader `p` does what `q` does on the
elements there: it has no fault, refuses what `q` refuses, and otherwise its cursor stands before
the elements that `q` leaves, at least `room'` many. What is read meets `Q`. -/
def Reads (data : List α) (room : ℕ) (Q : β → Prop) (room' : ℕ) (p : ℕ → Checked ε (β × ℕ))
    (q : List α → F (β × List α)) : Prop :=
  ∀ cursor, cursor + room ≤ data.length →
    ∃ r : F {x : β × ℕ // Q x.1 ∧ x.2 + room' ≤ data.length},
      p cursor = liftM (Subtype.val <$> r) ∧
        q (data.drop cursor) = (fun x => (x.1.1, data.drop x.1.2)) <$> r

/-- With room for `room` elements, the last part of a cursor reader does what `q` does on the
elements behind the cursor. -/
def Ends (data : List α) (room : ℕ) (p : ℕ → Checked ε β) (q : List α → F β) : Prop :=
  ∀ cursor, cursor + room ≤ data.length → p cursor = liftM (q (data.drop cursor))

variable {room room' : ℕ} {Q : β → Prop} {p : ℕ → Checked ε (β × ℕ)}
  {q : List α → F (β × List α)}

/-- One read, and then the rest of the decoder. -/
theorem Reads.ends_bind {k : β × ℕ → Checked ε γ} {l : β × List α → F γ}
    (h : Reads data room Q room' p q)
    (hrest : ∀ b, Q b → Ends data room' (fun cursor => k (b, cursor)) (fun rest => l (b, rest))) :
    Ends data room (fun cursor => p cursor >>= k) (fun rest => q rest >>= l) := by
  intro cursor hcursor
  obtain ⟨r, hp, hq⟩ := h cursor hcursor
  have hk : (fun x : {x : β × ℕ // Q x.1 ∧ x.2 + room' ≤ data.length} => k x.1) =
      fun x => liftM (l (x.1.1, data.drop x.1.2)) :=
    funext fun x => hrest x.1.1 x.2.1 x.1.2 x.2.2
  dsimp only
  rw [hp, hq, liftM_map, bind_map_left, bind_map_left, hk, liftM_bind]

/-- Two reads in a row. -/
theorem Reads.bind {Q' : γ → Prop} {room'' : ℕ} {k : β × ℕ → Checked ε (γ × ℕ)}
    {l : β × List α → F (γ × List α)} (h : Reads data room Q room' p q)
    (hrest : ∀ b, Q b →
      Reads data room' Q' room'' (fun cursor => k (b, cursor)) (fun rest => l (b, rest))) :
    Reads data room Q' room'' (fun cursor => p cursor >>= k) (fun rest => q rest >>= l) := by
  intro cursor hcursor
  obtain ⟨r, hp, hq⟩ := h cursor hcursor
  choose s hs using fun x : {x : β × ℕ // Q x.1 ∧ x.2 + room' ≤ data.length} =>
    hrest x.1.1 x.2.1 x.1.2 x.2.2
  have hk : (fun x : {x : β × ℕ // Q x.1 ∧ x.2 + room' ≤ data.length} => k x.1) =
      fun x => liftM (Subtype.val <$> s x) :=
    funext fun x => (hs x).1
  have hl : (fun x : {x : β × ℕ // Q x.1 ∧ x.2 + room' ≤ data.length} =>
      l (x.1.1, data.drop x.1.2)) = fun x => (fun y => (y.1.1, data.drop y.1.2)) <$> s x :=
    funext fun x => (hs x).2
  refine ⟨r >>= s, ?_, ?_⟩
  · dsimp only
    rw [hp, liftM_map, bind_map_left, hk, map_bind, liftM_bind]
  · dsimp only
    rw [hq, bind_map_left, hl, map_bind]

/-- A computation that does not touch the slice, after which what was read is replaced by its
result. -/
theorem Reads.lift (x : F β) (hQ : ∀ b, Q b) :
    Reads data room Q room (fun cursor => (liftM x : Checked ε β) >>= fun b => pure (b, cursor))
      (fun rest => x >>= fun b => pure (b, rest)) := by
  intro cursor hcursor
  refine ⟨(fun b => ⟨(b, cursor), hQ b, hcursor⟩) <$> x, ?_, ?_⟩
  · simp only [bind_pure_comp, liftM_map, Functor.map_map]
  · simp only [bind_pure_comp, Functor.map_map]

omit [LawfulMonad F] in
/-- A computation that does not touch the slice, and then the rest. -/
theorem Ends.lift_bind {k : γ → ℕ → Checked ε β} {l : γ → List α → F β} (x : F γ)
    (h : ∀ c, Ends data room (k c) (l c)) :
    Ends data room (fun cursor => liftM x >>= fun c => k c cursor)
      (fun rest => x >>= fun c => l c rest) := by
  intro cursor hcursor
  have hrest : (fun c => k c cursor) = fun c => liftM (l c (data.drop cursor)) :=
    funext fun c => h c cursor hcursor
  dsimp only
  rw [hrest, liftM_bind]

omit [Monad F] [LawfulMonad F] [LawfulMonadLiftT F (Checked ε)] in
/-- A branch on what was read before. -/
theorem Ends.ite {c : Prop} [Decidable c] {k k' : ℕ → Checked ε β} {l l' : List α → F β}
    (hpos : c → Ends data room k l) (hneg : ¬c → Ends data room k' l') :
    Ends data room (fun cursor => if c then k cursor else k' cursor)
      (fun rest => if c then l rest else l' rest) := by
  intro cursor hcursor
  by_cases h : c
  · simp only [if_pos h]
    exact hpos h cursor hcursor
  · simp only [if_neg h]
    exact hneg h cursor hcursor

end Compare

end Cursor
