import KyberPipe.Lib.Machine
import Mathlib.Data.Finset.Insert
import Mathlib.Data.List.MinMax
import Mathlib.Data.Prod.Lex
import Mathlib.Data.String.Basic

/-!
# The last-writer-wins register of the mesh

`LwwRegisterCRDT` of `crdt.rs`. An update replaces the register if its timestamp is later, or the
same with a greater node id, and is ignored if the timestamp is more than a minute away from the
local clock.

A replica ends with the first register of the greatest key among the initial one and the updates
that arrived in time. Replicas that receive the same updates need not agree.
-/

namespace KyberPipe

/-- `LwwRegisterCRDT<T>`. -/
structure LwwRegister (T : Type*) where
  value : T
  timestamp : ℕ
  nodeId : String
  deriving DecidableEq

namespace LwwRegister

variable {T : Type*}

/-- `MAX_CLOCK_DRIFT_MS`. -/
def maxClockDriftMs : ℕ := 60000

/-- `u64::MAX`. -/
def u64Max : ℕ := 2 ^ 64 - 1

/-- `u64::abs_diff`. -/
def absDiff (a b : ℕ) : ℕ := if a < b then b - a else a - b

/-- `LwwRegisterCRDT::merge` at a local time: whether the incoming state superseded the local one,
and the register. Strings compare by code points, which is the order of their bytes. -/
def merge (localNow : ℕ) (self incoming : LwwRegister T) : Bool × LwwRegister T :=
  if incoming.timestamp = u64Max then (false, self)
  else
    let drift := absDiff incoming.timestamp localNow
    if drift > maxClockDriftMs then (false, self)
    else if incoming.timestamp > self.timestamp ∨
        (incoming.timestamp = self.timestamp ∧ incoming.nodeId > self.nodeId) then
      (true, incoming)
    else (false, self)

/-- A replica: it merges updates as they arrive, each with the local time of its arrival. -/
def replica (T : Type*) : Machine (LwwRegister T) (ℕ × LwwRegister T) Bool where
  step s delivery := merge delivery.1 s delivery.2

/-- The register of a replica after a sequence of deliveries. -/
def afterDeliveries (initial : LwwRegister T) (deliveries : List (ℕ × LwwRegister T)) :
    LwwRegister T :=
  ((replica T).run initial deliveries).2

/-- Every update is delivered, in any order and any number of times, and nothing else is. -/
structure Delivers (updates : Finset (LwwRegister T)) (deliveries : List (ℕ × LwwRegister T)) :
    Prop where
  all : ∀ u ∈ updates, ∃ now, (now, u) ∈ deliveries
  only : ∀ delivery ∈ deliveries, delivery.2 ∈ updates

/-! ### The greatest key -/

/-- The key by which registers compare. -/
def key (r : LwwRegister T) : ℕ ×ₗ String := toLex (r.timestamp, r.nodeId)

/-- An update that is not ignored at a local time. -/
def Timely (localNow : ℕ) (u : LwwRegister T) : Prop :=
  u.timestamp ≠ u64Max ∧ absDiff u.timestamp localNow ≤ maxClockDriftMs

instance (localNow : ℕ) (u : LwwRegister T) : Decidable (Timely localNow u) :=
  inferInstanceAs (Decidable (_ ∧ _))

/-- The updates of a sequence of deliveries that arrive in time. -/
def timely (deliveries : List (ℕ × LwwRegister T)) : List (LwwRegister T) :=
  (deliveries.filter fun delivery => Timely delivery.1 delivery.2).map Prod.snd

/-- Equal keys mean equal registers, among the updates and the initial register. -/
def Consistent (initial : LwwRegister T) (updates : Finset (LwwRegister T)) : Prop :=
  ∀ r s, (r = initial ∨ r ∈ updates) → (s = initial ∨ s ∈ updates) → r.key = s.key → r = s

theorem mem_timely {deliveries : List (ℕ × LwwRegister T)} {u : LwwRegister T} :
    u ∈ timely deliveries ↔ ∃ now, (now, u) ∈ deliveries ∧ Timely now u := by
  simp only [timely, List.mem_map, List.mem_filter, decide_eq_true_eq, Prod.exists]
  constructor
  · rintro ⟨now, u, hmem, rfl⟩
    exact ⟨now, hmem⟩
  · rintro ⟨now, hmem⟩
    exact ⟨now, u, hmem, rfl⟩

theorem timely_cons (delivery : ℕ × LwwRegister T) (deliveries : List (ℕ × LwwRegister T)) :
    timely (delivery :: deliveries) =
      if Timely delivery.1 delivery.2 then delivery.2 :: timely deliveries
      else timely deliveries := by
  simp only [timely, List.filter_cons, decide_eq_true_eq]
  split_ifs <;> rfl

theorem key_lt_key {r s : LwwRegister T} :
    r.key < s.key ↔
      s.timestamp > r.timestamp ∨ (s.timestamp = r.timestamp ∧ s.nodeId > r.nodeId) := by
  rw [key, key, Prod.Lex.toLex_lt_toLex]
  exact or_congr Iff.rfl (and_congr_left' eq_comm)

/-- An update that arrives in time with a greater key replaces the register. -/
theorem merge_snd (localNow : ℕ) (self incoming : LwwRegister T) :
    (merge localNow self incoming).2 =
      if Timely localNow incoming ∧ self.key < incoming.key then incoming else self := by
  unfold merge
  dsimp only
  by_cases hmax : incoming.timestamp = u64Max
  · rw [if_pos hmax, if_neg fun h => h.1.1 hmax]
  · rw [if_neg hmax]
    by_cases hdrift : absDiff incoming.timestamp localNow > maxClockDriftMs
    · rw [if_pos hdrift, if_neg fun h => absurd h.1.2 (not_le.2 hdrift)]
    · have htimely : Timely localNow incoming := ⟨hmax, not_lt.1 hdrift⟩
      simp only [if_neg hdrift, and_iff_right htimely, key_lt_key]
      split_ifs <;> rfl

/-- The first of two registers gives way to a greater key. -/
theorem argmax_cons_cons (r s : LwwRegister T) (rest : List (LwwRegister T)) :
    List.argmax key (r :: s :: rest) =
      List.argmax key ((if r.key < s.key then s else r) :: rest) := by
  show rest.foldl _ (if r.key < s.key then some s else some r) =
    rest.foldl _ (some (if r.key < s.key then s else r))
  rw [apply_ite some]

/-- A replica ends with the first register of the greatest key. -/
theorem argmax_timely (initial : LwwRegister T) (deliveries : List (ℕ × LwwRegister T)) :
    List.argmax key (initial :: timely deliveries) =
      some (afterDeliveries initial deliveries) := by
  induction deliveries generalizing initial with
  | nil => rfl
  | cons delivery deliveries ih =>
    have hstep := merge_snd delivery.1 initial delivery.2
    show _ = some (afterDeliveries (merge delivery.1 initial delivery.2).2 deliveries)
    rw [← ih, hstep, timely_cons]
    by_cases htimely : Timely delivery.1 delivery.2
    · simp only [if_pos htimely, argmax_cons_cons, and_iff_right htimely]
    · rw [if_neg htimely, if_neg fun h => htimely h.1]

section Convergence

variable {updates : Finset (LwwRegister T)} {initial : LwwRegister T}
  {deliveries deliveries' : List (ℕ × LwwRegister T)}

theorem Delivers.mem_of_mem (h : Delivers updates deliveries) {r : LwwRegister T}
    (hr : r ∈ initial :: timely deliveries) : r = initial ∨ r ∈ updates := by
  rcases List.mem_cons.1 hr with rfl | hr
  · exact .inl rfl
  · obtain ⟨now, hmem, -⟩ := mem_timely.1 hr
    exact .inr (h.only _ hmem)

/-- The register of a replica is the initial one or an update. -/
theorem Delivers.afterDeliveries_mem (h : Delivers updates deliveries) :
    afterDeliveries initial deliveries = initial ∨
      afterDeliveries initial deliveries ∈ updates :=
  h.mem_of_mem (List.argmax_mem (argmax_timely initial deliveries))

/-- A replica that has received more in time is not behind. -/
theorem key_afterDeliveries_le (h : ∀ u ∈ timely deliveries, u ∈ timely deliveries') :
    (afterDeliveries initial deliveries).key ≤ (afterDeliveries initial deliveries').key := by
  have hmem := List.argmax_mem (argmax_timely initial deliveries)
  refine List.le_of_mem_argmax (List.mem_cons.2 ?_) (argmax_timely initial deliveries')
  exact (List.mem_cons.1 hmem).imp id (h _)

end Convergence

/-- Two replicas with the same updates end alike exactly if the first register of the greatest key
among the initial one and the updates in time is the same for both, as it is if each update is in
time at both or at none and equal keys mean equal registers. -/
theorem crdt_convergence {updates : Finset (LwwRegister T)} {initial : LwwRegister T}
    {deliveries deliveries' : List (ℕ × LwwRegister T)} (hall : Delivers updates deliveries)
    (hall' : Delivers updates deliveries') :
    (afterDeliveries initial deliveries = afterDeliveries initial deliveries' ↔
        List.argmax key (initial :: timely deliveries) =
          List.argmax key (initial :: timely deliveries')) ∧
      (Consistent initial updates → (∀ u ∈ updates, (∃ now, (now, u) ∈ deliveries ∧ Timely now u) ↔
          ∃ now, (now, u) ∈ deliveries' ∧ Timely now u) →
        afterDeliveries initial deliveries = afterDeliveries initial deliveries') := by
  constructor
  · rw [argmax_timely, argmax_timely, Option.some.injEq]
  · intro hconsistent hsame
    have hle : ∀ u ∈ timely deliveries, u ∈ timely deliveries' := by
      intro u hu
      obtain ⟨now, hmem, htimely⟩ := mem_timely.1 hu
      exact mem_timely.2 ((hsame u (hall.only _ hmem)).1 ⟨now, hmem, htimely⟩)
    have hge : ∀ u ∈ timely deliveries', u ∈ timely deliveries := by
      intro u hu
      obtain ⟨now, hmem, htimely⟩ := mem_timely.1 hu
      exact mem_timely.2 ((hsame u (hall'.only _ hmem)).2 ⟨now, hmem, htimely⟩)
    exact hconsistent _ _ hall.afterDeliveries_mem hall'.afterDeliveries_mem
      (le_antisymm (key_afterDeliveries_le hle) (key_afterDeliveries_le hge))

/-- Two updates in different orders, one of them twice. -/
theorem crdt_convergence_two :
    let initial : LwwRegister String := ⟨"Local Engine State", 100, "desktop_node_1"⟩
    let a : LwwRegister String := ⟨"a", 70000, "node_a"⟩
    let b : LwwRegister String := ⟨"b", 70000, "node_b"⟩
    afterDeliveries initial [(70010, a), (70020, b)] =
      afterDeliveries initial [(80000, b), (80001, a), (90000, b)] := by
  intro initial a b
  have hall : Delivers {a, b} [(70010, a), (70020, b)] := ⟨by simp, by simp⟩
  have hall' : Delivers {a, b} [(80000, b), (80001, a), (90000, b)] := by
    refine ⟨fun u hu => ?_, by simp⟩
    rcases Finset.mem_insert.1 hu with rfl | hu
    · exact ⟨80001, by simp⟩
    · exact ⟨80000, by simp [Finset.mem_singleton.1 hu]⟩
  refine (crdt_convergence hall hall').2 ?_ ?_
  · intro r s hr hs
    simp only [Finset.mem_insert, Finset.mem_singleton] at hr hs
    rcases hr with rfl | rfl | rfl <;> rcases hs with rfl | rfl | rfl <;> decide
  · intro u hu
    rcases Finset.mem_insert.1 hu with rfl | hu
    · exact iff_of_true ⟨70010, by simp, by decide⟩ ⟨80001, by simp, by decide⟩
    · rw [Finset.mem_singleton.1 hu]
      exact iff_of_true ⟨70020, by simp, by decide⟩ ⟨80000, by simp, by decide⟩

/-- A replica that receives an update two minutes after its timestamp ignores it for good. Two
updates with one key and different values are kept in the order of their arrival. -/
theorem replicas_diverge :
    let initial : LwwRegister String := ⟨"Local Engine State", 100, "desktop_node_1"⟩
    let a : LwwRegister String := ⟨"a", 70000, "node_a"⟩
    let a' : LwwRegister String := ⟨"a'", 70000, "node_a"⟩
    afterDeliveries initial [(70000, a)] = a ∧
      afterDeliveries initial [(190000, a)] = initial ∧
      afterDeliveries initial [(70000, a), (70000, a')] = a ∧
      afterDeliveries initial [(70000, a'), (70000, a)] = a' ∧ a ≠ a' ∧ a ≠ initial := by
  decide +kernel

end LwwRegister

end KyberPipe
