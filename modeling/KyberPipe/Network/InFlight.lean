import KyberPipe.Lib.Interleaving
import KyberPipe.Network.QuicFrame
import Mathlib.Logic.Function.Basic

/-!
# The in-flight gate of a peer

`acquire_in_flight`, the drop of `InFlightGuard` and the part of `close_peer` that forgets the gate,
from `quic_bridge.rs`. A gate is an object that the map and the callers share. The calls are
threads; the lookup in the map and each look at the busy flag are critical sections.

`close_peer` takes the gate out of the map while others may hold it or wait for it. The next caller
gets a new gate, and two guards of one peer are held at the same time.
-/

namespace KyberPipe

namespace Quic

/-- `IN_FLIGHT_GATES` and the gates that were ever made. -/
structure InFlightGates where
  /-- The gate of a peer key. -/
  gates : String → Option ℕ := fun _ => none
  /-- The busy flag of a gate. -/
  busy : ℕ → Bool := fun _ => false
  /-- The next gate to be made. -/
  next : ℕ := 0

/-- What the clock says to a caller in its turn. -/
structure ClockReading where
  /-- The wait for the condition variable ended by its timeout. -/
  timedOut : Bool := false
  /-- The deadline has passed. -/
  deadlinePassed : Bool := false

/-- A call, at one of its program points. -/
inductive FlightCall where
  /-- `acquire_in_flight` at its start. -/
  | acquire (key : String) (clock : List ClockReading)
  /-- Before the first look at the busy flag. -/
  | entering (key : String) (gate : ℕ) (clock : List ClockReading)
  /-- Waiting for the condition variable. -/
  | waiting (key : String) (gate : ℕ) (clock : List ClockReading)
  /-- With an `InFlightGuard` that is not dropped yet. -/
  | holding (key : String) (gate : ℕ)
  | released
  | failed (e : NetworkError)
  /-- `close_peer` at `drop_in_flight_state`. -/
  | closePeer (key : String)
  | closed

/-- The error of a caller that does not get the gate. -/
def inFlightError (key outcome : String) : NetworkError :=
  ⟨s!"A QUIC round-trip for peer '{key}' is already in flight (per-peer gate, audit #6) — " ++
    outcome⟩

namespace InFlightGates

variable (s : InFlightGates)

/-- A new gate for a peer key. -/
def insertGate (key : String) : InFlightGates where
  gates := Function.update s.gates key (some s.next)
  busy := Function.update s.busy s.next false
  next := s.next + 1

/-- The lookup of the gate, which makes one if there is none. -/
def lookup (key : String) : ℕ × InFlightGates :=
  match s.gates key with
  | some gate => (gate, s)
  | none => (s.next, s.insertGate key)

/-- The busy flag of a gate is set. -/
def setBusy (gate : ℕ) (busy : Bool) : InFlightGates :=
  { s with busy := Function.update s.busy gate busy }

/-- `drop_in_flight_state`. -/
def dropInFlightState (key : String) : InFlightGates :=
  { s with gates := Function.update s.gates key none }

/-- The head of the waiting loop. -/
def check (key : String) (gate : ℕ) (reading : ClockReading) (clock : List ClockReading) :
    InFlightGates × FlightCall :=
  if s.busy gate then
    if reading.deadlinePassed then
      (s, .failed (inFlightError key "retry later"))
    else (s, .waiting key gate clock)
  else (s.setBusy gate true, .holding key gate)

end InFlightGates

/-- The critical sections of the calls. A caller reads its clock once in a turn. -/
def flightProgram : Program InFlightGates FlightCall Unit where
  step s
    | .acquire key clock =>
      let found := s.lookup key
      ((), found.2, .entering key found.1 clock)
    | .entering key gate clock => ((), s.check key gate (clock.headD {}) clock.tail)
    | .waiting key gate clock =>
      if (clock.headD {}).timedOut then
        ((), s, .failed (inFlightError key "timed out waiting"))
      else ((), s.check key gate (clock.headD {}) clock.tail)
    | .holding _ gate => ((), s.setBusy gate false, .released)
    | .closePeer key => ((), s.dropInFlightState key, .closed)
    | .released => ((), s, .released)
    | .failed e => ((), s, .failed e)
    | .closed => ((), s, .closed)

namespace FlightCall

/-- A call that has not begun. -/
def IsStart : FlightCall → Prop
  | .acquire .. | .closePeer .. => True
  | _ => False

/-- The peer key and the gate of a call that has a reference to it. -/
def gateRef : FlightCall → Option (String × ℕ)
  | .entering key gate _ | .waiting key gate _ | .holding key gate => some (key, gate)
  | _ => none

/-- The peer key that is about to be closed. -/
def closing : FlightCall → Option String
  | .closePeer key => some key
  | _ => none

/-- The peer key of a guard that is held. -/
def guardKey : FlightCall → Option String
  | .holding key _ => some key
  | _ => none

variable {call : FlightCall}

theorem IsStart.gateRef_eq_none (h : call.IsStart) : call.gateRef = none := by
  cases call with
  | acquire | closePeer => rfl
  | entering | waiting | holding | released | failed | closed => exact h.elim

theorem IsStart.guardKey_eq_none (h : call.IsStart) : call.guardKey = none := by
  cases call with
  | acquire | closePeer => rfl
  | entering | waiting | holding | released | failed | closed => exact h.elim

theorem gateRef_of_guardKey {key : String} (h : call.guardKey = some key) :
    call.gateRef.map Prod.fst = some key := by
  cases call with
  | holding other gate => exact h
  | acquire | entering | waiting | released | failed | closePeer | closed => cases h

end FlightCall

/-- How many guards of a peer key are held. -/
def guardsHeld (key : String) (calls : List FlightCall) : ℕ :=
  Pool.countAt FlightCall.guardKey (some key) calls

/-- A turn in which a gate is taken out of the map only while no call has a reference to it: no
guard of the key is held and no caller is on its way. -/
def ClosesUnused (pool : Pool InFlightGates FlightCall) (i : ℕ) : Prop :=
  ∀ key ∈ pool.threads[i]?.bind FlightCall.closing,
    ∀ call ∈ pool.threads, call.gateRef.map Prod.fst ≠ some key

instance (pool : Pool InFlightGates FlightCall) (i : ℕ) : Decidable (ClosesUnused pool i) :=
  inferInstanceAs (Decidable (∀ key ∈ pool.threads[i]?.bind FlightCall.closing, _))

/-! ### The invariant -/

/-- Every reference is to the gate in the map, and a gate is busy while a guard of its key is
held. -/
structure Exclusive (pool : Pool InFlightGates FlightCall) : Prop where
  made : ∀ key gate, pool.shared.gates key = some gate → gate < pool.shared.next
  separate : ∀ key key' gate, pool.shared.gates key = some gate →
    pool.shared.gates key' = some gate → key = key'
  current : ∀ call ∈ pool.threads, ∀ key gate, call.gateRef = some (key, gate) →
    pool.shared.gates key = some gate
  count : ∀ key, guardsHeld key pool.threads =
    ((pool.shared.gates key).any pool.shared.busy).toNat

theorem InFlightGates.gates_insertGate (s : InFlightGates) (key other : String) :
    (s.insertGate key).gates other = if other = key then some s.next else s.gates other :=
  Function.update_apply _ _ _ _

theorem InFlightGates.gates_dropInFlightState (s : InFlightGates) (key other : String) :
    (s.dropInFlightState key).gates other = if other = key then none else s.gates other :=
  Function.update_apply _ _ _ _

namespace Exclusive

variable {pool : Pool InFlightGates FlightCall} {i : ℕ} {call call' : FlightCall} {key : String}
  {gate : ℕ}

section

variable (h : Exclusive pool)
include h

theorem current_set
    (href : ∀ key gate, call'.gateRef = some (key, gate) → pool.shared.gates key = some gate) :
    ∀ c ∈ pool.threads.set i call', ∀ key gate, c.gateRef = some (key, gate) →
      pool.shared.gates key = some gate := by
  intro c hc
  rcases List.mem_or_eq_of_mem_set hc with hc | rfl
  · exact h.current c hc
  · exact href

/-- The busy flag of a gate is set to what the thread in turn holds of it afterwards. -/
theorem setBusy (call' : FlightCall) (hthread : pool.threads[i]? = some call)
    (hgate : pool.shared.gates key = some gate)
    (hbusy : pool.shared.busy gate = (call.guardKey == some key))
    (hother : ∀ other, other ≠ key → (call'.guardKey == some other) = (call.guardKey == some other))
    (href : ∀ key gate, call'.gateRef = some (key, gate) → pool.shared.gates key = some gate) :
    Exclusive ⟨pool.shared.setBusy gate (call'.guardKey == some key),
      pool.threads.set i call'⟩ where
  made := h.made
  separate := h.separate
  current := h.current_set href
  count other := by
    have hcount := Pool.countAt_set_add FlightCall.guardKey (some other) call' hthread
    have hold := h.count other
    simp only [guardsHeld, InFlightGates.setBusy] at hold ⊢
    by_cases hkey : other = key
    · subst hkey
      rw [hgate, Option.any_some] at hold ⊢
      rw [Function.update_self]
      rw [hold, hbusy] at hcount
      omega
    · rw [hold, hother other hkey] at hcount
      cases hothergate : pool.shared.gates other with
      | none =>
        rw [hothergate] at hcount
        exact Nat.add_right_cancel hcount
      | some gate' =>
        -- another key has another gate
        have hne : gate' ≠ gate := fun heq =>
          hkey (h.separate other key gate (heq ▸ hothergate) hgate)
        rw [hothergate] at hcount
        rw [Option.any_some, Function.update_of_ne hne]
        exact Nat.add_right_cancel hcount

/-- A turn that leaves the gates alone and takes or gives no guard. -/
theorem move (hthread : pool.threads[i]? = some call) (hkeys : call'.guardKey = call.guardKey)
    (href : ∀ key gate, call'.gateRef = some (key, gate) → pool.shared.gates key = some gate) :
    Exclusive ⟨pool.shared, pool.threads.set i call'⟩ where
  made := h.made
  separate := h.separate
  current := h.current_set href
  count other := by
    have hcount := Pool.countAt_set_add FlightCall.guardKey (some other) call' hthread
    rw [hkeys] at hcount
    exact (Nat.add_right_cancel hcount).trans (h.count other)

theorem insertGate (hnone : pool.shared.gates key = none) :
    Exclusive ⟨pool.shared.insertGate key, pool.threads⟩ where
  made other gate hgate := by
    show gate < pool.shared.next + 1
    rw [InFlightGates.gates_insertGate] at hgate
    split_ifs at hgate with hkey
    · rw [← Option.some.inj hgate]
      exact Nat.lt_succ_self _
    · exact Nat.lt_succ_of_lt (h.made other gate hgate)
  separate first second gate hfirst hsecond := by
    have hold : ∀ other, pool.shared.gates other ≠ some pool.shared.next := fun other hgate =>
      absurd (h.made other _ hgate) (Nat.lt_irrefl _)
    rw [InFlightGates.gates_insertGate] at hfirst hsecond
    split_ifs at hfirst hsecond with hkey hkey' hkey'
    · rw [hkey, hkey']
    · exact absurd (hsecond.trans hfirst.symm) (hold second)
    · exact absurd (hfirst.trans hsecond.symm) (hold first)
    · exact h.separate first second gate hfirst hsecond
  current call hcall other gate href := by
    have hcurrent := h.current call hcall other gate href
    have hne : other ≠ key := by
      rintro rfl
      rw [hnone] at hcurrent
      cases hcurrent
    rw [InFlightGates.gates_insertGate, if_neg hne]
    exact hcurrent
  count other := by
    rw [h.count other, InFlightGates.gates_insertGate]
    split_ifs with hkey
    · have hfree : (pool.shared.insertGate key).busy pool.shared.next = false :=
        Function.update_self _ _ _
      rw [hkey, hnone, Option.any_some, hfree]
      rfl
    · cases hgate : pool.shared.gates other with
      | none => rfl
      | some gate =>
        have hne : gate ≠ pool.shared.next := Nat.ne_of_lt (h.made other gate hgate)
        exact congrArg Bool.toNat (Function.update_of_ne hne _ _).symm

/-- The lookup finds the gate in the map, or puts a new one there. -/
theorem lookup (key : String) :
    Exclusive ⟨(pool.shared.lookup key).2, pool.threads⟩ ∧
      (pool.shared.lookup key).2.gates key = some (pool.shared.lookup key).1 := by
  unfold InFlightGates.lookup
  cases hgate : pool.shared.gates key with
  | some gate => exact ⟨h, hgate⟩
  | none =>
    refine ⟨h.insertGate hgate, ?_⟩
    exact (InFlightGates.gates_insertGate pool.shared key key).trans (if_pos rfl)

theorem dropInFlightState (hunused : ∀ call ∈ pool.threads, call.gateRef.map Prod.fst ≠ some key) :
    Exclusive ⟨pool.shared.dropInFlightState key, pool.threads⟩ where
  made other gate hgate := by
    rw [InFlightGates.gates_dropInFlightState] at hgate
    split_ifs at hgate with hkey
    exact h.made other gate hgate
  separate first second gate hfirst hsecond := by
    rw [InFlightGates.gates_dropInFlightState] at hfirst hsecond
    split_ifs at hfirst hsecond with hkey hkey'
    exact h.separate first second gate hfirst hsecond
  current call hcall other gate href := by
    have hne : other ≠ key := by
      rintro rfl
      exact hunused call hcall (congrArg (Option.map Prod.fst) href)
    rw [InFlightGates.gates_dropInFlightState, if_neg hne]
    exact h.current call hcall other gate href
  count other := by
    rw [InFlightGates.gates_dropInFlightState]
    split_ifs with hkey
    · rw [hkey]
      exact Pool.countAt_eq_zero.2 fun call hcall hguard =>
        hunused call hcall (FlightCall.gateRef_of_guardKey hguard)
    · exact h.count other

/-- The head of the waiting loop takes the gate only if it is free. -/
theorem check (hthread : pool.threads[i]? = some call) (hguard : call.guardKey = none)
    (href : call.gateRef = some (key, gate)) (reading : ClockReading) (clock : List ClockReading) :
    Exclusive ⟨(pool.shared.check key gate reading clock).1,
      pool.threads.set i (pool.shared.check key gate reading clock).2⟩ := by
  have hgate := h.current call (List.mem_of_getElem? hthread) key gate href
  have hown : ∀ key' gate', some (key, gate) = some (key', gate') →
      pool.shared.gates key' = some gate' := by
    rintro key' gate' heq
    obtain ⟨rfl, rfl⟩ := Prod.mk.inj (Option.some.inj heq)
    exact hgate
  unfold InFlightGates.check
  split_ifs with hbusy hdeadline
  · exact h.move hthread hguard.symm fun key gate hnone => nomatch hnone
  · exact h.move hthread hguard.symm hown
  · have hset := h.setBusy (.holding key gate) hthread hgate
      (by rw [hguard]; exact eq_false_of_ne_true hbusy)
      (fun other hne => by
        rw [hguard]
        exact beq_eq_false_iff_ne.2 fun heq => hne (Option.some.inj heq).symm) hown
    rwa [show (FlightCall.guardKey (.holding key gate) == some key) = true from
      beq_self_eq_true _] at hset

theorem release (hthread : pool.threads[i]? = some (.holding key gate)) :
    Exclusive ⟨pool.shared.setBusy gate false, pool.threads.set i .released⟩ := by
  have hmem := List.mem_of_getElem? hthread
  have hgate := h.current _ hmem key gate rfl
  -- the guard counts, so the gate is busy
  have hbusy : pool.shared.busy gate = true := by
    have hcount := h.count key
    rw [hgate, Option.any_some] at hcount
    by_contra hfree
    rw [eq_false_of_ne_true hfree] at hcount
    exact Pool.countAt_eq_zero.1 hcount _ hmem rfl
  exact h.setBusy .released hthread hgate
    (by rw [hbusy]; exact (beq_self_eq_true _).symm)
    (fun other hne => (beq_eq_false_iff_ne.2 fun heq => hne (Option.some.inj heq).symm).symm)
    fun key gate hnone => nomatch hnone

theorem step (i : ℕ) (hcloses : ClosesUnused pool i) :
    Exclusive (flightProgram.machine.step pool i).2 := by
  cases hthread : pool.threads[i]? with
  | none =>
    rw [Program.machine_step_of_none hthread]
    exact h
  | some call =>
    rw [Program.machine_step_of_some hthread]
    cases call with
    | acquire key clock =>
      obtain ⟨hlookup, hgate⟩ := h.lookup key
      refine hlookup.move hthread rfl fun key' gate' heq => ?_
      obtain ⟨rfl, rfl⟩ := Prod.mk.inj (Option.some.inj heq)
      exact hgate
    | entering key gate clock => exact h.check hthread rfl rfl _ _
    | waiting key gate clock =>
      show Exclusive ⟨(flightProgram.step pool.shared (.waiting key gate clock)).2.1, _⟩
      simp only [flightProgram]
      split_ifs with htimeout
      · exact h.move hthread rfl fun key gate hnone => nomatch hnone
      · exact h.check hthread rfl rfl _ _
    | holding key gate => exact h.release hthread
    | closePeer key =>
      exact (h.dropInFlightState (hcloses key (by rw [hthread]; rfl))).move hthread rfl
        fun key gate hnone => nomatch hnone
    | released | failed | closed =>
      exact h.move hthread rfl fun key gate hnone => nomatch hnone

end

end Exclusive

theorem exclusive_start {calls : List FlightCall} (hstart : ∀ call ∈ calls, call.IsStart) :
    Exclusive ⟨{}, calls⟩ where
  made key gate hgate := nomatch hgate
  separate key key' gate hgate := nomatch hgate
  current call hcall key gate href := by
    rw [(hstart call hcall).gateRef_eq_none] at href
    cases href
  count key := by
    refine Pool.countAt_eq_zero.2 fun call hcall => ?_
    rw [(hstart call hcall).guardKey_eq_none]
    exact nofun

/-- In every interleaving in which a peer is closed only while none of its guards is held and no
caller is on its way to one, at most one guard of a peer key is held at any time. -/
theorem in_flight_exclusion {calls : List FlightCall} (hstart : ∀ call ∈ calls, call.IsStart)
    {schedule : List ℕ}
    (hcloses : flightProgram.machine.Follows ClosesUnused ⟨{}, calls⟩ schedule) (key : String) :
    guardsHeld key (flightProgram.machine.run ⟨{}, calls⟩ schedule).2.threads ≤ 1 := by
  have hexclusive := Machine.run_invariant_of_follows Exclusive
    (fun _ i h hallowed => h.step i hallowed) (exclusive_start hstart) hcloses
  rw [hexclusive.count key]
  exact Bool.toNat_le _

/-- Two callers one after the other, and the peer is closed behind them. -/
theorem in_flight_exclusion_two :
    guardsHeld "peer" (flightProgram.machine.run
      ⟨{}, [.acquire "peer" [], .acquire "peer" [], .closePeer "peer"]⟩
      [0, 1, 0, 1, 0, 1, 1, 2]).2.threads ≤ 1 := by
  refine in_flight_exclusion ?_ (by decide +kernel) "peer"
  simp [FlightCall.IsStart]

/-- A guard is held, or a caller is on its way to one, while the peer is closed. The next caller
gets a guard of a new gate. -/
theorem two_guards_after_close :
    let calls : List FlightCall := [.acquire "peer" [], .acquire "peer" [], .closePeer "peer"]
    guardsHeld "peer" (flightProgram.machine.run ⟨{}, calls⟩ [0, 0, 2, 1, 1]).2.threads = 2 ∧
      guardsHeld "peer" (flightProgram.machine.run ⟨{}, calls⟩ [0, 2, 1, 1, 0]).2.threads = 2 := by
  decide +kernel

end Quic

end KyberPipe
