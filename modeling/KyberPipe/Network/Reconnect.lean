import KyberPipe.Lib.Interleaving
import KyberPipe.Network.QuicFrame

/-!
# Reconnecting to a peer

`get_or_reconnect_for` of `quic_bridge.rs` for one registered peer. Calls are threads, and each time
they hold a lock is one turn. The slot of the peer says whether a reconnect is running or done; the
connection is published in another section, after the slot was set to `Done`. `Done` stays until
some call looks at the slot, and the first one that does resets it.
-/

namespace KyberPipe.Quic.Reconnect

open Machine

/-- `ReconnectState` -/
inductive SlotState where
  | idle
  | reconnecting
  | done
  deriving DecidableEq

/-- `RECONNECT_BACKOFF`, in milliseconds. -/
def reconnectBackoff : ℕ := 1000

/-- A call of `get_or_reconnect_for`, before its next turn. -/
inductive Point where
  /-- At the quick check of the map. -/
  | check
  /-- Before the first look at the slot. -/
  | look
  /-- Waiting for the condition variable. -/
  | waiting
  /-- With the slot claimed, while the worker connects. -/
  | connecting
  /-- Past `notify_all`. -/
  | publishing (result : Except NetworkError ℕ)
  | returned (result : Except NetworkError ℕ)
  deriving DecidableEq

/-- The map entry and the slot of a peer, and the calls made so far. -/
structure Peer where
  /-- `mc.conn` -/
  conn : Option ℕ := none
  /-- The connections with a close reason. -/
  closed : List ℕ := []
  state : SlotState := .idle
  lastAttempt : ℕ
  calls : List Point := []

inductive Event where
  | call
  | close (conn : ℕ)
  /-- A turn of a call, with the clock, whether its wait timed out, and what its worker reports. -/
  | turn (i now : ℕ) (timedOut : Bool) (result : Except NetworkError ℕ)

/-- What a turn does to the slot. -/
inductive SlotEvent where
  | started
  | finished
  | reset
  deriving DecidableEq

namespace Peer

/-- The connection of the entry, if it has no close reason. -/
def live (s : Peer) : Option ℕ := s.conn.filter (· ∉ s.closed)

/-- A look at the slot, from the head of the waiting loop on. -/
def lookAtSlot (s : Peer) (now : ℕ) : Option SlotEvent × Peer × Point :=
  match s.state with
  | .reconnecting => (none, s, .waiting)
  | .done =>
    (some .reset, { s with state := .idle }, .returned (s.live.elim
      (.error ⟨"QUIC reconnect completed but connection unavailable"⟩) .ok))
  | .idle =>
    if now < s.lastAttempt + reconnectBackoff then
      (none, s, .returned (.error ⟨"QUIC reconnect rate-limited (backoff)"⟩))
    else (some .started, { s with state := .reconnecting, lastAttempt := now }, .connecting)

/-- A turn of a call. -/
def turn (s : Peer) (now : ℕ) (timedOut : Bool) (result : Except NetworkError ℕ) :
    Point → Option SlotEvent × Peer × Point
  | .check => (none, s, s.live.elim .look (.returned <| .ok ·))
  | .look => s.lookAtSlot now
  | .waiting =>
    if timedOut then
      (none, s, .returned (.error ⟨"QUIC reconnect in progress — timed out waiting"⟩))
    else s.lookAtSlot now
  | .connecting => (some .finished, { s with state := .done }, .publishing result)
  | .publishing (.ok conn) => (none, { s with conn := some conn }, .returned (.ok conn))
  | .publishing (.error e) => (none, s, .returned (.error e))
  | .returned r => (none, s, .returned r)

end Peer

/-- The calls on one peer, in any interleaving. -/
def machine : Machine Peer Event (Option SlotEvent) where
  step s
    | .call => (none, { s with calls := s.calls ++ [.check] })
    | .close conn => (none, { s with closed := conn :: s.closed })
    | .turn i now timedOut result =>
      match s.calls[i]? with
      | none => (none, s)
      | some point =>
        let r := s.turn now timedOut result point
        (r.1, { r.2.1 with calls := s.calls.set i r.2.2 })

variable {s : Peer} {i now : ℕ} {timedOut : Bool} {result : Except NetworkError ℕ} {point : Point}

theorem step_turn (h : s.calls[i]? = some point) :
    machine.step s (.turn i now timedOut result) =
      ((s.turn now timedOut result point).1,
        { (s.turn now timedOut result point).2.1 with
          calls := s.calls.set i (s.turn now timedOut result point).2.2 }) := by
  simp [machine, h]

/-! ## The state of the slot -/

/-- The state that an event leaves the slot in. -/
def SlotEvent.state : SlotEvent → SlotState
  | .started => .reconnecting
  | .finished => .done
  | .reset => .idle

/-- The last thing that happened to the slot in a run. -/
def lastSlotEvent (s : Peer) (events : List Event) : Option SlotEvent :=
  ((machine.run s events).1.filterMap (·.2)).getLast?

theorem Peer.state_lookAtSlot (s : Peer) (now : ℕ) :
    (s.lookAtSlot now).2.1.state = (s.lookAtSlot now).1.elim s.state SlotEvent.state := by
  unfold Peer.lookAtSlot
  split
  · simp [*]
  · rfl
  · split_ifs
    · simp [*]
    · rfl

theorem state_step (s : Peer) (e : Event) :
    (machine.step s e).2.state = (machine.step s e).1.elim s.state SlotEvent.state := by
  cases e with
  | call => rfl
  | close conn => rfl
  | turn i now timedOut result =>
    cases hi : s.calls[i]? with
    | none => simp [machine, hi]
    | some point =>
      rw [step_turn hi]
      cases point with
      | check => rfl
      | look => exact s.state_lookAtSlot now
      | waiting =>
        dsimp only [Peer.turn]
        split_ifs
        · rfl
        · exact s.state_lookAtSlot now
      | connecting => rfl
      | publishing r => cases r <;> rfl
      | returned r => rfl

/-- The slot is as its last event has left it. -/
theorem state_run (s : Peer) (events : List Event) :
    (machine.run s events).2.state = (lastSlotEvent s events).elim s.state SlotEvent.state := by
  induction events generalizing s with
  | nil => rfl
  | cons e events ih =>
    rw [run_cons_snd, ih, state_step]
    unfold lastSlotEvent
    rw [run_cons_fst]
    cases hstep : (machine.step s e).1 with
    | none => rfl
    | some slotEvent =>
      simp only [List.filterMap_cons, List.getLast?_cons, Option.elim_some]
      cases ((machine.run (machine.step s e).2 events).1.filterMap (·.2)).getLast? <;> rfl

/-- In every history from an idle slot, a call that finds no live connection, no running reconnect
and no attempt in the last second starts a reconnect if and only if the last event of the slot was
not the end of a reconnect. Otherwise it returns an error. -/
theorem reconnect_attempted_iff (lastAttempt : ℕ) (conn : Option ℕ) {events : List Event}
    {p : Peer} (hp : p = (machine.run { lastAttempt, conn } events).2)
    (hi : p.calls[i]? = some .look) (hlive : p.live = none) (hrunning : p.state ≠ .reconnecting)
    (hbackoff : p.lastAttempt + reconnectBackoff ≤ now) :
    ((machine.step p (.turn i now timedOut result)).2.calls[i]? = some .connecting ↔
      lastSlotEvent { lastAttempt, conn } events ≠ some .finished) ∧
    (lastSlotEvent { lastAttempt, conn } events = some .finished →
      (machine.step p (.turn i now timedOut result)).2.calls[i]? =
        some (.returned (.error ⟨"QUIC reconnect completed but connection unavailable"⟩))) := by
  have hlt : i < p.calls.length := (List.getElem?_eq_some_iff.1 hi).1
  have hstate := state_run { lastAttempt, conn } events
  rw [← hp] at hstate
  rw [step_turn hi]
  simp only [Peer.turn, List.getElem?_set_self hlt, Option.some.injEq]
  cases hlast : lastSlotEvent { lastAttempt, conn } events with
  | none =>
    rw [hlast] at hstate
    simp [Peer.lookAtSlot, show p.state = .idle from hstate, Nat.not_lt.2 hbackoff]
  | some e =>
    rw [hlast] at hstate
    cases e with
    | started => exact absurd hstate hrunning
    | finished => simp [Peer.lookAtSlot, show p.state = .done from hstate, hlive]
    | reset => simp [Peer.lookAtSlot, show p.state = .idle from hstate, Nat.not_lt.2 hbackoff]

/-- The first call on a peer. -/
theorem reconnect_attempted_iff_of_first_call :
    (machine.step (machine.run { lastAttempt := 0 } [.call, .turn 0 0 false (.ok 0)]).2
      (.turn 0 60000 false (.ok 0))).2.calls[0]? = some .connecting :=
  (reconnect_attempted_iff 0 none rfl rfl rfl (by decide) (by decide)).1.2 (by decide)

/-- A reconnect succeeds and no other call looks at the slot. A minute later the connection is
closed, and the next call fails without trying. -/
theorem reconnect_not_attempted_after_done :
    let events : List Event :=
      [.call, .turn 0 0 false (.ok 7), .turn 0 60000 false (.ok 7), .turn 0 60100 false (.ok 7),
        .turn 0 60100 false (.ok 7), .close 7, .call, .turn 1 120000 false (.ok 8)]
    let p := (machine.run { lastAttempt := 0 } events).2
    p.calls[1]? = some .look ∧ p.live = none ∧ p.state ≠ .reconnecting ∧
      p.lastAttempt + reconnectBackoff ≤ 120000 ∧
      (machine.step p (.turn 1 120000 false (.ok 8))).2.calls[1]? =
        some (.returned (.error ⟨"QUIC reconnect completed but connection unavailable"⟩)) := by
  decide

/-! ## Waiters -/

def Point.publishes : Point → Bool
  | .publishing _ => true
  | _ => false

/-- The call is going to look at the slot, or waits for it. -/
def Point.atSlot : Point → Bool
  | .look | .waiting => true
  | _ => false

/-- A call takes no turn at the map or the slot between the `Done` of a reconnect and its
publication, and does not finish a reconnect while more than one call is at the slot. -/
def Point.MayTurn (calls : List Point) : Point → Prop
  | .check | .look | .waiting => ∀ p ∈ calls, p.publishes = false
  | .connecting => calls.countP (·.atSlot) ≤ 1
  | .publishing _ | .returned _ => True

instance (calls : List Point) : ∀ p : Point, Decidable (p.MayTurn calls)
  | .check | .look | .waiting => inferInstanceAs (Decidable (∀ p ∈ calls, p.publishes = false))
  | .connecting => inferInstanceAs (Decidable (_ ≤ _))
  | .publishing _ | .returned _ => .isTrue trivial

/-- Calls take turns only when they may. -/
def Orderly (s : Peer) : Event → Prop
  | .turn i _ _ _ => ∀ p ∈ s.calls[i]?, p.MayTurn s.calls
  | _ => True

instance (s : Peer) : ∀ e, Decidable (Orderly s e)
  | .turn i _ _ _ => inferInstanceAs (Decidable (∀ p ∈ s.calls[i]?, p.MayTurn s.calls))
  | .call | .close _ => .isTrue trivial

/-- The worker of the call reports `conn`, and `conn` is not closed. -/
def Succeeds (conn : ℕ) : Event → Prop
  | .turn _ _ _ result => result = .ok conn
  | .close c => c ≠ conn
  | .call => True

/-- The call has no timeout in this event. -/
def NoTimeout (i : ℕ) : Event → Prop
  | .turn j _ timedOut _ => j = i → timedOut = false
  | _ => True

/-- A waiter and the reconnect that it waits for: the reconnect is running; or it is done, nobody
else is at the slot, and its connection is published or about to be. -/
structure Awaits (conn i : ℕ) (s : Peer) : Prop where
  waiting : s.calls[i]? = some .waiting
  unclosed : conn ∉ s.closed
  results : ∀ r, .publishing r ∈ s.calls → r = .ok conn
  slot : s.state = .reconnecting ∨ s.state = .done ∧ s.calls.countP (·.atSlot) ≤ 1 ∧
    ((∃ p ∈ s.calls, p.publishes = true) ∨ s.conn = some conn)

section Waiter

variable {conn j : ℕ} {point' : Point}

theorem countP_atSlot_set (hj : s.calls[j]? = some point)
    (h : point'.atSlot = true → point.atSlot = true) :
    (s.calls.set j point').countP (·.atSlot) ≤ s.calls.countP (·.atSlot) := by
  have hcount := Pool.countAt_set_add Point.atSlot true point' hj
  simp only [Pool.countAt, beq_true] at hcount
  have hle := Bool.toNat_le_toNat (Bool.le_iff_imp.2 h)
  omega

/-- Two calls at the slot are counted twice. -/
theorem eq_of_countP_atSlot_le (hi : s.calls[i]? = some .waiting) (hj : s.calls[j]? = some point)
    (hpoint : point.atSlot = true) (h : s.calls.countP (·.atSlot) ≤ 1) : j = i := by
  by_contra hne
  have hcount := Pool.countAt_set_add Point.atSlot true .check hi
  simp only [Pool.countAt, beq_true] at hcount
  have hother : (s.calls.set i .check)[j]? = some point :=
    (List.getElem?_set_ne (Ne.symm hne)).trans hj
  have hpos : 0 < (s.calls.set i .check).countP (·.atSlot) :=
    List.countP_pos_iff.2 ⟨point, List.mem_of_getElem? hother, hpoint⟩
  rw [show Point.waiting.atSlot = true from rfl, show Point.check.atSlot = false from rfl,
    Bool.toNat_true, Bool.toNat_false] at hcount
  omega

theorem Peer.lookAtSlot_reconnecting (h : s.state = .reconnecting) (now : ℕ) :
    s.lookAtSlot now = (none, s, .waiting) := by
  rw [Peer.lookAtSlot, h]

section

variable (h : Awaits conn i s)
include h

/-- While nobody publishes, a reconnect that is done has left its connection. -/
theorem Awaits.live (hdone : s.state = .done) (hnone : ∀ p ∈ s.calls, p.publishes = false) :
    s.live = some conn := by
  obtain hrunning | ⟨-, -, ⟨p, hp, hpublishes⟩ | hconn⟩ := h.slot
  · exact absurd (hdone.symm.trans hrunning) (by decide)
  · exact absurd ((hnone p hp).symm.trans hpublishes) (by decide)
  · simp [Peer.live, hconn, h.unclosed]

/-- A turn of another call that publishes nothing and leaves the slot as it is. -/
theorem Awaits.set (hj : s.calls[j]? = some point) (hne : j ≠ i) (hold : point.publishes = false)
    (hnew : point'.publishes = false)
    (hslot : s.state = .done → point'.atSlot = true → point.atSlot = true) :
    Awaits conn i { s with calls := s.calls.set j point' } where
  waiting := (List.getElem?_set_ne hne).trans h.waiting
  unclosed := h.unclosed
  results r hr := by
    rcases List.mem_or_eq_of_mem_set hr with hr | rfl
    · exact h.results r hr
    · cases hnew
  slot := by
    refine h.slot.imp_right fun ⟨hdone, hcount, hpublished⟩ =>
      ⟨hdone, (countP_atSlot_set hj (hslot hdone)).trans hcount, hpublished.imp_left ?_⟩
    rintro ⟨p, hp, hpublishes⟩
    obtain ⟨k, hk⟩ := List.mem_iff_getElem?.1 hp
    have hkj : j ≠ k := by
      rintro rfl
      rw [Option.some.inj (hk.symm.trans hj), hold] at hpublishes
      cases hpublishes
    exact ⟨p, List.mem_of_getElem? ((List.getElem?_set_ne hkj).trans hk), hpublishes⟩

/-- Another call looks at the slot only while the reconnect is running, and waits too. -/
theorem Awaits.look (hj : s.calls[j]? = some point) (hne : j ≠ i) (hpoint : point.atSlot = true)
    (hold : point.publishes = false) (now : ℕ) :
    Awaits conn i
      { (s.lookAtSlot now).2.1 with calls := s.calls.set j (s.lookAtSlot now).2.2 } := by
  obtain hrunning | ⟨-, hcount, -⟩ := h.slot
  · rw [Peer.lookAtSlot_reconnecting hrunning]
    have hnew : Point.waiting.publishes = false := rfl
    exact h.set hj hne hold hnew fun _ _ => hpoint
  · exact absurd (eq_of_countP_atSlot_le h.waiting hj hpoint hcount) hne

/-- A turn of another call keeps the waiter and its reconnect together. -/
theorem Awaits.turn (hne : j ≠ i) (horderly : Orderly s (.turn j now timedOut (.ok conn))) :
    Awaits conn i (machine.step s (.turn j now timedOut (.ok conn))).2 := by
  cases hj : s.calls[j]? with
  | none => simpa [machine, hj] using h
  | some point =>
    rw [step_turn hj]
    have hmay := horderly _ hj
    cases point with
    | check =>
      refine h.set hj hne rfl ?_ fun hdone => ?_
      · dsimp only [Peer.turn]
        cases s.live <;> rfl
      · -- the connection is published, so the quick check finds it
        dsimp only [Peer.turn]
        rw [h.live hdone hmay]
        exact id
    | look => exact h.look hj hne rfl rfl now
    | waiting =>
      cases timedOut with
      | false => exact h.look hj hne rfl rfl now
      | true => exact h.set hj hne rfl rfl nofun
    | connecting =>
      have hlt := (List.getElem?_eq_some_iff.1 hj).1
      have hcount : (s.calls.set j (.publishing (.ok conn))).countP (·.atSlot) ≤ _ :=
        countP_atSlot_set hj (by simp [Point.atSlot])
      exact
        { waiting := (List.getElem?_set_ne hne).trans h.waiting
          unclosed := h.unclosed
          results := fun r hr => by
            rcases List.mem_or_eq_of_mem_set hr with hr | hr
            · exact h.results r hr
            · exact (Point.publishing.inj hr)
          slot := .inr ⟨rfl, hcount.trans hmay,
            .inl ⟨_, List.mem_set hlt _, rfl⟩⟩ }
    | publishing r =>
      obtain rfl := h.results r (List.mem_of_getElem? hj)
      have hless : (s.calls.set j (.returned (.ok conn))).countP (·.atSlot) ≤ _ :=
        countP_atSlot_set hj (by simp [Point.atSlot])
      exact
        { waiting := (List.getElem?_set_ne hne).trans h.waiting
          unclosed := h.unclosed
          results := fun r hr =>
            h.results r ((List.mem_or_eq_of_mem_set hr).resolve_right nofun)
          slot := h.slot.imp_right fun ⟨hdone, hcount, _⟩ =>
            ⟨hdone, hless.trans hcount, .inr rfl⟩ }
    | returned r => exact h.set hj hne rfl rfl fun _ => id

/-- A waiter that looks goes on waiting or returns the connection. -/
theorem Awaits.own_turn (horderly : Orderly s (.turn i now false (.ok conn))) :
    Awaits conn i (machine.step s (.turn i now false (.ok conn))).2 ∨
      (machine.step s (.turn i now false (.ok conn))).2.calls[i]? =
        some (.returned (.ok conn)) := by
  obtain ⟨hlt, hpoint⟩ := List.getElem?_eq_some_iff.1 h.waiting
  rw [step_turn h.waiting]
  simp only [Peer.turn, Bool.false_eq_true, if_false]
  obtain hrunning | ⟨hdone, -⟩ := h.slot
  · left
    rw [Peer.lookAtSlot_reconnecting hrunning, ← hpoint, List.set_getElem_self]
    exact h
  · right
    simp [Peer.lookAtSlot, hdone, h.live hdone (horderly _ h.waiting), hlt]

theorem Awaits.step {e : Event} (hsucceeds : Succeeds conn e) (horderly : Orderly s e)
    (hno : NoTimeout i e) :
    Awaits conn i (machine.step s e).2 ∨
      (machine.step s e).2.calls[i]? = some (.returned (.ok conn)) := by
  cases e with
  | call =>
    have hlt := (List.getElem?_eq_some_iff.1 h.waiting).1
    refine .inl ⟨(List.getElem?_append_left hlt).trans h.waiting, h.unclosed, fun r hr => ?_, ?_⟩
    · exact h.results r (by simpa [machine] using hr)
    · simpa [machine, Point.atSlot, Point.publishes] using h.slot
  | close c => exact .inl ⟨h.waiting, by simpa [machine, hsucceeds.symm] using h.unclosed,
      h.results, h.slot⟩
  | turn j now timedOut result =>
    obtain rfl : result = .ok conn := hsucceeds
    by_cases hj : j = i
    · subst hj
      obtain rfl : timedOut = false := hno rfl
      exact h.own_turn horderly
    · exact .inl (h.turn hj horderly)

end

end Waiter

def Point.connects : Point → Bool
  | .connecting => true
  | _ => false

/-- One call connects while the slot is reconnecting, and none otherwise. -/
def Peer.SingleFlight (s : Peer) : Prop :=
  s.calls.countP (·.connects) = (s.state == .reconnecting).toNat

theorem Peer.SingleFlight.set (h : s.SingleFlight) (hi : s.calls[i]? = some point) {t : Peer}
    {point' : Point} (hturn : point.connects.toNat + (t.state == .reconnecting).toNat =
      (s.state == .reconnecting).toNat + point'.connects.toNat) :
    SingleFlight { t with calls := s.calls.set i point' } := by
  have hcount := Pool.countAt_set_add Point.connects true point' hi
  simp only [Pool.countAt, beq_true] at hcount
  unfold SingleFlight at h ⊢
  dsimp only
  omega

theorem Peer.SingleFlight.lookAtSlot (h : s.SingleFlight) (hi : s.calls[i]? = some point)
    (hpoint : point.connects = false) (now : ℕ) :
    SingleFlight { (s.lookAtSlot now).2.1 with calls := s.calls.set i (s.lookAtSlot now).2.2 } := by
  refine h.set hi ?_
  rw [hpoint]
  unfold Peer.lookAtSlot
  cases hstate : s.state with
  | reconnecting => simp only [hstate]; rfl
  | done => rfl
  | idle =>
    dsimp only
    split_ifs
    · simp only [hstate]; rfl
    · rfl

theorem Peer.SingleFlight.step (h : s.SingleFlight) (e : Event) :
    (machine.step s e).2.SingleFlight := by
  cases e with
  | call => simpa [machine, SingleFlight, Point.connects] using h
  | close conn => exact h
  | turn i now timedOut result =>
    cases hi : s.calls[i]? with
    | none => simpa [machine, hi] using h
    | some point =>
      rw [step_turn hi]
      cases point with
      | check =>
        refine h.set hi ?_
        cases hlive : s.live <;> simp [Peer.turn, hlive, Point.connects]
      | look => exact h.lookAtSlot hi rfl now
      | waiting =>
        cases timedOut with
        | false => exact h.lookAtSlot hi rfl now
        | true => exact h.set hi (Nat.add_comm _ _)
      | connecting =>
        refine h.set hi ?_
        -- the slot is reconnecting, because this call is
        have hpos : 0 < s.calls.countP (·.connects) :=
          List.countP_pos_iff.2 ⟨_, List.mem_of_getElem? hi, rfl⟩
        rw [h] at hpos
        cases hstate : s.state with
        | reconnecting => rfl
        | _ => rw [hstate] at hpos; exact absurd hpos (by decide)
      | publishing r => cases r <;> exact h.set hi (Nat.add_comm _ _)
      | returned r => exact h.set hi (Nat.add_comm _ _)

/-- In every history of calls from an idle slot, the slot is reconnecting just while one call runs
a reconnect: no two reconnects run at a time, and none leaves the slot claimed. -/
theorem reconnects_one_at_a_time (lastAttempt : ℕ) (conn : Option ℕ) (events : List Event) :
    let p : Peer := (machine.run { lastAttempt, conn } events).2
    p.calls.countP (·.connects) = if p.state = .reconnecting then 1 else 0 := by
  intro p
  have h : p.SingleFlight := run_invariant _ (fun _ e h => h.step e)
    (show ({ lastAttempt, conn } : Peer).SingleFlight from rfl) events
  rw [h]
  cases p.state <;> rfl

end KyberPipe.Quic.Reconnect
