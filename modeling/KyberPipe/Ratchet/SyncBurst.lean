import KyberPipe.Lib.Window
import KyberPipe.Ratchet.SyncCalls

/-!
# The burst limit of Synchronize packets

At most three packets of a peer are applied in any 15 seconds. The stamps that the limiter keeps
are as recent as the packets they stand for, because a packet is applied before it is stamped; so
what the limiter counts at its check is at least what a window can hold.
-/

namespace KyberPipe

variable {K C : Type}

/-- How many more packets may be applied at a time. -/
def SyncGate.remaining (gate : SyncGate) (t : ℕ) : ℕ :=
  syncRateBurst - Window.recent syncRateWindow t gate.lastSyncAt

namespace SyncGate

variable {gate : SyncGate} {clock : SyncClock}

theorem asked_lastSyncAt (gate : SyncGate) (clock : SyncClock) :
    (gate.asked clock).lastSyncAt =
      gate.lastSyncAt.filter fun at_ => clock.check < at_ + syncRateWindow := by
  refine List.filter_congr fun at_ _ => decide_eq_decide.2 ?_
  have hpos : 0 < syncRateWindow := by decide
  show clock.check - at_ < syncRateWindow ↔ _
  omega

theorem recent_asked {t : ℕ} (ht : clock.check ≤ t) :
    Window.recent syncRateWindow t (gate.asked clock).lastSyncAt =
      Window.recent syncRateWindow t gate.lastSyncAt := by
  rw [asked_lastSyncAt, Window.recent_filter ht]

theorem length_asked :
    (gate.asked clock).lastSyncAt.length =
      Window.recent syncRateWindow clock.check gate.lastSyncAt := by
  rw [asked_lastSyncAt, Window.recent, List.countP_eq_length_filter]

theorem recent_succeeded {digest t : ℕ} (ht : clock.check ≤ t) :
    Window.recent syncRateWindow t (gate.succeeded digest clock).lastSyncAt =
      Window.recent syncRateWindow t gate.lastSyncAt +
        if t < clock.stamp + syncRateWindow then 1 else 0 := by
  show Window.recent syncRateWindow t ((gate.asked clock).lastSyncAt ++ [clock.stamp]) = _
  rw [Window.recent_concat, recent_asked ht]

end SyncGate

namespace RatchetRegistry

variable {P : Primitives K C} {ofBytes : Bytes → C} {r r' : RatchetRegistry K C} {peer q : String}
  {data : Bytes} {clock : SyncClock} {res : Except KyberError ℕ}

/-- A call that applies nothing new leaves the stamps as they are, up to those that have expired
at its check. -/
theorem SyncStep.recent_of_not_applied (h : SyncStep P ofBytes r peer data clock res r')
    (hidle : res.isOk = false ∨ r.answersFromCache ofBytes peer data clock = true) {t : ℕ}
    (ht : clock.check ≤ t) :
    Window.recent syncRateWindow t (r'.gate peer).lastSyncAt =
      Window.recent syncRateWindow t (r.gate peer).lastSyncAt := by
  cases h with
  | malformed hparse => rfl
  | cached hhit =>
    rw [gate_setGate_self]
    rfl
  | refused e => rw [gate_setGate_self, SyncGate.recent_asked ht]
  | failed hs happly =>
    show Window.recent _ t ((r.setGate peer _).gate peer).lastSyncAt = _
    rw [gate_setGate_self, SyncGate.recent_asked ht]
  | applied hparse hmiss hfew hs happly =>
    rcases hidle with hok | hhit
    · cases hok
    · rw [hmiss] at hhit
      cases hhit

end RatchetRegistry

namespace SyncProcess

open RatchetRegistry

variable {P : Primitives K C} {ofBytes : Bytes → C} {p : SyncProcess K C} {peer : String}
  {time : SyncClock → ℕ} {seen : List SyncClock}

/-- No window has too many of the applied packets, and from now on at least as many stamps as
applied packets are recent. -/
structure Paced (time : SyncClock → ℕ) (peer : String) (p : SyncProcess K C)
    (seen : List SyncClock) : Prop where
  sparse : Window.Sparse syncRateBurst syncRateWindow (seen.map time)
  stamped : ∀ t, p.now ≤ t → Window.recent syncRateWindow t (seen.map time) ≤
    Window.recent syncRateWindow t (p.registry.gate peer).lastSyncAt

/-- The packets of a peer are paced as long as the stamps of the peer do not lose a recent one. -/
theorem Paced.of_stamps (h : p.Paced time peer seen) {p' : SyncProcess K C} (hnow : p.now ≤ p'.now)
    (hstamps : ∀ t, p'.now ≤ t → Window.recent syncRateWindow t (p'.registry.gate peer).lastSyncAt =
        Window.recent syncRateWindow t (p.registry.gate peer).lastSyncAt) :
    p'.Paced time peer seen where
  sparse := h.sparse
  stamped t ht := (h.stamped t (hnow.trans ht)).trans_eq (hstamps t ht).symm

/-- A packet that passes the limiter keeps the pace. -/
theorem Paced.apply (h : p.Paced time peer seen) {clock : SyncClock}
    (htime : clock.check ≤ time clock ∧ time clock ≤ clock.stamp) (hnow : p.now ≤ clock.lookup)
    (hfew : ((p.registry.gate peer).asked clock).lastSyncAt.length < syncRateBurst)
    {r : RatchetRegistry K C} {digest : ℕ}
    (hgate : r.gate peer = (p.registry.gate peer).succeeded digest clock) :
    SyncProcess.Paced time peer ⟨r, clock.record⟩ (seen ++ [clock]) := by
  have hcheck : p.now ≤ clock.check := hnow.trans clock.lookup_le
  rw [SyncGate.length_asked] at hfew
  constructor
  · rw [List.map_append, List.map_singleton]
    exact h.sparse.concat ((h.stamped _ hcheck).trans_lt hfew) htime.1
  · intro t ht
    have hlater : clock.check ≤ t :=
      (clock.check_le.trans (clock.work_le.trans clock.stamp_le)).trans ht
    have hold := h.stamped t (hcheck.trans hlater)
    rw [hgate, SyncGate.recent_succeeded hlater, List.map_append, List.map_singleton,
      Window.recent_concat]
    -- a packet that is still recent was stamped even later
    have hnew : (if t < time clock + syncRateWindow then 1 else 0) ≤
        (if t < clock.stamp + syncRateWindow then 1 else 0) := by
      split_ifs <;> omega
    omega

theorem Paced.step (htime : ∀ c : SyncClock, c.check ≤ time c ∧ time c ≤ c.stamp)
    (h : p.Paced time peer seen) {event : SyncEvent K C} (horder : p.InOrder event) :
    Paced time peer ((machine P ofBytes).step p event).2
      (seen ++ (appliedCall peer event ((machine P ofBytes).step p event).1).toList) := by
  cases event with
  | update sessions =>
    show Paced time peer _ (seen ++ [])
    rw [List.append_nil]
    exact h.of_stamps le_rfl fun _ _ => rfl
  | call q data clock =>
    have hstep := ratchetProcessSynchronizeImpl_step P ofBytes p.registry q data clock
    have hnow : p.now ≤ clock.lookup := horder
    have hrecord : clock.check ≤ clock.record :=
      clock.check_le.trans (clock.work_le.trans clock.stamp_le)
    simp only [machine, appliedCall]
    generalize p.registry.ratchetProcessSynchronizeImpl P ofBytes q data clock = call at hstep
    have hlater : p.now ≤ clock.record := hnow.trans (clock.lookup_le.trans hrecord)
    by_cases hq : q = peer
    · subst hq
      by_cases hnew : call.1.isOk = true ∧ p.registry.answersFromCache ofBytes q data clock = false
      · rw [if_pos ⟨rfl, hnew⟩]
        obtain ⟨_, _, _, _, _, hfew, _, _, hgate⟩ := hstep.of_applied hnew.1 hnew.2
        exact h.apply (htime clock) hnow hfew hgate
      · rw [if_neg fun hall => hnew hall.2, Option.toList_none, List.append_nil]
        refine h.of_stamps hlater fun t ht => ?_
        refine hstep.recent_of_not_applied ?_ (hrecord.trans ht)
        by_cases hok : call.1.isOk = true
        · exact .inr (by simpa using fun hmiss => hnew ⟨hok, hmiss⟩)
        · exact .inl (by simpa using hok)
    · rw [if_neg fun hall => hq hall.1, Option.toList_none, List.append_nil]
      refine h.of_stamps hlater fun t _ => ?_
      rw [(hstep.frame (Ne.symm hq)).1]

end SyncProcess

open RatchetRegistry in
/-- At most three packets of a peer that are not in the cache are applied in any half-open 15
seconds, whatever moment between its check and its stamp counts as the application. A call that
fails or is answered from the cache leaves the budget as it is, and no call affects another peer. -/
theorem synchronize_burst_limit (P : Primitives K C) (ofBytes : Bytes → C) :
    (∀ (time : SyncClock → ℕ) (_ : ∀ c, c.check ≤ time c ∧ time c ≤ c.stamp)
        (p : SyncProcess K C) (events : List (SyncEvent K C))
        (_ : (SyncProcess.machine P ofBytes).Follows SyncProcess.InOrder p events)
        (peer : String) (start : ℕ), ((Machine.emitted (SyncProcess.appliedCall peer)
          ((SyncProcess.machine P ofBytes).run p events).1).map time).countP
        (fun t => start ≤ t ∧ t < start + 15 * nanosPerSec) ≤ 3) ∧
      (∀ (r : RatchetRegistry K C) (peer : String) (data : Bytes) (clock : SyncClock),
        (r.ratchetProcessSynchronizeImpl P ofBytes peer data clock).1.isOk = false ∨
          r.answersFromCache ofBytes peer data clock = true → ∀ t, clock.check ≤ t →
          ((r.ratchetProcessSynchronizeImpl P ofBytes peer data clock).2.gate peer).remaining t =
            (r.gate peer).remaining t) ∧
      ∀ (r : RatchetRegistry K C) (peer q : String) (data : Bytes) (clock : SyncClock), q ≠ peer →
        let r' := (r.ratchetProcessSynchronizeImpl P ofBytes peer data clock).2
        r'.gate q = r.gate q ∧ r'.sessions.lookup q = r.sessions.lookup q ∧
          ∀ data' clock', (r'.ratchetProcessSynchronizeImpl P ofBytes q data' clock').1 =
            (r.ratchetProcessSynchronizeImpl P ofBytes q data' clock').1 := by
  refine ⟨?_, ?_, ?_⟩
  · intro time htime p events horder peer start
    have hstart : p.Paced time peer [] :=
      ⟨Window.sparse_nil _ _, fun t _ => by simp⟩
    have hpaced := Machine.run_emitted_of_follows (SyncProcess.Paced time peer)
      (fun p event seen h hin => h.step htime hin) hstart horder
    exact hpaced.sparse start
  · intro r peer data clock hidle t ht
    have hstep := ratchetProcessSynchronizeImpl_step P ofBytes r peer data clock
    rw [SyncGate.remaining, SyncGate.remaining, hstep.recent_of_not_applied hidle ht]
  · intro r peer q data clock hq
    obtain ⟨hgate, hsession⟩ :=
      (ratchetProcessSynchronizeImpl_step P ofBytes r peer data clock).frame hq
    exact ⟨hgate, hsession, fun _ _ => ratchetProcessSynchronizeImpl_fst_congr hgate hsession⟩

section Symbolic

open Symbolic

/-- Four packets within four seconds. -/
def fourPackets : List (SyncEvent Key Ciphertext) :=
  (List.range 4).map fun i => .call "phone" (syncBytes i) (.at ⟨i * nanosPerSec, 0⟩)

/-- Three of them are applied, and the limit holds in every window. -/
theorem synchronize_burst_limit_fourPackets :
    (Machine.emitted (SyncProcess.appliedCall "phone")
        ((SyncProcess.machine primitives ofWire).run ⟨pairedRegistry, 0⟩ fourPackets).1).length =
      3 ∧
      ∀ start, ((Machine.emitted (SyncProcess.appliedCall "phone")
          ((SyncProcess.machine primitives ofWire).run ⟨pairedRegistry, 0⟩ fourPackets).1).map
            SyncClock.stamp).countP
        (fun t => start ≤ t ∧ t < start + 15 * nanosPerSec) ≤ 3 := by
  refine ⟨by decide +kernel, fun start => ?_⟩
  exact (synchronize_burst_limit primitives ofWire).1 SyncClock.stamp
    (fun c => ⟨c.check_le.trans c.work_le, le_rfl⟩) ⟨pairedRegistry, 0⟩ fourPackets
    (by decide +kernel) "phone" start

end Symbolic

end KyberPipe
