import KyberPipe.Lib.Machine
import KyberPipe.Lib.Window
import KyberPipe.Pairing.Policy

/-!
# Admissions of pairing requests in a sliding window

The counter of an address runs over a window that starts with its first request. It is thrown away
when that window is over, when the window of the process is over, and when a crowded table is
cleared up, however recent the last admission is. Every 60 seconds hold at most ten admissions of an
address if its counter is thrown away only after a minute without admissions.
-/

namespace KyberPipe

namespace RateLimiterState

variable {g : RateLimiterState} {now : ℕ} {ip q : String}

/-- The length of a window in nanoseconds. -/
def windowNanos : ℕ := pairingWindowSecs * nanosPerSec

/-! ## One call -/

/-- What a call can do to the entry of an address, and whether it admits the address. Only an entry
with `ends` is thrown away or starts anew. -/
inductive EntryStep (now : ℕ) (ends : RateEntry → Prop) :
    Option RateEntry → Bool → Option RateEntry → Prop
  | kept (entry : Option RateEntry) : EntryStep now ends entry false entry
  | forgotten (e : RateEntry) (hends : ends e) : EntryStep now ends (some e) false none
  | reset (e : RateEntry) (hends : ends e) :
      EntryStep now ends (some e) false (some { e with attempts := 0, windowStart := now })
  | first : EntryStep now ends none true (some ⟨now, 1, now⟩)
  | again (e : RateEntry) (hroom : e.attempts < pairingPerIpMax) :
      EntryStep now ends (some e) true
        (some { e with lastAttempt := now, attempts := e.attempts + 1 })
  | renewed (e : RateEntry) (hends : ends e) :
      EntryStep now ends (some e) true (some ⟨now, 1, now⟩)

variable {ends : RateEntry → Prop}

/-- A call that finds the entry thrown away does the rest as for an address without an entry. -/
theorem EntryStep.of_cleared {entry cleared entry' : Option RateEntry} {admitted : Bool}
    (hcleared : cleared = entry ∨ cleared = none ∧ ∀ e ∈ entry, ends e)
    (h : EntryStep now ends cleared admitted entry') :
    EntryStep now ends entry admitted entry' := by
  rcases hcleared with rfl | ⟨rfl, hends⟩
  · exact h
  · cases entry with
    | none => exact h
    | some e =>
      cases h with
      | kept => exact .forgotten e (hends e rfl)
      | first => exact .renewed e (hends e rfl)

/-- The table of addresses: entries end by the clean-up of a crowded table and by the window of the
calling address. -/
theorem entryStep_checkPerIp (g : RateLimiterState) (now : ℕ) (ip q : String)
    (hcrowded : 1000 < g.perIp.size → ∀ e, pairingWindowSecs ≤ secsSince now e.lastAttempt → ends e)
    (hown : ip = q → ∀ e, pairingWindowSecs ≤ secsSince now e.windowStart → ends e) :
    EntryStep now ends (g.perIp.lookup q) ((g.checkPerIp now ip).1 && decide (ip = q))
      ((g.checkPerIp now ip).2.perIp.lookup q) := by
  unfold checkPerIp
  dsimp only
  -- a crowded table loses the entries whose window is over, before the call looks at any
  generalize hperIp : (if 1000 < g.perIp.size then _ else g.perIp) = perIp
  have hcleared : perIp.lookup q = g.perIp.lookup q ∨
      perIp.lookup q = none ∧ ∀ e ∈ g.perIp.lookup q, ends e := by
    rw [← hperIp]
    split_ifs with hsize
    · rw [AList.lookup_retain]
      cases hentry : g.perIp.lookup q with
      | none => exact .inl rfl
      | some e =>
        by_cases hidle : secsSince now e.lastAttempt < pairingWindowSecs
        · exact .inl (by simp [hidle])
        · refine .inr ⟨by simp [hidle], ?_⟩
          rintro _ ⟨⟩
          exact hcrowded hsize e (Nat.le_of_not_lt hidle)
    · exact .inl rfl
  refine EntryStep.of_cleared hcleared ?_
  by_cases hq : ip = q
  · subst hq
    cases hentry : perIp.lookup ip with
    | none =>
      have hnew : ip ∉ perIp := AList.lookup_eq_none.1 hentry
      simp [hnew, secsSince, pairingWindowSecs, pairingPerIpMax, EntryStep.first]
    | some e =>
      have hknown : ip ∈ perIp := AList.lookup_isSome.1 (hentry ▸ rfl)
      by_cases hover : pairingWindowSecs ≤ secsSince now e.windowStart
      · -- the window of the address is over: its counter starts again even if the call is refused
        have hends := hown rfl e hover
        have hreset : EntryStep now ends _ _ _ := .reset e hends
        simp only [Option.getD_some, if_pos hover, hknown]
        split_ifs
        · simpa using hreset
        · simpa using hreset
        · simpa using EntryStep.renewed e hends
      · simp only [Option.getD_some, if_neg hover, hknown]
        split_ifs with hcool hspent
        · simpa using EntryStep.kept (some e)
        · simpa using EntryStep.kept (some e)
        · simpa using EntryStep.again e (Nat.lt_of_not_le hspent)
  · have hother : ∀ entry, (perIp.insert ip entry).lookup q = perIp.lookup q := fun entry =>
      AList.lookup_insert_ne (Ne.symm hq)
    split_ifs <;> simpa [hq, hother] using EntryStep.kept _

theorem floor_checkPerIp (g : RateLimiterState) (now : ℕ) (ip : String) :
    (g.checkPerIp now ip).2.floor = g.floor := by
  unfold checkPerIp
  dsimp only
  split_ifs <;> rfl

/-- By the state before it, the call throws away the entry `e` of an address or starts it anew: the
window of the process is over; or the call gets as far as the addresses, and the table is crowded
and the address idle for a window, or the address itself calls and its own window is over. A call
within 200 ms of the one before gets nowhere. -/
def EndsWindow (g : RateLimiterState) (call : ℕ × Option String) (q : String) (e : RateEntry) :
    Prop :=
  200 ≤ (call.1 - g.floor) / 1000000 ∧
    (pairingWindowSecs ≤ secsSince call.1 g.windowStart ∨ g.globalAttempts < pairingGlobalMax ∧
        (1000 < g.perIp.size ∧ call.2.isSome ∧ pairingWindowSecs ≤ secsSince call.1 e.lastAttempt ∨
          call.2 = some q ∧ pairingWindowSecs ≤ secsSince call.1 e.windowStart))

instance (g : RateLimiterState) (call : ℕ × Option String) (q : String) (e : RateEntry) :
    Decidable (g.EndsWindow call q e) :=
  inferInstanceAs (Decidable (_ ∧ _))

/-- A call stops at the floor, or it moves the floor to its time. -/
theorem entryStep_checkPairingRateLimit (g : RateLimiterState) (now : ℕ)
    (peerIp : Option String) (q : String) :
    g.checkPairingRateLimit now peerIp = (false, g) ∨
      g.floor < now ∧ (g.checkPairingRateLimit now peerIp).2.floor = now ∧
        EntryStep now (g.EndsWindow (now, peerIp) q) (g.perIp.lookup q)
          ((g.checkPairingRateLimit now peerIp).1 && decide (peerIp = some q))
          ((g.checkPairingRateLimit now peerIp).2.perIp.lookup q) := by
  unfold checkPairingRateLimit
  by_cases hfloor : (now - g.floor) / 1000000 < 200
  · exact .inl (if_pos hfloor)
  · rw [if_neg hfloor]
    refine .inr ⟨by omega, ?_⟩
    have hlate : 200 ≤ (now - g.floor) / 1000000 := Nat.le_of_not_lt hfloor
    dsimp only
    by_cases hover : pairingWindowSecs ≤ secsSince now g.windowStart
    · -- the end of the window of the process throws all entries away
      have hends : ∀ e, g.EndsWindow (now, peerIp) q e := fun e => ⟨hlate, .inl hover⟩
      have hrenewed : renewWindow { g with floor := now } now =
          { floor := now, windowStart := now } := by
        rw [renewWindow, if_pos hover]
      have hfresh : ¬pairingGlobalMax ≤ 0 := by decide
      rw [hrenewed, if_neg hfresh]
      cases peerIp with
      | none => exact ⟨rfl, .of_cleared (.inr ⟨rfl, fun e _ => hends e⟩) (.kept _)⟩
      | some ip =>
        refine ⟨floor_checkPerIp _ now ip, .of_cleared (.inr ⟨rfl, fun e _ => hends e⟩) ?_⟩
        simpa using entryStep_checkPerIp { floor := now, globalAttempts := 1, windowStart := now }
          now ip q (fun _ e _ => hends e) fun _ e _ => hends e
    · have hrenewed : renewWindow { g with floor := now } now = { g with floor := now } := by
        rw [renewWindow, if_neg hover]
      rw [hrenewed]
      by_cases hspent : pairingGlobalMax ≤ g.globalAttempts
      · rw [if_pos hspent]
        exact ⟨rfl, .kept _⟩
      · rw [if_neg hspent]
        have hroom : g.globalAttempts < pairingGlobalMax := Nat.lt_of_not_le hspent
        cases peerIp with
        | none => exact ⟨rfl, .kept _⟩
        | some ip =>
          refine ⟨floor_checkPerIp _ now ip, ?_⟩
          simpa using entryStep_checkPerIp
            { g with floor := now, globalAttempts := g.globalAttempts + 1 } now ip q
            (fun hsize e hidle => ⟨hlate, .inr ⟨hroom, .inl ⟨hsize, rfl, hidle⟩⟩⟩)
            fun hq e hown => ⟨hlate, .inr ⟨hroom, .inr ⟨congrArg some hq, hown⟩⟩⟩

/-! ## Runs of calls -/

/-- The limiter receives calls at some times from some addresses. -/
def machine : Machine RateLimiterState (ℕ × Option String) Bool where
  step g call := g.checkPairingRateLimit call.1 call.2

/-- The limiter of a process. -/
def initial (floor windowStart : ℕ) : RateLimiterState := { floor, windowStart }

/-- The time of the call, if it is one of the address and was admitted. -/
def admission (q : String) (call : ℕ × Option String) (admitted : Bool) : Option ℕ :=
  if admitted && decide (call.2 = some q) then some call.1 else none

theorem toList_admission (q : String) (call : ℕ × Option String) (admitted : Bool) :
    (admission q call admitted).toList =
      if admitted && decide (call.2 = some q) then [call.1] else [] := by
  unfold admission
  split_ifs <;> rfl

/-- The times at which an address is admitted in a run. -/
def admissions (g : RateLimiterState) (calls : List (ℕ × Option String)) (q : String) : List ℕ :=
  Machine.emitted (admission q) (machine.run g calls).1

/-- Every entry that the call throws away or starts anew is one of an address that was not admitted
in the 60 seconds before. -/
def EndsIdleWindows (g : RateLimiterState) (call : ℕ × Option String) : Prop :=
  ∀ q ∈ g.perIp.keys, ∀ e ∈ g.perIp.lookup q, g.EndsWindow call q e →
    e.lastAttempt + windowNanos < call.1

instance (g : RateLimiterState) (call : ℕ × Option String) : Decidable (g.EndsIdleWindows call) :=
  inferInstanceAs (Decidable (∀ q ∈ g.perIp.keys, ∀ e ∈ g.perIp.lookup q, _ → _))

/-! ## The counter and the admissions -/

/-- The entry of an address, at a floor, against the times at which the address was admitted. -/
structure Counts (floor : ℕ) (entry : Option RateEntry) (seen : List ℕ) : Prop where
  sparse : Window.Sparse pairingPerIpMax (windowNanos + 1) seen
  past : ∀ t ∈ seen, t ≤ floor
  /-- Without a counter, every admission is more than a window back. -/
  idle : entry = none → ∀ t ∈ seen, t + windowNanos < floor
  last : ∀ e ∈ entry, ∀ t ∈ seen, t ≤ e.lastAttempt
  /-- The counter is at least the number of the recent admissions. -/
  recent : ∀ e ∈ entry, Window.recent (windowNanos + 1) floor seen ≤ e.attempts

variable {floor : ℕ} {entry entry' : Option RateEntry} {admitted : Bool} {seen : List ℕ}

theorem past_concat (h : ∀ t ∈ seen, t ≤ now) : ∀ t ∈ seen ++ [now], t ≤ now := by
  intro t ht
  rcases List.mem_append.1 ht with hold | hnew
  · exact h t hold
  · exact (List.mem_singleton.1 hnew).le

theorem recent_of_idle (h : ∀ t ∈ seen, t + windowNanos < now) :
    Window.recent (windowNanos + 1) now seen = 0 :=
  Window.recent_eq_zero fun t ht => h t ht

/-- A counter that starts at an admission counts right if the admissions before it are more than a
window back. -/
theorem Counts.restart (h : Window.Sparse pairingPerIpMax (windowNanos + 1) seen)
    (hidle : ∀ t ∈ seen, t + windowNanos < now) :
    Counts now (some ⟨now, 1, now⟩) (seen ++ [now]) where
  sparse := h.concat (by rw [recent_of_idle hidle]; decide) le_rfl
  past := past_concat fun t ht => ((Nat.le_add_right _ _).trans_lt (hidle t ht)).le
  idle := by rintro ⟨⟩
  last := by
    rintro e ⟨⟩
    exact past_concat fun t ht => ((Nat.le_add_right _ _).trans_lt (hidle t ht)).le
  recent := by
    rintro e ⟨⟩
    rw [Window.recent_concat, recent_of_idle hidle, if_pos (by omega)]

/-- An entry that goes on counting, or whose counter ends more than a window after the last
admission, counts right after the call. -/
theorem Counts.step (h : Counts floor entry seen) (hfloor : floor < now)
    (hstep : EntryStep now ends entry admitted entry')
    (hidle : ∀ e ∈ entry, ends e → e.lastAttempt + windowNanos < now) :
    Counts now entry' (seen ++ if admitted then [now] else []) := by
  have hanti : Window.recent (windowNanos + 1) now seen ≤
      Window.recent (windowNanos + 1) floor seen := Window.recent_anti hfloor.le seen
  have hpast : ∀ t ∈ seen, t ≤ now := fun t ht => (h.past t ht).trans hfloor.le
  cases hstep with
  | kept =>
    rw [if_neg Bool.false_ne_true, List.append_nil]
    exact
      { h with
        past := hpast
        idle := fun hnone t ht => (h.idle hnone t ht).trans hfloor
        recent := fun e he => hanti.trans (h.recent e he) }
  | forgotten e hends =>
    -- the counter is gone, so the last admission must be more than a window back
    have hlast := hidle e rfl hends
    rw [if_neg Bool.false_ne_true, List.append_nil]
    exact
      { sparse := h.sparse
        past := hpast
        idle := fun _ t ht => (Nat.add_le_add_right (h.last e rfl t ht) _).trans_lt hlast
        last := by rintro _ ⟨⟩
        recent := by rintro _ ⟨⟩ }
  | reset e hends =>
    have hlast := hidle e rfl hends
    have hgone : ∀ t ∈ seen, t + windowNanos < now := fun t ht =>
      (Nat.add_le_add_right (h.last e rfl t ht) _).trans_lt hlast
    rw [if_neg Bool.false_ne_true, List.append_nil]
    refine ⟨h.sparse, hpast, by rintro ⟨⟩, ?_, ?_⟩
    · rintro _ ⟨⟩
      exact h.last e rfl
    · rintro _ ⟨⟩
      exact (recent_of_idle hgone).le
  | first =>
    exact .restart h.sparse fun t ht => (h.idle rfl t ht).trans hfloor
  | again e hroom =>
    -- the counter has room and is not below the recent admissions, so these are fewer than ten
    have hfew := hanti.trans (h.recent e rfl)
    refine ⟨h.sparse.concat (hfew.trans_lt hroom) le_rfl, past_concat hpast, by rintro ⟨⟩, ?_, ?_⟩
    · rintro _ ⟨⟩
      exact past_concat hpast
    · rintro _ ⟨⟩
      rw [if_pos rfl, Window.recent_concat, if_pos (by omega)]
      exact Nat.add_le_add_right hfew 1
  | renewed e hends =>
    have hlast := hidle e rfl hends
    exact .restart h.sparse fun t ht =>
      (Nat.add_le_add_right (h.last e rfl t ht) _).trans_lt hlast

/-- So does the entry of every address after an allowed call. -/
theorem counts_step {call : ℕ × Option String}
    (h : Counts g.floor (g.perIp.lookup q) seen) (hallowed : g.EndsIdleWindows call) :
    Counts (machine.step g call).2.floor ((machine.step g call).2.perIp.lookup q)
      (seen ++ (admission q call (machine.step g call).1).toList) := by
  obtain ⟨now, peerIp⟩ := call
  have hidle : ∀ e ∈ g.perIp.lookup q, g.EndsWindow (now, peerIp) q e →
      e.lastAttempt + windowNanos < now := by
    intro e he
    have hmem : q ∈ g.perIp := AList.lookup_isSome.1 (Option.isSome_of_mem he)
    exact hallowed q (AList.mem_keys.2 hmem) e he
  rw [toList_admission]
  show Counts (g.checkPairingRateLimit now peerIp).2.floor
    ((g.checkPairingRateLimit now peerIp).2.perIp.lookup q)
    (seen ++
      if (g.checkPairingRateLimit now peerIp).1 && decide (peerIp = some q) then [now] else [])
  obtain hrefused | ⟨hfloor, hset, hstep⟩ := entryStep_checkPairingRateLimit g now peerIp q
  · rw [hrefused]
    simpa using h
  · rw [hset]
    exact h.step hfloor hstep hidle

/-- Every interval of 60 seconds, its ends included, holds at most ten admissions of an address. -/
def SlidingLimit (g : RateLimiterState) (calls : List (ℕ × Option String)) : Prop :=
  ∀ (q : String) (a : ℕ),
    (g.admissions calls q).countP (fun t => a ≤ t ∧ t ≤ a + 60 * nanosPerSec) ≤ 10

/-- If no call ends the counting of an address that was admitted in the 60 seconds before, no
address is admitted more than ten times in any 60 seconds. -/
theorem slidingLimit_of_endsIdleWindows {floor windowStart : ℕ} {calls : List (ℕ × Option String)}
    (hcalls : machine.Follows EndsIdleWindows (initial floor windowStart) calls) :
    (initial floor windowStart).SlidingLimit calls := by
  intro q a
  have hstart : Counts floor (AList.lookup q (initial floor windowStart).perIp) [] :=
    ⟨Window.sparse_nil _ _, by rintro t ⟨⟩, fun _ => by rintro t ⟨⟩, by rintro e ⟨⟩, by rintro e ⟨⟩⟩
  have hcounts := Machine.run_emitted_of_follows
    (fun g seen => Counts g.floor (g.perIp.lookup q) seen)
    (fun g call seen h hallowed => counts_step h hallowed) hstart hcalls
  rw [List.nil_append] at hcounts
  refine le_trans (List.countP_mono_left fun t _ ht => ?_) (hcounts.sparse a)
  rw [decide_eq_true_iff] at ht ⊢
  exact ⟨ht.1, Nat.lt_succ_of_le ht.2⟩

/-- A call of one address at a time in seconds. -/
def callAt (ip : String) (secs : ℕ) : ℕ × Option String := (secs * nanosPerSec, some ip)

/-- Two addresses, one of which comes back after more than a minute. -/
theorem slidingLimit_of_two_addresses :
    let calls := [callAt "10.0.0.2" 5, callAt "10.0.0.3" 7, callAt "10.0.0.2" 8,
      callAt "10.0.0.3" 69, callAt "10.0.0.2" 70]
    ((initial 0 (5 * nanosPerSec)).admissions calls "10.0.0.2").length = 3 ∧
      (initial 0 (5 * nanosPerSec)).SlidingLimit calls :=
  ⟨by decide +kernel, slidingLimit_of_endsIdleWindows (by decide +kernel)⟩

/-- One address is admitted once when the limiter starts, nine times at the end of its window and
ten times right after it. -/
theorem nineteen_admissions_in_36_seconds :
    ¬(initial 0 (5 * nanosPerSec)).SlidingLimit
      (callAt "10.0.0.2" 5 :: (List.range 19).map fun n => callAt "10.0.0.2" (47 + 2 * n)) := by
  intro hlimit
  have hcount := hlimit "10.0.0.2" (47 * nanosPerSec)
  exact absurd hcount (by decide +kernel)

end RateLimiterState

end KyberPipe
