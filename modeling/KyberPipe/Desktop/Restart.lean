import KyberPipe.Desktop.StoreSpec
import KyberPipe.Ratchet.RegistryRuns

/-!
# Restart acceptance

The recorded watermark of a peer is the join of the watermarks of all its persisted sessions, so a
restart right after persisting brings every session back exactly if none of its earlier persisted
watermarks lies above the last one in any component. A rekey commit restarts the counters and breaks
this.
-/

namespace KyberPipe

open Symbolic StoreFormat StorageOp

variable {K C B W T : Type}

/-- What happens to the sessions of a desktop. -/
inductive StoreEvent (C : Type) where
  | call (peer : String) (call : Call C)
  | persist (nonces : String → Nonce)
  /-- The process stops and starts again. -/
  | restart (now : Clock)

/-- The registry of the running process and the disk. -/
structure StoreState (K C T : Type) where
  registry : RatchetRegistry K C
  disk : Disk T

/-- The desktop under these events, with complete persisting. -/
def storeMachine (P : Primitives K C) (F : StoreFormat K B W T) (snapshotKeyHex : String) :
    Machine (StoreState K C T) (StoreEvent C) Unit where
  step st
    | .call peer call =>
      ((), { st with registry := (st.registry.withRatchetSession P peer call).2 })
    | .persist nonces =>
      ((), { st with
        disk := (F.persistAllRatchetSessions snapshotKeyHex nonces st.registry).complete
          apply st.disk })
    | .restart now =>
      ((), { st with registry := (F.restoreAllRatchetSessions snapshotKeyHex now st.disk {}).2 })

/-- The stored snapshots are those of sessions that move to the next generation when they
commit. -/
def StoreFormat.SoundStore (C : Type) (F : StoreFormat K B W T) (wk : K) (d : Disk T) : Prop :=
  ∀ peer blob, F.stored wk d peer = some blob →
    ∃ s : DoubleRatchetState K C, s.BumpsOnCommit ∧ blob = F.toJson s.toSnapshot

namespace StoreFormat

variable {F : StoreFormat K B W T} (lawful : F.Lawful) {snapshotKeyHex : String} {wk : K}
  (hkey : F.wrapKey snapshotKeyHex = some wk)
include lawful hkey

variable {r : RatchetRegistry K C}

/-- Complete persisting stores exactly the live sessions. -/
theorem stored_persist (nonces : String → Nonce) (hne : r.sessions ≠ ∅) (d : Disk T)
    (peer : String) :
    F.stored wk ((F.persistAllRatchetSessions snapshotKeyHex nonces r).complete apply d)
      peer = (r.sessions.lookup peer).map fun s => F.toJson s.toSnapshot := by
  rw [stored, (recovered_persist lawful hkey nonces hne d).2, openEntry_sealedSessions lawful]

variable {d : Disk T}

theorem SoundStore.persist (h : F.SoundStore C wk d) (nonces : String → Nonce)
    (hr : r.BumpsOnCommit) :
    F.SoundStore C wk
      ((F.persistAllRatchetSessions snapshotKeyHex nonces r).complete apply d) := by
  by_cases hne : r.sessions = ∅
  · rw [persistAllRatchetSessions_of_empty hkey nonces hne, Script.complete]
    exact h
  · intro peer blob hblob
    rw [stored_persist lawful hkey nonces hne] at hblob
    obtain ⟨s, hs, rfl⟩ := Option.map_eq_some_iff.1 hblob
    exact ⟨s, hr peer s hs, rfl⟩

/-- A session that comes back was stored, up to its timers and caches. -/
theorem SoundStore.exists_of_restored (h : F.SoundStore C wk d) {now : Clock} {peer : String}
    {s' : DoubleRatchetState K C}
    (hs' : (F.restoreAllRatchetSessions snapshotKeyHex now d {}).2.sessions.lookup peer = some s') :
    ∃ s : DoubleRatchetState K C, s.BumpsOnCommit ∧
      F.stored wk d peer = some (F.toJson s.toSnapshot) ∧ s' = s.reloaded now := by
  rw [lookup_restoreAllRatchetSessions F hkey] at hs'
  obtain ⟨blob, hblob, hs'⟩ := Option.bind_eq_some_iff.1 hs'
  obtain ⟨s, hbumps, rfl⟩ := h peer blob hblob
  rw [lawful.fromJson_toJson, Except.toOption, Option.bind_some] at hs'
  split_ifs at hs'
  refine ⟨s, hbumps, hblob, ?_⟩
  rw [← DoubleRatchetState.fromSnapshot_toSnapshot]
  exact (Option.some.inj hs').symm

theorem SoundStore.restore (h : F.SoundStore C wk d) (now : Clock) :
    (F.restoreAllRatchetSessions (C := C) snapshotKeyHex now d {}).2.BumpsOnCommit := by
  intro peer s' hs'
  obtain ⟨s, hbumps, _, rfl⟩ := h.exists_of_restored lawful hkey hs'
  exact hbumps.reloaded now

end StoreFormat

/-- Live and stored sessions move to the next generation when they commit. -/
structure StoreState.Sound (F : StoreFormat K B W T) (wk : K) (st : StoreState K C T) : Prop where
  live : st.registry.BumpsOnCommit
  stored : F.SoundStore C wk st.disk

section Runs

variable {P : Primitives K C} {F : StoreFormat K B W T} (lawful : F.Lawful)
  {snapshotKeyHex : String} {wk : K} (hkey : F.wrapKey snapshotKeyHex = some wk)
include lawful hkey

variable {st : StoreState K C T}

theorem StoreState.Sound.step (h : st.Sound F wk) (event : StoreEvent C) :
    ((storeMachine P F snapshotKeyHex).step st event).2.Sound F wk := by
  cases event with
  | call peer call => exact ⟨h.live.withRatchetSession P peer call, h.stored⟩
  | persist nonces => exact ⟨h.live, h.stored.persist lawful hkey nonces h.live⟩
  | restart now => exact ⟨h.stored.restore lawful hkey now, h.stored⟩

/-- The recorded watermark of a peer is the join of the watermarks of its persisted sessions. -/
theorem highWater_run_le_iff (h : st.Sound F wk) (events : List (StoreEvent C)) (peer : String)
    (w : Watermark) :
    F.highWater ((storeMachine P F snapshotKeyHex).run st events).2.disk peer ≤ w ↔
      F.highWater st.disk peer ≤ w ∧ ∀ k nonces, events[k]? = some (.persist nonces) →
        liveWater
          ((storeMachine P F snapshotKeyHex).run st (events.take k)).2.registry peer ≤ w := by
  induction events generalizing st with
  | nil => simp
  | cons event events ih =>
    -- the first event is the step at index 0, the others are shifted by one
    have hshift : (∀ k nonces, (event :: events)[k]? = some (.persist nonces) →
        liveWater ((storeMachine P F snapshotKeyHex).run st
          ((event :: events).take k)).2.registry peer ≤ w) ↔
        (∀ nonces, event = .persist nonces → liveWater st.registry peer ≤ w) ∧
        ∀ k nonces, events[k]? = some (.persist nonces) →
          liveWater ((storeMachine P F snapshotKeyHex).run
            ((storeMachine P F snapshotKeyHex).step st event).2 (events.take k)).2.registry
              peer ≤ w := by
      constructor
      · intro hall
        exact ⟨fun nonces hn => hall 0 nonces (by simp [hn]),
          fun k nonces hk => hall (k + 1) nonces (by simpa using hk)⟩
      · rintro ⟨hzero, hsucc⟩ k nonces hk
        cases k with
        | zero => exact hzero nonces (by simpa using hk)
        | succ k => exact hsucc k nonces (by simpa using hk)
    rw [Machine.run_cons_snd, ih (h.step lawful hkey event), hshift]
    cases event with
    | call q call => simp [storeMachine]
    | restart now => simp [storeMachine]
    | persist nonces =>
      have hpersist := highWater_persist lawful hkey nonces
        (fun q s hs => (h.live q s hs).generation_le) st.disk peer
      simp only [storeMachine, hpersist, sup_le_iff, StoreEvent.persist.injEq, forall_eq']
      exact and_assoc

end Runs

/-- After any run from fresh sessions and an empty disk that ends with complete persisting, a
restart brings back every session of the store exactly if no component of its counters was larger at
an earlier persisting of the same pairing epoch (and no earlier persisting was of a newer epoch). -/
theorem restart_acceptance_iff {P : Primitives K C} {F : StoreFormat K B W T} (lawful : F.Lawful)
    {snapshotKeyHex : String} {wk : K} (hkey : F.wrapKey snapshotKeyHex = some wk)
    {r : RatchetRegistry K C} (hfresh : r.Fresh P) (events : List (StoreEvent C))
    (nonces : String → Nonce) (now : Clock) :
    let run := fun es => ((storeMachine P F snapshotKeyHex).run ⟨r, fun _ => none⟩ es).2
    (∀ peer s, (run events).registry.sessions.lookup peer = some s →
        (F.restoreAllRatchetSessions snapshotKeyHex now
          (run (events ++ [.persist nonces])).disk {}).2.sessions.lookup peer =
            some (s.reloaded now)) ↔
      ∀ k nonces', events[k]? = some (.persist nonces') → ∀ peer s s',
        (run (events.take k)).registry.sessions.lookup peer = some s →
        (run events).registry.sessions.lookup peer = some s' →
        RatchetWatermark.fromLive s ≤ .fromLive s' := by
  intro run
  have hsound₀ : (⟨r, fun _ => none⟩ : StoreState K C T).Sound F wk :=
    ⟨hfresh.bumpsOnCommit, fun peer blob h => by
      simp [stored, recovered_of_none] at h⟩
  have hsound : (run events).Sound F wk :=
    Machine.run_invariant (fun st => StoreState.Sound F wk st)
      (fun st event h => h.step lawful hkey event) hsound₀ events
  -- what is accepted is decided by the watermark of each session on its own
  have haccept : ∀ peer s, (run events).registry.sessions.lookup peer = some s →
      ((F.restoreAllRatchetSessions snapshotKeyHex now
          (run (events ++ [.persist nonces])).disk {}).2.sessions.lookup peer =
            some (s.reloaded now) ↔ ∀ k nonces', events[k]? = some (.persist nonces') →
          liveWater (run (events.take k)).registry peer ≤ .fromLive s) := by
    intro peer s hs
    have hne : (run events).registry.sessions ≠ ∅ := by
      intro hempty
      rw [hempty, AList.lookup_empty] at hs
      cases hs
    have hdisk : (run (events ++ [.persist nonces])).disk =
        (F.persistAllRatchetSessions snapshotKeyHex nonces (run events).registry).complete
          apply (run events).disk := by
      simp only [run, Machine.run_append]
      rfl
    have hhigh := highWater_run_le_iff (P := P) lawful hkey hsound₀ events peer (.fromLive s)
    have hempty : F.highWater (fun _ => none) peer = ⊥ := by
      simp [highWater_eq, tier]
    rw [hempty] at hhigh
    simp only [bot_le, true_and] at hhigh
    have hgen := (hsound.live peer s hs).generation_le
    rw [← hhigh, hdisk, lookup_restoreAllRatchetSessions F hkey,
      stored_persist lawful hkey nonces hne, hs, Option.map_some, Option.bind_some,
      lawful.fromJson_toJson, Except.toOption, Option.bind_some,
      DoubleRatchetState.fromSnapshot_toSnapshot]
    have hrefused := refused_toJson lawful hgen
      ((F.persistAllRatchetSessions snapshotKeyHex nonces (run events).registry).complete
        apply (run events).disk) peer
    rw [highWater_persist lawful hkey nonces
      (fun q t ht => (hsound.live q t ht).generation_le), liveWater, hs,
      Option.elim_some, sup_le_iff, and_iff_left le_rfl] at hrefused
    rw [← hrefused]
    split_ifs with h <;> simp [h]
  constructor
  · intro hall k nonces' hk peer s s' hs hs'
    have hle := (haccept peer s' hs').1 (hall peer s' hs') k nonces' hk
    rwa [liveWater, hs, Option.elim_some] at hle
  · intro hall peer s hs
    refine (haccept peer s hs).2 fun k nonces' hk => ?_
    unfold liveWater
    cases hk' : (run (events.take k)).registry.sessions.lookup peer with
    | none => exact bot_le
    | some t => exact hall k nonces' hk peer t s hk' hs

theorem Symbolic.registry_fresh : registry.Fresh primitives := by
  intro peer s hs
  by_cases h : peer = "phone"
  · subst h
    exact ⟨_, _, _, _, _, (Option.some.inj hs).symm⟩
  · have hnone : registry.sessions.lookup peer = none := List.dlookup_cons_ne _ _ h
    cases hnone.symm.trans hs

/-- A session that is persisted twice without a change in between comes back. -/
theorem restart_acceptance_iff_unchanged :
    let st := ((storeMachine primitives storeFormat "00").run
      ⟨registry, fun _ => none⟩ [.persist fun _ => ⟨0, 0⟩, .persist fun _ => ⟨0, 1⟩]).2
    (storeFormat.restoreAllRatchetSessions "00" ⟨5, 5⟩ st.disk {}).2.sessions.lookup
      "phone" = some (initiator.reloaded ⟨5, 5⟩) := by
  refine (restart_acceptance_iff storeFormat_lawful
    (rfl : storeFormat.wrapKey "00" = some .absent) registry_fresh
    [.persist fun _ => ⟨0, 0⟩] (fun _ => ⟨0, 1⟩) ⟨5, 5⟩).2 ?_ "phone" initiator rfl
  intro k nonces' hk peer s s' hs hs'
  have hk0 : k = 0 := by
    cases k with
    | zero => rfl
    | succ k => simp at hk
  subst hk0
  exact le_of_eq (congrArg _ (Option.some.inj (hs.symm.trans hs')))

/-- The desktop sends 101 messages and persists; the phone acknowledges the rekey of message 100,
whose commit restarts the counters; the desktop persists again. A restart refuses the session of the
store. -/
theorem restart_acceptance_fails_after_rekey :
    let sends : List (StoreEvent Symbolic.Ciphertext) := (List.range 101).map fun i =>
      .call "phone" (.encrypt [] (randomness i) ⟨0, 0⟩)
    let st := ((storeMachine primitives storeFormat "00").run
      ⟨registry, fun _ => none⟩ (sends ++ [.persist fun _ => ⟨0, 0⟩,
        .call "phone" (.processRekeyAck 100), .persist fun _ => ⟨0, 1⟩])).2
    (st.registry.ratchetSessionWatermark "phone" = some ⟨0, 1, 0, 0⟩) ∧
      "phone" ∈ storeFormat.recovered st.disk ∧
      "phone" ∉ (storeFormat.restoreAllRatchetSessions (C := Symbolic.Ciphertext) "00"
        ⟨0, 0⟩ st.disk {}).2.sessions := by
  decide +kernel

end KyberPipe
