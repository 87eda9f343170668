import KyberPipe.Android.PairingEpochs

/-!
# Persisting in a poll

The end of a poll step by step: export the session, store the snapshot, read the watermark of the
live session, record it. The export and the read take the lock of the session separately, so other
threads can use it in between, and then the recorded watermark lies ahead of the stored snapshot. A
mutex admits one poll at a time.
-/

namespace KyberPipe

open Symbolic WatermarkStore

variable {K C B : Type}

/-- How far a poll has come with persisting. -/
inductive PersistStage (B : Type) where
  | idle
  /-- The session was exported. -/
  | exported (data : B)
  /-- The snapshot was written. -/
  | stored (data : B)
  /-- The watermark of the live session was read. -/
  | read (data : B) (wm : Watermark)

/-- A phone and its poll. -/
structure PollingPhone (K C B : Type) where
  phone : Phone K C B
  stage : PersistStage B := .idle

/-- What happens while a phone polls. -/
inductive PersistEvent (C : Type) where
  /-- Another thread calls the session. -/
  | call (c : Call C)
  /-- `ratchetExportSessionWrapped` -/
  | exportSession
  /-- `persistWrappedSnapshot`, which says whether the snapshot was written. -/
  | persistSnapshot (written : Bool)
  /-- `ratchetSessionWatermark` -/
  | readWatermark
  /-- `RatchetWatermarkStore.update` -/
  | updateWatermark

namespace PollingPhone

variable (P : Primitives K C) (F : SnapshotFormat K B) (peer : String) (s : PollingPhone K C B)

/-- The poll has exported the session and has not read its watermark. -/
def exporting : Bool :=
  match s.stage with
  | .exported _ | .stored _ => true
  | .idle | .read _ _ => false

/-- The phone as a machine. Recording a watermark emits the snapshot that the poll has stored and
the watermark. -/
def machine : Machine (PollingPhone K C B) (PersistEvent C) (Option (B × Watermark)) where
  step s event :=
    match event, s.stage with
    | .call c, _ =>
      let registry := (s.phone.registry.withRatchetSession P peer c).2
      (none, { s with phone := { s.phone with registry } })
    | .exportSession, .idle =>
      (none, { s with stage := (s.phone.exportWrapped F peer).elim .idle .exported })
    | .persistSnapshot true, .exported data =>
      (none, { phone := { s.phone with snapshot := some data }, stage := .stored data })
    | .persistSnapshot false, .exported _ => (none, { s with stage := .idle })
    | .readWatermark, .stored data =>
      (none, { s with
        stage := (s.phone.registry.ratchetSessionWatermark peer).elim .idle (.read data) })
    | .updateWatermark, .read data wm =>
      (some (data, wm), { phone := s.phone.update wm, stage := .idle })
    -- a step of the poll that is not its next one
    | _, _ => (none, s)

/-- While a poll is between its export and its read, other threads make quiet calls only. -/
def Undisturbed (s : PollingPhone K C B) : PersistEvent C → Prop
  | .call c => s.exporting = true → c.quiet = true
  | _ => True

instance (event : PersistEvent C) : Decidable (s.Undisturbed event) :=
  match event with
  | .call c => inferInstanceAs (Decidable (s.exporting = true → c.quiet = true))
  | .exportSession | .persistSnapshot _ | .readWatermark | .updateWatermark => .isTrue trivial

/-! ### Invariant -/

/-- The stage of a poll fits the session: an exported snapshot shows the watermark of the live
session until that is read, and a watermark that was read is the one of the snapshot. -/
def StageFits : Prop :=
  match s.stage with
  | .idle => True
  | .exported data | .stored data =>
    ∃ t, s.phone.registry.sessions.lookup peer = some t ∧
      ratchetSnapshotWatermark F data = .ok (some (.fromLive t))
  | .read data wm => ratchetSnapshotWatermark F data = .ok (some wm)

/-- The live session comes from a pairing, and the stage fits it. -/
structure Fits : Prop where
  live : ∀ t, s.phone.registry.sessions.lookup peer = some t → t.Paired
  stage : s.StageFits F peer

/-- The emitted watermark, if any, is the one of the emitted snapshot. -/
def OwnWatermark (out : Option (B × Watermark)) : Prop :=
  ∀ data wm, out = some (data, wm) → ratchetSnapshotWatermark F data = .ok (some wm)

section Steps

variable {P F peer s}

theorem Fits.call (h : s.Fits F peer) {c : Call C} (hquiet : s.exporting = true → c.quiet = true) :
    ((machine P F peer).step s (.call c)).2.Fits F peer := by
  have hlookup := RatchetRegistry.lookup_withRatchetSession P s.phone.registry peer peer c
  refine ⟨?_, ?_⟩
  · intro t ht
    obtain ⟨t₀, ht₀, rfl⟩ := Option.map_eq_some_iff.1 (hlookup.symm.trans ht)
    rw [if_pos rfl]
    exact (h.live t₀ ht₀).exec _ c
  · -- between the export and the read the call is quiet, so the snapshot stays up to date
    have hexported : ∀ data, s.exporting = true →
        (∃ t, s.phone.registry.sessions.lookup peer = some t ∧
          ratchetSnapshotWatermark F data = .ok (some (.fromLive t))) →
        ∃ t, (s.phone.registry.withRatchetSession P peer c).2.sessions.lookup peer = some t ∧
          ratchetSnapshotWatermark F data = .ok (some (.fromLive t)) := by
      rintro data hexporting ⟨t, ht, hdata⟩
      rw [hlookup, ht, Option.map_some, if_pos rfl]
      refine ⟨_, rfl, ?_⟩
      rw [fromLive_exec_quiet P peer (hquiet hexporting)]
      exact hdata
    obtain ⟨phone, stage⟩ := s
    have hstage := h.stage
    cases stage with
    | idle => trivial
    | exported data => exact hexported data rfl hstage
    | stored data => exact hexported data rfl hstage
    | read data wm => exact hstage

variable {phone : Phone K C B}

/-- An exported snapshot shows the watermark of the session it was made from. -/
theorem stageFits_exportSession (lawful : F.Lawful)
    (hpaired : ∀ t, phone.registry.sessions.lookup peer = some t → t.Paired) :
    StageFits F peer ⟨phone, (phone.exportWrapped F peer).elim .idle .exported⟩ := by
  cases hexport : phone.exportWrapped F peer with
  | none => trivial
  | some data =>
    obtain ⟨-, t, hlive, rfl⟩ := Phone.exportWrapped_eq_some hexport
    exact ⟨t, hlive, ratchetSnapshotWatermark_toJson lawful (hpaired t hlive).bumps.generation_le⟩

/-- The read finds the watermark that the snapshot shows. -/
theorem stageFits_readWatermark {data : B} (h : StageFits F peer ⟨phone, .stored data⟩) :
    StageFits F peer
      ⟨phone, (phone.registry.ratchetSessionWatermark peer).elim .idle (.read data)⟩ := by
  obtain ⟨t, hlive, hdata⟩ := h
  have hwm : phone.registry.ratchetSessionWatermark peer = some (.fromLive t) := by
    rw [RatchetRegistry.ratchetSessionWatermark, hlive]
    rfl
  rw [hwm]
  exact hdata

variable {event : PersistEvent C}

theorem Fits.step (lawful : F.Lawful) (h : s.Fits F peer) (hevent : s.Undisturbed event) :
    ((machine P F peer).step s event).2.Fits F peer := by
  cases event with
  | call c => exact h.call hevent
  -- a step that is not the next one of the poll changes nothing
  | exportSession =>
    obtain ⟨phone, stage⟩ := s
    cases stage with
    | idle => exact ⟨h.live, stageFits_exportSession lawful h.live⟩
    | exported data => exact h
    | stored data => exact h
    | read data wm => exact h
  | persistSnapshot written =>
    obtain ⟨phone, stage⟩ := s
    cases stage with
    | idle => cases written <;> exact h
    | exported data =>
      cases written with
      | false => exact ⟨h.live, trivial⟩
      | true => exact ⟨h.live, h.stage⟩
    | stored data => cases written <;> exact h
    | read data wm => cases written <;> exact h
  | readWatermark =>
    obtain ⟨phone, stage⟩ := s
    cases stage with
    | idle => exact h
    | exported data => exact h
    | stored data => exact ⟨h.live, stageFits_readWatermark h.stage⟩
    | read data wm => exact h
  | updateWatermark =>
    obtain ⟨phone, stage⟩ := s
    cases stage with
    | idle => exact h
    | exported data => exact h
    | stored data => exact h
    | read data wm => exact ⟨h.live, trivial⟩

/-- What a step emits is a snapshot and its own watermark. -/
theorem Fits.emitted (h : s.Fits F peer) : OwnWatermark F ((machine P F peer).step s event).1 := by
  intro data wm hout
  obtain ⟨phone, stage⟩ := s
  cases event with
  | updateWatermark =>
    cases stage with
    | read data' wm' =>
      obtain ⟨rfl, rfl⟩ := Prod.mk.inj (Option.some.inj hout)
      exact h.stage
    | _ => cases hout
  | persistSnapshot written => cases stage <;> cases written <;> cases hout
  | _ => cases stage <;> cases hout

end Steps

/-! ### Recorded watermarks -/

/-- From a phone after any life, let its polls be interleaved with calls of other threads that are
quiet between the export and the read of a poll. A watermark that a poll records is then in no
component ahead of the stored snapshot, and no cold start refuses the snapshot for it. -/
theorem recorded_watermark_not_ahead {P : Primitives K C} {F : SnapshotFormat K B}
    (lawful : F.Lawful) (peer : String) (snapshotKey : Bytes) (past : List (PhoneEvent C))
    (events : List (PersistEvent C)) {s : PollingPhone K C B}
    (hs : s = { phone := ((Phone.machine P F peer).run { snapshotKey } past).2 })
    (hfollows : (machine P F peer).Follows Undisturbed s events) :
    ∀ e ∈ ((machine P F peer).run s events).1,
      ∀ data wm, e.2 = some (data, wm) → ∃ snapWm,
        ratchetSnapshotWatermark F data = .ok (some snapWm) ∧
          snapWm.dominatesOrEquals wm = true ∧
          ∀ recorded, refuseRollback snapWm recorded = false →
            refuseRollback snapWm (some (update recorded wm)) =
              false := by
  have hsound : ((Phone.machine P F peer).run { snapshotKey } past).2.Sound F peer :=
    Machine.run_invariant _ (fun _ event h => h.step lawful event)
      (Phone.sound_initial snapshotKey) past
  have hstart : s.Fits F peer := by
    rw [hs]
    exact ⟨hsound.live, trivial⟩
  have hown : ∀ e ∈ ((machine P F peer).run s events).1, OwnWatermark F e.2 :=
    Machine.forall_mem_run_of_follows (fun s : PollingPhone K C B => s.Fits F peer)
      (fun s event h hevent => h.step lawful hevent) (fun s event h _ => h.emitted) hstart hfollows
  intro e he data wm hout
  refine ⟨wm, hown e he data wm hout, by simp [RatchetWatermark.dominatesOrEquals], ?_⟩
  -- the updated mark is the least one above the recorded mark and the snapshot's own
  intro recorded haccepted
  rw [refuseRollback_eq_false] at haccepted ⊢
  intro mark hmark
  obtain rfl := Option.some.inj hmark
  exact update_le.2 ⟨haccepted, le_rfl⟩

/-- The symbolic phone with a snapshot key, after a pairing and the given steps of its polls. -/
def symbolicRun (events : List (PersistEvent Symbolic.Ciphertext)) :
    List (PersistEvent Symbolic.Ciphertext × Option (RatchetSnapshot Symbolic.Key × Watermark)) ×
      PollingPhone Symbolic.Key Symbolic.Ciphertext (RatchetSnapshot Symbolic.Key) :=
  (machine primitives storeFormat.toSnapshotFormat "pc").run
    { phone := ((Phone.machine primitives storeFormat.toSnapshotFormat "pc").run
      { snapshotKey := List.replicate 32 9 } [phonePairing [1]]).2 } events

/-- Another thread encrypts. -/
def symbolicEncrypt : PersistEvent Symbolic.Ciphertext :=
  .call (.encrypt [] (randomness 0) ⟨0, 0⟩)

/-- The theorem at polls with an encryption before the export and one after the read. -/
theorem recorded_watermark_not_ahead_of_undisturbed_poll :
    let events := [symbolicEncrypt, .exportSession, .persistSnapshot true, .readWatermark,
      symbolicEncrypt, .updateWatermark]
    (symbolicRun events).2.phone.recorded = some ⟨1, 0, 1, 0⟩ ∧
      ∀ e ∈ (symbolicRun events).1, ∀ data wm, e.2 = some (data, wm) → ∃ snapWm,
        ratchetSnapshotWatermark storeFormat.toSnapshotFormat data =
            .ok (some snapWm) ∧
          snapWm.dominatesOrEquals wm = true ∧
          ∀ recorded, refuseRollback snapWm recorded = false →
            refuseRollback snapWm (some (update recorded wm)) =
              false :=
  ⟨by decide +kernel, recorded_watermark_not_ahead storeFormat_lawful.toLawful "pc"
    (List.replicate 32 9) [phonePairing [1]] _ rfl (by decide +kernel)⟩

/-- An encryption between the export and the read makes the recorded watermark run ahead, and the
next cold start refuses the snapshot. -/
theorem recorded_watermark_ahead_after_encryption :
    let run := symbolicRun [.exportSession, .persistSnapshot true, symbolicEncrypt,
      .readWatermark, .updateWatermark]
    run.2.phone.snapshotWatermark storeFormat.toSnapshotFormat = some ⟨1, 0, 0, 0⟩ ∧
      run.1.map (fun e => e.2.map Prod.snd) = [none, none, none, none, some ⟨1, 0, 1, 0⟩] ∧
      run.2.phone.recorded = some ⟨1, 0, 1, 0⟩ ∧
      refuseRollback ⟨1, 0, 0, 0⟩ none = false ∧
      refuseRollback ⟨1, 0, 0, 0⟩ run.2.phone.recorded = true := by
  decide +kernel

end PollingPhone

end KyberPipe
