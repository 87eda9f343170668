import KyberPipe.Android.Watermark
import KyberPipe.Desktop.StoreSpec
import KyberPipe.Ratchet.RegistryRuns

/-!
# The life of a phone

A phone over its whole life with one desktop: pairings, traffic, the poll that stores a snapshot and
then records the live watermark, and cold starts. Every pairing starts a session at epoch 0 and
bumps it once, so all sessions have the epoch 1 (`Phone.Sound`).

The snapshot is wrapped with a key from the settings. Nothing in the app writes that key, so a fresh
install stores and records nothing.
-/

namespace KyberPipe

open RatchetRegistry

variable {K C B : Type}

/-! ### The phone -/

/-- The part of `performKemHandshake` that touches the session of the peer. The answer is the epoch
of the new session. -/
def RatchetRegistry.performKemHandshake (P : Primitives K C) (r : RatchetRegistry K C)
    (peer : String) (keypair : Except KyberError HybridKeyPair)
    (kemSecret : Except KyberError Bytes) (peerX25519Pk peerMlkemPk : Bytes) :
    Option ℕ × RatchetRegistry K C :=
  let r := r.ratchetRemoveSession peer
  match r.sessions.ratchetInitSessionFromKemHandle P peer false keypair kemSecret peerX25519Pk
    peerMlkemPk with
  | .error _ => (none, r)
  | .ok sessions =>
    let r := { r with sessions }
    if peer ∈ r.ratchetPeerIds then r.ratchetBumpPairingEpoch peer else (none, r)

/-- `ratchet_export_session_wrapped_impl`. The wrapping itself is transparent. -/
def RatchetRegistry.ratchetExportSessionWrapped (F : SnapshotFormat K B) (r : RatchetRegistry K C)
    (peer : String) (wrapKey : Bytes) : Except KyberError (Option B) :=
  if wrapKey.length ≠ 32 then .error (.invalidKeyLength 32 wrapKey.length)
  else .ok (r.ratchetExportSession F peer)

/-- A phone. The key, the snapshot and the recorded watermark survive the process. -/
structure Phone (K C B : Type) where
  registry : RatchetRegistry K C := {}
  /-- The bytes of `ratchetSnapshotKey`. -/
  snapshotKey : Bytes := []
  /-- `ratchetSnapshot` -/
  snapshot : Option B := none
  /-- The entry of the peer in `ratchetWatermarkJson`. -/
  recorded : Option Watermark := none
  /-- A poll has stored a snapshot and has not recorded the watermark yet. -/
  recording : Bool := false

/-- What happens to a phone. -/
inductive PhoneEvent (C : Type) where
  | pair (keypair : Except KyberError HybridKeyPair) (kemSecret : Except KyberError Bytes)
      (peerX25519Pk peerMlkemPk : Bytes)
  /-- Traffic: any call to the session. -/
  | call (c : Call C)
  /-- A poll exports the wrapped session and stores the snapshot, if the write succeeds. -/
  | persist (written : Bool)
  /-- The poll then records the watermark of the live session. -/
  | record
  /-- The process ends, and the next one restores the session. -/
  | coldStart (now : Clock)

/-- What is noted about an event. -/
inductive PhoneNote where
  /-- A pairing has established a session with an epoch. -/
  | paired (epoch : ℕ)
  /-- A watermark was passed to `RatchetWatermarkStore.update`. -/
  | recorded (wm : Watermark)
  deriving DecidableEq

namespace Phone

variable (P : Primitives K C) (F : SnapshotFormat K B) (peer : String) (s : Phone K C B)

/-- What a poll gets to store: nothing if the export fails or there is no session. -/
def exportWrapped : Option B :=
  (s.registry.ratchetExportSessionWrapped F peer s.snapshotKey).toOption.join

/-- The watermark of the stored snapshot. -/
def snapshotWatermark : Option Watermark :=
  s.snapshot.bind fun data => (ratchetSnapshotWatermark F data).toOption.join

/-- Record a watermark. -/
def update (wm : Watermark) : Phone K C B :=
  { s with recorded := some (WatermarkStore.update s.recorded wm) }

/-- What a new process starts with. -/
def restarted : Phone K C B := { s with registry := {}, recording := false }

/-- `restoreIfNeeded` of a new process, whose registry is empty. -/
def coldStart (now : Clock) : List PhoneNote × Phone K C B :=
  let s := s.restarted
  match s.snapshot with
  | none => ([], s)
  | some data =>
    let snapWm := s.snapshotWatermark F
    -- `decryptWithRawKey32` needs a key of 32 bytes
    if s.snapshotKey.length ≠ 32 then ([], s)
    else if snapWm.any fun wm => WatermarkStore.refuseRollback wm s.recorded then ([], s)
    else
      match s.registry.ratchetImportSession F peer data now with
      | .error _ => ([], s)
      | .ok registry =>
        let s := { s with registry }
        snapWm.elim ([], s) fun wm => ([.recorded wm], s.update wm)

/-- The phone as a machine. -/
def machine : Machine (Phone K C B) (PhoneEvent C) (List PhoneNote) where
  step s event :=
    match event with
    | .pair keypair kemSecret peerX25519Pk peerMlkemPk =>
      let res := s.registry.performKemHandshake P peer keypair kemSecret peerX25519Pk peerMlkemPk
      (res.1.toList.map .paired, { s with registry := res.2 })
    | .call c => ([], { s with registry := (s.registry.withRatchetSession P peer c).2 })
    | .persist written =>
      match s.exportWrapped F peer with
      | some data =>
        ([], if written then { s with snapshot := some data, recording := true } else s)
      | none => ([], s)
    | .record =>
      let s' := { s with recording := false }
      if s.recording then
        (s.registry.ratchetSessionWatermark peer).elim ([], s') fun wm =>
          ([.recorded wm], s'.update wm)
      else ([], s)
    | .coldStart now => s.coldStart F peer now

end Phone

/-! ### What every phone satisfies -/

/-- A session as pairings leave it: at epoch 1, whatever happened since. -/
structure DoubleRatchetState.Paired (t : DoubleRatchetState K C) : Prop where
  epoch : t.pairingEpoch = 1
  bumps : t.BumpsOnCommit

variable {t : DoubleRatchetState K C}

theorem DoubleRatchetState.Paired.exec {P : Primitives K C} {peer : String} (h : t.Paired)
    (gate : SyncGate) (c : Call C) :
    (Session.exec P peer ⟨t, gate⟩ c).2.ratchet.Paired where
  epoch := (Session.exec_epoch_cached P peer ⟨t, gate⟩ c).1.trans h.epoch
  bumps := (Session.exec_advances P peer ⟨t, gate⟩ c).bumps h.bumps

theorem DoubleRatchetState.Paired.reloaded (h : t.Paired) (now : Clock) : (t.reloaded now).Paired :=
  ⟨h.epoch, h.bumps.reloaded now⟩

/-- A session that is started from handles is a fresh one. -/
theorem exists_of_ratchetInitSessionFromKemHandle {P : Primitives K C}
    {map sessions : RatchetSessionMap K C} {peer : String} {isInitiator : Bool}
    {keypair : Except KyberError HybridKeyPair} {kemSecret : Except KyberError Bytes}
    {peerX25519Pk peerMlkemPk : Bytes}
    (h : map.ratchetInitSessionFromKemHandle P peer isInitiator keypair kemSecret peerX25519Pk
      peerMlkemPk = .ok sessions) :
    ∃ secret pair x25519Pk mlkemPk, sessions =
      map.insert peer (.newWithKeypair P secret isInitiator pair x25519Pk mlkemPk) := by
  cases kemSecret with
  | error e => cases h
  | ok secret =>
    cases keypair with
    | error e => cases h
    | ok pair =>
      change map.ratchetInitSessionWithKeypair P peer secret isInitiator pair _ _ = _ at h
      unfold RatchetSessionMap.ratchetInitSessionWithKeypair at h
      split_ifs at h
      all_goals exact ⟨secret, pair, _, _, (Except.ok.inj h).symm⟩

/-- The session that a handshake leaves, if any, is a new one of epoch 1. -/
theorem performKemHandshake_paired (P : Primitives K C) (r : RatchetRegistry K C) (peer : String)
    (keypair : Except KyberError HybridKeyPair) (kemSecret : Except KyberError Bytes)
    (peerX25519Pk peerMlkemPk : Bytes) (t : DoubleRatchetState K C)
    (ht : (r.performKemHandshake P peer keypair kemSecret peerX25519Pk
      peerMlkemPk).2.sessions.lookup peer = some t) : t.Paired := by
  cases hinit : (r.ratchetRemoveSession peer).sessions.ratchetInitSessionFromKemHandle P peer
      false keypair kemSecret peerX25519Pk peerMlkemPk with
  | error e =>
    simp only [performKemHandshake, hinit] at ht
    cases (AList.lookup_erase peer r.sessions).symm.trans ht
  | ok sessions =>
    obtain ⟨secret, pair, x25519Pk, mlkemPk, rfl⟩ := exists_of_ratchetInitSessionFromKemHandle hinit
    simp only [performKemHandshake, hinit] at ht
    split_ifs at ht with hmem
    · simp only [ratchetBumpPairingEpoch, AList.lookup_insert] at ht
      obtain rfl := Option.some.inj ht
      have hfresh := bumpsOnCommit_newWithKeypair P secret false pair x25519Pk mlkemPk
      exact ⟨rfl, hfresh.incoming, hfresh.outgoing, hfresh.generation_le⟩
    · exact absurd (AList.mem_keys.1 (AList.mem_insert _ |>.2 (.inl rfl))) hmem

namespace Phone

/-- Sessions and snapshots of the phone come from pairings. -/
structure Sound (F : SnapshotFormat K B) (peer : String) (s : Phone K C B) : Prop where
  live : ∀ t, s.registry.sessions.lookup peer = some t → t.Paired
  stored : ∀ data, s.snapshot = some data →
    ∃ t : DoubleRatchetState K C, data = F.toJson t.toSnapshot ∧ t.Paired

section Steps

variable {P : Primitives K C} {F : SnapshotFormat K B} {peer : String} {s : Phone K C B}

theorem exportWrapped_eq_some {data : B} (h : s.exportWrapped F peer = some data) :
    s.snapshotKey.length = 32 ∧
      ∃ t, s.registry.sessions.lookup peer = some t ∧ data = F.toJson t.toSnapshot := by
  unfold exportWrapped ratchetExportSessionWrapped at h
  split_ifs at h with hkey
  · cases h
  · obtain ⟨t, ht, hdata⟩ := Option.map_eq_some_iff.1 (show s.registry.ratchetExportSession F peer =
      some data from h)
    exact ⟨not_not.1 hkey, t, ht, hdata.symm⟩

theorem sound_initial (snapshotKey : Bytes) : Sound F peer ({ snapshotKey } : Phone K C B) where
  live := by rintro t ⟨⟩
  stored := by rintro data ⟨⟩

/-- The watermark of a snapshot that a poll has stored. -/
theorem snapshotWatermark_eq (lawful : F.Lawful) (hpaired : t.Paired)
    (hdata : s.snapshot = some (F.toJson t.toSnapshot)) :
    s.snapshotWatermark F = some (.fromLive t) := by
  simp only [snapshotWatermark, hdata, Option.bind_some]
  rw [ratchetSnapshotWatermark_toJson lawful hpaired.bumps.generation_le]
  rfl

/-- Nothing is live in a new process, so the import guard lets every snapshot pass. -/
theorem ratchetImportSession_restarted (lawful : F.Lawful) (t : DoubleRatchetState K C)
    (now : Clock) :
    s.restarted.registry.ratchetImportSession F peer (F.toJson t.toSnapshot) now =
      .ok { sessions := AList.insert peer (t.reloaded now) ∅ } := by
  rw [ratchetImportSession, lawful.fromJson_toJson]
  dsimp only
  rw [DoubleRatchetState.fromSnapshot_toSnapshot]
  rfl

/-- A cold start accepts only a session of a pairing. -/
theorem Sound.coldStart (lawful : F.Lawful) (h : s.Sound F peer) (now : Clock) :
    (s.coldStart F peer now).2.Sound F peer := by
  have hempty : s.restarted.Sound F peer := ⟨by rintro t ⟨⟩, h.stored⟩
  simp only [Phone.coldStart]
  cases hsnapshot : s.restarted.snapshot with
  | none => exact hempty
  | some data =>
    obtain ⟨t, rfl, hpaired⟩ := hempty.stored data hsnapshot
    simp only [snapshotWatermark_eq lawful hpaired hsnapshot, ratchetImportSession_restarted lawful,
      Option.any_some, Option.elim_some]
    split_ifs
    · exact hempty
    · exact hempty
    · refine ⟨fun t' ht' => ?_, fun data hdata => hempty.stored data (hsnapshot.trans hdata)⟩
      obtain rfl := Option.some.inj ((AList.lookup_insert ∅).symm.trans ht')
      exact hpaired.reloaded now

theorem Sound.step (lawful : F.Lawful) (h : s.Sound F peer) (event : PhoneEvent C) :
    ((machine P F peer).step s event).2.Sound F peer := by
  cases event with
  | pair keypair kemSecret peerX25519Pk peerMlkemPk =>
    exact ⟨performKemHandshake_paired P s.registry peer keypair kemSecret peerX25519Pk peerMlkemPk,
      h.stored⟩
  | coldStart now => exact h.coldStart lawful now
  | call c =>
    refine ⟨fun t ht => ?_, h.stored⟩
    simp only [machine, lookup_withRatchetSession] at ht
    obtain ⟨t₀, ht₀, rfl⟩ := Option.map_eq_some_iff.1 ht
    rw [if_pos trivial]
    exact (h.live t₀ ht₀).exec _ c
  | persist written =>
    simp only [machine]
    cases hexport : s.exportWrapped F peer with
    | none => exact h
    | some data =>
      obtain ⟨-, t, hlive, rfl⟩ := exportWrapped_eq_some hexport
      cases written with
      | false => exact h
      | true => exact ⟨h.live, fun data hdata => ⟨t, (Option.some.inj hdata).symm, h.live t hlive⟩⟩
  | record =>
    simp only [machine]
    split_ifs
    · cases s.registry.ratchetSessionWatermark peer <;> exact ⟨h.live, h.stored⟩
    · exact h

end Steps

end Phone

/-! ### Quiet calls -/

/-- A call that neither encrypts, nor opens a message, nor moves to another generation. -/
def Call.quiet : Call C → Bool
  | .consumeRekeyAck | .cancelOutgoingRekey | .cancelPendingIncomingRekey => true
  | _ => false

/-- A quiet call does not move the watermark of its session. -/
theorem fromLive_exec_quiet (P : Primitives K C) (peer : String) {c : Call C}
    (hquiet : c.quiet = true) (σ : Session K C) :
    RatchetWatermark.fromLive (σ.exec P peer c).2.ratchet = .fromLive σ.ratchet := by
  cases c with
  | consumeRekeyAck => rfl
  | cancelOutgoingRekey => rfl
  | cancelPendingIncomingRekey => rfl
  | _ => cases hquiet

/-- A pairing of the symbolic phone over a shared secret. -/
def Symbolic.phonePairing (secret : Bytes) : PhoneEvent Symbolic.Ciphertext :=
  .pair (.ok (generateHybridKeypair Symbolic.primitives ⟨List.replicate 32 2, [6]⟩)) (.ok secret)
    [] []

end KyberPipe
