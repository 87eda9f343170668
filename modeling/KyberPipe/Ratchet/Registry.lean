import KyberPipe.Ratchet.Snapshot

/-!
# The session registry

The process-wide tables of the core crate: the sessions by peer of `registry.rs` and the
Synchronize bookkeeping by peer of `sync.rs`, with the export and the guarded import of
snapshots.
-/

namespace KyberPipe

variable {K C B : Type}

/-- The four counters that order the snapshots of a session. -/
structure RatchetWatermark where
  pairingEpoch : ℕ
  ratchetGeneration : ℕ
  sendMessageCount : ℕ
  recvMessageCount : ℕ
  deriving DecidableEq

namespace RatchetWatermark

/-- The watermark of a snapshot. -/
def fromSnapshot (snap : RatchetSnapshot K) : RatchetWatermark :=
  ⟨snap.pairingEpoch, snap.ratchetGeneration, snap.sendMessageCount, snap.recvMessageCount⟩

/-- The watermark of a live session. -/
def fromLive (s : DoubleRatchetState K C) : RatchetWatermark :=
  ⟨s.pairingEpoch, s.ratchetGeneration, s.send.messageCount, s.recv.messageCount⟩

/-- Whether no component lies behind. -/
def dominatesOrEquals (w other : RatchetWatermark) : Bool :=
  other.pairingEpoch ≤ w.pairingEpoch && other.ratchetGeneration ≤ w.ratchetGeneration &&
    other.sendMessageCount ≤ w.sendMessageCount && other.recvMessageCount ≤ w.recvMessageCount

/-- Whether a live session, given by its watermark, forbids the import of a snapshot: another
pairing epoch, or a component in which the snapshot lies behind. -/
def refusesImport (live : Option RatchetWatermark) (snapWm : RatchetWatermark) : Bool :=
  match live with
  | none => false
  | some liveWm =>
    if liveWm.pairingEpoch ≠ snapWm.pairingEpoch then true
    else !snapWm.dominatesOrEquals liveWm

/-- What the guard asks of a snapshot over a live session. -/
theorem refusesImport_eq_false {w snapWm : RatchetWatermark} :
    refusesImport (some w) snapWm = false ↔ w.pairingEpoch = snapWm.pairingEpoch ∧
      w.ratchetGeneration ≤ snapWm.ratchetGeneration ∧
      w.sendMessageCount ≤ snapWm.sendMessageCount ∧
      w.recvMessageCount ≤ snapWm.recvMessageCount := by
  by_cases hepoch : w.pairingEpoch = snapWm.pairingEpoch
  · simp [refusesImport, dominatesOrEquals, hepoch, and_assoc]
  · simp [refusesImport, hepoch]

end RatchetWatermark

/-- Move a session to the next pairing epoch. The epoch is a 64-bit number that does not wrap. -/
def DoubleRatchetState.bumpPairingEpoch (s : DoubleRatchetState K C) : DoubleRatchetState K C :=
  { s with pairingEpoch := min (s.pairingEpoch + 1) (2 ^ 64 - 1) }

/-- JSON encoding of snapshots into documents `B`. -/
structure SnapshotFormat (K B : Type) where
  toJson : RatchetSnapshot K → B
  /-- Decode a snapshot, or say what is wrong with the document. -/
  fromJson : B → Except String (RatchetSnapshot K)
  /-- The top-level fields of a document that hold an unsigned number. -/
  fields : B → Except String (String → Option ℕ)

/-- An encoded snapshot decodes to itself, and its counters can be read off the document. -/
structure SnapshotFormat.Lawful (F : SnapshotFormat K B) : Prop where
  fromJson_toJson : ∀ snap, F.fromJson (F.toJson snap) = .ok snap
  fields_toJson : ∀ snap, ∃ field, F.fields (F.toJson snap) = .ok field ∧
    field "pairing_epoch" = some snap.pairingEpoch ∧
    field "ratchet_generation" = some snap.ratchetGeneration ∧
    field "send_message_count" = some snap.sendMessageCount ∧
    field "recv_message_count" = some snap.recvMessageCount

/-- Read the watermark of a serialized snapshot, if it has all three counters. A document
without an epoch is of epoch 0. -/
def ratchetSnapshotWatermark (F : SnapshotFormat K B) (data : B) :
    Except KyberError (Option RatchetWatermark) :=
  match F.fields data with
  | .error e => .error (.serializationError e)
  | .ok field =>
    .ok do
      let gen ← field "ratchet_generation"
      let send ← field "send_message_count"
      let recv ← field "recv_message_count"
      let epoch := (field "pairing_epoch").getD 0
      some ⟨epoch, gen % 2 ^ 32, send, recv⟩

/-- The document of a session shows the session's watermark. -/
theorem ratchetSnapshotWatermark_toJson {F : SnapshotFormat K B} (lawful : F.Lawful)
    {s : DoubleRatchetState K C} (hgen : s.ratchetGeneration ≤ u32Max) :
    ratchetSnapshotWatermark F (F.toJson s.toSnapshot) = .ok (some (.fromLive s)) := by
  obtain ⟨field, hfields, hepoch, hgeneration, hsend, hrecv⟩ := lawful.fields_toJson s.toSnapshot
  have hmod : s.toSnapshot.ratchetGeneration % 2 ^ 32 = s.ratchetGeneration :=
    Nat.mod_eq_of_lt (show s.ratchetGeneration < 2 ^ 32 by unfold u32Max at hgen; omega)
  rw [ratchetSnapshotWatermark, hfields]
  simp only [hepoch, hgeneration, hsend, hrecv, hmod, Option.bind_eq_bind, Option.bind_some,
    Option.getD_some]
  rfl

/-- Sessions by peer. -/
abbrev RatchetSessionMap (K C : Type) := AList fun _ : String => DoubleRatchetState K C

/-- Start a session with a peer that has none. The lengths of all keys but our own ML-KEM keys are
checked. -/
def RatchetSessionMap.ratchetInitSessionWithKeypair (P : Primitives K C)
    (map : RatchetSessionMap K C) (peerIdentity : String) (masterSharedSecret : Bytes)
    (isInitiator : Bool) (ourKeypair : HybridKeyPair) (peerX25519Pk peerMlkemPk : Option Bytes) :
    Except KyberError (RatchetSessionMap K C) :=
  if peerX25519Pk.any (·.length ≠ 32) then
    .error (.invalidKeyLength 32 (peerX25519Pk.getD []).length)
  else if peerMlkemPk.any (!P.mlkemPublicKeyValid ·) then
    .error (.invalidKeyLength 1184 (peerMlkemPk.getD []).length)
  else if ourKeypair.x25519Pk.length ≠ 32 ∨ ourKeypair.x25519Sk.length ≠ 32 then
    .error (.invalidKeyLength 32 ourKeypair.x25519Pk.length)
  else if peerIdentity ∈ map then
    .error (.cryptoError "Session already exists for this peer. Remove it first.")
  else
    .ok (AList.insert peerIdentity (.newWithKeypair P masterSharedSecret isInitiator ourKeypair
      peerX25519Pk peerMlkemPk) map)

/-- Start a session from the secrets behind two handles. Empty public keys are left out. -/
def RatchetSessionMap.ratchetInitSessionFromKemHandle (P : Primitives K C)
    (map : RatchetSessionMap K C) (peerIdentity : String) (isInitiator : Bool)
    (keypair : Except KyberError HybridKeyPair) (kemSecret : Except KyberError Bytes)
    (peerX25519Pk peerMlkemPk : Bytes) : Except KyberError (RatchetSessionMap K C) := do
  let secret ← kemSecret
  let pair ← keypair
  map.ratchetInitSessionWithKeypair P peerIdentity secret isInitiator pair
    (if peerX25519Pk = [] then none else some peerX25519Pk)
    (if peerMlkemPk = [] then none else some peerMlkemPk)

/-- The sessions and the Synchronize bookkeeping of every peer. -/
structure RatchetRegistry (K C : Type) where
  sessions : RatchetSessionMap K C := ∅
  gates : AList (fun _ : String => SyncGate) := ∅

namespace RatchetRegistry

variable (P : Primitives K C) (F : SnapshotFormat K B) (r : RatchetRegistry K C)

variable (peer : String)

/-- The Synchronize bookkeeping of a peer. -/
def gate : SyncGate := (r.gates.lookup peer).getD {}

/-- Answer a call to the session of a peer. -/
def withRatchetSession (call : Call C) :
    Except KyberError (Response C) × RatchetRegistry K C :=
  match r.sessions.lookup peer with
  | none =>
    (.error (.cryptoError
      s!"No ratchet session for peer '{peer}'. Call ratchet_init_session first."), r)
  | some s =>
    let res := Session.exec P peer ⟨s, r.gate peer⟩ call
    (.ok res.1,
      { sessions := r.sessions.insert peer res.2.ratchet
        gates := r.gates.insert peer res.2.gate })

/-- A call changes the session of its peer and no other. -/
theorem lookup_withRatchetSession (peer q : String) (call : Call C) :
    (r.withRatchetSession P peer call).2.sessions.lookup q =
      (r.sessions.lookup q).map fun s =>
        if q = peer then (Session.exec P peer ⟨s, r.gate peer⟩ call).2.ratchet else s := by
  unfold withRatchetSession
  cases hpeer : r.sessions.lookup peer with
  | none =>
    by_cases hq : q = peer
    · rw [hq, hpeer, Option.map_none]
    · simp [hq]
  | some s =>
    by_cases hq : q = peer
    · subst hq
      simp [hpeer]
    · simp [hq, AList.lookup_insert_ne]

/-- Forget the session of a peer. The Synchronize bookkeeping stays. -/
def ratchetRemoveSession : RatchetRegistry K C :=
  { r with sessions := r.sessions.erase peer }

/-- Move the session of a peer to the next pairing epoch. -/
def ratchetBumpPairingEpoch : Option ℕ × RatchetRegistry K C :=
  match r.sessions.lookup peer with
  | none => (none, r)
  | some s =>
    (some s.bumpPairingEpoch.pairingEpoch,
      { r with sessions := r.sessions.insert peer s.bumpPairingEpoch })

/-- The peers that have a session. -/
def ratchetPeerIds : List String := r.sessions.keys

/-- The watermark of a live session. -/
def ratchetSessionWatermark : Option RatchetWatermark :=
  (r.sessions.lookup peer).map .fromLive

/-- Serialize the session of a peer. -/
def ratchetExportSession : Option B :=
  (r.sessions.lookup peer).map fun s => F.toJson s.toSnapshot

/-- Whether the live session of a peer forbids the import of a snapshot. -/
def importWatermarkGuard (snapWm : RatchetWatermark) : Bool :=
  RatchetWatermark.refusesImport (r.ratchetSessionWatermark peer) snapWm

/-- Import a serialized session. A snapshot that the guard refuses is dropped without an
error. -/
def ratchetImportSession (data : B) (now : Clock) :
    Except KyberError (RatchetRegistry K C) :=
  match F.fromJson data with
  | .error e => .error (.serializationError e)
  | .ok snap =>
    if r.importWatermarkGuard peer (.fromSnapshot snap) then .ok r
    else .ok { r with sessions := r.sessions.insert peer (.fromSnapshot snap now) }

end RatchetRegistry

end KyberPipe
