import KyberPipe.Desktop.Poll
import KyberPipe.Desktop.Removal
import KyberPipe.Ratchet.ConcurrentImport

/-!
# Dirty tracking

A poll stores the sessions only if `ratchet_dirty_since_last_persist` tells that the polled session
moved. The check compares the generation and the two counters of the session with those it noted
when it last said so. It notes them before the store is written, and the note is never taken back. A
peer without a note counts as noted at zero.

The operations of a desktop process that touch a session, the stored snapshots or the snapshot key
are steps of a machine, with the outcomes of their file operations.
-/

namespace KyberPipe

open Symbolic RatchetRegistry StoreFormat Script

variable {K C B W T : Type}

/-- The desktop process with its disk and the snapshot key that the keyring returns. -/
structure PersistingDesktop (K C T : Type) extends Desktop K C T where
  snapshotKeyHex : String

/-- The operations of a desktop process. -/
inductive DesktopOperation (B C : Type) where
  /-- A call to the session of a peer. -/
  | call (peer : String) (call : Call C)
  /-- A poll reaches the point at which it stores the sessions. -/
  | persistStep (peer : String) (nonces : String → Nonce) (outcomes : List Bool)
  /-- `ratchet_init_session_with_keypair`, the last step of a pairing. -/
  | initSession (peer : String) (secret : Bytes) (isInitiator : Bool) (ourKeypair : HybridKeyPair)
      (peerX25519Pk peerMlkemPk : Option Bytes)
  | importSession (peer : String) (data : B) (now : Clock)
  | bumpPairingEpoch (peer : String)
  | removeSession (peer : String)
  | clearAllSessions
  /-- `remove_ratchet_session_for_peer` -/
  | removeStored (peer : String) (outcomes : List Bool)
  /-- `clear_ratchet_store` -/
  | clearStore (outcomes : List Bool)
  /-- The snapshot key in the keyring becomes another one, as after a wipe. -/
  | newSnapshotKey (snapshotKeyHex : String)

/-! ## Counted calls -/

namespace DoubleRatchetState

/-- A message that only the receive chain or the staged proposal can open, at or above the counter.
-/
structure Fresh (t : DoubleRatchetState K C) (nonce : Nonce) : Prop where
  staged : t.WellStaged
  generation : t.previousRecvGen ≠ some nonce.generation
  uncached : (nonce.generation, nonce.seq) ∉ t.skipMessageKeys
  counter_le : t.recv.messageCount ≤ nonce.seq

/-- The snapshot stays, or the generation rises, or a counter rises and none falls. -/
def MovesOn (t t' : DoubleRatchetState K C) : Prop :=
  t'.toSnapshot = t.toSnapshot ∨ t.ratchetGeneration < t'.ratchetGeneration ∨
    t'.ratchetGeneration = t.ratchetGeneration ∧ t.send.messageCount ≤ t'.send.messageCount ∧
      t.recv.messageCount ≤ t'.recv.messageCount ∧
      t.send.messageCount + t.recv.messageCount < t'.send.messageCount + t'.recv.messageCount

variable {P : Primitives K C} {t t' : DoubleRatchetState K C}

theorem EncryptStep.movesOn {pt : Bytes} {rnd : EncryptRandomness} {now : Clock}
    {res : Except KyberError (RatchetEncryptedMessage C)}
    (h : EncryptStep P t pt rnd now res t') : t.MovesOn t' := by
  obtain ⟨hgen, hcount⟩ := h.send_count
  have hrecv : t'.recv = t.recv := h.sameReceive.recv
  exact .inr (.inr ⟨hgen, by omega, by rw [hrecv], by rw [hrecv]; omega⟩)

theorem DecryptStep.movesOn {nonce : Nonce} {c : C} {payload : Option RekeyPayload} {now : Clock}
    {res : Except KyberError Bytes} (h : DecryptStep P t nonce c payload now res t')
    (hfresh : t.Fresh nonce) (hopens : payload.isSome → res.isOk = true) : t.MovesOn t' := by
  cases h with
  | refused => exact .inl rfl
  | failed e _ _ hderives =>
    -- only a payload could have been staged
    cases payload with
    | none =>
      cases hderives
      exact .inl rfl
    | some payload => cases hopens rfl
  | previous _ hdel =>
    cases hdel with
    | cached hgen => exact absurd hgen hfresh.generation
    | chain hgen => exact absurd hgen hfresh.generation
  | @current pt s₁ s₂ _ _ hderives hdel =>
    refine .inr (.inr ?_)
    rw [resolveRekeyRaceAndAck_frame]
    have hframe := hderives.frame
    generalize s₁.incomingProposal = slot at hframe
    subst hframe
    cases hdel with
    | cached hkey =>
      exact absurd (AList.lookup_isSome.1 (Option.isSome_of_mem hkey)) hfresh.uncached
    | chain =>
      have hle := hfresh.counter_le
      exact ⟨rfl, le_rfl, hle.trans (Nat.le_succ _),
        Nat.add_lt_add_left (Nat.lt_succ_of_le hle) t.send.messageCount⟩
  | pending hadmits _ hderives hdel =>
    exact .inr (.inl (hdel.generation_lt hfresh.staged hadmits hderives))

end DoubleRatchetState

/-- The call changes the snapshot of the session only together with its generation or its counters:
it encrypts, or it decrypts a message at or above the receive counter without a cached key and not
of the generation before, and a rekey payload comes with a message that opens. -/
def Call.Counted (P : Primitives K C) (t : DoubleRatchetState K C) : Call C → Prop
  | .encrypt _ _ _ | .synchronizePacket _ _ | .peekRekeyAck _ _ => True
  | .decrypt nonce _ => t.Fresh nonce
  | .decryptWithRekey nonce c rct rx rm now => t.Fresh nonce ∧
    ((DoubleRatchetState.completePayload rct rx rm).isSome →
      (t.ratchetDecryptWithRekey P nonce c rct rx rm now).1.isOk = true)
  | _ => False

open DoubleRatchetState in
theorem Call.Counted.movesOn {P : Primitives K C} {t : DoubleRatchetState K C} {c : Call C}
    (h : c.Counted P t) (peer : String) (gate : SyncGate) :
    t.MovesOn (Session.exec P peer ⟨t, gate⟩ c).2.ratchet := by
  cases c with
  | encrypt pt rnd now => exact (ratchetEncrypt_step P t pt rnd now).movesOn
  | synchronizePacket rnd now => exact (ratchetEncrypt_step P t _ rnd now).movesOn
  | peekRekeyAck rnd now =>
    obtain ⟨cache, heq | ⟨seq, heq⟩⟩ := t.peekRekeyAck_state P rnd now
    · -- the cached answer is not part of the snapshot
      exact .inl ((congrArg toSnapshot heq).trans rfl)
    · change t.MovesOn (t.ratchetGenerateRekeyAckPeek P rnd now).2
      rw [heq]
      exact (ratchetEncrypt_step P t (P.toJson (.rekeyAck seq)) rnd now).movesOn
  | decrypt nonce c => exact (ratchetDecrypt_step P t nonce c ⟨0, 0⟩).movesOn h nofun
  | decryptWithRekey nonce c rct rx rm now =>
    exact (ratchetDecryptWithRekey_step P t nonce c rct rx rm now).movesOn h.1 h.2
  | _ => exact h.elim

namespace PersistingDesktop

variable (P : Primitives K C) (F : StoreFormat K B W T) (m : PersistingDesktop K C T)

/-! ## The machine -/

/-- Put another registry in place. -/
def withRegistry (registry : RatchetRegistry K C) : PersistingDesktop K C T :=
  { m with registry }

/-- Run a program of file operations. -/
def onDisk (script : DiskScript T) (outcomes : List Bool) :
    List (StorageOp Location T) × PersistingDesktop K C T :=
  let res := script.attempt StorageOp.apply outcomes m.disk
  (res.1, { m with disk := res.2 })

variable (peer : String)

/-- The part of a poll that stores the sessions: the file operations it tries, and the state after
it. The position is noted before the write. -/
def persistStep (nonces : String → Nonce) (outcomes : List Bool) :
    List (StorageOp Location T) × PersistingDesktop K C T :=
  if peer = "" then ([], m)
  else
    let checked := m.ratchetDirtySinceLastPersist peer
    -- `checked.2` has the new note, whatever becomes of the write
    if checked.1 then
      { m with toDesktop := checked.2 }.onDisk
        (F.persistAllRatchetSessions m.snapshotKeyHex nonces m.registry) outcomes
    else ([], { m with toDesktop := checked.2 })

/-- The desktop under its operations, with the file operations that each one tries. -/
def machine :
    Machine (PersistingDesktop K C T) (DesktopOperation B C) (List (StorageOp Location T)) where
  step m
    | .call peer call => ([], m.withRegistry (m.registry.withRatchetSession P peer call).2)
    | .persistStep peer nonces outcomes => m.persistStep F peer nonces outcomes
    | .initSession peer secret isInitiator ourKeypair peerX25519Pk peerMlkemPk =>
      match m.registry.sessions.ratchetInitSessionWithKeypair P peer secret isInitiator ourKeypair
        peerX25519Pk peerMlkemPk with
      | .ok sessions => ([], m.withRegistry { m.registry with sessions })
      | .error _ => ([], m)
    | .importSession peer data now =>
      match m.registry.ratchetImportSession F.toSnapshotFormat peer data now with
      | .ok registry => ([], m.withRegistry registry)
      | .error _ => ([], m)
    | .bumpPairingEpoch peer => ([], m.withRegistry (m.registry.ratchetBumpPairingEpoch peer).2)
    | .removeSession peer => ([], m.withRegistry (m.registry.ratchetRemoveSession peer))
    | .clearAllSessions => ([], m.withRegistry { m.registry with sessions := ∅ })
    | .removeStored peer outcomes => m.onDisk (F.removeRatchetSessionForPeer peer) outcomes
    | .clearStore outcomes => m.onDisk clearRatchetStore outcomes
    -- what was sealed with the old key stays on the disk
    | .newSnapshotKey snapshotKeyHex => ([], { m with snapshotKeyHex })

/-! ## What the dirty check has to notice -/

/-- What the live session of a peer would be stored as. -/
def exported : Option B := m.registry.ratchetExportSession F.toSnapshotFormat peer

/-- What the store has for a peer, opened with the snapshot key. -/
def storedSnapshot : Option B :=
  (F.wrapKey m.snapshotKeyHex).bind fun wk => F.stored wk m.disk peer

/-- The generation and the counters of the live session of a peer, zero without a session. -/
def position : ℕ × ℕ × ℕ :=
  (m.registry.ratchetSessionWatermark peer).elim (0, 0, 0) fun wm =>
    (wm.ratchetGeneration, wm.sendMessageCount, wm.recvMessageCount)

/-- The peer has a note and a live session. -/
def Tracked : Prop :=
  peer ∈ m.lastPersistedState ∧ peer ∈ m.registry.sessions

/-- The operations that leave the dirty check right. A session with a note has counted calls only,
its epoch and its stored snapshot are not touched, and its peer gets no other session. The store
writes of polls succeed, and the files and the key change only while no live session has a note. -/
def Traceable : DesktopOperation B C → Prop
  | .call peer c => m.Tracked peer → ∀ t ∈ m.registry.sessions.lookup peer, c.Counted P t
  | .persistStep peer _ outcomes => (m.ratchetDirtySinceLastPersist peer).1 = true →
      (∀ ok ∈ outcomes, ok = true) ∧ (F.wrapKey m.snapshotKeyHex).isSome
  | .initSession peer _ _ _ _ _ | .importSession peer _ _ => peer ∉ m.lastPersistedState
  | .bumpPairingEpoch peer => ¬m.Tracked peer
  | .removeStored peer outcomes => ¬m.Tracked peer ∧ ∀ ok ∈ outcomes, ok = true
  | .clearStore _ | .newSnapshotKey _ => ∀ peer, ¬m.Tracked peer
  | .removeSession _ | .clearAllSessions => True

/-- A noted position is not ahead of the session, and where they agree, the store has the session.
-/
structure Covers (stored : Option B) (pos : ℕ × ℕ × ℕ) (t : DoubleRatchetState K C) : Prop where
  behind : pos.1 < t.ratchetGeneration ∨ pos.1 = t.ratchetGeneration ∧
    pos.2.1 ≤ t.send.messageCount ∧ pos.2.2 ≤ t.recv.messageCount
  stored : pos = (t.ratchetGeneration, t.send.messageCount, t.recv.messageCount) →
    stored = some (F.toJson t.toSnapshot)

/-- The dirty check would skip no session that the store does not have. -/
def Noticed : Prop :=
  ∀ peer, ∀ pos ∈ m.lastPersistedState.lookup peer, ∀ t ∈ m.registry.sessions.lookup peer,
    Covers F (m.storedSnapshot F peer) pos t

/-! ## Operations other than a store write -/

section Steps

variable {P} {F} {m} {m' : PersistingDesktop K C T}

theorem position_of_lookup {peer : String} {s : DoubleRatchetState K C}
    (h : m.registry.sessions.lookup peer = some s) :
    m.position peer = (s.ratchetGeneration, s.send.messageCount, s.recv.messageCount) := by
  rw [position, ratchetSessionWatermark, h]
  rfl

/-- A session that moves on leaves its noted position, unless its snapshot stays. -/
theorem Covers.movesOn {stored : Option B} {pos : ℕ × ℕ × ℕ} {t t' : DoubleRatchetState K C}
    (h : Covers F stored pos t) (hmoves : t.MovesOn t') : Covers F stored pos t' := by
  obtain hsame | hgen | ⟨hgen, hsend, hrecv, hmore⟩ := hmoves
  · have hgen : t'.ratchetGeneration = t.ratchetGeneration :=
      congrArg RatchetSnapshot.ratchetGeneration hsame
    have hsend : t'.send.messageCount = t.send.messageCount :=
      congrArg RatchetSnapshot.sendMessageCount hsame
    have hrecv : t'.recv.messageCount = t.recv.messageCount :=
      congrArg RatchetSnapshot.recvMessageCount hsame
    refine ⟨?_, ?_⟩
    · rw [hgen, hsend, hrecv]
      exact h.behind
    · rw [hgen, hsend, hrecv, hsame]
      exact h.stored
  · have hbehind := h.behind
    refine ⟨.inl (by omega), fun hat => ?_⟩
    have := congrArg Prod.fst hat
    dsimp only at this
    omega
  · have hbehind := h.behind
    refine ⟨by omega, fun hat => ?_⟩
    subst hat
    dsimp only at hbehind
    omega

/-- The dirty check stays right if the notes stay, and each session with a note moves on and stays
in the store as it was. -/
theorem Noticed.of_movesOn (h : m.Noticed F) (hnotes : m'.lastPersistedState = m.lastPersistedState)
    (hsessions : ∀ peer ∈ m.lastPersistedState, ∀ t' ∈ m'.registry.sessions.lookup peer,
      (∃ t ∈ m.registry.sessions.lookup peer, t.MovesOn t') ∧
        m'.storedSnapshot F peer = m.storedSnapshot F peer) : m'.Noticed F := by
  intro peer pos hpos t' ht'
  rw [hnotes] at hpos
  obtain ⟨⟨t, ht, hmoves⟩, hstored⟩ :=
    hsessions peer (AList.lookup_isSome.1 (Option.isSome_of_mem hpos)) t' ht'
  rw [hstored]
  exact (h peer pos hpos t ht).movesOn hmoves

/-- Sessions with a note that stay as they are. -/
theorem Noticed.withRegistry (h : m.Noticed F) {r : RatchetRegistry K C}
    (hkept : ∀ peer ∈ m.lastPersistedState, ∀ t ∈ r.sessions.lookup peer,
      t ∈ m.registry.sessions.lookup peer) : (m.withRegistry r).Noticed F :=
  h.of_movesOn rfl fun peer hpeer t ht => ⟨⟨t, hkept peer hpeer t ht, .inl rfl⟩, rfl⟩

/-- A session of a peer without a note. -/
theorem Noticed.insert (h : m.Noticed F) {peer : String} (hnew : peer ∉ m.lastPersistedState)
    (s : DoubleRatchetState K C) :
    (m.withRegistry { m.registry with
      sessions := m.registry.sessions.insert peer s }).Noticed F := by
  refine h.withRegistry fun q hq t ht => ?_
  have hne : q ≠ peer := by
    rintro rfl
    exact hnew hq
  rwa [AList.lookup_insert_ne hne] at ht

/-- The files change while no session is concerned. -/
theorem Noticed.onDisk (h : m.Noticed F) {m' : PersistingDesktop K C T}
    (hnotes : m'.lastPersistedState = m.lastPersistedState) (hregistry : m'.registry = m.registry)
    (hstored : ∀ peer, m.Tracked peer → m'.storedSnapshot F peer = m.storedSnapshot F peer) :
    m'.Noticed F := by
  refine h.of_movesOn hnotes fun peer hpeer t ht => ?_
  rw [hregistry] at ht
  exact ⟨⟨t, ht, .inl rfl⟩, hstored peer ⟨hpeer, AList.lookup_isSome.1 (Option.isSome_of_mem ht)⟩⟩

/-- Every traceable operation but the store write of a poll keeps the dirty check right. -/
theorem Noticed.step_of_not_write (lawful : F.Lawful) (h : m.Noticed F)
    {op : DesktopOperation B C} (hop : m.Traceable P F op)
    (hwrite : ∀ peer nonces outcomes, op ≠ .persistStep peer nonces outcomes) :
    ((machine P F).step m op).2.Noticed F := by
  cases op with
  | persistStep peer nonces outcomes => exact absurd rfl (hwrite peer nonces outcomes)
  | call peer c =>
    refine h.of_movesOn rfl fun q hq t' ht' => ⟨?_, rfl⟩
    simp only [machine, PersistingDesktop.withRegistry, lookup_withRatchetSession] at ht'
    obtain ⟨t, ht, rfl⟩ := Option.map_eq_some_iff.1 ht'
    refine ⟨t, ht, ?_⟩
    split_ifs with hpeer
    · subst hpeer
      have htracked : m.Tracked q := ⟨hq, AList.lookup_isSome.1 (Option.isSome_of_mem ht)⟩
      exact (hop htracked t ht).movesOn q _
    · exact .inl rfl
  | initSession peer secret isInitiator ourKeypair peerX25519Pk peerMlkemPk =>
    simp only [machine]
    unfold RatchetSessionMap.ratchetInitSessionWithKeypair
    split_ifs
    · exact h
    · exact h
    · exact h
    · exact h
    · exact h.insert hop _
  | importSession peer data now =>
    simp only [machine]
    unfold ratchetImportSession
    split
    · rename_i registry himport
      split at himport
      · cases himport
      · split_ifs at himport
        · obtain rfl := Except.ok.inj himport
          exact h
        · obtain rfl := Except.ok.inj himport
          exact h.insert hop _
    · exact h
  | bumpPairingEpoch peer =>
    simp only [machine]
    unfold ratchetBumpPairingEpoch
    split
    · exact h
    · rename_i s hs
      refine h.insert (fun hnoted => hop ⟨hnoted, ?_⟩) _
      exact AList.lookup_isSome.1 (Option.isSome_of_mem hs)
  | removeSession peer =>
    exact h.withRegistry fun _ _ _ ht => AList.lookup_of_lookup_erase ht
  | clearAllSessions => exact h.withRegistry fun _ _ _ ht => nomatch ht
  | removeStored peer outcomes =>
    refine h.onDisk rfl rfl fun q hq => ?_
    have hne : q ≠ peer := by
      rintro rfl
      exact hop.1 hq
    simp only [machine, PersistingDesktop.onDisk, storedSnapshot, stored]
    rw [attempt_snd _ _ hop.2, lookup_recovered_removeRatchetSessionForPeer lawful _ _ hne]
  | clearStore outcomes => exact h.onDisk rfl rfl fun q hq => absurd hq (hop q)
  | newSnapshotKey key => exact h.onDisk rfl rfl fun q hq => absurd hq (hop q)

end Steps

/-! ## Store writes -/

/-- A poll either finds its session at the noted position and does nothing, or notes the position
and writes the store. -/
theorem persistStep_cases {peer : String} (hpeer : peer ≠ "") (nonces : String → Nonce)
    (outcomes : List Bool) :
    (m.persistStep F peer nonces outcomes = ([], m) ∧
        ∀ s, m.registry.sessions.lookup peer = some s → m.position peer = m.noted peer) ∨
      ((m.ratchetDirtySinceLastPersist peer).1 = true ∧ m.registry.sessions ≠ ∅ ∧
        m.persistStep F peer nonces outcomes =
          { m with
            lastPersistedState := m.lastPersistedState.insert peer (m.position peer) }.onDisk
              (F.persistAllRatchetSessions m.snapshotKeyHex nonces m.registry) outcomes) := by
  unfold persistStep
  rw [if_neg hpeer]
  obtain ⟨heq, hat⟩ | ⟨s, hs, heq⟩ := m.toDesktop.ratchetDirtySinceLastPersist_cases peer
  · rw [heq]
    exact .inl ⟨rfl, fun s hs => (position_of_lookup hs).trans (hat s hs).symm⟩
  · rw [heq]
    refine .inr ⟨rfl, fun hempty => ?_, by rw [position_of_lookup hs]; rfl⟩
    rw [hempty, AList.lookup_empty] at hs
    cases hs

section Writes

variable {F} {m} (lawful : F.Lawful)
include lawful

/-- A complete store write of a poll keeps the dirty check right for all sessions. -/
theorem Noticed.persistStep (h : m.Noticed F) {peer : String} {nonces : String → Nonce}
    {outcomes : List Bool} (hop : m.Traceable P F (.persistStep peer nonces outcomes)) :
    (m.persistStep F peer nonces outcomes).2.Noticed F := by
  by_cases hpeer : peer = ""
  · rw [PersistingDesktop.persistStep, if_pos hpeer]
    exact h
  · obtain ⟨heq, -⟩ | ⟨hdirty, hne, heq⟩ := m.persistStep_cases F hpeer nonces outcomes
    · rw [heq]
      exact h
    · obtain ⟨hok, hkey⟩ := hop hdirty
      obtain ⟨wk, hwk⟩ := Option.isSome_iff_exists.1 hkey
      rw [heq]
      intro q pos hpos t ht
      change pos ∈ (m.lastPersistedState.insert peer (m.position peer)).lookup q at hpos
      change m.registry.sessions.lookup q = some t at ht
      refine ⟨?_, fun _ => ?_⟩
      · by_cases hq : q = peer
        · subst hq
          rw [AList.lookup_insert, position_of_lookup ht] at hpos
          obtain rfl := Option.some.inj hpos
          exact .inr ⟨rfl, le_rfl, le_rfl⟩
        · rw [AList.lookup_insert_ne hq] at hpos
          exact (h q pos hpos t ht).behind
      · -- all sessions are written, not only the polled one
        simp only [PersistingDesktop.onDisk, storedSnapshot, hwk, Option.bind_some]
        rw [attempt_snd _ _ hok, stored_persist lawful hwk nonces hne, ht]
        rfl

theorem Noticed.step {op : DesktopOperation B C} (h : m.Noticed F) (hop : m.Traceable P F op) :
    ((machine P F).step m op).2.Noticed F := by
  by_cases hwrite : ∃ peer nonces outcomes, op = .persistStep peer nonces outcomes
  · obtain ⟨peer, nonces, outcomes, rfl⟩ := hwrite
    exact h.persistStep P lawful hop
  · push Not at hwrite
    exact h.step_of_not_write lawful hop hwrite

end Writes

end PersistingDesktop

/-! ## Symbolic runs -/

namespace Symbolic

end Symbolic

namespace PersistingDesktop

end PersistingDesktop

end KyberPipe
