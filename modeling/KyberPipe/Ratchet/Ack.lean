import KyberPipe.Ratchet.Decrypt
import KyberPipe.Ratchet.Encrypt

/-!
# Rekey acknowledgements and Synchronize packets

The session operations behind `rekey_ack.rs` and `sync.rs`: producing an acknowledgement by
taking or by peeking, processing the peer's acknowledgement, and producing and processing a
Synchronize packet.
-/

namespace KyberPipe

/-- `SYNC_RATE_WINDOW` in nanoseconds. -/
def syncRateWindow : ℕ := 15 * nanosPerSec

/-- `SYNC_RATE_BURST` -/
def syncRateBurst : ℕ := 3

/-- `APPLIED_SYNC_CACHE_MAX` -/
def appliedSyncCacheMax : ℕ := 16

/-- `APPLIED_SYNC_CACHE_TTL` in nanoseconds. -/
def appliedSyncCacheTtl : ℕ := 120 * nanosPerSec

namespace DoubleRatchetState

variable {K C : Type} (P : Primitives K C) (s : DoubleRatchetState K C)

variable (msg : RatchetEncryptedMessage C)

/-- Decrypt a received message: through the rekey-aware entry if any rekey field is present,
through the plain entry otherwise. -/
def decryptMessage (now : Clock) :
    Except KyberError Bytes × DoubleRatchetState K C :=
  if msg.rekeyX25519Pk.isSome || msg.rekeyMlkemPk.isSome || msg.rekeyCiphertext.isSome then
    if msg.rekeyX25519Pk.any fun xpk => xpk.length ≠ 32 then
      (.error (.invalidKeyLength 32 (msg.rekeyX25519Pk.elim 0 List.length)), s)
    else
      s.ratchetDecryptWithRekey P msg.nonce msg.ciphertext msg.rekeyCiphertext msg.rekeyX25519Pk
        msg.rekeyMlkemPk now
  else s.ratchetDecrypt P msg.nonce msg.ciphertext

/-! ## Acknowledgements -/

/-- Encrypt an acknowledgement of carrier `seq`. -/
def generateRekeyAck (seq : ℕ) (rnd : EncryptRandomness) (now : Clock) :
    Except KyberError (RatchetEncryptedMessage C) × DoubleRatchetState K C :=
  s.ratchetEncrypt P (P.toJson (.rekeyAck seq)) rnd now

variable (rnd : EncryptRandomness)

/-- Take the pending carrier and produce its acknowledgement. -/
def ratchetGenerateRekeyAck (now : Clock) :
    Except KyberError (Option (RatchetEncryptedMessage C)) × DoubleRatchetState K C :=
  match s.takePendingRekeyAckSeq with
  | (some seq, s) =>
    match s.generateRekeyAck P seq rnd now with
    | (.ok ack, s) => (.ok (some ack), s)
    | (.error e, s) => (.error e, s)
  | (none, s) => (.ok none, s)

/-- Produce the acknowledgement of the pending carrier without clearing it. A repeated peek
for the same carrier returns the cached message. -/
def ratchetGenerateRekeyAckPeek (now : Clock) :
    Except KyberError (Option (RatchetEncryptedMessage C)) × DoubleRatchetState K C :=
  match s.pendingRekeyAckSeq with
  | some seq =>
    match s.peekedAckCache.filter (·.1 == seq) with
    | some (_, cached) => (.ok (some cached), s)
    | none =>
      match s.generateRekeyAck P seq rnd now with
      | (.ok ack, s) => (.ok (some ack), { s with peekedAckCache := some (seq, ack) })
      | (.error e, s) => (.error e, s)
  | none => (.ok none, { s with peekedAckCache := none })

/-- A peek encrypts: a carrier is pending and its acknowledgement is not cached. -/
def peekEncrypts : Bool :=
  s.pendingRekeyAckSeq.any fun seq => (s.peekedAckCache.filter (·.1 == seq)).isNone

/-- A peek that does not encrypt leaves all but the cache. -/
theorem peekRekeyAck_of_not_encrypts {s : DoubleRatchetState K C} (h : s.peekEncrypts ≠ true)
    (rnd : EncryptRandomness) (now : Clock) :
    ∃ cache, (s.ratchetGenerateRekeyAckPeek P rnd now).2 = { s with peekedAckCache := cache } := by
  unfold ratchetGenerateRekeyAckPeek
  unfold peekEncrypts at h
  split
  · rename_i seq hpending
    split
    · exact ⟨s.peekedAckCache, rfl⟩
    · rename_i hcache
      rw [hpending, Option.any_some, hcache] at h
      exact absurd rfl h
  · exact ⟨none, rfl⟩

/-- After the pending carrier was taken, its acknowledgement is encrypted. -/
theorem ratchetGenerateRekeyAck_state (now : Clock) :
    (s.ratchetGenerateRekeyAck P rnd now).2 = s.takePendingRekeyAckSeq.2 ∨
      ∃ seq, (s.ratchetGenerateRekeyAck P rnd now).2 =
        (s.takePendingRekeyAckSeq.2.ratchetEncrypt P (P.toJson (.rekeyAck seq)) rnd now).2 := by
  unfold ratchetGenerateRekeyAck generateRekeyAck
  rcases s.takePendingRekeyAckSeq with ⟨_ | seq, t⟩
  · exact .inl rfl
  · refine .inr ⟨seq, ?_⟩
    dsimp only
    rcases t.ratchetEncrypt P (P.toJson (.rekeyAck seq)) rnd now with ⟨_ | _, _⟩
    · rfl
    · rfl

/-- Up to the cache, a peek does nothing or encrypts an acknowledgement. -/
theorem peekRekeyAck_state (now : Clock) :
    ∃ cache, (s.ratchetGenerateRekeyAckPeek P rnd now).2 = { s with peekedAckCache := cache } ∨
      ∃ seq, (s.ratchetGenerateRekeyAckPeek P rnd now).2 =
        { (s.ratchetEncrypt P (P.toJson (.rekeyAck seq)) rnd now).2 with
          peekedAckCache := cache } := by
  unfold ratchetGenerateRekeyAckPeek generateRekeyAck
  split
  · rename_i seq _
    split
    · exact ⟨s.peekedAckCache, .inl rfl⟩
    · split
      · rename_i ack t ht
        exact ⟨some (seq, ack), .inr ⟨seq, by rw [ht]⟩⟩
      · rename_i e t ht
        exact ⟨t.peekedAckCache, .inr ⟨seq, by rw [ht]⟩⟩
  · exact ⟨none, .inl rfl⟩

/-- Clear the pending carrier after its acknowledgement was written. The carrier stays
recorded in the incoming slot. -/
def ratchetConsumeRekeyAck : Bool × DoubleRatchetState K C :=
  (s.pendingRekeyAckSeq.isSome, { s with pendingRekeyAckSeq := none, peekedAckCache := none })

/-- Decrypt and process the peer's acknowledgement. -/
def ratchetProcessRekeyAckBinary (now : Clock) :
    Except KyberError Bool × DoubleRatchetState K C :=
  match s.decryptMessage P msg now with
  | (.error e, s) => (.error e, s)
  | (.ok plaintext, s) =>
    match P.fromJson plaintext with
    | none => (.error (.cryptoError "Decrypted RekeyAck payload is not a valid packet"), s)
    | some (.rekeyAck seq) => (.ok (s.processRekeyAck seq).1, (s.processRekeyAck seq).2)
    | some _ => (.error (.cryptoError "Decrypted payload is not a RekeyAck packet"), s)

/-- An acknowledgement that is decrypted is processed; nothing else happens after the decryption. -/
theorem ratchetProcessRekeyAckBinary_state (now : Clock) :
    (s.ratchetProcessRekeyAckBinary P msg now).2 = (s.decryptMessage P msg now).2 ∨
      ∃ seq, (s.ratchetProcessRekeyAckBinary P msg now).2 =
        ((s.decryptMessage P msg now).2.processRekeyAck seq).2 := by
  unfold ratchetProcessRekeyAckBinary
  rcases s.decryptMessage P msg now with ⟨_ | pt, t⟩
  · exact .inl rfl
  · dsimp only
    split
    · exact .inl rfl
    · rename_i seq _
      exact .inr ⟨seq, rfl⟩
    · exact .inl rfl

/-! ## Synchronize -/

/-- Encrypt a Synchronize packet that carries its own position. -/
def ratchetSynchronizePacket (now : Clock) :
    Except KyberError (RatchetEncryptedMessage C) × DoubleRatchetState K C :=
  s.ratchetEncrypt P (P.toJson (.synchronize s.send.messageCount)) rnd now

/-- Check that a decrypted payload is a Synchronize packet for position `syncSeq`. -/
def verifySynchronize (syncSeq : ℕ) (plaintext : Bytes) : Except KyberError Unit :=
  match P.fromJson plaintext with
  | none => .error (.cryptoError "Decrypted Synchronize payload is not a valid packet")
  | some (.synchronize sendCount) =>
    if sendCount ≠ syncSeq then
      .error (.cryptoError
        s!"Synchronize send_count {sendCount} does not match nonce position {syncSeq}")
    else .ok ()
  | some _ => .error (.cryptoError "Decrypted payload is not a Synchronize packet")

/-- Apply a Synchronize packet to the session. A gap beyond `maxSkip` and a packet of a higher
generation are tried on a copy of the session that replaces it only on success. -/
def applySynchronize (now : Clock) :
    Except KyberError ℕ × DoubleRatchetState K C :=
  let syncGen := msg.nonce.generation
  let syncSeq := msg.nonce.seq
  if syncGen = s.ratchetGeneration ∧ s.maxSkip < syncSeq - s.recv.messageCount then
    match s.resyncReceivingChain P syncSeq now with
    | (.error e, _) => (.error e, s)
    | (.ok skipped, trial) =>
      match trial.decryptMessage P msg now with
      | (.error e, _) => (.error e, s)
      | (.ok plaintext, trial) =>
        match verifySynchronize P syncSeq plaintext with
        | .error e => (.error e, s)
        | .ok () => (.ok skipped, trial)
  else if saturatingSucc s.ratchetGeneration ≤ syncGen then
    match s.decryptMessage P msg now with
    | (.ok plaintext, trial) =>
      match verifySynchronize P syncSeq plaintext with
      | .error e => (.error e, s)
      | .ok () => (.ok 0, trial)
    | (.error e, _) =>
      let current := s.ratchetGeneration
      let cause := e.display
      (.error (.crossGenerationResyncRequired
        s!"Synchronize from generation {syncGen} (current {current}) cannot be applied without the rekey carrier: {cause} — a re-pair (or a fresh rekey exchange) is required"),
        s)
  else
    match s.decryptMessage P msg now with
    | (.error e, s) => (.error e, s)
    | (.ok plaintext, s) =>
      match verifySynchronize P syncSeq plaintext with
      | .error e => (.error e, s)
      | .ok () => (.ok 0, s)

/-- What a Synchronize packet can do: the answer and the session after it. -/
inductive SynchronizeEffect (msg : RatchetEncryptedMessage C) (now : Clock) :
    Except KyberError ℕ × DoubleRatchetState K C → Prop where
  /-- It is refused on a copy. -/
  | refused (e : KyberError) : SynchronizeEffect msg now (.error e, s)
  /-- Its gap is beyond `maxSkip`, and a copy whose chain was moved to it opens it. -/
  | moved {gap : ℕ} {trial t : DoubleRatchetState K C} {plaintext : Bytes}
      (hbeyond : msg.nonce.generation = s.ratchetGeneration ∧
        s.maxSkip < msg.nonce.seq - s.recv.messageCount)
      (hresync : s.resyncReceivingChain P msg.nonce.seq now = (.ok gap, trial))
      (hdec : trial.decryptMessage P msg now = (.ok plaintext, t))
      (hverify : verifySynchronize P msg.nonce.seq plaintext = .ok ()) :
      SynchronizeEffect msg now (.ok gap, t)
  /-- The session or a copy opens it as it is. -/
  | opened {t : DoubleRatchetState K C} {plaintext : Bytes}
      (hnear : ¬(msg.nonce.generation = s.ratchetGeneration ∧
        s.maxSkip < msg.nonce.seq - s.recv.messageCount))
      (hdec : s.decryptMessage P msg now = (.ok plaintext, t))
      (hverify : verifySynchronize P msg.nonce.seq plaintext = .ok ()) :
      SynchronizeEffect msg now (.ok 0, t)
  /-- The session itself decrypts it, or fails to, and it is not applied. -/
  | failed {res : Except KyberError Bytes} {t : DoubleRatchetState K C} (e : KyberError)
      (hnear : ¬(msg.nonce.generation = s.ratchetGeneration ∧
        s.maxSkip < msg.nonce.seq - s.recv.messageCount))
      (hnext : ¬saturatingSucc s.ratchetGeneration ≤ msg.nonce.generation)
      (hdec : s.decryptMessage P msg now = (res, t)) : SynchronizeEffect msg now (.error e, t)

theorem synchronizeEffect_applySynchronize (now : Clock) :
    SynchronizeEffect P s msg now (s.applySynchronize P msg now) := by
  unfold applySynchronize
  dsimp only
  split_ifs with hbeyond hnext
  · split
    · exact .refused _
    · rename_i gap trial hresync
      split
      · exact .refused _
      · rename_i pt t hdec
        split
        · exact .refused _
        · rename_i hverify
          exact .moved hbeyond hresync hdec hverify
  · split
    · rename_i pt t hdec
      split
      · exact .refused _
      · rename_i hverify
        exact .opened hbeyond hdec hverify
    · exact .refused _
  · split
    · rename_i e t hdec
      exact .failed e hbeyond hnext hdec
    · rename_i pt t hdec
      split
      · exact .failed _ hbeyond hnext hdec
      · rename_i hverify
        exact .opened hbeyond hdec hverify

end DoubleRatchetState

/-- The per-peer bookkeeping of processed Synchronize packets: when recent ones succeeded and
the digests of those already applied. -/
structure SyncGate where
  lastSyncAt : List ℕ := []
  appliedSync : List (ℕ × ℕ) := []

/-- Process a Synchronize packet given with the digest of its bytes. A packet that was applied
recently is answered without touching the session, and a burst of packets is refused. -/
def ratchetProcessSynchronize {K C : Type} (P : Primitives K C) (peer : String)
    (gate : SyncGate) (s : DoubleRatchetState K C) (msg : RatchetEncryptedMessage C)
    (digest : ℕ) (now : Clock) :
    Except KyberError ℕ × SyncGate × DoubleRatchetState K C :=
  let gate :=
    { gate with
      appliedSync := gate.appliedSync.filter fun e => now.mono - e.2 < appliedSyncCacheTtl }
  if gate.appliedSync.any (·.1 == digest) then (.ok 0, gate, s)
  else
    let gate :=
      { gate with
        lastSyncAt := gate.lastSyncAt.filter fun at_ => now.mono - at_ < syncRateWindow }
    if syncRateBurst ≤ gate.lastSyncAt.length then
      (.error (.cryptoError
        s!"Synchronize rate-limited for peer {peer} — burst (3/15) exhausted; retry in 15s"),
        gate, s)
    else
      match s.applySynchronize P msg now with
      | (.error e, s) => (.error e, gate, s)
      | (.ok skipped, s) =>
        let applied := gate.appliedSync ++ [(digest, now.mono)]
        (.ok skipped,
          { lastSyncAt := gate.lastSyncAt ++ [now.mono]
            appliedSync := applied.drop (applied.length - appliedSyncCacheMax) }, s)

/-- The gate answers a packet itself, or the packet is applied to the session. -/
theorem ratchetProcessSynchronize_session {K C : Type} (P : Primitives K C) (peer : String)
    (gate : SyncGate) (s : DoubleRatchetState K C) (msg : RatchetEncryptedMessage C) (digest : ℕ)
    (now : Clock) :
    (ratchetProcessSynchronize P peer gate s msg digest now).2.2 = s ∨
      (ratchetProcessSynchronize P peer gate s msg digest now).2.2 =
        (s.applySynchronize P msg now).2 := by
  unfold ratchetProcessSynchronize
  dsimp only
  split_ifs
  · exact .inl rfl
  · exact .inl rfl
  · refine .inr ?_
    rcases s.applySynchronize P msg now with ⟨_ | _, _⟩
    · rfl
    · rfl

end KyberPipe
