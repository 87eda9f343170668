import KyberPipe.Ratchet.Snapshot

/-!
# Operations of a session

The functions of the session type as the inputs of a machine: encryption and decryption, the
bookkeeping of acknowledgements, resynchronisation, the commits and cancellations, and a round
trip through a snapshot.
-/

namespace KyberPipe

variable {K C : Type}

/-- The operations of a session. -/
inductive Operation (C : Type) where
  | encrypt (plaintext : Bytes) (rnd : EncryptRandomness) (now : Clock)
  | decrypt (nonce : Nonce) (ciphertext : C)
  | decryptWithRekey (nonce : Nonce) (ciphertext : C)
      (rekeyCiphertext rekeyX25519Pk rekeyMlkemPk : Option Bytes) (now : Clock)
  | processRekeyAck (seq : ℕ)
  | takePendingRekeyAckSeq
  | peekRekeyAck (rnd : EncryptRandomness) (now : Clock)
  | consumeRekeyAck
  | resync (targetSeq : ℕ) (now : Clock)
  | commitPendingRekey
  | commitOutgoingRekey
  | cancelOutgoingRekey
  | cancelPendingIncomingRekey
  /-- The session is stored, and the next process restores it. -/
  | restore (now : Clock)

namespace DoubleRatchetState

variable (P : Primitives K C) (s : DoubleRatchetState K C)

/-- The session after an operation. -/
def perform : Operation C → DoubleRatchetState K C
  | .encrypt pt rnd now => (s.ratchetEncrypt P pt rnd now).2
  | .decrypt nonce c => (s.ratchetDecrypt P nonce c).2
  | .decryptWithRekey nonce c rct rx rm now =>
    (s.ratchetDecryptWithRekey P nonce c rct rx rm now).2
  | .processRekeyAck seq => (s.processRekeyAck seq).2
  | .takePendingRekeyAckSeq => s.takePendingRekeyAckSeq.2
  | .peekRekeyAck rnd now => (s.ratchetGenerateRekeyAckPeek P rnd now).2
  | .consumeRekeyAck => s.ratchetConsumeRekeyAck.2
  | .resync targetSeq now => (s.resyncReceivingChain P targetSeq now).2
  | .commitPendingRekey => s.commitPendingRekey
  | .commitOutgoingRekey => s.commitOutgoingRekey
  | .cancelOutgoingRekey => s.cancelOutgoingRekey
  | .cancelPendingIncomingRekey => s.cancelPendingIncomingRekey
  | .restore now => fromSnapshot s.toSnapshot now

/-- Sessions as machines over their operations. -/
def operated : Machine (DoubleRatchetState K C) (Operation C) Unit where
  step s op := ((), s.perform P op)

@[simp]
theorem operated_step (op : Operation C) : ((operated P).step s op).2 = s.perform P op := rfl

variable {P s}

/-- Encryptions leave the pending acknowledgement and the cache alone. -/
theorem EncryptStep.ack {pt : Bytes} {rnd : EncryptRandomness} {now : Clock}
    {res : Except KyberError (RatchetEncryptedMessage C)}
    {s' : DoubleRatchetState K C} (h : EncryptStep P s pt rnd now res s') :
    s'.pendingRekeyAckSeq = s.pendingRekeyAckSeq ∧ s'.peekedAckCache = s.peekedAckCache := by
  rw [h.frame]
  exact ⟨rfl, rfl⟩

variable (P s) in
theorem pendingRekeyAckSeq_peek (rnd : EncryptRandomness) (now : Clock) :
    (s.ratchetGenerateRekeyAckPeek P rnd now).2.pendingRekeyAckSeq = s.pendingRekeyAckSeq := by
  obtain ⟨cache, hpeek | ⟨seq, hpeek⟩⟩ := peekRekeyAck_state P s rnd now
  · rw [hpeek]
  · rw [hpeek]
    exact (ratchetEncrypt_step P s (P.toJson (.rekeyAck seq)) rnd now).ack.1

end DoubleRatchetState

end KyberPipe
