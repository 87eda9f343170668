import Mathlib.Logic.Relation
import KyberPipe.Crypto.Symbolic
import KyberPipe.Lib.Machine
import KyberPipe.Ratchet.Ack
import KyberPipe.Ratchet.DecryptSpec

/-!
# Sessions as machines

A session answers the calls of the FFI surface. Every call that does not manipulate the
proposals by hand is a sequence of elementary steps, and invariants are proved once for each
kind of elementary step.
-/

namespace KyberPipe

variable {K C : Type}

/-- A ratchet session with the bookkeeping of its Synchronize packets. -/
structure Session (K C : Type) where
  ratchet : DoubleRatchetState K C
  gate : SyncGate

/-- The calls a session receives. -/
inductive Call (C : Type) where
  | encrypt (plaintext : Bytes) (rnd : EncryptRandomness) (now : Clock)
  | decrypt (nonce : Nonce) (ciphertext : C)
  | decryptWithRekey (nonce : Nonce) (ciphertext : C)
      (rekeyCiphertext rekeyX25519Pk rekeyMlkemPk : Option Bytes) (now : Clock)
  | processRekeyAck (seq : ℕ)
  | processRekeyAckBinary (msg : RatchetEncryptedMessage C) (now : Clock)
  | generateRekeyAck (rnd : EncryptRandomness) (now : Clock)
  | peekRekeyAck (rnd : EncryptRandomness) (now : Clock)
  | consumeRekeyAck
  | synchronizePacket (rnd : EncryptRandomness) (now : Clock)
  | processSynchronize (msg : RatchetEncryptedMessage C) (digest : ℕ) (now : Clock)
  | resync (targetSeq : ℕ) (now : Clock)
  | commitPendingRekey
  | commitOutgoingRekey
  | cancelOutgoingRekey
  | cancelPendingIncomingRekey

/-- The calls that commit or cancel a proposal by hand. -/
def Call.Manual : Call C → Prop
  | .commitPendingRekey | .commitOutgoingRekey | .cancelOutgoingRekey
  | .cancelPendingIncomingRekey => True
  | _ => False

/-- The answer to a call. `fresh` tells whether an acknowledgement was encrypted by this call
or served from the cache. -/
inductive Response (C : Type) where
  | message (result : Except KyberError (RatchetEncryptedMessage C))
  | ack (fresh : Bool) (result : Except KyberError (Option (RatchetEncryptedMessage C)))
  | plaintext (result : Except KyberError Bytes)
  | processed (result : Except KyberError Bool)
  | count (result : Except KyberError ℕ)
  | done

namespace Session

variable (P : Primitives K C) (peer : String) (σ : Session K C)

/-- Whether a peek would serve the cached acknowledgement. -/
def peekCached : Bool :=
  match σ.ratchet.pendingRekeyAckSeq with
  | some seq => (σ.ratchet.peekedAckCache.filter (·.1 == seq)).isSome
  | none => false

/-- Answer a call. -/
def exec : Call C → Response C × Session K C
  | .encrypt pt rnd now =>
    let r := σ.ratchet.ratchetEncrypt P pt rnd now
    (.message r.1, { σ with ratchet := r.2 })
  | .decrypt nonce c =>
    let r := σ.ratchet.ratchetDecrypt P nonce c
    (.plaintext r.1, { σ with ratchet := r.2 })
  | .decryptWithRekey nonce c rct rx rm now =>
    let r := σ.ratchet.ratchetDecryptWithRekey P nonce c rct rx rm now
    (.plaintext r.1, { σ with ratchet := r.2 })
  | .processRekeyAck seq =>
    let r := σ.ratchet.processRekeyAck seq
    (.processed (.ok r.1), { σ with ratchet := r.2 })
  | .processRekeyAckBinary msg now =>
    let r := σ.ratchet.ratchetProcessRekeyAckBinary P msg now
    (.processed r.1, { σ with ratchet := r.2 })
  | .generateRekeyAck rnd now =>
    let r := σ.ratchet.ratchetGenerateRekeyAck P rnd now
    (.ack true r.1, { σ with ratchet := r.2 })
  | .peekRekeyAck rnd now =>
    let r := σ.ratchet.ratchetGenerateRekeyAckPeek P rnd now
    (.ack (!σ.peekCached) r.1, { σ with ratchet := r.2 })
  | .consumeRekeyAck =>
    let r := σ.ratchet.ratchetConsumeRekeyAck
    (.processed (.ok r.1), { σ with ratchet := r.2 })
  | .synchronizePacket rnd now =>
    let r := σ.ratchet.ratchetSynchronizePacket P rnd now
    (.message r.1, { σ with ratchet := r.2 })
  | .processSynchronize msg digest now =>
    let r := ratchetProcessSynchronize P peer σ.gate σ.ratchet msg digest now
    (.count r.1, { ratchet := r.2.2, gate := r.2.1 })
  | .resync targetSeq now =>
    let r := σ.ratchet.resyncReceivingChain P targetSeq now
    (.count r.1, { σ with ratchet := r.2 })
  | .commitPendingRekey => (.done, { σ with ratchet := σ.ratchet.commitPendingRekey })
  | .commitOutgoingRekey => (.done, { σ with ratchet := σ.ratchet.commitOutgoingRekey })
  | .cancelOutgoingRekey => (.done, { σ with ratchet := σ.ratchet.cancelOutgoingRekey })
  | .cancelPendingIncomingRekey =>
    (.done, { σ with ratchet := σ.ratchet.cancelPendingIncomingRekey })

/-- The session machine. -/
def machine : Machine (Session K C) (Call C) (Response C) where
  step σ call := σ.exec P peer call

end Session

/-! ## Elementary steps -/

namespace DoubleRatchetState

/-- Bookkeeping of acknowledgements: the pending carrier, the carrier recorded in the incoming
slot and the cached acknowledgement. -/
def withAckState (s : DoubleRatchetState K C) (pending carrier : Option ℕ)
    (cache : Option (ℕ × RatchetEncryptedMessage C)) : DoubleRatchetState K C :=
  { s with
    pendingRekeyAckSeq := pending
    incomingProposal := { s.incomingProposal with carrierSeq := carrier }
    peekedAckCache := cache }

/-- One elementary step of a session. -/
inductive Evolves (P : Primitives K C) (s : DoubleRatchetState K C) :
    DoubleRatchetState K C → Prop
  | encrypt {pt : Bytes} {rnd : EncryptRandomness} {now : Clock}
      {res : Except KyberError (RatchetEncryptedMessage C)} {s' : DoubleRatchetState K C}
      (h : EncryptStep P s pt rnd now res s') : Evolves P s s'
  | decrypt {nonce : Nonce} {c : C} {payload : Option RekeyPayload} {now : Clock}
      {res : Except KyberError Bytes} {s' : DoubleRatchetState K C}
      (h : DecryptStep P s nonce c payload now res s') : Evolves P s s'
  | commitOutgoing : Evolves P s s.commitOutgoingRekey
  | resync (targetSeq : ℕ) (now : Clock) : Evolves P s (s.resyncReceivingChain P targetSeq now).2
  | ackState (pending carrier : Option ℕ) (cache : Option (ℕ × RatchetEncryptedMessage C)) :
      Evolves P s (s.withAckState pending carrier cache)

/-- One elementary step other than the bookkeeping of acknowledgements. -/
inductive CoreStep (P : Primitives K C) (s : DoubleRatchetState K C) :
    DoubleRatchetState K C → Prop
  | encrypt {pt : Bytes} {rnd : EncryptRandomness} {now : Clock}
      {res : Except KyberError (RatchetEncryptedMessage C)} {s' : DoubleRatchetState K C}
      (h : EncryptStep P s pt rnd now res s') : CoreStep P s s'
  | decrypt {nonce : Nonce} {c : C} {payload : Option RekeyPayload} {now : Clock}
      {res : Except KyberError Bytes} {s' : DoubleRatchetState K C}
      (h : DecryptStep P s nonce c payload now res s') : CoreStep P s s'
  | commitOutgoing : CoreStep P s s.commitOutgoingRekey
  | resync (targetSeq : ℕ) (now : Clock) :
      CoreStep P s (s.resyncReceivingChain P targetSeq now).2

/-- A sequence of elementary steps. -/
abbrev EvolvesStar (P : Primitives K C) :
    DoubleRatchetState K C → DoubleRatchetState K C → Prop :=
  Relation.ReflTransGen (Evolves P)

/-- A sequence of elementary steps other than the bookkeeping of acknowledgements. -/
abbrev CoreSteps (P : Primitives K C) : DoubleRatchetState K C → DoubleRatchetState K C → Prop :=
  Relation.ReflTransGen (CoreStep P)

theorem CoreStep.evolves {P : Primitives K C} {s s' : DoubleRatchetState K C}
    (h : CoreStep P s s') : Evolves P s s' := by
  cases h with
  | encrypt h => exact .encrypt h
  | decrypt h => exact .decrypt h
  | commitOutgoing => exact .commitOutgoing
  | resync targetSeq now => exact .resync targetSeq now

theorem CoreSteps.evolves {P : Primitives K C} {s s' : DoubleRatchetState K C}
    (h : CoreSteps P s s') : EvolvesStar P s s' :=
  Relation.ReflTransGen.mono (fun _ _ h => CoreStep.evolves h) _ _ h

/-- The pairing epoch and the cached acknowledgement are the same. -/
structure SameEpochAndCache (s s' : DoubleRatchetState K C) : Prop where
  epoch : s'.pairingEpoch = s.pairingEpoch
  cache : s'.peekedAckCache = s.peekedAckCache

theorem SameEpochAndCache.trans {s s' t : DoubleRatchetState K C} (h : SameEpochAndCache s s')
    (h' : SameEpochAndCache s' t) : SameEpochAndCache s t :=
  ⟨h'.epoch.trans h.epoch, h'.cache.trans h.cache⟩

theorem sameEpochAndCache_commitPendingRekey (s : DoubleRatchetState K C) :
    SameEpochAndCache s s.commitPendingRekey := by
  rw [commitPendingRekey_frame]
  exact ⟨rfl, rfl⟩

theorem sameEpochAndCache_commitPendingRekeyWithRaceResolution (s : DoubleRatchetState K C) :
    SameEpochAndCache s s.commitPendingRekeyWithRaceResolution := by
  rcases commitPendingRekeyWithRaceResolution_cases s with heq | heq
  · rw [heq]
    have hcancel : SameEpochAndCache s s.cancelOutgoingRekey := ⟨rfl, rfl⟩
    exact hcancel.trans (sameEpochAndCache_commitPendingRekey _)
  · rw [heq]
    exact sameEpochAndCache_commitPendingRekey s

theorem sameEpochAndCache_commitOutgoingRekey (s : DoubleRatchetState K C) :
    SameEpochAndCache s s.commitOutgoingRekey := by
  rw [commitOutgoingRekey_frame]
  exact ⟨rfl, rfl⟩

theorem EncryptStep.sameEpochAndCache {P : Primitives K C} {s s' : DoubleRatchetState K C}
    {pt : Bytes} {rnd : EncryptRandomness} {now : Clock}
    {res : Except KyberError (RatchetEncryptedMessage C)}
    (h : EncryptStep P s pt rnd now res s') : SameEpochAndCache s s' := by
  rw [h.frame]
  exact ⟨rfl, rfl⟩

theorem DecryptStep.sameEpochAndCache {P : Primitives K C} {s s' : DoubleRatchetState K C}
    {nonce : Nonce} {c : C} {payload : Option RekeyPayload} {now : Clock}
    {res : Except KyberError Bytes} (h : DecryptStep P s nonce c payload now res s') :
    SameEpochAndCache s s' := by
  have hderived : ∀ {t : DoubleRatchetState K C}, Derives P s nonce now payload t →
      SameEpochAndCache s t := fun ht => ⟨by rw [ht.frame], by rw [ht.frame]⟩
  cases h with
  | refused e => exact ⟨rfl, rfl⟩
  | failed e hadmits hskip hderives => exact hderived hderives
  | previous hadmits hdel => exact ⟨by rw [hdel.frame], by rw [hdel.frame]⟩
  | current hadmits hskip hderives hdel =>
    refine (hderived hderives).trans ⟨?_, ?_⟩
    · rw [resolveRekeyRaceAndAck_frame, hdel.frame]
    · rw [resolveRekeyRaceAndAck_frame, hdel.frame]
  | pending hadmits hskip hderives hdel =>
    refine (hderived hderives).trans ?_
    rw [hdel.hstate]
    exact (sameEpochAndCache_commitPendingRekeyWithRaceResolution _).trans ⟨rfl, rfl⟩

theorem CoreStep.sameEpochAndCache {P : Primitives K C} {s s' : DoubleRatchetState K C}
    (h : CoreStep P s s') : SameEpochAndCache s s' := by
  cases h with
  | encrypt h => exact h.sameEpochAndCache
  | decrypt h => exact h.sameEpochAndCache
  | commitOutgoing => exact sameEpochAndCache_commitOutgoingRekey s
  | resync targetSeq now =>
    rw [resyncReceivingChain_frame]
    exact ⟨rfl, rfl⟩

/-- Only the bookkeeping of acknowledgements touches the cached acknowledgement, and no step
changes the pairing epoch. -/
theorem CoreSteps.sameEpochAndCache {P : Primitives K C} {s s' : DoubleRatchetState K C}
    (h : CoreSteps P s s') : SameEpochAndCache s s' := by
  induction h with
  | refl => exact ⟨rfl, rfl⟩
  | tail _ hstep ih => exact ih.trans hstep.sameEpochAndCache

variable (P : Primitives K C) (s : DoubleRatchetState K C)

theorem ratchetEncrypt_coreSteps (pt : Bytes) (rnd : EncryptRandomness) (now : Clock) :
    CoreSteps P s (s.ratchetEncrypt P pt rnd now).2 :=
  .single (.encrypt (ratchetEncrypt_step P s pt rnd now))

variable (msg : RatchetEncryptedMessage C)

theorem decryptMessage_coreSteps (now : Clock) : CoreSteps P s (s.decryptMessage P msg now).2 := by
  unfold decryptMessage
  split_ifs
  · exact .refl
  · exact .single (.decrypt (ratchetDecryptWithRekey_step P s _ _ _ _ _ now))
  · exact .single (.decrypt (ratchetDecrypt_step P s _ _ now))

theorem processRekeyAck_coreSteps (seq : ℕ) : CoreSteps P s (s.processRekeyAck seq).2 := by
  rcases processRekeyAck_cases s seq with heq | heq
  · rw [heq]
    exact .single .commitOutgoing
  · rw [heq]

theorem ratchetProcessRekeyAckBinary_coreSteps (now : Clock) :
    CoreSteps P s (s.ratchetProcessRekeyAckBinary P msg now).2 := by
  have hdec := decryptMessage_coreSteps P s msg now
  rcases ratchetProcessRekeyAckBinary_state P s msg now with heq | ⟨seq, heq⟩
  · rw [heq]
    exact hdec
  · rw [heq]
    exact hdec.trans (processRekeyAck_coreSteps P _ seq)

theorem ratchetGenerateRekeyAck_evolves (rnd : EncryptRandomness) (now : Clock) :
    EvolvesStar P s (s.ratchetGenerateRekeyAck P rnd now).2 := by
  have htake : EvolvesStar P s s.takePendingRekeyAckSeq.2 := .single (.ackState none none none)
  rcases ratchetGenerateRekeyAck_state P s rnd now with heq | ⟨seq, heq⟩
  · rw [heq]
    exact htake
  · rw [heq]
    exact htake.trans (ratchetEncrypt_coreSteps P _ _ rnd now).evolves

theorem ratchetGenerateRekeyAckPeek_evolves (rnd : EncryptRandomness) (now : Clock) :
    EvolvesStar P s (s.ratchetGenerateRekeyAckPeek P rnd now).2 := by
  obtain ⟨cache, heq | ⟨seq, heq⟩⟩ := peekRekeyAck_state P s rnd now
  · rw [heq]
    exact .single (.ackState s.pendingRekeyAckSeq s.incomingProposal.carrierSeq cache)
  · rw [heq]
    have henc := (ratchetEncrypt_coreSteps P s (P.toJson (.rekeyAck seq)) rnd now).evolves
    exact henc.tail (.ackState _ _ cache)

theorem applySynchronize_coreSteps (now : Clock) :
    CoreSteps P s (s.applySynchronize P msg now).2 := by
  have hown := decryptMessage_coreSteps P s msg now
  have heffect := synchronizeEffect_applySynchronize P s msg now
  generalize s.applySynchronize P msg now = res at heffect ⊢
  cases heffect with
  | refused e => exact .refl
  | @moved gap trial t pt _ hresync hdec =>
    have hsync : CoreSteps P s (s.resyncReceivingChain P msg.nonce.seq now).2 :=
      .single (.resync _ now)
    have hopen := decryptMessage_coreSteps P trial msg now
    rw [hresync] at hsync
    rw [hdec] at hopen
    exact hsync.trans hopen
  | opened _ hdec =>
    rw [hdec] at hown
    exact hown
  | failed e _ _ hdec =>
    rw [hdec] at hown
    exact hown

theorem ratchetProcessSynchronize_coreSteps (peer : String) (gate : SyncGate)
    (msg : RatchetEncryptedMessage C) (digest : ℕ) (now : Clock) :
    CoreSteps P s (ratchetProcessSynchronize P peer gate s msg digest now).2.2 := by
  rcases ratchetProcessSynchronize_session P peer gate s msg digest now with heq | heq
  · rw [heq]
  · rw [heq]
    exact applySynchronize_coreSteps P s msg now

end DoubleRatchetState

open DoubleRatchetState in
/-- Every call that does not manipulate the proposals by hand is a sequence of elementary
steps. -/
theorem Session.exec_evolves (P : Primitives K C) (peer : String) (σ : Session K C)
    {call : Call C} (h : ¬call.Manual) :
    EvolvesStar P σ.ratchet (σ.exec P peer call).2.ratchet := by
  cases call with
  | encrypt pt rnd now => exact (ratchetEncrypt_coreSteps P _ pt rnd now).evolves
  | decrypt nonce c => exact .single (.decrypt (ratchetDecrypt_step P _ nonce c ⟨0, 0⟩))
  | decryptWithRekey nonce c rct rx rm now =>
    exact .single (.decrypt (ratchetDecryptWithRekey_step P _ nonce c rct rx rm now))
  | processRekeyAck seq => exact (processRekeyAck_coreSteps P _ seq).evolves
  | processRekeyAckBinary msg now =>
    exact (ratchetProcessRekeyAckBinary_coreSteps P _ msg now).evolves
  | generateRekeyAck rnd now => exact ratchetGenerateRekeyAck_evolves P _ rnd now
  | peekRekeyAck rnd now => exact ratchetGenerateRekeyAckPeek_evolves P _ rnd now
  | consumeRekeyAck =>
    exact .single (.ackState none σ.ratchet.incomingProposal.carrierSeq none)
  | synchronizePacket rnd now => exact (ratchetEncrypt_coreSteps P _ _ rnd now).evolves
  | processSynchronize msg digest now =>
    exact (ratchetProcessSynchronize_coreSteps P _ peer _ msg digest now).evolves
  | resync targetSeq now => exact .single (.resync targetSeq now)
  | commitPendingRekey => exact absurd trivial h
  | commitOutgoingRekey => exact absurd trivial h
  | cancelOutgoingRekey => exact absurd trivial h
  | cancelPendingIncomingRekey => exact absurd trivial h

/-! ## Two symbolic sessions -/

namespace Symbolic

/-- The `n`-th draw of randomness. -/
def randomness (n : ℕ) : EncryptRandomness :=
  ⟨⟨[], [UInt8.ofNat n]⟩, ⟨[], BitVec.ofNat 256 n⟩⟩

/-- The pairing key pair of the initiator. -/
def initiatorPair : HybridKeyPair := generateHybridKeypair primitives ⟨[], [1]⟩

/-- The pairing key pair of the responder. -/
def responderPair : HybridKeyPair := generateHybridKeypair primitives ⟨[], [2]⟩

/-- The initiator's side of a fresh pairing. -/
def initiator : DoubleRatchetState Key Ciphertext :=
  .newWithKeypair primitives [7] true initiatorPair (some responderPair.x25519Pk)
    (some responderPair.mlkemPk)

/-- The responder's side of the same pairing. -/
def responder : DoubleRatchetState Key Ciphertext :=
  .newWithKeypair primitives [7] false responderPair (some initiatorPair.x25519Pk)
    (some initiatorPair.mlkemPk)

/-- Send `n` messages, drawing randomness from the `first` draw on: the messages and the
session after them. -/
def sendAll (s : DoubleRatchetState Key Ciphertext) (first : ℕ) :
    ℕ → List (RatchetEncryptedMessage Ciphertext) × DoubleRatchetState Key Ciphertext
  | 0 => ([], s)
  | n + 1 =>
    let r := s.ratchetEncrypt primitives [] (randomness first) ⟨0, 0⟩
    let rest := sendAll r.2 (first + 1) n
    (r.1.toOption.toList ++ rest.1, rest.2)

/-- The call that hands a message to the rekey-aware entry. -/
def receive (msg : RatchetEncryptedMessage Ciphertext) : Call Ciphertext :=
  .decryptWithRekey msg.nonce msg.ciphertext msg.rekeyCiphertext msg.rekeyX25519Pk
    msg.rekeyMlkemPk ⟨0, 0⟩

end Symbolic

end KyberPipe
