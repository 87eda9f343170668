import KyberPipe.Ratchet.Rekey

/-!
# Encryption

`ratchet_encrypt` of `encrypt.rs`: the send counter is taken first, a due carrier is sent again,
a rekey is proposed at every interval boundary, and the message is sealed under the next key of
the sending chain.
-/

namespace KyberPipe

/-- The randomness one encryption may draw. -/
structure EncryptRandomness where
  keygen : KeygenSeed
  encapsulation : EncapsulationSeed
  deriving DecidableEq

namespace DoubleRatchetState

variable {K C : Type} (P : Primitives K C) (s : DoubleRatchetState K C)

/-- The session after the send counter was taken. -/
def countSend : DoubleRatchetState K C :=
  { s with send := { s.send with messageCount := s.send.messageCount + 1 } }

/-- The session after its due carriers left the queue. -/
def dropDueCarriers (now : Clock) : DoubleRatchetState K C :=
  { s with rekeyPendingConfirmQueue := s.rekeyPendingConfirmQueue.filter (!·.isDue now) }

/-- The session after the sending chain advanced by one position. -/
def stepSend : DoubleRatchetState K C :=
  { s with send := { s.send with key := P.chain.step s.send.key } }

/-- Whether a rekey is proposed with message `seq`. -/
def shouldRekey (seq : ℕ) : Bool :=
  0 < seq && seq % s.rekeyInterval == 0 && s.rekeyPendingConfirmQueue.isEmpty &&
    !(s.outgoingProposal.rootKey.isSome || s.incomingProposal.rootKey.isSome)

/-- Attach an already staged payload to message `seq`. -/
def resendCarrier (carrier : RekeyCarrier) (seq : ℕ) (now : Clock) : DoubleRatchetState K C :=
  { s with
    rekeyPendingConfirmQueue := s.rekeyPendingConfirmQueue ++
      [{ carrier with carrierSeq := seq, attachedAt := now.mono, attachedAtUnix := now.unix }] }

/-- Stage a proposal over the shared secret of `kem` and attach it to message `seq`. -/
def stageOutgoing (ourNew : HybridKeyPair) (kem : HybridKemResult) (seq : ℕ) (now : Clock) :
    DoubleRatchetState K C :=
  let payload : RekeyPayload := ⟨ourNew.x25519Pk, ourNew.mlkemPk, kem.ciphertextBytes⟩
  { s with
    outgoingProposal :=
      { rootKey := some (P.nextRootKey s.rootKey kem.combinedSharedSecret)
        sendingChainKey := some (P.nextSendChain s.rootKey kem.combinedSharedSecret)
        receivingChainKey := some (P.nextRecvChain s.rootKey kem.combinedSharedSecret)
        hybridPair := some ourNew
        rekeyPayload := some payload }
    rekeyPendingConfirmQueue := s.rekeyPendingConfirmQueue ++
      [{ carrierSeq := seq, attachedAt := now.mono, attachedAtUnix := now.unix,
         firstAttachedAt := now.mono, firstAttachedAtUnix := now.unix, payload }] }

/-- Propose a rekey with message `seq`. Without the peer's public keys the message goes out
without a payload. -/
def proposeRekey (seq : ℕ) (rnd : EncryptRandomness) (now : Clock) :
    Except KyberError (Option RekeyPayload) × DoubleRatchetState K C :=
  match s.peerX25519Pk, s.peerMlkemPk with
  | some peerXpk, some peerMpk =>
    let ourNew := generateHybridKeypair P rnd.keygen
    match encapsulateHybrid P peerXpk peerMpk rnd.encapsulation with
    | .ok kem =>
      (.ok (some ⟨ourNew.x25519Pk, ourNew.mlkemPk, kem.ciphertextBytes⟩),
        s.stageOutgoing P ourNew kem seq now)
    | .error e => (.error e, s)
  | _, _ => (.ok none, s)

/-- Choose the rekey payload of message `seq`. Every due carrier leaves the queue and the first
of them is sent again. -/
def attachRekey (seq : ℕ) (rnd : EncryptRandomness) (now : Clock) :
    Except KyberError (Option RekeyPayload) × DoubleRatchetState K C :=
  let resend := s.rekeyPendingConfirmQueue.find? (·.isDue now)
  let s := s.dropDueCarriers now
  match resend with
  | some carrier => (.ok (some carrier.payload), s.resendCarrier carrier seq now)
  | none => if s.shouldRekey seq then s.proposeRekey P seq rnd now else (.ok none, s)

/-- Seal a message under the current key of the sending chain and advance the chain. -/
def sealMessage (seq : ℕ) (plaintext : Bytes) (payload : Option RekeyPayload) :
    Except KyberError (RatchetEncryptedMessage C) × DoubleRatchetState K C :=
  let nonce := generateNonceFromSeq seq s.ratchetGeneration
  match buildRekeyAad (payload.map (·.ciphertext)) (payload.map (·.x25519Pk))
      (payload.map (·.mlkemPk)) with
  | .error e => (.error e, s)
  | .ok aad =>
    let msgKey := P.chain.out s.send.key
    let s := s.stepSend P
    match encryptChacha20 P msgKey nonce plaintext aad with
    | .error e => (.error e, s)
    | .ok ciphertext =>
      (.ok
        { nonce, ciphertext
          rekeyX25519Pk := payload.map (·.x25519Pk)
          rekeyMlkemPk := payload.map (·.mlkemPk)
          rekeyCiphertext := payload.map (·.ciphertext) }, s)

/-- Encrypt a plaintext as the next message of the sending chain. The counter advances even
if the call fails later on. -/
def ratchetEncrypt (plaintext : Bytes) (rnd : EncryptRandomness) (now : Clock) :
    Except KyberError (RatchetEncryptedMessage C) × DoubleRatchetState K C :=
  let seq := s.send.messageCount
  let s := s.countSend
  if s.ratchetGeneration = u32Max then
    let generation := s.ratchetGeneration
    (.error (.cryptoError
      s!"Ratchet generation {generation} reaches u32::MAX — nonce reuse risk. Re-pair required."),
      s)
  else
    match s.attachRekey P seq rnd now with
    | (.error e, s) => (.error e, s)
    | (.ok payload, s) => s.sealMessage P seq plaintext payload

/-! ## What an encryption can do -/

/-- The possible results of choosing the payload of message `seq`. -/
inductive Attaches (P : Primitives K C) (s : DoubleRatchetState K C) (seq : ℕ)
    (rnd : EncryptRandomness) (now : Clock) :
    Except KyberError (Option RekeyPayload) → DoubleRatchetState K C → Prop
  | nothing : Attaches P s seq rnd now (.ok none) (s.dropDueCarriers now)
  | resend {carrier : RekeyCarrier} (hmem : carrier ∈ s.rekeyPendingConfirmQueue)
      (hdue : carrier.isDue now = true) :
      Attaches P s seq rnd now (.ok (some carrier.payload))
        ((s.dropDueCarriers now).resendCarrier carrier seq now)
  | propose {peerXpk peerMpk : Bytes} {kem : HybridKemResult}
      (hshould : (s.dropDueCarriers now).shouldRekey seq = true)
      (hxpk : s.peerX25519Pk = some peerXpk) (hmpk : s.peerMlkemPk = some peerMpk)
      (hkem : encapsulateHybrid P peerXpk peerMpk rnd.encapsulation = .ok kem) :
      Attaches P s seq rnd now
        (.ok (some ⟨(generateHybridKeypair P rnd.keygen).x25519Pk,
          (generateHybridKeypair P rnd.keygen).mlkemPk, kem.ciphertextBytes⟩))
        ((s.dropDueCarriers now).stageOutgoing P (generateHybridKeypair P rnd.keygen) kem seq now)
  | unencapsulated {peerXpk peerMpk : Bytes} {e : KyberError}
      (hxpk : s.peerX25519Pk = some peerXpk) (hmpk : s.peerMlkemPk = some peerMpk)
      (hkem : encapsulateHybrid P peerXpk peerMpk rnd.encapsulation = .error e) :
      Attaches P s seq rnd now (.error e) (s.dropDueCarriers now)

theorem attachRekey_attaches (seq : ℕ) (rnd : EncryptRandomness) (now : Clock) :
    Attaches P s seq rnd now (s.attachRekey P seq rnd now).1 (s.attachRekey P seq rnd now).2 := by
  unfold attachRekey
  cases hfind : s.rekeyPendingConfirmQueue.find? (·.isDue now) with
  | some carrier =>
    have hdue := List.find?_some hfind
    exact .resend (List.mem_of_find?_eq_some hfind) hdue
  | none =>
    dsimp only
    split_ifs with hshould
    · unfold proposeRekey
      split
      · rename_i peerXpk peerMpk hxpk hmpk
        split
        · rename_i kem hkem
          exact .propose hshould hxpk hmpk hkem
        · rename_i e hkem
          exact .unencapsulated hxpk hmpk hkem
      · exact .nothing
    · exact .nothing

/-- The message over a nonce, a ciphertext and a payload. -/
def messageOf (nonce : Nonce) (ciphertext : C) (payload : Option RekeyPayload) :
    RatchetEncryptedMessage C where
  nonce := nonce
  ciphertext := ciphertext
  rekeyX25519Pk := payload.map (·.x25519Pk)
  rekeyMlkemPk := payload.map (·.mlkemPk)
  rekeyCiphertext := payload.map (·.ciphertext)

/-- The possible results of an encryption. -/
inductive EncryptStep (P : Primitives K C) (s : DoubleRatchetState K C) (pt : Bytes)
    (rnd : EncryptRandomness) (now : Clock) :
    Except KyberError (RatchetEncryptedMessage C) → DoubleRatchetState K C → Prop
  | exhausted (e : KyberError) (hmax : s.ratchetGeneration = u32Max) :
      EncryptStep P s pt rnd now (.error e) s.countSend
  | unattached {e : KyberError} {s' : DoubleRatchetState K C}
      (hmax : s.ratchetGeneration ≠ u32Max)
      (hattach : Attaches P s.countSend s.send.messageCount rnd now (.error e) s') :
      EncryptStep P s pt rnd now (.error e) s'
  | unsealed (e : KyberError) {payload : Option RekeyPayload} {s' : DoubleRatchetState K C}
      (hmax : s.ratchetGeneration ≠ u32Max)
      (hattach : Attaches P s.countSend s.send.messageCount rnd now (.ok payload) s') :
      EncryptStep P s pt rnd now (.error e) (s'.stepSend P)
  | sent {payload : Option RekeyPayload} {s' : DoubleRatchetState K C} {ciphertext : C}
      (hmax : s.ratchetGeneration ≠ u32Max)
      (hattach : Attaches P s.countSend s.send.messageCount rnd now (.ok payload) s')
      (hseal : P.aeadSeal (P.chain.out s.send.key) ⟨s.ratchetGeneration, s.send.messageCount⟩
        pt (payloadAad payload) = some ciphertext) :
      EncryptStep P s pt rnd now
        (.ok (messageOf ⟨s.ratchetGeneration, s.send.messageCount⟩ ciphertext payload))
        (s'.stepSend P)

variable {P s}

theorem shouldRekey_iff {seq : ℕ} :
    s.shouldRekey seq = true ↔
      (0 < seq ∧ seq % s.rekeyInterval = 0) ∧ s.rekeyPendingConfirmQueue = [] ∧
        s.outgoingProposal.rootKey = none ∧ s.incomingProposal.rootKey = none := by
  simp only [shouldRekey, Bool.and_eq_true, decide_eq_true_eq, beq_iff_eq, List.isEmpty_iff,
    Bool.not_eq_true', Bool.or_eq_false_iff, Option.isSome_eq_false_iff, Option.isNone_iff_eq_none,
    and_assoc]

variable {now : Clock}

theorem dropDueCarriers_of_find?_eq_none
    (h : s.rekeyPendingConfirmQueue.find? (·.isDue now) = none) : s.dropDueCarriers now = s := by
  have hkept : s.rekeyPendingConfirmQueue.filter (!·.isDue now) = s.rekeyPendingConfirmQueue := by
    rw [List.filter_eq_self]
    intro carrier hmem
    simpa using List.find?_eq_none.1 h carrier hmem
  rw [dropDueCarriers, hkept]

/-- Whether or not the seal succeeds, the chain moves: the associated data of a payload can always
be built. -/
theorem sealMessage_snd (s : DoubleRatchetState K C) (seq : ℕ) (pt : Bytes)
    (payload : Option RekeyPayload) : (s.sealMessage P seq pt payload).2 = s.stepSend P := by
  unfold sealMessage
  rw [buildRekeyAad_payload]
  dsimp only
  split
  · rfl
  · rfl

variable {s' : DoubleRatchetState K C} {rnd : EncryptRandomness}

/-- Choosing a payload changes only the outgoing slot and the confirm queue. -/
theorem Attaches.frame {seq : ℕ} {res : Except KyberError (Option RekeyPayload)}
    (h : Attaches P s seq rnd now res s') :
    s' = { s with
      outgoingProposal := s'.outgoingProposal
      rekeyPendingConfirmQueue := s'.rekeyPendingConfirmQueue } := by
  cases h <;> rfl

variable {res : Except KyberError (RatchetEncryptedMessage C)}

/-- An encryption takes the counter, chooses a payload and moves the chain: what these three
preserve, it preserves, wherever it ends. -/
theorem EncryptStep.preserves {pt : Bytes} {Q : DoubleRatchetState K C → Prop}
    (hstep : EncryptStep P s pt rnd now res s') (hcount : Q s.countSend)
    (hattached : ∀ {res : Except KyberError (Option RekeyPayload)} {t : DoubleRatchetState K C},
      Attaches P s.countSend s.send.messageCount rnd now res t → Q t)
    (hmoved : ∀ t, Q t → Q (t.stepSend P)) : Q s' := by
  cases hstep with
  | exhausted _ _ => exact hcount
  | unattached _ hattach => exact hattached hattach
  | unsealed _ _ hattach => exact hmoved _ (hattached hattach)
  | sent _ hattach _ => exact hmoved _ (hattached hattach)

/-- An encryption changes only the sending chain, the outgoing slot and the queue. -/
theorem EncryptStep.frame {pt : Bytes} (hstep : EncryptStep P s pt rnd now res s') :
    s' = { s with
      send := s'.send
      outgoingProposal := s'.outgoingProposal
      rekeyPendingConfirmQueue := s'.rekeyPendingConfirmQueue } := by
  refine hstep.preserves (Q := fun t => t = { s with
    send := t.send
    outgoingProposal := t.outgoingProposal
    rekeyPendingConfirmQueue := t.rekeyPendingConfirmQueue }) rfl ?_ ?_
  · intro res t hattach
    rw [hattach.frame]
    rfl
  · intro t ht
    rw [ht]
    rfl

variable (P s)

/-- Inversion of an encryption. -/
theorem ratchetEncrypt_step (pt : Bytes) (rnd : EncryptRandomness) (now : Clock) :
    EncryptStep P s pt rnd now (s.ratchetEncrypt P pt rnd now).1
      (s.ratchetEncrypt P pt rnd now).2 := by
  unfold ratchetEncrypt
  dsimp only
  split_ifs with hmax
  · exact .exhausted _ hmax
  · have hattach := attachRekey_attaches P s.countSend s.send.messageCount rnd now
    generalize s.countSend.attachRekey P s.send.messageCount rnd now = r at hattach
    obtain ⟨res, s'⟩ := r
    cases res with
    | error e => exact .unattached hmax hattach
    | ok payload =>
      have hframe := Attaches.frame hattach
      dsimp only at hattach hframe
      have hgen : s'.ratchetGeneration = s.ratchetGeneration := by
        rw [hframe]
        rfl
      have hkey : s'.send.key = s.send.key := by
        rw [hframe]
        rfl
      simp only [sealMessage, buildRekeyAad_payload, encryptChacha20, generateNonceFromSeq,
        hgen, hkey]
      split
      · rename_i e hseal
        exact .unsealed e hmax hattach
      · rename_i ciphertext hseal
        split at hseal
        · rename_i c hsome
          obtain rfl := Except.ok.inj hseal
          exact .sent hmax hattach hsome
        · exact absurd hseal (by simp)

end DoubleRatchetState

end KyberPipe
