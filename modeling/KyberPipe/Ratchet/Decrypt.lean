import KyberPipe.Ratchet.SkipKeys

/-!
# Decryption

The receive path of `decrypt.rs` and `previous_generation.rs`. A message is dispatched on the
generation in its nonce to the retained previous chain, the skip-key cache, the current chain
and last the chain of the staged incoming proposal. The rekey-aware entry derives the proposal
of a carrier before it opens the message.
-/

namespace KyberPipe

/-- How a message was delivered. -/
inductive DecryptOutcome where
  | committed
  | skipped
  | proposalDerived
  deriving DecidableEq

namespace DoubleRatchetState

variable {K C : Type} (P : Primitives K C) (s : DoubleRatchetState K C)

variable (nonce : Nonce)

/-- Check the generation of a nonce against the current, next and previous generation and
its position against the replay window. -/
def validateAndExtractNonce : Except KyberError (ℕ × ℕ) :=
  let nonceGen := nonce.generation
  let seq := nonce.seq
  let current := s.ratchetGeneration
  let next := saturatingSucc s.ratchetGeneration
  if s.ratchetGeneration = u32Max then
    .error (.cryptoError "Ratchet generation at u32::MAX — nonce reuse risk. Re-pair required.")
  else if ¬(nonceGen = current ∨ nonceGen = next ∨
      (nonceGen = s.previousRecvGen.getD u32Max ∧ s.previousRecvChainKey.isSome)) then
    .error (.cryptoError
      s!"Nonce generation mismatch: expected {current} or {next}, got {nonceGen}")
  else if (nonceGen, seq) ∈ s.replayWindow.seen then
    .error (.cryptoError s!"Duplicate sequence number {seq} detected (replay attack)")
  else .ok (nonceGen, seq)

/-! ## The retained previous generation -/

/-- Deliver a message of the previous generation from the cache. -/
def deliverPreviousCached (store : SkipKeyMap K) (prevGen seq : ℕ) : DoubleRatchetState K C :=
  { s with
    skipMessageKeys := store
    replayWindow := (s.replayWindow.recordDelivered prevGen seq).raiseWatermark seq }

/-- Deliver a message of the previous generation from the retained chain. -/
def deliverPreviousChain (next : K) (skipped : SkipKeyMap K) (prevGen seq : ℕ) :
    DoubleRatchetState K C :=
  let s :=
    { s with
      previousRecvChainKey := some next
      previousRecvAnchor := some (seq + 1)
      replayWindow := s.replayWindow.raiseWatermark seq }
  let s := s.cacheSkipKeys skipped
  { s with replayWindow := s.replayWindow.recordDelivered prevGen seq }

/-- Open a message of the previous generation with the retained chain, at or above its
anchor and above the watermark. -/
def tryPreviousChain (prevCk : K) (prevAnchor prevGen seq : ℕ) (nonce : Nonce)
    (ciphertext : C) (aad : Bytes) :
    Except KyberError (Option (Bytes × Bool)) × DoubleRatchetState K C :=
  if (prevGen, seq) ∈ s.replayWindow.seen then
    (.error (.cryptoError s!"Duplicate sequence number {seq} detected (replay attack)"), s)
  else if seq < prevAnchor then
    (.error (.sessionDesynchronized
      s!"Previous-generation message seq {seq} predates retained anchor {prevAnchor}"), s)
  else if s.replayWindow.prevGenHighestDelivered.any (seq ≤ ·) then
    let watermark := s.replayWindow.prevGenHighestDelivered.getD 0
    (.error (.cryptoError
      s!"Previous-generation message seq {seq} already delivered (watermark {watermark}) — replay"),
      s)
  else
    match advanceReceivingChain P prevCk prevAnchor seq prevGen s.maxSkip with
    | .error e => (.error e, s)
    | .ok (next, skipped) =>
      match decryptChacha20 P (P.chain.keyAt prevCk (seq - prevAnchor)) nonce ciphertext aad with
      | .error e => (.error e, s)
      | .ok plaintext =>
        (.ok (some (plaintext, false)), s.deliverPreviousChain next skipped prevGen seq)

variable (nonceGen seq : ℕ)

/-- Open a message of the previous generation, from the cache first. The flag tells whether
the key came from the cache. -/
def tryDecryptPreviousGeneration (nonce : Nonce) (ciphertext : C) (aad : Bytes) :
    Except KyberError (Option (Bytes × Bool)) × DoubleRatchetState K C :=
  match s.previousRecvChainKey, s.previousRecvAnchor, s.previousRecvGen with
  | some prevCk, some prevAnchor, some prevGen =>
    if nonceGen ≠ prevGen then (.ok none, s)
    else
      match tryDecryptWithCachedKey P s.skipMessageKeys nonceGen seq nonce ciphertext aad with
      | .error e => (.error e, s)
      | .ok (some (plaintext, store)) =>
        (.ok (some (plaintext, true)), s.deliverPreviousCached store nonceGen seq)
      | .ok none => s.tryPreviousChain P prevCk prevAnchor prevGen seq nonce ciphertext aad
  | _, _, _ => (.ok none, s)

/-- Dispatch a message of the previous generation. -/
def dispatchPreviousGeneration (nonce : Nonce) (ciphertext : C) (aad : Bytes) :
    Except KyberError (Option (Bytes × Bool)) × DoubleRatchetState K C :=
  if nonceGen = s.previousRecvGen.getD u32Max ∧ s.previousRecvChainKey.isSome then
    s.tryDecryptPreviousGeneration P nonceGen seq nonce ciphertext aad
  else (.ok none, s)

/-! ## The current chain -/

/-- Deliver a message from the skip-key cache. -/
def deliverCached (store : SkipKeyMap K) (nonceGen seq : ℕ) : DoubleRatchetState K C :=
  { s with
    skipMessageKeys := store
    replayWindow := s.replayWindow.recordDelivered nonceGen seq }

/-- Deliver a message from the current chain. The replay window is cut to the current
generation and the last `2 * maxSkip` positions. -/
def deliverChain (next : K) (skipped : SkipKeyMap K) (seq : ℕ) : DoubleRatchetState K C :=
  let window := s.replayWindow.recordDelivered s.ratchetGeneration seq
  let lowerBound := seq + 1 - s.maxSkip * 2
  let s :=
    { s with
      recv := ⟨next, seq + 1⟩
      replayWindow :=
        { window with
          seen := window.seen.filter fun e => e.1 = s.ratchetGeneration ∧ lowerBound ≤ e.2 } }
  s.cacheSkipKeys skipped

/-- Open a message with the current receiving chain. For a position below the counter no key
is skipped and the key at the counter is tried. -/
def tryDecryptWithChain (seq : ℕ) (nonce : Nonce) (ciphertext : C) (aad : Bytes) :
    Except KyberError Bytes × DoubleRatchetState K C :=
  let diff := seq - s.recv.messageCount
  let maxSkip := s.maxSkip
  if maxSkip < diff then
    (.error (.sessionDesynchronized s!"Sequence gap {diff} exceeds max_skip {maxSkip}"), s)
  else
    let skipped := deriveSkipKeys P s.recv.key s.recv.messageCount s.ratchetGeneration diff
    match decryptChacha20 P (P.chain.out skipped.1) nonce ciphertext aad with
    | .error e => (.error e, s)
    | .ok plaintext => (.ok plaintext, s.deliverChain (P.chain.step skipped.1) skipped.2 seq)

/-! ## The chain of the staged incoming proposal -/

/-- Deliver a message from the chain of a proposal that was just committed. -/
def deliverCommitted (next : K) (skipped : SkipKeyMap K) (seq : ℕ) : DoubleRatchetState K C :=
  let s := { s with recv := ⟨next, seq + 1⟩ }
  let s := s.cacheSkipKeys skipped
  { s with replayWindow := s.replayWindow.recordDelivered s.ratchetGeneration seq }

/-- Commit the staged proposal and move its receiving chain past `seq`. -/
def deliverPending (seq : ℕ) : Except KyberError Unit × DoubleRatchetState K C :=
  let s := s.commitPendingRekeyWithRaceResolution
  match advanceReceivingChain P s.recv.key 0 seq s.ratchetGeneration s.maxSkip with
  | .error e => (.error e, s)
  | .ok (next, skipped) => (.ok (), s.deliverCommitted next skipped seq)

/-- Open a message that the current chain refused with the chain of the staged proposal, from
its position 0 on. The proposal is committed only if the message authenticates. -/
def tryPendingChain (firstErr : KyberError) (seq : ℕ) (nonce : Nonce) (ciphertext : C)
    (aad : Bytes) : Except KyberError Bytes × DoubleRatchetState K C :=
  match s.incomingProposal.receivingChainKey with
  | none => (.error firstErr, s)
  | some pendingRecvKey =>
    match deriveTentativeMsgKey P pendingRecvKey 0 seq s.maxSkip with
    | .error _ => (.error firstErr, s)
    | .ok pendingMsgKey =>
      match decryptChacha20 P pendingMsgKey nonce ciphertext aad with
      | .error _ => (.error firstErr, s)
      | .ok plaintext =>
        match s.deliverPending P seq with
        | (.error e, s) => (.error e, s)
        | (.ok (), s) => (.ok plaintext, s)

/-! ## Entry without rekey parameters -/

/-- Decrypt a message without a rekey payload under given associated data. -/
def ratchetDecryptWithAad (ciphertext : C) (aad : Bytes) :
    Except KyberError Bytes × DoubleRatchetState K C :=
  match s.validateAndExtractNonce nonce with
  | .error e => (.error e, s)
  | .ok (nonceGen, seq) =>
    match s.dispatchPreviousGeneration P nonceGen seq nonce ciphertext aad with
    | (.error e, s) => (.error e, s)
    | (.ok (some (plaintext, _)), s) => (.ok plaintext, s)
    | (.ok none, s) =>
      match tryDecryptWithCachedKey P s.skipMessageKeys nonceGen seq nonce ciphertext aad with
      | .error e => (.error e, s)
      | .ok (some (plaintext, store)) => (.ok plaintext, s.deliverCached store nonceGen seq)
      | .ok none =>
        match s.tryDecryptWithChain P seq nonce ciphertext aad with
        | (.ok plaintext, s) => (.ok plaintext, s)
        | (.error firstErr, s) => s.tryPendingChain P firstErr seq nonce ciphertext aad

/-- Decrypt a message without a rekey payload. -/
def ratchetDecrypt (ciphertext : C) :
    Except KyberError Bytes × DoubleRatchetState K C :=
  s.ratchetDecryptWithAad P nonce ciphertext []

/-! ## Entry with rekey parameters -/

/-- The shared secret of a rekey ciphertext under the first of the current and the retained
key pairs that decapsulates it. -/
def decapsulateRekey (rekeyCiphertext : Bytes) : Option Bytes :=
  (s.ourHybridPair :: s.previousKeypairs).findSome? fun pair =>
    (decapsulateHybrid P rekeyCiphertext pair.x25519Sk pair.mlkemSk).toOption

/-- Whether a carrier is older than the current generation or than the staged proposal. -/
def carrierSuperseded (nonceGen : ℕ) : Bool :=
  nonceGen < s.ratchetGeneration || s.incomingProposal.carrierGen.any (nonceGen < ·)

/-- Stage the peer's proposal over the shared secret `ss`. The peer's sending chain is our
receiving chain. A carrier of a newer generation restarts the attach times. -/
def stageIncoming (ss xpk mpk : Bytes) (nonceGen seq : ℕ) (now : Clock) :
    DoubleRatchetState K C :=
  let slot :=
    if s.incomingProposal.carrierGen.any (· < nonceGen) then
      { s.incomingProposal with attachedAtUnix := none, attachedAtMono := none }
    else s.incomingProposal
  let s :=
    { s with
      incomingProposal :=
        { slot with
          rootKey := some (P.nextRootKey s.rootKey ss)
          sendingChainKey := some (P.nextRecvChain s.rootKey ss)
          receivingChainKey := some (P.nextSendChain s.rootKey ss)
          peerX25519Pk := some xpk
          peerMlkemPk := some mpk
          generationBump := true
          carrierSeq := some seq
          carrierGen := some nonceGen } }
  s.stampIncomingProposalAttachedAt now

/-- Derive the proposal of a carrier into the incoming slot, before the message is opened. A
superseded carrier leaves the slot untouched. -/
def deriveIncomingProposal (rekeyCiphertext xpk mpk : Bytes) (nonceGen seq : ℕ) (now : Clock) :
    Except KyberError Unit × DoubleRatchetState K C :=
  if s.carrierSuperseded nonceGen then (.ok (), s)
  else
    match s.decapsulateRekey P rekeyCiphertext with
    | none =>
      (.error (.decapsulationFailed
        "Rekey ciphertext cannot be decapsulated with current or retained keypairs"), s)
    | some ss => (.ok (), s.stageIncoming P ss xpk mpk nonceGen seq now)

/-- Whether the peer's staged proposal beats our own: the larger pair of public keys wins. -/
def peerWins : Bool :=
  match s.outgoingProposal.rekeyPayload, s.incomingProposal.peerX25519Pk,
      s.incomingProposal.peerMlkemPk with
  | some ours, some peerXpk, some peerMpk =>
    decide (ours.x25519Pk < peerXpk) ||
      (ours.x25519Pk == peerXpk && decide (ours.mlkemPk < peerMpk))
  | some _, _, _ => false
  | none, _, _ => true

/-- After an authenticated carrier: decide a race between the two proposals and queue the
acknowledgement unless our own proposal stays. -/
def resolveRekeyRaceAndAck (seq : ℕ) (hasRekeyPayload : Bool) : DoubleRatchetState K C :=
  if !hasRekeyPayload then s
  else if s.outgoingProposal.rootKey.isSome then
    if s.peerWins then { s.cancelOutgoingRekey with pendingRekeyAckSeq := some seq }
    else s.cancelPendingIncomingRekey
  else { s with pendingRekeyAckSeq := some seq }

/-- Open a message of the current or next generation after its proposal was derived. -/
def openCurrent (nonce : Nonce) (ciphertext : C) (aad : Bytes) (hasRekeyPayload : Bool) :
    Except KyberError (Bytes × DecryptOutcome) × DoubleRatchetState K C :=
  match tryDecryptWithCachedKey P s.skipMessageKeys nonceGen seq nonce ciphertext aad with
  | .error e => (.error e, s)
  | .ok (some (plaintext, store)) =>
    (.ok (plaintext, if hasRekeyPayload then .proposalDerived else .skipped),
      (s.deliverCached store nonceGen seq).resolveRekeyRaceAndAck seq hasRekeyPayload)
  | .ok none =>
    match s.tryDecryptWithChain P seq nonce ciphertext aad with
    | (.ok plaintext, s) =>
      (.ok (plaintext, if hasRekeyPayload then .proposalDerived else .committed),
        s.resolveRekeyRaceAndAck seq hasRekeyPayload)
    | (.error firstErr, s) =>
      match s.tryPendingChain P firstErr seq nonce ciphertext aad with
      | (.ok plaintext, s) => (.ok (plaintext, .committed), s)
      | (.error e, s) => (.error e, s)

/-- Decrypt a message with optional rekey parameters and classify its delivery. -/
def ratchetDecryptWithRekeyClassified (ciphertext : C)
    (rekeyCiphertext rekeyX25519Pk rekeyMlkemPk : Option Bytes) (now : Clock) :
    Except KyberError (Bytes × DecryptOutcome) × DoubleRatchetState K C :=
  match s.validateAndExtractNonce nonce with
  | .error e => (.error e, s)
  | .ok (nonceGen, seq) =>
    match buildRekeyAad rekeyCiphertext rekeyX25519Pk rekeyMlkemPk with
    | .error e => (.error e, s)
    | .ok aad =>
      match s.dispatchPreviousGeneration P nonceGen seq nonce ciphertext aad with
      | (.error e, s) => (.error e, s)
      | (.ok (some (plaintext, fromCache)), s) =>
        (.ok (plaintext, if fromCache then .skipped else .committed), s)
      | (.ok none, s) =>
        let derived :=
          match rekeyCiphertext, rekeyX25519Pk, rekeyMlkemPk with
          | some ct, some xpk, some mpk => s.deriveIncomingProposal P ct xpk mpk nonceGen seq now
          | _, _, _ => (.ok (), s)
        match derived with
        | (.error e, s) => (.error e, s)
        | (.ok (), s) =>
          s.openCurrent P nonceGen seq nonce ciphertext aad rekeyCiphertext.isSome

/-- Decrypt a message with optional rekey parameters. -/
def ratchetDecryptWithRekey (ciphertext : C)
    (rekeyCiphertext rekeyX25519Pk rekeyMlkemPk : Option Bytes) (now : Clock) :
    Except KyberError Bytes × DoubleRatchetState K C :=
  match s.ratchetDecryptWithRekeyClassified P nonce ciphertext rekeyCiphertext rekeyX25519Pk
      rekeyMlkemPk now with
  | (.ok (plaintext, _), s) => (.ok plaintext, s)
  | (.error e, s) => (.error e, s)

end DoubleRatchetState

end KyberPipe
