import Mathlib.Data.Finset.Max
import Mathlib.Data.Finset.Sort
import Mathlib.Data.Prod.Lex
import KyberPipe.Crypto.Aead
import KyberPipe.Crypto.Kem

/-!
# Double-ratchet session state

The session record of `state.rs` with its chains, proposal slots, replay window and
skip-key cache, the ageing predicates of `policy.rs` and the construction of a fresh
session.

Counters are natural numbers. The monotonic clock is in nanoseconds, the wall clock in
seconds.
-/

namespace KyberPipe

/-- `RATCHET_REKEY_INTERVAL` -/
def ratchetRekeyInterval : ℕ := 100

/-- `INCOMING_REKEY_TTL_SECS` -/
def incomingRekeyTtlSecs : ℕ := 60

/-- `REKEY_RETRY_TTL_SECS` -/
def rekeyRetryTtlSecs : ℕ := 15

/-- `SEEN_SET_MAX` -/
def seenSetMax : ℕ := 4096

/-- Nanoseconds per second. -/
def nanosPerSec : ℕ := 1000000000

/-- One reading of the two clocks. -/
structure Clock where
  /-- Monotonic time in nanoseconds. -/
  mono : ℕ
  /-- Wall-clock unix time in seconds. -/
  unix : ℕ
  deriving DecidableEq

/-- A rekey payload: the proposer's new public keys and the KEM ciphertext. -/
structure RekeyPayload where
  x25519Pk : Bytes
  mlkemPk : Bytes
  ciphertext : Bytes
  deriving DecidableEq

/-- A pending outgoing rekey confirmation. -/
structure RekeyCarrier where
  /-- Sequence number of the message that currently carries the payload. -/
  carrierSeq : ℕ
  attachedAt : ℕ
  attachedAtUnix : ℕ
  firstAttachedAt : ℕ
  firstAttachedAtUnix : ℕ
  payload : RekeyPayload
  deriving DecidableEq

/-- A symmetric chain: its key and its position. -/
structure Chain (K : Type) where
  key : K
  messageCount : ℕ
  deriving DecidableEq

/-- The slot of the peer's staged rekey proposal. -/
structure IncomingProposal (K : Type) where
  rootKey : Option K := none
  sendingChainKey : Option K := none
  receivingChainKey : Option K := none
  peerX25519Pk : Option Bytes := none
  peerMlkemPk : Option Bytes := none
  generationBump : Bool := false
  carrierSeq : Option ℕ := none
  carrierGen : Option ℕ := none
  attachedAtUnix : Option ℕ := none
  attachedAtMono : Option ℕ := none
  deriving DecidableEq

/-- The slot of our own staged rekey proposal. -/
structure OutgoingProposal (K : Type) where
  rootKey : Option K := none
  sendingChainKey : Option K := none
  receivingChainKey : Option K := none
  hybridPair : Option HybridKeyPair := none
  rekeyPayload : Option RekeyPayload := none
  deriving DecidableEq

/-- Positions delivered so far: the set of the current window and the watermark of the
retained previous generation. -/
structure ReplayWindow where
  seen : Finset (ℕ × ℕ) := ∅
  prevGenHighestDelivered : Option ℕ := none
  deriving DecidableEq

/-- Cached message keys by generation and sequence number. -/
abbrev SkipKeyMap (K : Type) := AList (fun _ : ℕ × ℕ => K)

/-- An encrypted ratchet message. -/
structure RatchetEncryptedMessage (C : Type) where
  nonce : Nonce
  ciphertext : C
  rekeyX25519Pk : Option Bytes
  rekeyMlkemPk : Option Bytes
  rekeyCiphertext : Option Bytes
  deriving DecidableEq

/-- A double-ratchet session. -/
structure DoubleRatchetState (K C : Type) where
  rootKey : K
  send : Chain K
  recv : Chain K
  ourHybridPair : HybridKeyPair
  peerX25519Pk : Option Bytes
  peerMlkemPk : Option Bytes
  rekeyInterval : ℕ
  ratchetGeneration : ℕ
  pairingEpoch : ℕ
  previousRecvChainKey : Option K
  previousRecvAnchor : Option ℕ
  previousRecvGen : Option ℕ
  replayWindow : ReplayWindow
  incomingProposal : IncomingProposal K
  outgoingProposal : OutgoingProposal K
  skipMessageKeys : SkipKeyMap K
  maxSkip : ℕ
  previousKeypairs : List HybridKeyPair
  maxKeyHistory : ℕ
  rekeyPendingConfirmQueue : List RekeyCarrier
  pendingRekeyAckSeq : Option ℕ
  isInitiator : Bool
  resyncForwardTotal : ℕ
  /-- The last peeked acknowledgement and the carrier it acknowledges. -/
  peekedAckCache : Option (ℕ × RatchetEncryptedMessage C)

/-! ## Ageing -/

variable (c : RekeyCarrier)

/-- The age of a carrier since it was last attached, in nanoseconds: the larger of the two
clocks' readings. -/
def RekeyCarrier.effectiveAge (now : Clock) : ℕ :=
  max (now.mono - c.attachedAt) ((now.unix - c.attachedAtUnix) * nanosPerSec)

/-- The age of a carrier since its proposal was first staged, in nanoseconds. -/
def RekeyCarrier.firstAttachedEffectiveAge (now : Clock) : ℕ :=
  max (now.mono - c.firstAttachedAt) ((now.unix - c.firstAttachedAtUnix) * nanosPerSec)

/-- Whether an unacknowledged carrier is due to be sent again. -/
def RekeyCarrier.isDue (now : Clock) : Bool :=
  rekeyRetryTtlSecs * nanosPerSec ≤ c.effectiveAge now

/-- Whether the staged incoming proposal has outlived its bounded lifetime. -/
def IncomingProposal.isStale {K : Type} (p : IncomingProposal K) (now : Clock) : Bool :=
  let wallElapsed := p.attachedAtUnix.elim 0 (now.unix - ·)
  let monoElapsed := p.attachedAtMono.elim 0 (fun at_ => (now.mono - at_) / nanosPerSec)
  incomingRekeyTtlSecs ≤ max wallElapsed monoElapsed

/-- Whether every carrier of the outgoing proposal has outlived the bounded lifetime. -/
def outgoingProposalIsStale (queue : List RekeyCarrier) (now : Clock) : Bool :=
  !queue.isEmpty &&
    queue.all fun c => incomingRekeyTtlSecs * nanosPerSec ≤ c.firstAttachedEffectiveAge now

/-! ## Replay window -/

/-- Drop whole generations from the oldest one on until the set fits its bound. The last
branch trims the lowest entries if no entry of the oldest generation could be dropped. Every
round makes the set smaller, so its cardinality bounds the rounds. -/
def evictSeen : ℕ → Finset (ℕ × ℕ) → Finset (ℕ × ℕ)
  | 0, seen => seen
  | rounds + 1, seen =>
    if seen.card ≤ seenSetMax then seen
    else if h : (seen.image Prod.fst).Nonempty then
      let kept := seen.filter fun e => e.1 ≠ (seen.image Prod.fst).min' h
      if kept.card = seen.card then
        let lowest := ((seen.image toLex).sort.take (seen.card - seenSetMax)).map ofLex
        evictSeen rounds (seen \ lowest.toFinset)
      else evictSeen rounds kept
    else seen

variable (w : ReplayWindow)

/-- Record a delivered position. -/
def ReplayWindow.recordDelivered (generation seq : ℕ) : ReplayWindow :=
  let seen := insert (generation, seq) w.seen
  { w with seen := evictSeen seen.card seen }

/-- Raise the watermark of the previous generation. -/
def ReplayWindow.raiseWatermark (seq : ℕ) : ReplayWindow :=
  { w with prevGenHighestDelivered := some (w.prevGenHighestDelivered.elim seq (max · seq)) }

theorem evictSeen_subset (rounds : ℕ) (seen : Finset (ℕ × ℕ)) :
    evictSeen rounds seen ⊆ seen := by
  induction rounds generalizing seen with
  | zero => exact subset_rfl
  | succ rounds ih =>
    unfold evictSeen
    split_ifs
    · exact subset_rfl
    · dsimp only
      split_ifs
      · exact (ih _).trans Finset.sdiff_subset
      · exact (ih _).trans (Finset.filter_subset _ _)
    · exact subset_rfl

/-- Recording a delivery adds nothing but that delivery. -/
theorem ReplayWindow.recordDelivered_subset (generation seq : ℕ) :
    (w.recordDelivered generation seq).seen ⊆ insert (generation, seq) w.seen :=
  evictSeen_subset _ _

/-! ## Rekey parameters -/

/-- The associated data that binds a rekey payload, empty without one. A partial payload is
an error. -/
def buildRekeyAad (rekeyCiphertext rekeyX25519Pk rekeyMlkemPk : Option Bytes) :
    Except KyberError Bytes :=
  match rekeyCiphertext, rekeyX25519Pk, rekeyMlkemPk with
  | some ct, some xpk, some mpk => .ok (114 :: xpk ++ 109 :: mpk ++ 99 :: ct)
  | none, none, none => .ok []
  | _, _, _ => .error
      (.cryptoError "Rekey AAD: partial rekey parameter set (must be all-or-nothing)")

variable (payload : Option RekeyPayload)

/-- The associated data of a complete or absent payload. -/
def payloadAad : Bytes :=
  payload.elim [] fun p => 114 :: p.x25519Pk ++ 109 :: p.mlkemPk ++ 99 :: p.ciphertext

theorem buildRekeyAad_payload :
    buildRekeyAad (payload.map (·.ciphertext)) (payload.map (·.x25519Pk))
      (payload.map (·.mlkemPk)) = .ok (payloadAad payload) := by
  cases payload with
  | none => rfl
  | some p => rfl

/-! ## Fresh sessions -/

section New

variable {K C : Type} (P : Primitives K C)

/-- The root key of a fresh session. -/
def initialRootKey (masterSharedSecret : Bytes) : K :=
  let sessionSalt := P.hkdf .none (.secret masterSharedSecret) .sessionSalt
  let masterSeed := P.hkdf (.pqSalt sessionSalt) (.secret masterSharedSecret) .masterSeed
  P.hkdf (.rootSalt sessionSalt) (.key masterSeed) .rootKey

/-- The sending and receiving chain keys of a root key under two labels. -/
def deriveChainKeysFromRoot (root : K) (sendLabel recvLabel : Info) : K × K :=
  (P.hkdf .chainSalt (.key root) sendLabel, P.hkdf .chainSalt (.key root) recvLabel)

/-- A fresh session over a master shared secret. The two roles swap the chain labels. -/
def DoubleRatchetState.newWithKeypair (masterSharedSecret : Bytes) (isInitiator : Bool)
    (ourHybridPair : HybridKeyPair) (peerX25519Pk peerMlkemPk : Option Bytes) :
    DoubleRatchetState K C :=
  let root := initialRootKey P masterSharedSecret
  let chains :=
    if isInitiator then deriveChainKeysFromRoot P root .sendChain .recvChain
    else deriveChainKeysFromRoot P root .recvChain .sendChain
  { rootKey := root
    send := ⟨chains.1, 0⟩
    recv := ⟨chains.2, 0⟩
    ourHybridPair, peerX25519Pk, peerMlkemPk
    rekeyInterval := ratchetRekeyInterval
    ratchetGeneration := 0
    pairingEpoch := 0
    previousRecvChainKey := none
    previousRecvAnchor := none
    previousRecvGen := none
    replayWindow := {}
    incomingProposal := {}
    outgoingProposal := {}
    skipMessageKeys := ∅
    maxSkip := 100
    previousKeypairs := []
    maxKeyHistory := 3
    rekeyPendingConfirmQueue := []
    pendingRekeyAckSeq := none
    isInitiator
    resyncForwardTotal := 0
    peekedAckCache := none }

end New

end KyberPipe
