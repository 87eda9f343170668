import KyberPipe.Ratchet.NonceUniqueness

/-!
# Session snapshots

The persistence record of `snapshot.rs` and the two conversions between it and a session.
Sets and maps are serialized as lists whose order carries no information, so the record keeps
them as sets and maps.

A session comes back from its snapshot with the same keys and positions. What it loses is the
monotonic clock, the cached acknowledgement and every pending confirmation but the last.
-/

namespace KyberPipe

/-- `RatchetSnapshot` -/
structure RatchetSnapshot (K : Type) where
  rootKey : K
  sendingChainKey : K
  receivingChainKey : K
  sendMessageCount : ℕ
  recvMessageCount : ℕ
  ourX25519Pk : Bytes
  ourX25519Sk : Bytes
  ourMlkemPk : Bytes
  ourMlkemSk : Bytes
  peerX25519Pk : Option Bytes
  peerMlkemPk : Option Bytes
  ratchetGeneration : ℕ
  pairingEpoch : ℕ
  pendingRootKey : Option K
  pendingSendingChainKey : Option K
  pendingReceivingChainKey : Option K
  pendingPeerX25519Pk : Option Bytes
  pendingPeerMlkemPk : Option Bytes
  pendingGenerationBump : Bool
  pendingRekeyCarrierSeq : Option ℕ
  pendingCarrierGen : Option ℕ
  outgoingRootKey : Option K
  outgoingSendingChainKey : Option K
  outgoingReceivingChainKey : Option K
  outgoingX25519Pk : Option Bytes
  outgoingX25519Sk : Option Bytes
  outgoingMlkemPk : Option Bytes
  outgoingMlkemSk : Option Bytes
  maxSkip : ℕ
  maxKeyHistory : ℕ
  previousX25519Pk : List Bytes
  previousX25519Sk : List Bytes
  previousMlkemPk : List Bytes
  previousMlkemSk : List Bytes
  skipMessageKeys : SkipKeyMap K
  seenSequenceNumbers : Finset (ℕ × ℕ)
  previousRecvChainKey : Option K
  previousRecvAnchor : Option ℕ
  previousRecvGen : Option ℕ
  previousRecvHighestDelivered : Option ℕ
  rekeyPendingConfirmQueue : List ℕ
  /-- Parallel to `rekeyPendingConfirmQueue`. -/
  rekeyPendingConfirmQueueAttachedAtUnix : List ℕ
  /-- Parallel to `rekeyPendingConfirmQueue`. -/
  rekeyPendingConfirmQueueFirstAttachedAtUnix : List ℕ
  pendingRekeyAckSeq : Option ℕ
  resyncForwardTotal : ℕ
  isInitiator : Bool
  outgoingRekeyPayload : Option RekeyPayload
  pendingProposalAttachedAtUnix : Option ℕ

/-- The key pairs of four parallel lists. -/
def zipKeypairs : List Bytes → List Bytes → List Bytes → List Bytes → List HybridKeyPair
  | xpk :: xpks, xsk :: xsks, mpk :: mpks, msk :: msks =>
    ⟨xpk, xsk, mpk, msk⟩ :: zipKeypairs xpks xsks mpks msks
  | _, _, _, _ => []

@[simp]
theorem zipKeypairs_map (pairs : List HybridKeyPair) :
    zipKeypairs (pairs.map (·.x25519Pk)) (pairs.map (·.x25519Sk)) (pairs.map (·.mlkemPk))
      (pairs.map (·.mlkemSk)) = pairs := by
  induction pairs with
  | nil => rfl
  | cons pair pairs ih => simp only [List.map_cons, zipKeypairs, ih]

/-- A queue that is cut to its last entry if it has more than one. -/
theorem ite_getLast?_toList {α : Type*} (queue : List α) :
    (if 1 < queue.length then queue.getLast?.toList else queue) = queue.getLast?.toList := by
  match queue with
  | [] | [_] => rfl
  | _ :: _ :: _ => exact if_pos (by simp)

/-- The pending confirmations of a snapshot. Missing attach times count as `now`, missing first
attach times as the attach times. Only the last confirmation survives, and the payload of the
outgoing proposal is attached to it. -/
def RatchetSnapshot.confirmQueue {K : Type} (snap : RatchetSnapshot K) (now : Clock) :
    List RekeyCarrier :=
  let queueLen := snap.rekeyPendingConfirmQueue.length
  let attach := snap.rekeyPendingConfirmQueueAttachedAtUnix.rightpad queueLen now.unix
  let firstAttach :=
    if snap.rekeyPendingConfirmQueueFirstAttachedAtUnix.length < queueLen then attach
    else snap.rekeyPendingConfirmQueueFirstAttachedAtUnix
  let queue := snap.rekeyPendingConfirmQueue.mapIdx fun idx seq =>
    { carrierSeq := seq
      attachedAt := now.mono
      attachedAtUnix := attach.getD idx now.unix
      firstAttachedAt := now.mono
      firstAttachedAtUnix := firstAttach.getD idx now.unix
      payload := ⟨[], [], []⟩ : RekeyCarrier }
  let queue := if 1 < queue.length then queue.getLast?.toList else queue
  match snap.outgoingRekeyPayload with
  | some payload => queue.modifyLast fun c => { c with payload }
  | none => queue

namespace DoubleRatchetState

variable {K C : Type}

/-- Serialize the session into a storable snapshot. -/
def toSnapshot (s : DoubleRatchetState K C) : RatchetSnapshot K where
  rootKey := s.rootKey
  sendingChainKey := s.send.key
  receivingChainKey := s.recv.key
  sendMessageCount := s.send.messageCount
  recvMessageCount := s.recv.messageCount
  ourX25519Pk := s.ourHybridPair.x25519Pk
  ourX25519Sk := s.ourHybridPair.x25519Sk
  ourMlkemPk := s.ourHybridPair.mlkemPk
  ourMlkemSk := s.ourHybridPair.mlkemSk
  peerX25519Pk := s.peerX25519Pk
  peerMlkemPk := s.peerMlkemPk
  ratchetGeneration := s.ratchetGeneration
  pairingEpoch := s.pairingEpoch
  pendingRootKey := s.incomingProposal.rootKey
  pendingSendingChainKey := s.incomingProposal.sendingChainKey
  pendingReceivingChainKey := s.incomingProposal.receivingChainKey
  pendingPeerX25519Pk := s.incomingProposal.peerX25519Pk
  pendingPeerMlkemPk := s.incomingProposal.peerMlkemPk
  pendingGenerationBump := s.incomingProposal.generationBump
  pendingRekeyCarrierSeq := s.incomingProposal.carrierSeq
  pendingCarrierGen := s.incomingProposal.carrierGen
  outgoingRootKey := s.outgoingProposal.rootKey
  outgoingSendingChainKey := s.outgoingProposal.sendingChainKey
  outgoingReceivingChainKey := s.outgoingProposal.receivingChainKey
  outgoingX25519Pk := s.outgoingProposal.hybridPair.map (·.x25519Pk)
  outgoingX25519Sk := s.outgoingProposal.hybridPair.map (·.x25519Sk)
  outgoingMlkemPk := s.outgoingProposal.hybridPair.map (·.mlkemPk)
  outgoingMlkemSk := s.outgoingProposal.hybridPair.map (·.mlkemSk)
  maxSkip := s.maxSkip
  maxKeyHistory := s.maxKeyHistory
  previousX25519Pk := s.previousKeypairs.map (·.x25519Pk)
  previousX25519Sk := s.previousKeypairs.map (·.x25519Sk)
  previousMlkemPk := s.previousKeypairs.map (·.mlkemPk)
  previousMlkemSk := s.previousKeypairs.map (·.mlkemSk)
  skipMessageKeys := s.skipMessageKeys
  seenSequenceNumbers := s.replayWindow.seen
  previousRecvChainKey := s.previousRecvChainKey
  previousRecvAnchor := s.previousRecvAnchor
  previousRecvGen := s.previousRecvGen
  previousRecvHighestDelivered := s.replayWindow.prevGenHighestDelivered
  rekeyPendingConfirmQueue := s.rekeyPendingConfirmQueue.map (·.carrierSeq)
  rekeyPendingConfirmQueueAttachedAtUnix := s.rekeyPendingConfirmQueue.map (·.attachedAtUnix)
  rekeyPendingConfirmQueueFirstAttachedAtUnix :=
    s.rekeyPendingConfirmQueue.map (·.firstAttachedAtUnix)
  pendingRekeyAckSeq := s.pendingRekeyAckSeq
  resyncForwardTotal := s.resyncForwardTotal
  isInitiator := s.isInitiator
  outgoingRekeyPayload := s.outgoingProposal.rekeyPayload
  pendingProposalAttachedAtUnix := s.incomingProposal.attachedAtUnix

/-- Restore a session from a snapshot. -/
def fromSnapshot (snap : RatchetSnapshot K) (now : Clock) : DoubleRatchetState K C where
  rootKey := snap.rootKey
  send := ⟨snap.sendingChainKey, snap.sendMessageCount⟩
  recv := ⟨snap.receivingChainKey, snap.recvMessageCount⟩
  ourHybridPair := ⟨snap.ourX25519Pk, snap.ourX25519Sk, snap.ourMlkemPk, snap.ourMlkemSk⟩
  peerX25519Pk := snap.peerX25519Pk
  peerMlkemPk := snap.peerMlkemPk
  rekeyInterval := ratchetRekeyInterval
  ratchetGeneration := snap.ratchetGeneration
  pairingEpoch := snap.pairingEpoch
  previousRecvChainKey := snap.previousRecvChainKey
  previousRecvAnchor := snap.previousRecvAnchor
  previousRecvGen := snap.previousRecvGen
  replayWindow := ⟨snap.seenSequenceNumbers, snap.previousRecvHighestDelivered⟩
  incomingProposal :=
    { rootKey := snap.pendingRootKey
      sendingChainKey := snap.pendingSendingChainKey
      receivingChainKey := snap.pendingReceivingChainKey
      peerX25519Pk := snap.pendingPeerX25519Pk
      peerMlkemPk := snap.pendingPeerMlkemPk
      generationBump := snap.pendingGenerationBump
      carrierSeq := snap.pendingRekeyCarrierSeq
      carrierGen := snap.pendingCarrierGen
      attachedAtUnix := snap.pendingProposalAttachedAtUnix
      attachedAtMono := none }
  outgoingProposal :=
    { rootKey := snap.outgoingRootKey
      sendingChainKey := snap.outgoingSendingChainKey
      receivingChainKey := snap.outgoingReceivingChainKey
      hybridPair :=
        match snap.outgoingX25519Pk, snap.outgoingX25519Sk, snap.outgoingMlkemPk,
          snap.outgoingMlkemSk with
        | some pk, some sk, some mpk, some msk => some ⟨pk, sk, mpk, msk⟩
        | _, _, _, _ => none
      rekeyPayload := snap.outgoingRekeyPayload }
  skipMessageKeys := snap.skipMessageKeys
  maxSkip := snap.maxSkip
  previousKeypairs :=
    zipKeypairs snap.previousX25519Pk snap.previousX25519Sk snap.previousMlkemPk
      snap.previousMlkemSk
  maxKeyHistory := snap.maxKeyHistory
  rekeyPendingConfirmQueue := snap.confirmQueue now
  pendingRekeyAckSeq := snap.pendingRekeyAckSeq
  isInitiator := snap.isInitiator
  resyncForwardTotal := snap.resyncForwardTotal
  peekedAckCache := none

/-- The session that comes back when `s` is stored and restored at `now`. -/
def reloaded (s : DoubleRatchetState K C) (now : Clock) : DoubleRatchetState K C :=
  { s with
    rekeyInterval := ratchetRekeyInterval
    incomingProposal := { s.incomingProposal with attachedAtMono := none }
    rekeyPendingConfirmQueue := s.rekeyPendingConfirmQueue.getLast?.toList.map fun c =>
      { c with
        attachedAt := now.mono
        firstAttachedAt := now.mono
        payload := s.outgoingProposal.rekeyPayload.getD ⟨[], [], []⟩ }
    peekedAckCache := none }

variable (s : DoubleRatchetState K C) (now : Clock)

/-- The confirmations of a stored session: the last one, with restarted monotonic times. -/
theorem confirmQueue_toSnapshot :
    s.toSnapshot.confirmQueue now = (s.reloaded now).rekeyPendingConfirmQueue := by
  let stored : RekeyCarrier → RekeyCarrier := fun c =>
    { c with attachedAt := now.mono, firstAttachedAt := now.mono, payload := ⟨[], [], []⟩ }
  -- the parallel lists of a stored session have the length of the queue
  have hqueue : (s.toSnapshot.rekeyPendingConfirmQueue.mapIdx fun idx seq =>
      { carrierSeq := seq
        attachedAt := now.mono
        attachedAtUnix := (s.rekeyPendingConfirmQueue.map (·.attachedAtUnix)).getD idx now.unix
        firstAttachedAt := now.mono
        firstAttachedAtUnix :=
          (s.rekeyPendingConfirmQueue.map (·.firstAttachedAtUnix)).getD idx now.unix
        payload := ⟨[], [], []⟩ : RekeyCarrier }) = s.rekeyPendingConfirmQueue.map stored := by
    refine List.ext_getElem (by simp [toSnapshot]) fun idx h _ => ?_
    have hidx : idx < s.rekeyPendingConfirmQueue.length := by simpa [toSnapshot] using h
    simp [toSnapshot, stored, hidx]
  unfold RatchetSnapshot.confirmQueue
  simp only [toSnapshot, List.length_map, List.rightpad, Nat.sub_self, List.replicate_zero,
    List.append_nil, Nat.lt_irrefl, if_false] at hqueue ⊢
  rw [hqueue, ite_getLast?_toList, List.getLast?_map, reloaded]
  cases s.rekeyPendingConfirmQueue.getLast? with
  | none => cases s.outgoingProposal.rekeyPayload <;> rfl
  | some c => cases s.outgoingProposal.rekeyPayload <;> rfl

/-- A session comes back from its snapshot up to its timers and its caches. -/
theorem fromSnapshot_toSnapshot : fromSnapshot s.toSnapshot now = s.reloaded now := by
  have hpair : (fromSnapshot (C := C) s.toSnapshot now).outgoingProposal.hybridPair =
      s.outgoingProposal.hybridPair := by
    cases hpair : s.outgoingProposal.hybridPair with
    | none => simp [fromSnapshot, toSnapshot, hpair]
    | some pair => simp [fromSnapshot, toSnapshot, hpair]
  have hqueue := confirmQueue_toSnapshot s now
  simp only [fromSnapshot, reloaded] at hpair hqueue ⊢
  rw [hqueue, hpair]
  simp only [toSnapshot, zipKeypairs_map]

theorem BumpsOnCommit.reloaded {s : DoubleRatchetState K C} (h : s.BumpsOnCommit) (now : Clock) :
    (s.reloaded now).BumpsOnCommit :=
  ⟨h.incoming, h.outgoing, h.generation_le⟩

end DoubleRatchetState

end KyberPipe
