import KyberPipe.Ratchet.State

/-!
# Committing and cancelling rekey proposals

The operations of `state.rs` that move a session into a new generation or drop a staged
proposal, and the bookkeeping of rekey acknowledgements.
-/

namespace KyberPipe

namespace DoubleRatchetState

variable {K C : Type} (s : DoubleRatchetState K C)

/-- The highest position of the outgoing generation that counts as delivered: everything
below the receive counter and everything in the replay window. -/
def capturePreviousRecvWatermark : Option ℕ :=
  let seqs := (s.replayWindow.seen.filter fun e => e.1 = s.ratchetGeneration).image Prod.snd
  let maxSeen := if h : seqs.Nonempty then some (seqs.max' h) else none
  let contiguous := s.recv.messageCount - 1
  if 0 < s.recv.messageCount then some (maxSeen.elim contiguous (max contiguous))
  else maxSeen

/-- Keep the current receiving chain for late messages of the outgoing generation. -/
def retainPreviousReceivingChain : DoubleRatchetState K C :=
  { s with
    previousRecvChainKey := some s.recv.key
    previousRecvAnchor := some s.recv.messageCount
    previousRecvGen := some s.ratchetGeneration
    replayWindow :=
      { s.replayWindow with prevGenHighestDelivered := s.capturePreviousRecvWatermark } }

/-- Restart both message counters and the replay window. The skip-key cache is kept. -/
def resetGenerationCounters : DoubleRatchetState K C :=
  { s with
    send := { s.send with messageCount := 0 }
    recv := { s.recv with messageCount := 0 }
    replayWindow := { s.replayWindow with seen := ∅ } }

/-- Retain the receiving chain and install new keys. -/
def installKeys (root sending receiving : K) : DoubleRatchetState K C :=
  { s.retainPreviousReceivingChain with
    rootKey := root
    send := { s.send with key := sending }
    recv := { s.recv with key := receiving } }

/-- Drop our own proposal and its carriers. -/
def cancelOutgoingRekey : DoubleRatchetState K C :=
  { s with outgoingProposal := {}, rekeyPendingConfirmQueue := [] }

/-- Drop the peer's proposal. The monotonic attach time is left as it is. -/
def cancelPendingIncomingRekey : DoubleRatchetState K C :=
  { s with
    incomingProposal := { attachedAtMono := s.incomingProposal.attachedAtMono } }

/-- Install the peer's proposal: its keys, the peer's new public keys and, if the proposal
asks for it, the next generation. -/
def adoptIncoming (root sending receiving : K) : DoubleRatchetState K C :=
  let s' := s.installKeys root sending receiving
  let s' :=
    { s' with
      peerX25519Pk := s.incomingProposal.peerX25519Pk.or s.peerX25519Pk
      peerMlkemPk := s.incomingProposal.peerMlkemPk.or s.peerMlkemPk
      ratchetGeneration :=
        if s.incomingProposal.generationBump then saturatingSucc s.ratchetGeneration
        else s.ratchetGeneration }
  s'.resetGenerationCounters

/-- Empty the incoming slot after a commit. If no acknowledgement is pending, the carrier of
the committed proposal becomes the one to acknowledge. -/
def clearIncomingAfterCommit : DoubleRatchetState K C :=
  { s with
    incomingProposal := { attachedAtMono := s.incomingProposal.attachedAtMono }
    pendingRekeyAckSeq := s.pendingRekeyAckSeq.or s.incomingProposal.carrierSeq }

/-- Commit the peer's proposal if all three of its keys are staged, and empty the slot. -/
def commitPendingRekey : DoubleRatchetState K C :=
  match s.incomingProposal.rootKey, s.incomingProposal.sendingChainKey,
      s.incomingProposal.receivingChainKey with
  | some root, some sending, some receiving =>
    (s.adoptIncoming root sending receiving).clearIncomingAfterCommit
  | _, _, _ => s.clearIncomingAfterCommit

/-- Commit the peer's proposal, giving up our own. -/
def commitPendingRekeyWithRaceResolution : DoubleRatchetState K C :=
  if s.outgoingProposal.rootKey.isSome then s.cancelOutgoingRekey.commitPendingRekey
  else s.commitPendingRekey

/-- Install our own proposal. The key pair rotates and the generation advances only if the
proposal carries a key pair; the key history is bounded. -/
def adoptOutgoing (root sending receiving : K) : DoubleRatchetState K C :=
  let s' := s.installKeys root sending receiving
  let s' :=
    match s.outgoingProposal.hybridPair with
    | some newPair =>
      let history := s.previousKeypairs ++ [s.ourHybridPair]
      { s' with
        ourHybridPair := newPair
        previousKeypairs := history.drop (history.length - s.maxKeyHistory)
        ratchetGeneration := saturatingSucc s.ratchetGeneration }
    | none => s'
  s'.resetGenerationCounters

/-- Commit our own proposal if all three of its keys are staged, and empty the slot and the
confirm queue. -/
def commitOutgoingRekey : DoubleRatchetState K C :=
  match s.outgoingProposal.rootKey, s.outgoingProposal.sendingChainKey,
      s.outgoingProposal.receivingChainKey with
  | some root, some sending, some receiving =>
    (s.adoptOutgoing root sending receiving).cancelOutgoingRekey
  | _, _, _ => s.cancelOutgoingRekey

/-- Process the peer's acknowledgement of a carrier: commit our proposal if some queued
carrier has this sequence number. -/
def processRekeyAck (seq : ℕ) : Bool × DoubleRatchetState K C :=
  if s.rekeyPendingConfirmQueue.any fun c => c.carrierSeq == seq then
    (true, s.commitOutgoingRekey)
  else (false, s)

/-- Take the carrier to acknowledge, so that no later commit queues it again. -/
def takePendingRekeyAckSeq : Option ℕ × DoubleRatchetState K C :=
  (s.pendingRekeyAckSeq,
    { s with
      pendingRekeyAckSeq := none
      incomingProposal := { s.incomingProposal with carrierSeq := none }
      peekedAckCache := none })

/-- Record when the incoming proposal was attached; the first stamp wins. -/
def stampIncomingProposalAttachedAt (now : Clock) : DoubleRatchetState K C :=
  { s with
    incomingProposal :=
      { s.incomingProposal with
        attachedAtUnix := s.incomingProposal.attachedAtUnix.or (some now.unix)
        attachedAtMono := s.incomingProposal.attachedAtMono.or (some now.mono) } }

/-! ## The two commits -/

section Commit

variable {s} {root sending receiving : K}

theorem commitPendingRekey_eq (hroot : s.incomingProposal.rootKey = some root)
    (hsend : s.incomingProposal.sendingChainKey = some sending)
    (hrecv : s.incomingProposal.receivingChainKey = some receiving) :
    s.commitPendingRekey = (s.adoptIncoming root sending receiving).clearIncomingAfterCommit := by
  simp [commitPendingRekey, hroot, hsend, hrecv]

theorem commitOutgoingRekey_eq (hroot : s.outgoingProposal.rootKey = some root)
    (hsend : s.outgoingProposal.sendingChainKey = some sending)
    (hrecv : s.outgoingProposal.receivingChainKey = some receiving) :
    s.commitOutgoingRekey = (s.adoptOutgoing root sending receiving).cancelOutgoingRekey := by
  simp [commitOutgoingRekey, hroot, hsend, hrecv]

section

variable (s : DoubleRatchetState K C)

/-- Whether or not keys are staged, a commit of the peer's proposal empties the slot and queues its
carrier. Our own proposal and key pair stay. -/
theorem commitPendingRekey_frame :
    s.commitPendingRekey =
      { s with
        rootKey := s.commitPendingRekey.rootKey
        send := s.commitPendingRekey.send
        recv := s.commitPendingRekey.recv
        peerX25519Pk := s.commitPendingRekey.peerX25519Pk
        peerMlkemPk := s.commitPendingRekey.peerMlkemPk
        ratchetGeneration := s.commitPendingRekey.ratchetGeneration
        previousRecvChainKey := s.commitPendingRekey.previousRecvChainKey
        previousRecvAnchor := s.commitPendingRekey.previousRecvAnchor
        previousRecvGen := s.commitPendingRekey.previousRecvGen
        replayWindow := s.commitPendingRekey.replayWindow
        incomingProposal := { attachedAtMono := s.incomingProposal.attachedAtMono }
        pendingRekeyAckSeq := s.pendingRekeyAckSeq.or s.incomingProposal.carrierSeq } := by
  unfold commitPendingRekey
  split
  · rfl
  · rfl

/-- Whether or not keys are staged, a commit of our own proposal drops it together with its
carriers. The peer's proposal and keys stay. -/
theorem commitOutgoingRekey_frame :
    s.commitOutgoingRekey =
      { s with
        rootKey := s.commitOutgoingRekey.rootKey
        send := s.commitOutgoingRekey.send
        recv := s.commitOutgoingRekey.recv
        ourHybridPair := s.commitOutgoingRekey.ourHybridPair
        ratchetGeneration := s.commitOutgoingRekey.ratchetGeneration
        previousRecvChainKey := s.commitOutgoingRekey.previousRecvChainKey
        previousRecvAnchor := s.commitOutgoingRekey.previousRecvAnchor
        previousRecvGen := s.commitOutgoingRekey.previousRecvGen
        replayWindow := s.commitOutgoingRekey.replayWindow
        outgoingProposal := {}
        previousKeypairs := s.commitOutgoingRekey.previousKeypairs
        rekeyPendingConfirmQueue := [] } := by
  unfold commitOutgoingRekey
  split
  · unfold adoptOutgoing
    cases s.outgoingProposal.hybridPair with
    | none => rfl
    | some pair => rfl
  · rfl

/-- An acknowledgement commits our own proposal or changes nothing. -/
theorem processRekeyAck_cases (seq : ℕ) :
    (s.processRekeyAck seq).2 = s.commitOutgoingRekey ∨ (s.processRekeyAck seq).2 = s := by
  unfold processRekeyAck
  split_ifs
  · exact .inl rfl
  · exact .inr rfl

/-- The commit that decides a race is a commit of the peer's proposal, after our own was dropped if
there was one. -/
theorem commitPendingRekeyWithRaceResolution_cases :
    s.commitPendingRekeyWithRaceResolution = s.cancelOutgoingRekey.commitPendingRekey ∨
      s.commitPendingRekeyWithRaceResolution = s.commitPendingRekey := by
  unfold commitPendingRekeyWithRaceResolution
  split_ifs
  · exact .inl rfl
  · exact .inr rfl

theorem incomingProposal_commitPendingRekey :
    s.commitPendingRekey.incomingProposal =
      { attachedAtMono := s.incomingProposal.attachedAtMono } := by
  rw [commitPendingRekey_frame]

theorem incomingProposal_commitOutgoingRekey :
    s.commitOutgoingRekey.incomingProposal = s.incomingProposal := by
  rw [commitOutgoingRekey_frame]

theorem incomingProposal_commitPendingRekeyWithRaceResolution :
    s.commitPendingRekeyWithRaceResolution.incomingProposal =
      { attachedAtMono := s.incomingProposal.attachedAtMono } := by
  rcases commitPendingRekeyWithRaceResolution_cases s with heq | heq
  · rw [heq, incomingProposal_commitPendingRekey]
    rfl
  · rw [heq, incomingProposal_commitPendingRekey]

theorem pendingRekeyAckSeq_commitPendingRekeyWithRaceResolution :
    s.commitPendingRekeyWithRaceResolution.pendingRekeyAckSeq =
      s.pendingRekeyAckSeq.or s.incomingProposal.carrierSeq := by
  rcases commitPendingRekeyWithRaceResolution_cases s with heq | heq
  · rw [heq, commitPendingRekey_frame]
    rfl
  · rw [heq, commitPendingRekey_frame]

/-- Committing the peer's proposal empties its slot. -/
theorem receivingChainKey_commitPendingRekeyWithRaceResolution :
    s.commitPendingRekeyWithRaceResolution.incomingProposal.receivingChainKey = none := by
  rw [incomingProposal_commitPendingRekeyWithRaceResolution]

end

/-- Committing the peer's fully staged proposal leads to the next generation. -/
theorem ratchetGeneration_commitPendingRekeyWithRaceResolution
    (hroot : s.incomingProposal.rootKey.isSome) (hsend : s.incomingProposal.sendingChainKey.isSome)
    (hrecv : s.incomingProposal.receivingChainKey.isSome)
    (hbump : s.incomingProposal.generationBump = true) :
    s.commitPendingRekeyWithRaceResolution.ratchetGeneration =
      saturatingSucc s.ratchetGeneration := by
  obtain ⟨root, hroot⟩ := Option.isSome_iff_exists.1 hroot
  obtain ⟨sending, hsend⟩ := Option.isSome_iff_exists.1 hsend
  obtain ⟨receiving, hrecv⟩ := Option.isSome_iff_exists.1 hrecv
  unfold commitPendingRekeyWithRaceResolution
  split_ifs
  · rw [commitPendingRekey_eq (s := s.cancelOutgoingRekey) hroot hsend hrecv]
    exact if_pos hbump
  · rw [commitPendingRekey_eq hroot hsend hrecv]
    exact if_pos hbump

end Commit

end DoubleRatchetState

end KyberPipe
