import KyberPipe.Ratchet.Operations

/-!
# The confirm queue

What an operation does to our own proposal and its carriers: it keeps both, drops both, sends the
due carriers again as one, stages a new proposal next to an empty queue, or restores them from a
snapshot. From any fresh session on, the queue holds the carrier of the pending proposal and
nothing else.
-/

namespace KyberPipe

variable {K C : Type}

/-- `OutgoingProposal::is_pending` -/
def OutgoingProposal.isPending (p : OutgoingProposal K) : Bool :=
  p.rootKey.isSome || p.sendingChainKey.isSome

/-- The operation belongs to the running process. -/
def Operation.inProcess : Operation C → Bool
  | .restore _ => false
  | _ => true

/-- The clock reading of an operation that takes one. -/
def Operation.clock : Operation C → Option Clock
  | .encrypt _ _ now | .decryptWithRekey _ _ _ _ _ now | .peekRekeyAck _ now | .resync _ now
  | .restore now => some now
  | _ => none

namespace DoubleRatchetState

/-- What an operation does to our own proposal and the confirm queue. -/
inductive OwnStep (op : Operation C) (o : OutgoingProposal K) (q : List RekeyCarrier)
    (o' : OutgoingProposal K) (q' : List RekeyCarrier) : Prop
  | kept (hslot : o' = o) (hqueue : q' = q)
  | dropped (hslot : o' = {}) (hqueue : q' = [])
  | resent {now : Clock} {carrier : RekeyCarrier} (seq : ℕ) (hclock : op.clock = some now)
      (hmem : carrier ∈ q) (hdue : carrier.isDue now = true) (hslot : o' = o)
      (hqueue : q' = q.filter (!·.isDue now) ++ [{ carrier with
        carrierSeq := seq, attachedAt := now.mono, attachedAtUnix := now.unix }])
  | staged {now : Clock} {payload : RekeyPayload} (seq : ℕ) (hclock : op.clock = some now)
      (hempty : q = []) (hpending : o'.isPending = true)
      (hpayload : o'.rekeyPayload = some payload)
      (hqueue : q' = [⟨seq, now.mono, now.unix, now.mono, now.unix, payload⟩])
  | restored {now : Clock} (hrestore : op = .restore now) (hslot : o' = o)
      (hqueue : q' = q.getLast?.toList.map fun c => { c with
        attachedAt := now.mono, firstAttachedAt := now.mono
        payload := o.rekeyPayload.getD ⟨[], [], []⟩ })

/-- What the operation does to them on the way from `s` to `s'`. -/
abbrev OwnProposalStep (s : DoubleRatchetState K C) (op : Operation C)
    (s' : DoubleRatchetState K C) : Prop :=
  OwnStep op s.outgoingProposal s.rekeyPendingConfirmQueue s'.outgoingProposal
    s'.rekeyPendingConfirmQueue

section Steps

variable {P : Primitives K C} {s s' t : DoubleRatchetState K C} {op : Operation C}

section

variable (s) (op)

theorem ownProposalStep_commitPendingRekey : OwnProposalStep s op s.commitPendingRekey := by
  rw [commitPendingRekey_frame]
  exact .kept rfl rfl

theorem ownProposalStep_commitOutgoingRekey : OwnProposalStep s op s.commitOutgoingRekey := by
  rw [commitOutgoingRekey_frame]
  exact .dropped rfl rfl

end

theorem DecryptStep.ownProposalStep {nonce : Nonce} {c : C} {payload : Option RekeyPayload}
    {now : Clock} {res : Except KyberError Bytes}
    (h : DecryptStep P s nonce c payload now res s') (op : Operation C) :
    OwnProposalStep s op s' := by
  cases h with
  | refused _ => exact .kept rfl rfl
  | failed _ _ _ hderives => exact .kept (by rw [hderives.frame]) (by rw [hderives.frame])
  | previous _ hdel => exact .kept (by rw [hdel.frame]) (by rw [hdel.frame])
  | @current _ s₁ s₂ _ _ hderives hdel =>
    have hslot : s₂.outgoingProposal = s.outgoingProposal := by rw [hdel.frame, hderives.frame]
    have hqueue : s₂.rekeyPendingConfirmQueue = s.rekeyPendingConfirmQueue := by
      rw [hdel.frame, hderives.frame]
    rw [OwnProposalStep, ← hslot, ← hqueue]
    -- the race is lost in one branch only
    unfold resolveRekeyRaceAndAck
    split_ifs
    · exact .kept rfl rfl
    · exact .dropped rfl rfl
    · exact .kept rfl rfl
    · exact .kept rfl rfl
  | @pending _ s₁ s₂ _ _ _ hderives hdel =>
    have hslot : s₁.outgoingProposal = s.outgoingProposal := by rw [hderives.frame]
    have hqueue : s₁.rekeyPendingConfirmQueue = s.rekeyPendingConfirmQueue := by
      rw [hderives.frame]
    rw [OwnProposalStep, ← hslot, ← hqueue]
    rw [hdel.hstate]
    unfold commitPendingRekeyWithRaceResolution commitPendingRekey
    split_ifs
    · split
      · exact .dropped rfl rfl
      · exact .dropped rfl rfl
    · split
      · exact .kept rfl rfl
      · exact .kept rfl rfl

section

variable (P : Primitives K C) (s : DoubleRatchetState K C)

theorem ownProposalStep_resyncReceivingChain (targetSeq : ℕ) (now : Clock) (op : Operation C) :
    OwnProposalStep s op (s.resyncReceivingChain P targetSeq now).2 := by
  obtain ⟨t, hevict, _, hslot, hqueue⟩ := resyncReceivingChain_slots P s targetSeq now
  cases hevict with
  | none => exact .kept hslot hqueue
  | incoming => exact .kept hslot hqueue
  | outgoing => exact .dropped hslot hqueue
  | both => exact .dropped hslot hqueue

/-- Choosing a payload: the due carriers become one, or a proposal is staged, or nothing
happens. -/
theorem ownProposalStep_attachRekey (seq : ℕ) (rnd : EncryptRandomness) {now : Clock}
    (hclock : op.clock = some now) : OwnProposalStep s op (s.attachRekey P seq rnd now).2 := by
  unfold attachRekey
  cases hfind : s.rekeyPendingConfirmQueue.find? (·.isDue now) with
  | some carrier =>
    have hdue := List.find?_some hfind
    exact .resent seq hclock (List.mem_of_find?_eq_some hfind) hdue rfl rfl
  | none =>
    dsimp only
    rw [dropDueCarriers_of_find?_eq_none hfind]
    split_ifs with hshould
    · have hempty : s.rekeyPendingConfirmQueue = [] := (shouldRekey_iff.1 hshould).2.1
      unfold proposeRekey
      split
      · split
        · refine .staged seq hclock hempty rfl rfl ?_
          simp [stageOutgoing, hempty]
        · exact .kept rfl rfl
      · exact .kept rfl rfl
    · exact .kept rfl rfl

theorem ownProposalStep_ratchetEncrypt (pt : Bytes) (rnd : EncryptRandomness) {now : Clock}
    (hclock : op.clock = some now) : OwnProposalStep s op (s.ratchetEncrypt P pt rnd now).2 := by
  have hattach := ownProposalStep_attachRekey P s.countSend s.send.messageCount rnd hclock
  unfold ratchetEncrypt
  dsimp only
  split_ifs
  · exact .kept rfl rfl
  · generalize s.countSend.attachRekey P s.send.messageCount rnd now = r at hattach ⊢
    obtain ⟨res, t⟩ := r
    cases res with
    | error e => exact hattach
    | ok payload =>
      dsimp only
      rw [sealMessage_snd]
      exact hattach

theorem perform_ownProposalStep (op : Operation C) : OwnProposalStep s op (s.perform P op) := by
  cases op with
  | encrypt pt rnd now => exact ownProposalStep_ratchetEncrypt P s pt rnd rfl
  | decrypt nonce c => exact (ratchetDecrypt_step P s nonce c ⟨0, 0⟩).ownProposalStep _
  | decryptWithRekey nonce c rct rx rm now =>
    exact (ratchetDecryptWithRekey_step P s nonce c rct rx rm now).ownProposalStep _
  | processRekeyAck seq =>
    show OwnProposalStep s (.processRekeyAck seq) (s.processRekeyAck seq).2
    rcases processRekeyAck_cases s seq with heq | heq
    · rw [heq]
      exact ownProposalStep_commitOutgoingRekey s _
    · rw [heq]
      exact .kept rfl rfl
  | takePendingRekeyAckSeq => exact .kept rfl rfl
  | peekRekeyAck rnd now =>
    show OwnProposalStep s (.peekRekeyAck rnd now) (s.ratchetGenerateRekeyAckPeek P rnd now).2
    obtain ⟨cache, hpeek | ⟨seq, hpeek⟩⟩ := peekRekeyAck_state P s rnd now
    · rw [hpeek]
      exact .kept rfl rfl
    · rw [hpeek]
      exact ownProposalStep_ratchetEncrypt P s _ rnd rfl
  | consumeRekeyAck => exact .kept rfl rfl
  | resync targetSeq now => exact ownProposalStep_resyncReceivingChain P s targetSeq now _
  | commitPendingRekey => exact ownProposalStep_commitPendingRekey s _
  | commitOutgoingRekey => exact ownProposalStep_commitOutgoingRekey s _
  | cancelOutgoingRekey => exact .dropped rfl rfl
  | cancelPendingIncomingRekey => exact .kept rfl rfl
  | restore now =>
    show OwnProposalStep s (.restore now) (fromSnapshot s.toSnapshot now)
    rw [fromSnapshot_toSnapshot]
    exact .restored rfl rfl rfl

end

end Steps

/-! ## One carrier per pending proposal -/

/-- The queue holds at most one carrier, one exactly if an outgoing proposal is pending, and the
payload of that carrier is the payload of the proposal. -/
structure QueueFits (s : DoubleRatchetState K C) : Prop where
  length_le : s.rekeyPendingConfirmQueue.length ≤ 1
  length_eq_one_iff :
    s.rekeyPendingConfirmQueue.length = 1 ↔ s.outgoingProposal.isPending = true
  payload : ∀ carrier ∈ s.rekeyPendingConfirmQueue,
    s.outgoingProposal.rekeyPayload = some carrier.payload

variable {P : Primitives K C} {s s' : DoubleRatchetState K C}

/-- A queue without carriers fits if nothing is pending. -/
theorem QueueFits.of_empty (hpending : s.outgoingProposal.isPending = false)
    (hqueue : s.rekeyPendingConfirmQueue = []) : s.QueueFits := by
  refine ⟨by rw [hqueue]; exact Nat.zero_le 1, by rw [hqueue, hpending]; decide, ?_⟩
  rw [hqueue]
  rintro carrier ⟨⟩

/-- A queue with one carrier fits if its payload is the one that is pending. -/
theorem QueueFits.of_single {carrier : RekeyCarrier}
    (hpending : s.outgoingProposal.isPending = true)
    (hpayload : s.outgoingProposal.rekeyPayload = some carrier.payload)
    (hqueue : s.rekeyPendingConfirmQueue = [carrier]) : s.QueueFits := by
  refine ⟨by rw [hqueue]; exact le_rfl, by rw [hqueue, hpending]; simp, ?_⟩
  rw [hqueue]
  intro c hc
  rw [List.mem_singleton.1 hc]
  exact hpayload

/-- A fitting queue is empty, or it has one carrier and its proposal is pending. -/
theorem QueueFits.cases (h : s.QueueFits) :
    s.outgoingProposal.isPending = false ∧ s.rekeyPendingConfirmQueue = [] ∨
      s.outgoingProposal.isPending = true ∧ ∃ carrier,
        s.rekeyPendingConfirmQueue = [carrier] ∧
          s.outgoingProposal.rekeyPayload = some carrier.payload := by
  cases hqueue : s.rekeyPendingConfirmQueue with
  | nil =>
    refine .inl ⟨?_, rfl⟩
    have hiff := h.length_eq_one_iff
    rw [hqueue] at hiff
    simpa using hiff
  | cons carrier rest =>
    have hle := h.length_le
    rw [hqueue, List.length_cons] at hle
    obtain rfl : rest = [] := List.eq_nil_of_length_eq_zero (by omega)
    have hmem : carrier ∈ s.rekeyPendingConfirmQueue := by
      rw [hqueue]
      exact List.mem_singleton_self carrier
    refine .inr ⟨h.length_eq_one_iff.1 (by rw [hqueue]; rfl), carrier, rfl, h.payload _ hmem⟩

theorem QueueFits.step {op : Operation C} (h : s.QueueFits)
    (hstep : OwnProposalStep s op s') : s'.QueueFits := by
  cases hstep with
  | kept hslot hqueue =>
    refine ⟨by rw [hqueue]; exact h.length_le, by rw [hqueue, hslot]; exact h.length_eq_one_iff, ?_⟩
    rw [hqueue, hslot]
    exact h.payload
  | dropped hslot hqueue => exact .of_empty (by rw [hslot]; rfl) hqueue
  | @resent now carrier seq hclock hmem hdue hslot hqueue =>
    rcases h.cases with ⟨_, hempty⟩ | ⟨hpending, other, hsingle, hpayload⟩
    · rw [hempty] at hmem
      cases hmem
    · -- the due carrier is the only one, so the filtered queue is empty
      rw [hsingle] at hmem hqueue
      obtain rfl := List.mem_singleton.1 hmem
      have hrest : [carrier].filter (!·.isDue now) = [] := by simp [hdue]
      rw [hrest, List.nil_append] at hqueue
      exact .of_single (by rw [hslot]; exact hpending) (by rw [hslot]; exact hpayload) hqueue
  | staged seq hclock hempty hpending hpayload hqueue => exact .of_single hpending hpayload hqueue
  | @restored now hrestore hslot hqueue =>
    rcases h.cases with ⟨hpending, hempty⟩ | ⟨hpending, carrier, hsingle, hpayload⟩
    · refine .of_empty (by rw [hslot]; exact hpending) ?_
      rw [hqueue, hempty]
      rfl
    · -- the payload comes back from the slot
      have hreloaded : s'.rekeyPendingConfirmQueue =
          [{ carrier with attachedAt := now.mono, firstAttachedAt := now.mono }] := by
        simp [hqueue, hsingle, hpayload]
      exact .of_single (by rw [hslot]; exact hpending) (by rw [hslot]; exact hpayload) hreloaded

/-- From a fresh session on, whatever operations it performs, the confirm queue holds exactly the
carrier of the pending outgoing proposal. -/
theorem confirm_queue_invariant (P : Primitives K C) (secret : Bytes) (isInitiator : Bool)
    (pair : HybridKeyPair) (peerX25519Pk peerMlkemPk : Option Bytes) (ops : List (Operation C)) :
    ((operated P).run (newWithKeypair P secret isInitiator pair peerX25519Pk peerMlkemPk)
      ops).2.QueueFits := by
  refine Machine.run_invariant (m := operated P) QueueFits ?_ ?_ ops
  · intro s op h
    exact h.step (perform_ownProposalStep P s op)
  · exact .of_empty rfl rfl

end DoubleRatchetState

end KyberPipe
