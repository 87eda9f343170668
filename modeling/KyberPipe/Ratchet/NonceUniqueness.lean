import Mathlib.Order.WithBot
import KyberPipe.Ratchet.Session

/-!
# Nonce uniqueness

The position of the next message to send, ordered by generation first, never moves backwards:
a commit restarts the counter only together with the next generation. A session at the last
generation sends nothing any more, so its position counts as the top one.
-/

namespace KyberPipe

open Symbolic DoubleRatchetState Machine

variable {K C : Type}

namespace DoubleRatchetState

/-- Every staged proposal moves the session to the next generation when it is committed. -/
structure BumpsOnCommit (s : DoubleRatchetState K C) : Prop where
  incoming : s.incomingProposal.rootKey.isSome → s.incomingProposal.generationBump = true
  outgoing : s.outgoingProposal.rootKey.isSome → s.outgoingProposal.hybridPair.isSome
  generation_le : s.ratchetGeneration ≤ u32Max

/-- The generation and position of the next message to send. -/
def sendPosition (s : DoubleRatchetState K C) : WithTop (ℕ ×ₗ ℕ) :=
  if s.ratchetGeneration = u32Max then ⊤
  else (toLex (s.ratchetGeneration, s.send.messageCount) : ℕ ×ₗ ℕ)

/-- A step that keeps `BumpsOnCommit` and does not move the send position backwards. -/
structure Advances (s s' : DoubleRatchetState K C) : Prop where
  bumps : s.BumpsOnCommit → s'.BumpsOnCommit
  position_le : s.BumpsOnCommit → s.sendPosition ≤ s'.sendPosition

variable {P : Primitives K C} {s s' t : DoubleRatchetState K C}

theorem Advances.refl (s : DoubleRatchetState K C) : Advances s s := ⟨id, fun _ => le_rfl⟩

theorem Advances.trans (h : Advances s s') (h' : Advances s' t) : Advances s t where
  bumps hs := h'.bumps (h.bumps hs)
  position_le hs := (h.position_le hs).trans (h'.position_le (h.bumps hs))

/-! ## Positions -/

theorem sendPosition_of_ne (h : s.ratchetGeneration ≠ u32Max) :
    s.sendPosition = ((toLex (s.ratchetGeneration, s.send.messageCount) : ℕ ×ₗ ℕ) :
      WithTop (ℕ ×ₗ ℕ)) :=
  if_neg h

/-- Within a generation the position follows the send counter. -/
theorem sendPosition_le_of_generation_eq (hgen : s'.ratchetGeneration = s.ratchetGeneration)
    (hcount : s.send.messageCount ≤ s'.send.messageCount) :
    s.sendPosition ≤ s'.sendPosition := by
  unfold sendPosition
  rw [hgen]
  split_ifs
  · exact le_rfl
  · rw [WithTop.coe_le_coe, Prod.Lex.toLex_le_toLex]
    exact .inr ⟨rfl, hcount⟩

/-- The next generation is above every position of the current one. -/
theorem sendPosition_le_of_generation_succ
    (hgen : s'.ratchetGeneration = saturatingSucc s.ratchetGeneration) :
    s.sendPosition ≤ s'.sendPosition := by
  by_cases hmax : s'.ratchetGeneration = u32Max
  · rw [sendPosition, sendPosition, if_pos hmax]
    exact le_top
  · have hlt : s'.ratchetGeneration = s.ratchetGeneration + 1 := by
      unfold saturatingSucc at hgen
      omega
    have hne : s.ratchetGeneration ≠ u32Max := by
      intro h
      rw [saturatingSucc, h] at hgen
      omega
    rw [sendPosition_of_ne hne, sendPosition_of_ne hmax, WithTop.coe_le_coe,
      Prod.Lex.toLex_le_toLex, hlt]
    exact .inl (Nat.lt_succ_self _)

/-- A step within a generation advances if it keeps the slots or leaves well-formed ones. -/
theorem Advances.of_slots (hgen : s'.ratchetGeneration = s.ratchetGeneration)
    (hcount : s.send.messageCount ≤ s'.send.messageCount)
    (hincoming : s'.incomingProposal = s.incomingProposal ∨
      (s'.incomingProposal.rootKey.isSome → s'.incomingProposal.generationBump = true))
    (houtgoing : s'.outgoingProposal = s.outgoingProposal ∨
      (s'.outgoingProposal.rootKey.isSome → s'.outgoingProposal.hybridPair.isSome)) :
    Advances s s' where
  bumps hs := by
    refine ⟨?_, ?_, hgen ▸ hs.generation_le⟩
    · rcases hincoming with h | h
      · rw [h]
        exact hs.incoming
      · exact h
    · rcases houtgoing with h | h
      · rw [h]
        exact hs.outgoing
      · exact h
  position_le _ := sendPosition_le_of_generation_eq hgen hcount

/-! ## Steps -/

theorem advances_cancelOutgoingRekey : Advances s s.cancelOutgoingRekey :=
  .of_slots rfl le_rfl (.inl rfl) (.inr (by rintro ⟨⟩))

theorem advances_cancelPendingIncomingRekey : Advances s s.cancelPendingIncomingRekey :=
  .of_slots rfl le_rfl (.inr (by rintro ⟨⟩)) (.inl rfl)

/-- A commit of our own proposal advances: a staged proposal carries a key pair. -/
theorem advances_commitOutgoingRekey : Advances s s.commitOutgoingRekey := by
  unfold commitOutgoingRekey
  split
  · rename_i root sending receiving hroot _ _
    -- the bump depends on the invariant, so both fields are proved under it
    have hstep : s.BumpsOnCommit →
        (((s.adoptOutgoing root sending receiving).cancelOutgoingRekey).BumpsOnCommit ∧
          s.sendPosition ≤
            ((s.adoptOutgoing root sending receiving).cancelOutgoingRekey).sendPosition) := by
      intro hs
      obtain ⟨pair, hpair⟩ := Option.isSome_iff_exists.1 (hs.outgoing (by rw [hroot]; rfl))
      have hgen : ((s.adoptOutgoing root sending receiving).cancelOutgoingRekey).ratchetGeneration
          = saturatingSucc s.ratchetGeneration := by
        simp only [adoptOutgoing, hpair, resetGenerationCounters, cancelOutgoingRekey]
      have hincoming :
          ((s.adoptOutgoing root sending receiving).cancelOutgoingRekey).incomingProposal =
            s.incomingProposal := by
        simp only [adoptOutgoing, hpair, resetGenerationCounters, cancelOutgoingRekey,
          installKeys, retainPreviousReceivingChain]
      refine ⟨⟨?_, (by rintro ⟨⟩), ?_⟩, sendPosition_le_of_generation_succ hgen⟩
      · rw [hincoming]
        exact hs.incoming
      · rw [hgen]
        exact min_le_right _ _
    exact ⟨fun hs => (hstep hs).1, fun hs => (hstep hs).2⟩
  · exact advances_cancelOutgoingRekey

/-- A commit of the peer's proposal advances: a staged proposal asks for the next
generation. -/
theorem advances_commitPendingRekey : Advances s s.commitPendingRekey := by
  unfold commitPendingRekey
  split
  · rename_i root sending receiving hroot _ _
    have hstep : s.BumpsOnCommit →
        (((s.adoptIncoming root sending receiving).clearIncomingAfterCommit).BumpsOnCommit ∧
          s.sendPosition ≤
            ((s.adoptIncoming root sending receiving).clearIncomingAfterCommit).sendPosition) := by
      intro hs
      have hbump := hs.incoming (by rw [hroot]; rfl)
      have hgen :
          ((s.adoptIncoming root sending receiving).clearIncomingAfterCommit).ratchetGeneration
            = saturatingSucc s.ratchetGeneration := by
        simp only [adoptIncoming, hbump, resetGenerationCounters, clearIncomingAfterCommit, if_true]
      refine ⟨⟨(by rintro ⟨⟩), hs.outgoing, ?_⟩, sendPosition_le_of_generation_succ hgen⟩
      rw [hgen]
      exact min_le_right _ _
    exact ⟨fun hs => (hstep hs).1, fun hs => (hstep hs).2⟩
  · exact .of_slots rfl le_rfl (.inr (by rintro ⟨⟩)) (.inl rfl)

theorem advances_commitPendingRekeyWithRaceResolution :
    Advances s s.commitPendingRekeyWithRaceResolution := by
  unfold commitPendingRekeyWithRaceResolution
  split_ifs
  · exact advances_cancelOutgoingRekey.trans advances_commitPendingRekey
  · exact advances_commitPendingRekey

variable {now : Clock} {payload : Option RekeyPayload}

theorem Derives.advances {nonce : Nonce} (h : Derives P s nonce now payload s') :
    Advances s s' := by
  cases h with
  | absent => exact .refl s
  | superseded _ => exact .refl s
  | staged _ _ => exact .of_slots rfl le_rfl (.inr fun _ => rfl) (.inl rfl)

theorem advances_resolveRekeyRaceAndAck (seq : ℕ) (hasPayload : Bool) :
    Advances s (s.resolveRekeyRaceAndAck seq hasPayload) := by
  have hframe := resolveRekeyRaceAndAck_frame s seq hasPayload
  refine .of_slots (by rw [hframe]) (by rw [hframe]) ?_ ?_
  · rcases resolveRekeyRaceAndAck_incoming s seq hasPayload with h | h
    · exact .inl h
    · rw [h]
      exact .inr (by rintro ⟨⟩)
  · rcases resolveRekeyRaceAndAck_outgoing s seq hasPayload with h | h
    · exact .inl h
    · rw [h]
      exact .inr (by rintro ⟨⟩)

theorem DecryptStep.advances {nonce : Nonce} {c : C} {res : Except KyberError Bytes}
    (h : DecryptStep P s nonce c payload now res s') : Advances s s' := by
  cases h with
  | refused e => exact .refl s
  | failed e _ _ hderives => exact hderives.advances
  | previous _ hdel =>
    exact .of_slots (by rw [hdel.frame]) (by rw [hdel.frame]) (.inl (by rw [hdel.frame]))
      (.inl (by rw [hdel.frame]))
  | current _ _ hderives hdel =>
    refine hderives.advances.trans (.trans ?_ (advances_resolveRekeyRaceAndAck _ _))
    exact .of_slots (by rw [hdel.frame]) (by rw [hdel.frame]) (.inl (by rw [hdel.frame]))
      (.inl (by rw [hdel.frame]))
  | pending _ _ hderives hdel =>
    refine hderives.advances.trans (advances_commitPendingRekeyWithRaceResolution.trans ?_)
    rw [hdel.hstate]
    exact .of_slots rfl le_rfl (.inl rfl) (.inl rfl)

variable {rnd : EncryptRandomness}

theorem Attaches.outgoing {seq : ℕ} {res : Except KyberError (Option RekeyPayload)}
    (h : Attaches P s seq rnd now res s') :
    s'.outgoingProposal = s.outgoingProposal ∨ s'.outgoingProposal.hybridPair.isSome := by
  cases h with
  | nothing => exact .inl rfl
  | resend _ _ => exact .inl rfl
  | propose _ _ _ _ => exact .inr rfl
  | unencapsulated _ _ _ => exact .inl rfl

variable {res : Except KyberError (RatchetEncryptedMessage C)}

/-- An encryption takes one position of the send counter, whether it succeeds or not. -/
theorem EncryptStep.send_count {pt : Bytes} (h : EncryptStep P s pt rnd now res s') :
    s'.ratchetGeneration = s.ratchetGeneration ∧
      s'.send.messageCount = s.send.messageCount + 1 := by
  refine h.preserves (Q := fun t => t.ratchetGeneration = s.ratchetGeneration ∧
    t.send.messageCount = s.send.messageCount + 1) ⟨rfl, rfl⟩ ?_ fun t ht => ht
  intro res t hattach
  rw [hattach.frame]
  exact ⟨rfl, rfl⟩

theorem EncryptStep.advances {pt : Bytes} (h : EncryptStep P s pt rnd now res s') :
    Advances s s' := by
  obtain ⟨hgen, hcount⟩ := h.send_count
  refine .of_slots hgen (by omega) ?_ ?_
  · rw [h.frame]
    exact .inl rfl
  · have hout : s'.outgoingProposal = s.outgoingProposal ∨
        s'.outgoingProposal.hybridPair.isSome :=
      h.preserves (Q := fun t => t.outgoingProposal = s.outgoingProposal ∨
        t.outgoingProposal.hybridPair.isSome) (.inl rfl) Attaches.outgoing fun t ht => ht
    exact hout.imp id fun h _ => h

theorem Evicts.advances (h : Evicts s t) : Advances s t := by
  cases h with
  | none => exact .refl s
  | incoming => exact advances_cancelPendingIncomingRekey
  | outgoing => exact advances_cancelOutgoingRekey
  | both => exact advances_cancelPendingIncomingRekey.trans advances_cancelOutgoingRekey

theorem Evolves.advances (h : Evolves P s s') : Advances s s' := by
  cases h with
  | encrypt h => exact h.advances
  | decrypt h => exact h.advances
  | commitOutgoing => exact advances_commitOutgoingRekey
  | resync targetSeq now =>
    obtain ⟨t, hevict, ⟨e, hres⟩ | ⟨_, hres⟩⟩ := resyncReceivingChain_cases P s targetSeq now
    · rw [hres]
      exact hevict.advances
    · rw [hres]
      exact hevict.advances.trans (.of_slots rfl le_rfl (.inl rfl) (.inl rfl))
  | ackState pending carrier cache =>
    -- the carrier number of the slot is not what decides a bump
    exact ⟨fun hs => ⟨hs.incoming, hs.outgoing, hs.generation_le⟩, fun _ => le_rfl⟩

theorem EvolvesStar.advances (h : EvolvesStar P s s') : Advances s s' := by
  induction h with
  | refl => exact .refl s
  | tail _ hstep ih => exact ih.trans hstep.advances

end DoubleRatchetState

/-! ## Runs -/

/-- A message that a call encrypted and returned. -/
def sentMessage : Call C → Response C → Option (RatchetEncryptedMessage C)
  | _, .message (.ok msg) => some msg
  | _, .ack true (.ok (some msg)) => some msg
  | _, _ => none

/-- The nonce of a message that a call encrypted and returned. -/
def sentNonce (call : Call C) (response : Response C) : Option Nonce :=
  (sentMessage call response).map (·.nonce)

/-- The 12 nonce bytes of a message that a call encrypted and returned. -/
def sentNonceBytes (call : Call C) (response : Response C) : Option Bytes :=
  (sentNonce call response).map Nonce.toBytes

namespace DoubleRatchetState

variable {P : Primitives K C} {s s' : DoubleRatchetState K C}

/-- The session sent the message at its position and moved past it. -/
structure Sends (s s' : DoubleRatchetState K C) (nonce : Nonce) : Prop where
  generation_ne : s.ratchetGeneration ≠ u32Max
  nonce_eq : nonce = ⟨s.ratchetGeneration, s.send.messageCount⟩
  generation_eq : s'.ratchetGeneration = s.ratchetGeneration
  count_eq : s'.send.messageCount = s.send.messageCount + 1

variable {rnd : EncryptRandomness} {msg : RatchetEncryptedMessage C}
variable {now : Clock}

theorem EncryptStep.sends {pt : Bytes} (h : EncryptStep P s pt rnd now (.ok msg) s') :
    Sends s s' msg.nonce := by
  obtain ⟨hgen, hcount⟩ := h.send_count
  cases h with
  | sent hmax _ _ => exact ⟨hmax, rfl, hgen, hcount⟩

theorem ratchetEncrypt_sends {pt : Bytes} (h : s.ratchetEncrypt P pt rnd now = (.ok msg, s')) :
    Sends s s' msg.nonce := by
  have hstep := ratchetEncrypt_step P s pt rnd now
  rw [h] at hstep
  exact hstep.sends

theorem ratchetGenerateRekeyAck_sends
    (h : (s.ratchetGenerateRekeyAck P rnd now).1 = .ok (some msg)) :
    Sends s (s.ratchetGenerateRekeyAck P rnd now).2 msg.nonce := by
  unfold ratchetGenerateRekeyAck at h ⊢
  simp only [takePendingRekeyAckSeq] at h ⊢
  cases hpending : s.pendingRekeyAckSeq with
  | none => simp [hpending] at h
  | some seq =>
    simp only [hpending, generateRekeyAck] at h ⊢
    split at h
    · rename_i ack t henc
      simp only [Except.ok.injEq, Option.some.injEq] at h
      subst h
      obtain ⟨hne, hnonce, hgen, hcount⟩ := ratchetEncrypt_sends henc
      exact ⟨hne, hnonce, hgen, hcount⟩
    · simp at h

theorem ratchetGenerateRekeyAckPeek_sends {gate : SyncGate}
    (hfresh : (Session.mk s gate).peekCached = false)
    (h : (s.ratchetGenerateRekeyAckPeek P rnd now).1 = .ok (some msg)) :
    Sends s (s.ratchetGenerateRekeyAckPeek P rnd now).2 msg.nonce := by
  unfold ratchetGenerateRekeyAckPeek at h ⊢
  cases hpending : s.pendingRekeyAckSeq with
  | none => simp [hpending] at h
  | some seq =>
    simp only [Session.peekCached, hpending, Option.isSome_eq_false_iff,
      Option.isNone_iff_eq_none] at hfresh
    simp only [hpending, hfresh, generateRekeyAck] at h ⊢
    split at h
    · rename_i ack t henc
      simp only [Except.ok.injEq, Option.some.injEq] at h
      subst h
      obtain ⟨hne, hnonce, hgen, hcount⟩ := ratchetEncrypt_sends henc
      exact ⟨hne, hnonce, hgen, hcount⟩
    · simp at h

theorem Sends.position_eq {nonce : Nonce} (h : Sends s s' nonce) :
    s.sendPosition = ((toLex (nonce.generation, nonce.seq) : ℕ ×ₗ ℕ) :
      WithTop (ℕ ×ₗ ℕ)) := by
  rw [sendPosition_of_ne h.generation_ne, h.nonce_eq]

theorem Sends.position_lt {nonce : Nonce} (h : Sends s s' nonce) :
    ((toLex (nonce.generation, nonce.seq) : ℕ ×ₗ ℕ) : WithTop (ℕ ×ₗ ℕ)) < s'.sendPosition := by
  have hne : s'.ratchetGeneration ≠ u32Max := h.generation_eq ▸ h.generation_ne
  rw [sendPosition_of_ne hne, WithTop.coe_lt_coe, Prod.Lex.toLex_lt_toLex, h.nonce_eq,
    h.generation_eq, h.count_eq]
  exact .inr ⟨rfl, Nat.lt_succ_self _⟩

end DoubleRatchetState

namespace Session

variable (P : Primitives K C) (peer : String) (σ : Session K C)

/-- Every call, by hand or not, advances the session. -/
theorem exec_advances (call : Call C) :
    DoubleRatchetState.Advances σ.ratchet (σ.exec P peer call).2.ratchet := by
  by_cases hmanual : call.Manual
  · cases call with
    | commitPendingRekey => exact advances_commitPendingRekey
    | commitOutgoingRekey => exact advances_commitOutgoingRekey
    | cancelOutgoingRekey => exact advances_cancelOutgoingRekey
    | cancelPendingIncomingRekey => exact advances_cancelPendingIncomingRekey
    | _ => exact hmanual.elim
  · exact DoubleRatchetState.EvolvesStar.advances (σ.exec_evolves P peer hmanual)

/-- A call that returns a freshly encrypted message sent it at the position of the session. -/
theorem exec_sends {call : Call C} {nonce : Nonce}
    (h : sentNonce call (σ.exec P peer call).1 = some nonce) :
    DoubleRatchetState.Sends σ.ratchet (σ.exec P peer call).2.ratchet nonce := by
  cases call with
  | encrypt pt rnd now =>
    simp only [exec] at h ⊢
    cases hres : σ.ratchet.ratchetEncrypt P pt rnd now with
    | mk res t =>
      cases res with
      | error e => simp [hres, sentNonce, sentMessage] at h
      | ok msg =>
        simp only [hres, sentNonce, sentMessage, Option.map_some, Option.some.injEq] at h
        exact h ▸ ratchetEncrypt_sends hres
  | synchronizePacket rnd now =>
    simp only [exec, ratchetSynchronizePacket] at h ⊢
    cases hres : σ.ratchet.ratchetEncrypt P
        (P.toJson (.synchronize σ.ratchet.send.messageCount)) rnd now with
    | mk res t =>
      cases res with
      | error e => simp [hres, sentNonce, sentMessage] at h
      | ok msg =>
        simp only [hres, sentNonce, sentMessage, Option.map_some, Option.some.injEq] at h
        exact h ▸ ratchetEncrypt_sends hres
  | generateRekeyAck rnd now =>
    simp only [exec] at h ⊢
    cases hres : (σ.ratchet.ratchetGenerateRekeyAck P rnd now).1 with
    | error e => simp [hres, sentNonce, sentMessage] at h
    | ok ack =>
      cases ack with
      | none => simp [hres, sentNonce, sentMessage] at h
      | some msg =>
        simp only [hres, sentNonce, sentMessage, Option.map_some, Option.some.injEq] at h
        exact h ▸ ratchetGenerateRekeyAck_sends hres
  | peekRekeyAck rnd now =>
    simp only [exec] at h ⊢
    cases hcached : σ.peekCached with
    | true => simp [hcached, sentNonce, sentMessage] at h
    | false =>
      cases hres : (σ.ratchet.ratchetGenerateRekeyAckPeek P rnd now).1 with
      | error e => simp [hres, sentNonce, sentMessage] at h
      | ok ack =>
        cases ack with
        | none => simp [hres, sentNonce, sentMessage] at h
        | some msg =>
          simp only [hres, hcached, Bool.not_false, sentNonce, sentMessage, Option.map_some,
            Option.some.injEq] at h
          exact h ▸ ratchetGenerateRekeyAckPeek_sends hcached hres
  | _ => simp [exec, sentNonce, sentMessage] at h

end Session

theorem bumpsOnCommit_newWithKeypair (P : Primitives K C) (secret : Bytes) (isInitiator : Bool)
    (pair : HybridKeyPair) (peerXpk peerMpk : Option Bytes) :
    (newWithKeypair P secret isInitiator pair peerXpk peerMpk).BumpsOnCommit :=
  ⟨(by rintro ⟨⟩), (by rintro ⟨⟩), Nat.zero_le _⟩

/-- The nonces of a run from a session whose proposals bump increase strictly. -/
theorem Session.emitted_sentNonce_pairwise (P : Primitives K C) (peer : String)
    {σ : Session K C} (hσ : σ.ratchet.BumpsOnCommit) (calls : List (Call C)) :
    (emitted sentNonce ((Session.machine P peer).run σ calls).1).Pairwise
      fun a b => (toLex (a.generation, a.seq) : ℕ ×ₗ ℕ) < toLex (b.generation, b.seq) := by
  -- every nonce sent so far lies below the current position
  let Inv : Session K C → Set Nonce → Prop := fun σ seen =>
    σ.ratchet.BumpsOnCommit ∧
      ∀ n ∈ seen, ((toLex (n.generation, n.seq) : ℕ ×ₗ ℕ) : WithTop (ℕ ×ₗ ℕ)) <
        σ.ratchet.sendPosition
  have hinit : Inv σ ∅ := ⟨hσ, fun n hn => absurd hn (Set.notMem_empty n)⟩
  refine (emitted_pairwise Inv (fun _ => True) ?_ ?_ hinit (fun _ _ => trivial)).2
  · rintro σ call seen - ⟨hbumps, hseen⟩ -
    have hadv := Session.exec_advances P peer σ call
    exact ⟨hadv.bumps hbumps, fun n hn => (hseen n hn).trans_le (hadv.position_le hbumps)⟩
  · rintro σ call seen nonce - ⟨hbumps, hseen⟩ hsent
    have hsends := Session.exec_sends P peer σ hsent
    have hadv := Session.exec_advances P peer σ call
    refine ⟨fun n hn => ?_, hadv.bumps hbumps, fun n hn => ?_⟩
    · have hlt := hseen n hn
      rw [hsends.position_eq] at hlt
      exact WithTop.coe_lt_coe.1 hlt
    · rcases hn with rfl | hn
      · exact hsends.position_lt
      · exact (hseen n hn).trans_le (hadv.position_le hbumps)

/-- Every nonce of a run is the position at which some call of the run sent it. -/
theorem Session.exists_of_mem_sentNonce (P : Primitives K C) (peer : String) {σ : Session K C}
    (hσ : σ.ratchet.BumpsOnCommit) {calls : List (Call C)} {nonce : Nonce}
    (h : nonce ∈ emitted sentNonce ((Session.machine P peer).run σ calls).1) :
    nonce.generation < u32Max ∧
      ∃ k, nonce.seq =
        ((Session.machine P peer).run σ (calls.take k)).2.ratchet.send.messageCount := by
  obtain ⟨k, call, _, hsent⟩ := exists_of_mem_emitted h
  have hsends := Session.exec_sends P peer _ hsent
  have hbumps : ((Session.machine P peer).run σ (calls.take k)).2.ratchet.BumpsOnCommit :=
    run_invariant (fun σ => σ.ratchet.BumpsOnCommit)
      (fun σ call hb => (Session.exec_advances P peer σ call).bumps hb) hσ _
  refine ⟨?_, k, ?_⟩
  · rw [hsends.nonce_eq]
    exact lt_of_le_of_ne hbumps.generation_le hsends.generation_ne
  · rw [hsends.nonce_eq]

/-- In every run of a session whose send counter stays below `2 ^ 64`, the generations and positions
in the 12-byte nonces of its messages increase strictly, so no nonce is used twice. -/
theorem sentNonceBytes_strictly_increasing (P : Primitives K C) (peer : String)
    (secret : Bytes) (isInitiator : Bool) (pair : HybridKeyPair) (peerXpk peerMpk : Option Bytes)
    (gate : SyncGate) (calls : List (Call C))
    (hcount : ∀ k, ((Session.machine P peer).run
      ⟨.newWithKeypair P secret isInitiator pair peerXpk peerMpk, gate⟩
        (calls.take k)).2.ratchet.send.messageCount < 2 ^ 64) :
    let sent := emitted sentNonceBytes ((Session.machine P peer).run
      ⟨.newWithKeypair P secret isInitiator pair peerXpk peerMpk, gate⟩ calls).1
    (sent.map fun bytes =>
        (toLex ((Nonce.ofBytes bytes).generation, (Nonce.ofBytes bytes).seq) : ℕ ×ₗ ℕ)).Pairwise
        (· < ·) ∧
      sent.Nodup := by
  intro sent
  have hbumps := bumpsOnCommit_newWithKeypair P secret isInitiator pair peerXpk peerMpk
  have hpair := Session.emitted_sentNonce_pairwise P peer
    (σ := ⟨.newWithKeypair P secret isInitiator pair peerXpk peerMpk, gate⟩) hbumps calls
  have hsent : sent = (emitted sentNonce ((Session.machine P peer).run
      ⟨.newWithKeypair P secret isInitiator pair peerXpk peerMpk, gate⟩ calls).1).map
        Nonce.toBytes :=
    (List.map_filterMap ..).symm
  have hdecode : ∀ nonce ∈ emitted sentNonce ((Session.machine P peer).run
      ⟨.newWithKeypair P secret isInitiator pair peerXpk peerMpk, gate⟩ calls).1,
        Nonce.ofBytes nonce.toBytes = nonce := by
    intro nonce hmem
    obtain ⟨hgen, k, hseq⟩ := Session.exists_of_mem_sentNonce P peer hbumps hmem
    refine Nonce.ofBytes_toBytes (hgen.trans (by decide)) ?_
    rw [hseq]
    exact hcount k
  have hincreasing : (sent.map fun bytes =>
      (toLex ((Nonce.ofBytes bytes).generation, (Nonce.ofBytes bytes).seq) : ℕ ×ₗ ℕ)).Pairwise
        (· < ·) := by
    rw [hsent, List.map_map, List.pairwise_map]
    refine hpair.imp_of_mem ?_
    intro a b ha hb hab
    simpa only [Function.comp_apply, hdecode a ha, hdecode b hb] using hab
  exact ⟨hincreasing, List.Nodup.of_map _ (hincreasing.imp ne_of_lt)⟩

/-- The theorem at the symbolic initiator that sends two messages. -/
theorem sentNonceBytes_strictly_increasing_two_sends :
    let calls : List (Call Symbolic.Ciphertext) :=
      [.encrypt [1] (randomness 0) ⟨0, 0⟩, .encrypt [2] (randomness 1) ⟨0, 0⟩]
    let run := fun calls => (Session.machine primitives "peer").run
      ⟨initiator, {}⟩ calls
    (∀ k, (run (calls.take k)).2.ratchet.send.messageCount < 2 ^ 64) ∧
      (emitted sentNonceBytes (run calls).1).length = 2 ∧
      (emitted sentNonceBytes (run calls).1).Nodup := by
  intro calls run
  have hcount : ∀ k, (run (calls.take k)).2.ratchet.send.messageCount < 2 ^ 64 := by
    intro k
    match k with
    | 0 => decide +kernel
    | 1 => decide +kernel
    | k + 2 =>
      have hall : calls.take (k + 2) = calls := List.take_of_length_le (by simp [calls])
      rw [hall]
      decide +kernel
  exact ⟨hcount, by decide +kernel,
    (sentNonceBytes_strictly_increasing primitives "peer" [7] true
      initiatorPair _ _ {} calls hcount).2⟩

end KyberPipe
