import KyberPipe.Ratchet.Reachable

/-!
# The carrier of a proposal

A session that has proposed a rekey keeps at most one carrier in its confirm queue, and that
carrier repeats the payload of the outgoing slot. Due carriers leave the queue before one of them
is sent again, and a new proposal is only made while the queue is empty.
-/

namespace KyberPipe

variable {K C : Type}

/-- A payload as a proposal makes it: the public keys of a generated key pair and an
encapsulation. -/
def Proposed (P : Primitives K C) (p : RekeyPayload) : Prop :=
  ∃ kseed peerXpk peerMpk seed kem, encapsulateHybrid P peerXpk peerMpk seed = .ok kem ∧
    p = ⟨(generateHybridKeypair P kseed).x25519Pk, (generateHybridKeypair P kseed).mlkemPk,
      kem.ciphertextBytes⟩

/-- The public key of a proposed payload has the length that the receive path asks for. -/
theorem Proposed.length_x25519Pk {P : Primitives K C} {p : RekeyPayload} (kem : P.KemCorrect)
    (h : Proposed P p) : p.x25519Pk.length = 32 := by
  obtain ⟨kseed, _, _, _, _, _, rfl⟩ := h
  exact kem.x25519Public_length _

namespace DoubleRatchetState

/-- At most one carrier is queued, it repeats the payload of the outgoing slot, and that payload
is a proposed one. -/
structure CarriersFit (P : Primitives K C) (s : DoubleRatchetState K C) : Prop where
  single : s.rekeyPendingConfirmQueue.length ≤ 1
  payload : ∀ carrier ∈ s.rekeyPendingConfirmQueue,
    s.outgoingProposal.rekeyPayload = some carrier.payload
  proposed : ∀ p, s.outgoingProposal.rekeyPayload = some p → Proposed P p

variable {P : Primitives K C} {s s' : DoubleRatchetState K C}

theorem CarriersFit.of_keeps (hfit : s.CarriersFit P) (hkeeps : KeepsProposal s s') :
    s'.CarriersFit P := by
  refine ⟨hkeeps.queue_sublist.length_le.trans hfit.single, ?_, ?_⟩
  · intro carrier hmem
    rcases hkeeps.own with ⟨hslot, hqueue⟩ | ⟨_, hqueue⟩
    · rw [hslot]
      exact hfit.payload carrier (hqueue.subset hmem)
    · rw [hqueue] at hmem
      cases hmem
  · intro p hp
    rcases hkeeps.own with ⟨hslot, _⟩ | ⟨hslot, _⟩
    · exact hfit.proposed p (hslot ▸ hp)
    · rw [hslot] at hp
      cases hp

variable {rnd : EncryptRandomness} {res : Except KyberError (Option RekeyPayload)} {now : Clock}

/-- While at most one carrier is queued, a message goes out without a payload, or its carrier is
the only queued one afterwards. Its payload is then one that was queued, or a new one. -/
theorem Attaches.carriers {seq : ℕ} (hsingle : s.rekeyPendingConfirmQueue.length ≤ 1)
    (hattach : Attaches P s seq rnd now res s') :
    (KeepsProposal s s' ∧ ∀ p, res ≠ .ok (some p)) ∨
      ∃ carrier, res = .ok (some carrier.payload) ∧ s'.rekeyInterval = s.rekeyInterval ∧
        s'.rekeyPendingConfirmQueue = [carrier] ∧
        (s'.outgoingProposal = s.outgoingProposal ∧
            (∃ c ∈ s.rekeyPendingConfirmQueue, c.payload = carrier.payload) ∨
          s'.outgoingProposal.rekeyPayload = some carrier.payload ∧
            Proposed P carrier.payload) := by
  have hdropped : KeepsProposal s (s.dropDueCarriers now) :=
    ⟨rfl, .inl ⟨rfl, List.filter_sublist⟩⟩
  cases hattach with
  | nothing => exact .inl ⟨hdropped, (by rintro _ ⟨⟩)⟩
  | @resend carrier hmem hdue =>
    -- the due carrier was the only one, so it is alone in the queue again
    have hone : s.rekeyPendingConfirmQueue = [carrier] := by
      obtain ⟨other, hother⟩ := List.length_eq_one_iff.1
        (Nat.le_antisymm hsingle (List.length_pos_of_mem hmem))
      rw [hother] at hmem ⊢
      rw [List.mem_singleton.1 hmem]
    refine .inr ⟨{ carrier with
      carrierSeq := seq, attachedAt := now.mono, attachedAtUnix := now.unix }, rfl, rfl, ?_,
      .inl ⟨rfl, carrier, hmem, rfl⟩⟩
    simp [resendCarrier, dropDueCarriers, hone, hdue]
  | @propose peerXpk peerMpk kem hshould _ _ hkem =>
    have hempty : (s.dropDueCarriers now).rekeyPendingConfirmQueue = [] :=
      (shouldRekey_iff.1 hshould).2.1
    refine .inr ⟨⟨seq, now.mono, now.unix, now.mono, now.unix,
      (generateHybridKeypair P rnd.keygen).x25519Pk, (generateHybridKeypair P rnd.keygen).mlkemPk,
      kem.ciphertextBytes⟩, rfl, rfl, ?_,
      .inr ⟨rfl, rnd.keygen, peerXpk, peerMpk, rnd.encapsulation, kem, hkem, rfl⟩⟩
    simp [stageOutgoing, hempty]
  | unencapsulated _ _ _ => exact .inl ⟨hdropped, (by rintro _ ⟨⟩)⟩

/-- What is attached to a message is a proposed payload, and the queue holds only its carrier. -/
theorem CarriersFit.attaches {seq : ℕ} (hfit : s.CarriersFit P)
    (hattach : Attaches P s seq rnd now res s') :
    s'.CarriersFit P ∧ ∀ p, res = .ok (some p) → Proposed P p := by
  rcases hattach.carriers hfit.single with ⟨hkeeps, hnone⟩ |
    ⟨carrier, rfl, _, hqueue, hpayload⟩
  · exact ⟨hfit.of_keeps hkeeps, fun p h => absurd h (hnone p)⟩
  · have hslot : s'.outgoingProposal.rekeyPayload = some carrier.payload ∧
        Proposed P carrier.payload := by
      rcases hpayload with ⟨hslot, c, hmem, hpayload⟩ | hnew
      · have hold := hfit.payload c hmem
        rw [hpayload] at hold
        exact ⟨hslot ▸ hold, hfit.proposed _ hold⟩
      · exact hnew
    refine ⟨⟨by rw [hqueue]; exact le_rfl, ?_, ?_⟩, ?_⟩
    · rw [hqueue]
      intro c hc
      obtain rfl := List.mem_singleton.1 hc
      exact hslot.1
    · intro p hp
      obtain rfl := Option.some.inj (hslot.1.symm.trans hp)
      exact hslot.2
    · intro p h
      obtain rfl := Option.some.inj (Except.ok.inj h)
      exact hslot.2

theorem CarriersFit.encryptStep {pt : Bytes} {res : Except KyberError (RatchetEncryptedMessage C)}
    (hfit : s.CarriersFit P) (hstep : EncryptStep P s pt rnd now res s') : s'.CarriersFit P := by
  have hcount : s.countSend.CarriersFit P := hfit.of_keeps (.of_eq rfl rfl rfl)
  exact hstep.preserves hcount (fun hattach => (hcount.attaches hattach).1)
    fun t ht => ht.of_keeps (.of_eq rfl rfl rfl)

theorem CarriersFit.evolves (hfit : s.CarriersFit P) (hstep : Evolves P s s') :
    s'.CarriersFit P := by
  cases hstep with
  | encrypt hstep => exact hfit.encryptStep hstep
  | decrypt hstep => exact hfit.of_keeps hstep.keepsProposal
  | commitOutgoing => exact hfit.of_keeps (keepsProposal_commitOutgoingRekey s)
  | resync targetSeq now =>
    exact hfit.of_keeps (keepsProposal_resyncReceivingChain P s targetSeq now)
  | ackState pending carrier cache => exact hfit.of_keeps (.of_eq rfl rfl rfl)

variable (P) in
theorem carriersFit_newWithKeypair (secret : Bytes) (isInitiator : Bool) (pair : HybridKeyPair)
    (peerXpk peerMpk : Option Bytes) :
    (newWithKeypair P secret isInitiator pair peerXpk peerMpk :
      DoubleRatchetState K C).CarriersFit P :=
  ⟨Nat.zero_le 1, (by rintro _ ⟨⟩), (by rintro _ ⟨⟩)⟩

variable (P) in
/-- The message carries nothing or a proposed payload. -/
def CarriesProposed (m : RatchetEncryptedMessage C) : Prop :=
  ∃ nonce c payload, m = messageOf nonce c payload ∧ ∀ p, payload = some p → Proposed P p

/-- What a session with fitting carriers sends carries nothing or a proposed payload. -/
theorem EncryptStep.carriesProposed {pt : Bytes} {m : RatchetEncryptedMessage C}
    (hfit : s.CarriersFit P) (hstep : EncryptStep P s pt rnd now (.ok m) s') :
    CarriesProposed P m := by
  cases hstep with
  | @sent payload _ c _ hattach _ =>
    have hcount : s.countSend.CarriersFit P := hfit.of_keeps (.of_eq rfl rfl rfl)
    refine ⟨_, c, payload, rfl, ?_⟩
    rintro p rfl
    exact (hcount.attaches hattach).2 p rfl

end DoubleRatchetState

end KyberPipe
