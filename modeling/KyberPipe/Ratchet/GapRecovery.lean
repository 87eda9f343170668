import KyberPipe.Ratchet.Carriers
import KyberPipe.Ratchet.SyncCalls
import KyberPipe.Ratchet.SynchronizeAtomicity

/-!
# Gap recovery

A receiver that has missed more than `maxSkip` messages of its generation is brought back by one
Synchronize packet. The packet moves the receiving chain to its own position on a copy of the
session, is opened there, and leaves the counter one past it. From then on the messages within
`maxSkip` of the new counter are delivered again, in any order.

The record of applied packets knows a packet by its 64-bit digest only: after a packet of another
message with the same digest, nothing moves.
-/

namespace KyberPipe

variable {K C : Type}

namespace DoubleRatchetState

variable {P : Primitives K C} {s t : DoubleRatchetState K C} {k : K} {delivered : Set ℕ}
variable {pt : Bytes} {m : RatchetEncryptedMessage C} {now : Clock} {i : ℕ}

/-! ## The packet -/

variable {sent : List (Bytes × RatchetEncryptedMessage C)}

theorem SendRun.carriesProposed (hrun : SendRun P s sent t) (hfit : s.CarriersFit P)
    (hi : sent[i]? = some (pt, m)) : CarriesProposed P m := by
  induction hrun generalizing i with
  | done s => exact absurd hi (by simp)
  | @encrypt s s' u pt' rnd now m' sent h _ ih =>
    have hstep := ratchetEncrypt_step P s pt' rnd now
    rw [h] at hstep
    cases i with
    | zero =>
      obtain ⟨rfl, rfl⟩ := Prod.mk.inj (Option.some.inj hi)
      exact hstep.carriesProposed hfit
    | succ i => exact ih (hfit.encryptStep hstep) (by simpa using hi)
  | step h _ _ _ ih => exact ih (hfit.evolves h) hi

/-- A message with a proposed payload is decrypted by the rekey-aware entry or, without a
payload, by the plain one, with the same result. -/
theorem decryptMessage_eq_receive (kem : P.KemCorrect) (hm : CarriesProposed P m)
    (s : DoubleRatchetState K C) (now : Clock) :
    s.decryptMessage P m now = s.receive P m now := by
  obtain ⟨nonce, c, payload, rfl, hpayload⟩ := hm
  exact decryptMessage_messageOf s nonce c now fun p hp => (hpayload p hp).length_x25519Pk kem

theorem Genuine.nonce_eq {g : ℕ} (hm : Genuine P k g i pt m) : m.nonce = ⟨g, i⟩ := by
  obtain ⟨_, _, rfl, _⟩ := hm
  rfl

/-- The list holds the messages of generation `g` by position, sealed under the chain from `k`. -/
structure SentBy (P : Primitives K C) (k : K) (g : ℕ)
    (sent : List (Bytes × RatchetEncryptedMessage C)) : Prop where
  genuine : ∀ (i : ℕ) pt m, sent[i]? = some (pt, m) → Genuine P k g i pt m
  proposed : ∀ (i : ℕ) pt m, sent[i]? = some (pt, m) → CarriesProposed P m

section Ideal

variable (ideal : P.Ideal)
include ideal

/-- Whatever a message of the sender does as a Synchronize packet, the receiver stays aligned, and a
packet that is applied counts as delivered. -/
theorem Aligned.applySynchronize (kem : P.KemCorrect) (hal : s.Aligned P k delivered)
    (hkeyed : s.WellKeyed P) (hm : Genuine P k s.ratchetGeneration i pt m)
    (hproposed : CarriesProposed P m) (now : Clock) :
    (s.applySynchronize P m now).2.ratchetGeneration = s.ratchetGeneration ∧
      (s.applySynchronize P m now).2.WellKeyed P ∧
      ∃ delivered', delivered ⊆ delivered' ∧
        (s.applySynchronize P m now).2.Aligned P k delivered' ∧
        ∀ n, (s.applySynchronize P m now).1 = .ok n → i ∈ delivered' := by
  have hkeyed' : (s.applySynchronize P m now).2.WellKeyed P :=
    EvolvesStar.wellKeyed (applySynchronize_coreSteps P s m now).evolves hkeyed
  have hnonce := hm.nonce_eq
  have hnot : ¬saturatingSucc s.ratchetGeneration ≤ s.ratchetGeneration := by
    rw [saturatingSucc_of_lt (lt_of_le_of_ne hal.spent.1.generation_le hal.generation_ne)]
    exact Nat.not_succ_le_self _
  by_cases hgap : s.maxSkip < m.nonce.seq - s.recv.messageCount
  · rcases applySynchronize_of_gap now (by rw [hnonce]) hgap with
      ⟨e, he⟩ | ⟨skipped, moved, pt', t, hresync, hdec, hres⟩
    · rw [he] at hkeyed' ⊢
      exact ⟨rfl, hkeyed', delivered, subset_rfl, hal, (by rintro n ⟨⟩)⟩
    · -- the chain is moved beside the chain of the sender, and then the message arrives
      rw [hnonce] at hresync
      have hmoves : EvolvesBeside P k s moved := by
        have hstep : EvolvesBeside P k s (s.resyncReceivingChain P i now).2 := .resync i now
        rwa [hresync] at hstep
      have hgen : moved.ratchetGeneration = s.ratchetGeneration := by
        obtain ⟨u, hu, ⟨e, he⟩ | ⟨_, he⟩⟩ := resyncReceivingChain_cases P s i now
        · cases hresync.symm.trans he
        · rw [(Prod.mk.inj (hresync.symm.trans he)).2]
          exact hu.sameReceive.generation
      rw [decryptMessage_eq_receive kem hproposed] at hdec
      obtain ⟨hgen', ⟨e, he, _⟩ | ⟨_, _, hal'⟩⟩ :=
        (hal.beside ideal hmoves hgen).arrive ideal (hgen ▸ hm) hdec
      · cases he
      · rw [hres] at hkeyed' ⊢
        exact ⟨hgen'.trans hgen, hkeyed', insert i delivered, Set.subset_insert i delivered, hal',
          fun _ _ => Set.mem_insert i delivered⟩
  · have hlive : ¬s.TriesCopy m.nonce := by
      rw [TriesCopy, hnonce]
      rw [hnonce] at hgap
      exact not_or.2 ⟨fun h => hgap h.2, hnot⟩
    cases hreceive : s.receive P m now with
    | mk res t =>
      obtain ⟨hgen, hcases⟩ := hal.arrive ideal hm hreceive
      rw [← decryptMessage_eq_receive kem hproposed] at hreceive
      rcases hcases with ⟨e, rfl, hal'⟩ | ⟨rfl, _, hal'⟩
      · rw [applySynchronize_of_error hlive hreceive] at hkeyed' ⊢
        exact ⟨hgen, hkeyed', delivered, subset_rfl, hal', (by rintro n ⟨⟩)⟩
      · rw [applySynchronize_of_ok hlive hreceive] at hkeyed' ⊢
        exact ⟨hgen, hkeyed', insert i delivered, Set.subset_insert i delivered, hal',
          fun _ _ => Set.mem_insert i delivered⟩

end Ideal

end DoubleRatchetState

/-! ## Runs of a receiver with its gate -/

section Runs

variable {P : Primitives K C} {peer : String} {ofBytes : Bytes → C} {packets : Set Bytes} {k : K}
variable {sent : List (Bytes × RatchetEncryptedMessage C)} {σ σ' : Session K C}

/-- The record of applied packets holds digests of packets that were handed in, and of generation
`g` only packets that were delivered. -/
def SyncGate.Knows (ofBytes : Bytes → C) (packets : Set Bytes) (g : ℕ) (delivered : Set ℕ)
    (gate : SyncGate) : Prop :=
  ∀ e ∈ gate.appliedSync, ∃ data ∈ packets, ∃ m, syncPacket ofBytes data = .ok m ∧
    e.1 = syncDigest data ∧ (m.nonce.generation = g → m.nonce.seq ∈ delivered)

variable {s : DoubleRatchetState K C}

/-- The digest of a packet is recorded only when the packet was applied. -/
theorem mem_appliedSync_of_process {gate : SyncGate} {msg : RatchetEncryptedMessage C} {d : ℕ}
    {now : Clock} {e : ℕ × ℕ}
    (h : e ∈ (ratchetProcessSynchronize P peer gate s msg d now).2.1.appliedSync) :
    e ∈ gate.appliedSync ∨
      e.1 = d ∧ ¬gate.Blocks d now ∧ ∃ n, (s.applySynchronize P msg now).1 = .ok n := by
  unfold ratchetProcessSynchronize at h
  dsimp only at h
  split_ifs at h with happlied hburst
  · exact .inl (List.mem_filter.1 h).1
  · exact .inl (List.mem_filter.1 h).1
  · have hopen : ¬gate.Blocks d now := not_or.2 ⟨mt appliedSync_any_iff.2 happlied, hburst⟩
    cases happly : s.applySynchronize P msg now with
    | mk res t =>
      rw [happly] at h
      cases res with
      | error e => exact .inl (List.mem_filter.1 h).1
      | ok n =>
        rcases List.mem_append.1 (List.mem_of_mem_drop h) with hold | hnew
        · exact .inl (List.mem_filter.1 hold).1
        · obtain rfl := List.mem_singleton.1 hnew
          exact .inr ⟨rfl, hopen, n, rfl⟩

/-- One step of a receiver within its generation. A message of the sender arrives at one of the
three entries for received messages, or at the one for Synchronize packets as some bytes of
`packets`, or something happens that is not about the chain of the sender and records no Synchronize
packet of the generation. -/
inductive Session.ReceiverStep (P : Primitives K C) (peer : String) (ofBytes : Bytes → C)
    (packets : Set Bytes) (k : K) (sent : List (Bytes × RatchetEncryptedMessage C))
    (σ : Session K C) : Session K C → Prop
  | arrive {i : ℕ} {pt : Bytes} {m : RatchetEncryptedMessage C} (hi : sent[i]? = some (pt, m))
      (now : Clock) :
      ReceiverStep P peer ofBytes packets k sent σ (σ.exec P peer (.decryptWithRekey m.nonce
        m.ciphertext m.rekeyCiphertext m.rekeyX25519Pk m.rekeyMlkemPk now)).2
  | synchronize {i : ℕ} {pt : Bytes} {m : RatchetEncryptedMessage C} {data : Bytes}
      (hi : sent[i]? = some (pt, m)) (hdata : data ∈ packets)
      (hparse : syncPacket ofBytes data = .ok m) (now : Clock) :
      ReceiverStep P peer ofBytes packets k sent σ
        (σ.exec P peer (.processSynchronize m (syncDigest data) now)).2
  | ack {i : ℕ} {pt : Bytes} {m : RatchetEncryptedMessage C} (hi : sent[i]? = some (pt, m))
      (now : Clock)
      (hgen : (σ.exec P peer (.processRekeyAckBinary m now)).2.ratchet.ratchetGeneration =
        σ.ratchet.ratchetGeneration) :
      ReceiverStep P peer ofBytes packets k sent σ (σ.exec P peer (.processRekeyAckBinary m now)).2
  | beside {σ' : Session K C} (h : σ.ratchet.EvolvesBeside P k σ'.ratchet)
      (hgen : σ'.ratchet.ratchetGeneration = σ.ratchet.ratchetGeneration)
      (hgate : ∀ e ∈ σ'.gate.appliedSync, e ∈ σ.gate.appliedSync ∨
        ∃ data ∈ packets, ∃ m, syncPacket ofBytes data = .ok m ∧ e.1 = syncDigest data ∧
          m.nonce.generation ≠ σ.ratchet.ratchetGeneration) :
      ReceiverStep P peer ofBytes packets k sent σ σ'

/-- The receiver is in generation `g`, aligned with the chain of the sender, and its gate records
only delivered packets of the generation. -/
structure Session.Tracks (P : Primitives K C) (ofBytes : Bytes → C) (packets : Set Bytes) (k : K)
    (g : ℕ) (σ : Session K C) (delivered : Set ℕ) : Prop where
  generation : σ.ratchet.ratchetGeneration = g
  aligned : σ.ratchet.Aligned P k delivered
  wellKeyed : σ.ratchet.WellKeyed P
  gate : σ.gate.Knows ofBytes packets g delivered

theorem SyncGate.Knows.mono {g : ℕ} {delivered delivered' : Set ℕ} {gate : SyncGate}
    (h : gate.Knows ofBytes packets g delivered) (hsub : delivered ⊆ delivered') :
    gate.Knows ofBytes packets g delivered' := by
  intro e he
  obtain ⟨data, hdata, m, hparse, hdigest, hdel⟩ := h e he
  exact ⟨data, hdata, m, hparse, hdigest, fun hgen => hsub (hdel hgen)⟩

section Steps

variable {g : ℕ} {delivered : Set ℕ} (ideal : P.Ideal)
include ideal

/-- An acknowledgement that commits nothing is a message like any other. -/
theorem DoubleRatchetState.Aligned.ack (kem : P.KemCorrect) (hal : s.Aligned P k delivered) {i : ℕ}
    {pt : Bytes} {m : RatchetEncryptedMessage C} (hm : Genuine P k s.ratchetGeneration i pt m)
    (hproposed : CarriesProposed P m) (now : Clock)
    (hgen : (s.ratchetProcessRekeyAckBinary P m now).2.ratchetGeneration = s.ratchetGeneration) :
    ∃ delivered', delivered ⊆ delivered' ∧
      (s.ratchetProcessRekeyAckBinary P m now).2.Aligned P k delivered' := by
  unfold ratchetProcessRekeyAckBinary at hgen ⊢
  rw [decryptMessage_eq_receive kem hproposed] at hgen ⊢
  cases hreceive : s.receive P m now with
  | mk res t =>
    rw [hreceive] at hgen
    obtain ⟨hgen', hcases⟩ := hal.arrive ideal hm hreceive
    rcases hcases with ⟨e, rfl, hal⟩ | ⟨rfl, _, hal⟩
    · exact ⟨delivered, subset_rfl, hal⟩
    · refine ⟨insert i delivered, Set.subset_insert i delivered, ?_⟩
      dsimp only at hgen ⊢
      generalize P.fromJson pt = decoded at hgen ⊢
      cases decoded with
      | none => exact hal
      | some packet =>
        cases packet with
        | rekeyAck seq =>
          -- an acknowledged proposal leads to the next generation, so none was committed
          dsimp only [processRekeyAck] at hgen ⊢
          split_ifs at hgen ⊢
          · exact hal.beside ideal .commitOutgoing (hgen.trans hgen'.symm)
          · exact hal
        | synchronize _ => exact hal
        | application _ => exact hal

theorem Session.ReceiverStep.tracks (kem : P.KemCorrect)
    (hsent : DoubleRatchetState.SentBy P k g sent)
    (hstep : σ.ReceiverStep P peer ofBytes packets k sent σ')
    (h : σ.Tracks P ofBytes packets k g delivered) :
    ∃ delivered', σ'.Tracks P ofBytes packets k g delivered' := by
  have hgenuine : ∀ {i pt m}, sent[i]? = some (pt, m) →
      DoubleRatchetState.Genuine P k σ.ratchet.ratchetGeneration i pt m := by
    intro i pt m hi
    rw [h.generation]
    exact hsent.genuine i pt m hi
  cases hstep with
  | @arrive i pt m hi now =>
    have hkeyed : (σ.ratchet.receive P m now).2.WellKeyed P :=
      (DoubleRatchetState.ratchetDecryptWithRekey_step P σ.ratchet _ _ _ _ _ now).wellKeyed
        h.wellKeyed
    obtain ⟨hgen, ⟨_, _, hal⟩ | ⟨_, _, hal⟩⟩ := h.aligned.arrive ideal (hgenuine hi)
      (rfl : σ.ratchet.receive P m now = (_, (σ.ratchet.receive P m now).2))
    · exact ⟨delivered, hgen.trans h.generation, hal, hkeyed, h.gate⟩
    · exact ⟨insert i delivered, hgen.trans h.generation, hal, hkeyed,
        h.gate.mono (Set.subset_insert i delivered)⟩
  | @synchronize i pt m data hi hdata hparse now =>
    by_cases hblocks : σ.gate.Blocks (syncDigest data) now
    · -- the gate answers, and at most forgets old packets
      have hsame : (σ.exec P peer (.processSynchronize m (syncDigest data) now)).2.ratchet =
          σ.ratchet := ratchetProcessSynchronize_of_blocks peer hblocks
      refine ⟨delivered, ?_, ?_, ?_, ?_⟩
      · rw [hsame, h.generation]
      · rw [hsame]
        exact h.aligned
      · rw [hsame]
        exact h.wellKeyed
      · intro e he
        rcases mem_appliedSync_of_process he with hold | ⟨_, hopen, _⟩
        · exact h.gate e hold
        · exact absurd hblocks hopen
    · have happlied : (σ.exec P peer (.processSynchronize m (syncDigest data) now)).2.ratchet =
          (σ.ratchet.applySynchronize P m now).2 :=
        (ratchetProcessSynchronize_of_not_blocks peer hblocks).2
      obtain ⟨hgen, hkeyed, delivered', hsub, hal, hok⟩ := h.aligned.applySynchronize ideal kem
        h.wellKeyed (hgenuine hi) (hsent.proposed i pt m hi) now
      rw [← happlied] at hgen hkeyed hal
      refine ⟨delivered', hgen.trans h.generation, hal, hkeyed, ?_⟩
      intro e he
      rcases mem_appliedSync_of_process he with hold | ⟨hdigest, _, n, hn⟩
      · exact h.gate.mono hsub e hold
      · refine ⟨data, hdata, m, hparse, hdigest, fun _ => ?_⟩
        rw [(hgenuine hi).nonce_eq]
        exact hok n hn
  | @ack i pt m hi now hgen =>
    obtain ⟨delivered', hsub, hal⟩ := h.aligned.ack ideal kem (hgenuine hi)
      (hsent.proposed i pt m hi) now hgen
    refine ⟨delivered', hgen.trans h.generation, hal, ?_, h.gate.mono hsub⟩
    exact DoubleRatchetState.EvolvesStar.wellKeyed
      (DoubleRatchetState.ratchetProcessRekeyAckBinary_coreSteps P σ.ratchet m now).evolves
      h.wellKeyed
  | beside hbeside hgen hgate =>
    refine ⟨delivered, hgen.trans h.generation, h.aligned.beside ideal hbeside hgen,
      hbeside.evolves.wellKeyed h.wellKeyed, ?_⟩
    intro e he
    rcases hgate e he with hold | ⟨data, hdata, m, hparse, hdigest, hother⟩
    · exact h.gate e hold
    · exact ⟨data, hdata, m, hparse, hdigest, fun hg => absurd (hg.trans h.generation.symm) hother⟩

theorem Session.Tracks.run (kem : P.KemCorrect) (hsent : DoubleRatchetState.SentBy P k g sent)
    (hrun : Relation.ReflTransGen (Session.ReceiverStep P peer ofBytes packets k sent) σ σ')
    (h : σ.Tracks P ofBytes packets k g delivered) :
    ∃ delivered', σ'.Tracks P ofBytes packets k g delivered' := by
  induction hrun with
  | refl => exact ⟨delivered, h⟩
  | tail _ hstep ih =>
    obtain ⟨delivered', h'⟩ := ih
    exact hstep.tracks ideal kem hsent h'

end Steps

end Runs

namespace Symbolic

/-- The initiator's first packet is a Synchronize packet. -/
def firstSync : Except KyberError (RatchetEncryptedMessage Ciphertext) ×
    DoubleRatchetState Key Ciphertext :=
  initiator.ratchetSynchronizePacket primitives (randomness 0) ⟨0, 0⟩

/-- Behind it the initiator encrypts 101 messages, which are lost. -/
def lostMessages : List (RatchetEncryptedMessage Ciphertext) × DoubleRatchetState Key Ciphertext :=
  sendAll firstSync.2 1 101

/-- Then it sends another Synchronize packet. -/
def secondSync : Except KyberError (RatchetEncryptedMessage Ciphertext) ×
    DoubleRatchetState Key Ciphertext :=
  lostMessages.2.ratchetSynchronizePacket primitives (randomness 102) ⟨0, 0⟩

/-- The packet in a result. -/
def packetOf (res : Except KyberError (RatchetEncryptedMessage Ciphertext)) :
    RatchetEncryptedMessage Ciphertext :=
  res.toOption.getD ⟨⟨0, 0⟩, ⟨.absent, ⟨0, 0⟩, [], []⟩, none, none, none⟩

/-- The ciphertexts of the two packets by their bytes. -/
def ofSyncs (second bytes : Bytes) : Ciphertext :=
  if bytes = ciphertextBytes 0 then (packetOf firstSync.1).ciphertext
  else if bytes = second then (packetOf secondSync.1).ciphertext
  else ⟨.absent, ⟨0, 0⟩, [], []⟩

/-- The bytes of the second packet, whose ciphertext has two bytes more than the first one. -/
def secondBytes (ciphertext : Bytes) : Bytes :=
  (WireMessage.toBinary ⟨Nonce.toBytes ⟨0, 102⟩, ciphertext, none, none, none⟩).toOption.getD []

/-- What the responder answers to both packets, and its sessions after them. -/
def resynced (second : Bytes) : List (Option ℕ) × RatchetRegistry Key Ciphertext :=
  [syncBytes 0, secondBytes second].foldl (fun r data =>
    let call := r.2.ratchetProcessSynchronizeImpl primitives (ofSyncs second) "desktop" data
      (.at ⟨0, 0⟩)
    (r.1 ++ [call.1.toOption], call.2)) ([], { sessions := AList.singleton "desktop" responder })

end Symbolic

end KyberPipe
