import KyberPipe.Desktop.Poll
import KyberPipe.Lib.Interleaving
import KyberPipe.Ratchet.Operations

/-!
# Delivery of rekey acknowledgements

A poll peeks the acknowledgement of the pending carrier, writes the response, and then clears
whatever carrier is pending. Each takes the lock of the session anew, so a handler that takes in a
carrier in between has its acknowledgement cleared without being sent. The polls and handlers of one
peer are threads over its session.
-/

namespace KyberPipe

variable {K C : Type}

/-- The program points of a poll. -/
inductive PollPoint where
  /-- `ratchet_process_synchronize` -/
  | sync
  /-- `ratchet_process_rekey_ack_binary` -/
  | rekeyAck
  /-- `encrypt_clipboard_data` -/
  | clipboard
  /-- `ratchet_generate_rekey_ack_binary_peek` -/
  | peek
  /-- `ratchet_synchronize_packet`, with the carrier that the response acknowledges. -/
  | syncPacket (ack : Option ℕ)
  /-- `send_frame` -/
  | write (ack : Option ℕ)
  /-- `ratchet_consume_rekey_ack` -/
  | consume (ack : Option ℕ)
  | finished
  deriving DecidableEq

/-- The threads that work on the session of one peer. -/
inductive AckThread (C : Type) where
  /-- A poll, whose response is written or lost. -/
  | poll (req : PollRequest C) (inp : PollInputs) (written : Bool) (point : PollPoint)
  /-- A handler of another stream that decrypts a message. -/
  | receive (msg : RatchetEncryptedMessage C) (now : Clock) (finished : Bool)

/-- What the sections of a poll show to the outside. -/
inductive AckEvent where
  /-- A response was written that acknowledges a carrier, or none. -/
  | responded (ack : Option ℕ)
  /-- After such a response the pending carrier was cleared. -/
  | consumed (ack cleared : Option ℕ)
  deriving DecidableEq

namespace AckThread

/-- The thread has not had a turn yet. -/
def Fresh : AckThread C → Prop
  | poll _ _ _ point => point = .sync
  | receive _ _ finished => finished = false

/-- The poll is between its peek and its consume, and its response acknowledges a carrier or
none. -/
def window : AckThread C → Option (Option ℕ)
  | poll _ _ _ (.syncPacket ack) | poll _ _ _ (.write ack) | poll _ _ _ (.consume ack) => some ack
  | _ => none

/-- The message that the next section of the thread decrypts. -/
def opens : AckThread C → Option (RatchetEncryptedMessage C)
  | poll req _ _ .sync => req.sync.map (·.1)
  | poll req _ _ .rekeyAck => req.rekeyAck
  | receive msg _ false => some msg
  | _ => none

end AckThread

section Program

variable (P : Primitives K C) (peer : String) (σ : Session K C)

/-- One section of a poll. -/
def pollStep (req : PollRequest C) (inp : PollInputs) (written : Bool) :
    PollPoint → Option AckEvent × Session K C × PollPoint
  | .sync =>
    (none,
      req.sync.elim σ fun packet =>
        (σ.exec P peer (.processSynchronize packet.1 packet.2 (inp.clock 0))).2, .rekeyAck)
  | .rekeyAck =>
    (none,
      req.rekeyAck.elim σ fun msg => (σ.exec P peer (.processRekeyAckBinary msg (inp.clock 1))).2,
      .clipboard)
  | .clipboard =>
    (none, if inp.latestClip = [] then σ
      else (σ.exec P peer (.encrypt inp.latestClip inp.clipRnd (inp.clock 2))).2,
      .peek)
  | .peek =>
    let r := σ.exec P peer (.peekRekeyAck inp.ackRnd (inp.clock 3))
    -- a peek that fails leaves the response without an acknowledgement
    (none, r.2,
      .syncPacket ((answeredMessage (.ok r.1)).bind fun _ => σ.ratchet.pendingRekeyAckSeq))
  | .syncPacket ack =>
    (none,
      if req.needSync then (σ.exec P peer (.synchronizePacket inp.syncRnd (inp.clock 4))).2 else σ,
      .write ack)
  | .write ack =>
    if written then (some (.responded ack), σ, .consume ack) else (none, σ, .finished)
  | .consume ack =>
    (some (.consumed ack σ.ratchet.pendingRekeyAckSeq), (σ.exec P peer .consumeRekeyAck).2,
      .finished)
  | .finished => (none, σ, .finished)

/-- The sections of the polls and handlers of a peer. -/
def ackProgram : Program (Session K C) (AckThread C) (Option AckEvent) where
  step σ
    | .poll req inp written point =>
      let r := pollStep P peer σ req inp written point
      (r.1, r.2.1, .poll req inp written r.2.2)
    | .receive msg now finished =>
      (none, if finished then σ
        else (receiveCall msg now).elim σ fun call => (σ.exec P peer call).2,
        .receive msg now true)

end Program

/-! ### The pending carrier -/

/-- The message has one of the fields of a rekey proposal. -/
def RatchetEncryptedMessage.hasRekeyField (msg : RatchetEncryptedMessage C) : Bool :=
  msg.rekeyX25519Pk.isSome || msg.rekeyMlkemPk.isSome || msg.rekeyCiphertext.isSome

namespace DoubleRatchetState

variable {P : Primitives K C} {s s' t : DoubleRatchetState K C}

/-- The pending carrier stays, and there is still none that a commit would queue. -/
structure KeepsAck (s s' : DoubleRatchetState K C) : Prop where
  pending : s'.pendingRekeyAckSeq = s.pendingRekeyAckSeq
  carrier : s'.incomingProposal.carrierSeq = none

theorem KeepsAck.trans (h : KeepsAck s t) (h' : KeepsAck t s') : KeepsAck s s' :=
  ⟨h'.pending.trans h.pending, h'.carrier⟩

variable {rnd : EncryptRandomness}

theorem EncryptStep.keepsAck {pt : Bytes} {now : Clock}
    {res : Except KyberError (RatchetEncryptedMessage C)} (h : EncryptStep P s pt rnd now res s') :
    s'.pendingRekeyAckSeq = s.pendingRekeyAckSeq ∧ s'.incomingProposal = s.incomingProposal := by
  rw [h.frame]
  exact ⟨rfl, rfl⟩

theorem keepsAck_commitPendingRekeyWithRaceResolution
    (hcarrier : s.incomingProposal.carrierSeq = none) :
    KeepsAck s s.commitPendingRekeyWithRaceResolution := by
  refine ⟨?_, ?_⟩
  · rw [pendingRekeyAckSeq_commitPendingRekeyWithRaceResolution, hcarrier, Option.or_none]
  · rw [incomingProposal_commitPendingRekeyWithRaceResolution]

/-- A message without a rekey payload queues no acknowledgement while no carrier is recorded. -/
theorem DecryptStep.keepsAck {nonce : Nonce} {c : C} {now : Clock}
    {res : Except KyberError Bytes} (h : DecryptStep P s nonce c none now res s')
    (hcarrier : s.incomingProposal.carrierSeq = none) : KeepsAck s s' := by
  cases h with
  | refused e => exact ⟨rfl, hcarrier⟩
  | failed e hadmits hskip hderives =>
    cases hderives
    exact ⟨rfl, hcarrier⟩
  | previous hadmits hdel =>
    rw [hdel.frame]
    exact ⟨rfl, hcarrier⟩
  | current hadmits hskip hderives hdel =>
    cases hderives
    rw [hdel.frame]
    exact ⟨rfl, hcarrier⟩
  | pending hadmits hskip hderives hdel =>
    cases hderives
    rw [hdel.hstate]
    obtain ⟨hpending, hnone⟩ := keepsAck_commitPendingRekeyWithRaceResolution hcarrier
    exact ⟨hpending, hnone⟩

variable (P) in
theorem keepsAck_decryptMessage {msg : RatchetEncryptedMessage C}
    (hplain : msg.hasRekeyField = false) (hcarrier : s.incomingProposal.carrierSeq = none)
    (now : Clock) : KeepsAck s (s.decryptMessage P msg now).2 := by
  have hentry : s.decryptMessage P msg now = s.ratchetDecrypt P msg.nonce msg.ciphertext := by
    unfold decryptMessage
    rw [if_neg]
    rw [RatchetEncryptedMessage.hasRekeyField] at hplain
    simp [hplain]
  rw [hentry]
  exact (ratchetDecrypt_step P s msg.nonce msg.ciphertext now).keepsAck hcarrier

theorem keepsAck_commitOutgoingRekey (hcarrier : s.incomingProposal.carrierSeq = none) :
    KeepsAck s s.commitOutgoingRekey := by
  rw [commitOutgoingRekey_frame]
  exact ⟨rfl, hcarrier⟩

variable (P) in
theorem keepsAck_resyncReceivingChain (hcarrier : s.incomingProposal.carrierSeq = none)
    (targetSeq : ℕ) (now : Clock) : KeepsAck s (s.resyncReceivingChain P targetSeq now).2 := by
  refine ⟨by rw [resyncReceivingChain_frame], ?_⟩
  obtain ⟨t, hevict, hslot, _, _⟩ := resyncReceivingChain_slots P s targetSeq now
  rw [hslot]
  cases hevict with
  | none => exact hcarrier
  | incoming => rfl
  | outgoing => exact hcarrier
  | both => rfl

variable (P) in
theorem keepsAck_ratchetProcessRekeyAckBinary {msg : RatchetEncryptedMessage C}
    (hplain : msg.hasRekeyField = false) (hcarrier : s.incomingProposal.carrierSeq = none)
    (now : Clock) : KeepsAck s (s.ratchetProcessRekeyAckBinary P msg now).2 := by
  have hdecrypt := keepsAck_decryptMessage P hplain hcarrier now
  rcases ratchetProcessRekeyAckBinary_state P s msg now with heq | ⟨seq, heq⟩
  · rw [heq]
    exact hdecrypt
  · rw [heq]
    refine hdecrypt.trans ?_
    rcases processRekeyAck_cases (s.decryptMessage P msg now).2 seq with hack | hack
    · rw [hack]
      exact keepsAck_commitOutgoingRekey hdecrypt.carrier
    · rw [hack]
      exact ⟨rfl, hdecrypt.carrier⟩

variable (P) in
theorem keepsAck_applySynchronize {msg : RatchetEncryptedMessage C}
    (hplain : msg.hasRekeyField = false) (hcarrier : s.incomingProposal.carrierSeq = none)
    (now : Clock) : KeepsAck s (s.applySynchronize P msg now).2 := by
  have hown := keepsAck_decryptMessage P hplain hcarrier now
  have heffect := synchronizeEffect_applySynchronize P s msg now
  generalize s.applySynchronize P msg now = res at heffect ⊢
  cases heffect with
  | refused e => exact ⟨rfl, hcarrier⟩
  | moved _ hresync hdec =>
    have hmoved := keepsAck_resyncReceivingChain P hcarrier msg.nonce.seq now
    rw [hresync] at hmoved
    have hopen := keepsAck_decryptMessage P hplain hmoved.carrier now
    rw [hdec] at hopen
    exact hmoved.trans hopen
  | opened _ hdec =>
    rw [hdec] at hown
    exact hown
  | failed e _ _ hdec =>
    rw [hdec] at hown
    exact hown

/-- The session can encrypt: its generation is not the last one and the keys of the peer are
valid. -/
def CanEncrypt (P : Primitives K C) (s : DoubleRatchetState K C) (rnd : EncryptRandomness) : Prop :=
  s.ratchetGeneration ≠ u32Max ∧
    ∀ xpk ∈ s.peerX25519Pk, ∀ mpk ∈ s.peerMlkemPk,
      (encapsulateHybrid P xpk mpk rnd.encapsulation).isOk = true

instance (P : Primitives K C) (s : DoubleRatchetState K C) (rnd : EncryptRandomness) :
    Decidable (s.CanEncrypt P rnd) :=
  inferInstanceAs (Decidable (_ ∧ _))

/-- A session that can encrypt does so, if sealing does not fail. -/
theorem CanEncrypt.ratchetEncrypt_isOk (h : s.CanEncrypt P rnd)
    (hseals : ∀ key nonce pt aad, (P.aeadSeal key nonce pt aad).isSome = true) (pt : Bytes)
    (now : Clock) : (s.ratchetEncrypt P pt rnd now).1.isOk = true := by
  obtain ⟨hmax, hpeer⟩ := h
  have hattach := attachRekey_attaches P s.countSend s.send.messageCount rnd now
  unfold ratchetEncrypt
  dsimp only
  rw [if_neg (show s.countSend.ratchetGeneration ≠ u32Max from hmax)]
  generalize s.countSend.attachRekey P s.send.messageCount rnd now = r at hattach
  obtain ⟨res, s'⟩ := r
  cases res with
  | error e =>
    cases hattach with
    | unencapsulated hxpk hmpk hkem =>
      have hok := hpeer _ hxpk _ hmpk
      rw [hkem] at hok
      cases hok
  | ok payload =>
    simp only [sealMessage, buildRekeyAad_payload, encryptChacha20]
    obtain ⟨ciphertext, hc⟩ := Option.isSome_iff_exists.1 (hseals (P.chain.out s'.send.key)
      (generateNonceFromSeq s.send.messageCount s'.ratchetGeneration) pt (payloadAad payload))
    rw [hc]
    rfl

/-- A session that can encrypt answers a peek with an acknowledgement if a carrier is pending. -/
theorem CanEncrypt.peek_isSome (h : s.CanEncrypt P rnd)
    (hseals : ∀ key nonce pt aad, (P.aeadSeal key nonce pt aad).isSome = true) {seq : ℕ}
    (hpending : s.pendingRekeyAckSeq = some seq) (now : Clock) :
    ∃ msg, (s.ratchetGenerateRekeyAckPeek P rnd now).1 = .ok (some msg) := by
  have hok := h.ratchetEncrypt_isOk hseals (P.toJson (.rekeyAck seq)) now
  simp only [ratchetGenerateRekeyAckPeek, hpending]
  split
  · exact ⟨_, rfl⟩
  · unfold generateRekeyAck
    split
    · exact ⟨_, rfl⟩
    · next herr =>
      rw [herr] at hok
      cases hok

end DoubleRatchetState

/-! ### Turns -/

namespace AckThread

/-- The next section of the thread may queue an acknowledgement: it decrypts a message with a rekey
proposal, or any message while a carrier is recorded that a commit would queue again. -/
def takesIn (s : DoubleRatchetState K C) (t : AckThread C) : Bool :=
  t.opens.any fun msg => msg.hasRekeyField || s.incomingProposal.carrierSeq.isSome

/-- The next section of the thread peeks. -/
def peeks : AckThread C → Option EncryptRandomness
  | poll _ inp _ .peek => some inp.ackRnd
  | _ => none

end AckThread

/-- A message that may queue an acknowledgement is decrypted only while no poll is between its peek
and its consume, and acknowledgements are peeked by sessions that can encrypt. -/
def PollsUndisturbed (P : Primitives K C) (pool : Pool (Session K C) (AckThread C)) (i : ℕ) :
    Prop :=
  ∀ t ∈ pool.threads[i]?,
    (t.takesIn pool.shared.ratchet = true → ∀ q ∈ pool.threads, q.window = none) ∧
    ∀ rnd ∈ t.peeks, pool.shared.ratchet.pendingRekeyAckSeq.isSome →
      pool.shared.ratchet.CanEncrypt P rnd

instance (P : Primitives K C) (pool : Pool (Session K C) (AckThread C)) (i : ℕ) :
    Decidable (PollsUndisturbed P pool i) :=
  inferInstanceAs (Decidable (∀ t ∈ pool.threads[i]?, _))

section Turns

variable {P : Primitives K C} {peer : String} {σ : Session K C}

open DoubleRatchetState

/-- Without a message that may queue an acknowledgement, the pending carrier stays as it is. -/
theorem pendingRekeyAckSeq_exec_opens {msg : RatchetEncryptedMessage C}
    (h : (msg.hasRekeyField || σ.ratchet.incomingProposal.carrierSeq.isSome) = false) :
    (∀ digest now,
      (σ.exec P peer (.processSynchronize msg digest now)).2.ratchet.pendingRekeyAckSeq =
        σ.ratchet.pendingRekeyAckSeq) ∧
      (∀ now, (σ.exec P peer (.processRekeyAckBinary msg now)).2.ratchet.pendingRekeyAckSeq =
        σ.ratchet.pendingRekeyAckSeq) ∧
      ∀ now, ((receiveCall msg now).elim σ fun call =>
          (σ.exec P peer call).2).ratchet.pendingRekeyAckSeq = σ.ratchet.pendingRekeyAckSeq := by
  obtain ⟨hplain, hnone⟩ := Bool.or_eq_false_iff.1 h
  have hcarrier : σ.ratchet.incomingProposal.carrierSeq = none := by simpa using hnone
  refine ⟨fun digest now => ?_, fun now => ?_, fun now => ?_⟩
  · simp only [Session.exec]
    rcases ratchetProcessSynchronize_session P peer σ.gate σ.ratchet msg digest now with heq | heq
    · rw [heq]
    · rw [heq]
      exact (keepsAck_applySynchronize P hplain hcarrier now).pending
  · exact (keepsAck_ratchetProcessRekeyAckBinary P hplain hcarrier now).pending
  · have hentry : receiveCall msg now = some (.decrypt msg.nonce msg.ciphertext) := by
      unfold receiveCall
      rw [if_neg]
      rw [RatchetEncryptedMessage.hasRekeyField] at hplain
      simp [hplain]
    rw [hentry]
    exact ((ratchetDecrypt_step P σ.ratchet msg.nonce msg.ciphertext now).keepsAck hcarrier).pending

variable (P peer) in
/-- A section that takes in no carrier keeps the pending one or clears it. -/
theorem pendingRekeyAckSeq_ackProgram {t : AckThread C} (h : t.takesIn σ.ratchet = false) :
    ((ackProgram P peer).step σ t).2.1.ratchet.pendingRekeyAckSeq = σ.ratchet.pendingRekeyAckSeq ∨
      ((ackProgram P peer).step σ t).2.1.ratchet.pendingRekeyAckSeq = none := by
  have hencrypt (pt : Bytes) (rnd : EncryptRandomness) (now : Clock) :=
    (ratchetEncrypt_step P σ.ratchet pt rnd now).keepsAck.1
  cases t with
  | poll req inp written point =>
    cases point with
    | sync =>
      cases hsync : req.sync with
      | none =>
        simp [ackProgram, pollStep, hsync]
      | some packet =>
        simp only [AckThread.takesIn, AckThread.opens, hsync, Option.map_some, Option.any_some] at h
        simp only [ackProgram, pollStep, hsync, Option.elim_some]
        exact .inl ((pendingRekeyAckSeq_exec_opens h).1 _ _)
    | rekeyAck =>
      cases hack : req.rekeyAck with
      | none =>
        simp [ackProgram, pollStep, hack]
      | some msg =>
        simp only [AckThread.takesIn, AckThread.opens, hack, Option.any_some] at h
        simp only [ackProgram, pollStep, hack, Option.elim_some]
        exact .inl ((pendingRekeyAckSeq_exec_opens h).2.1 _)
    | clipboard =>
      simp only [ackProgram, pollStep]
      split_ifs
      · exact .inl rfl
      · exact .inl (hencrypt _ _ _)
    | peek => exact .inl (pendingRekeyAckSeq_peek P σ.ratchet _ _)
    | syncPacket ack =>
      simp only [ackProgram, pollStep]
      split_ifs
      · exact .inl (hencrypt _ _ _)
      · exact .inl rfl
    | write ack =>
      simp only [ackProgram, pollStep]
      split_ifs <;> exact .inl rfl
    | consume ack => exact .inr rfl
    | finished => exact .inl rfl
  | receive msg now finished =>
    cases finished with
    | true => exact .inl rfl
    | false =>
      exact .inl ((pendingRekeyAckSeq_exec_opens
        (by simpa [AckThread.takesIn, AckThread.opens] using h)).2.2 now)

/-- Only a poll at its consume clears a carrier, namely the pending one. -/
theorem consumed_ackProgram {t : AckThread C} {ack cleared : Option ℕ}
    (h : ((ackProgram P peer).step σ t).1 = some (.consumed ack cleared)) :
    t.window = some ack ∧ σ.ratchet.pendingRekeyAckSeq = cleared := by
  cases t with
  | poll req inp written point =>
    cases point with
    | write _ => cases written <;> cases h
    | consume _ =>
      obtain ⟨rfl, rfl⟩ := AckEvent.consumed.inj (Option.some.inj h)
      exact ⟨rfl, rfl⟩
    | _ => cases h
  | receive msg now finished => cases h

/-- A poll between its peek and its consume: the pending carrier is the one that the response
acknowledges, or cleared. -/
def AckThread.Guards (pending : Option ℕ) (t : AckThread C) : Prop :=
  ∀ ack ∈ t.window, pending = ack ∨ pending = none

variable (peer) in
/-- A thread meets its assertion after its own section. -/
theorem guards_ackProgram {t : AckThread C}
    (hseals : ∀ key nonce pt aad, (P.aeadSeal key nonce pt aad).isSome = true)
    (hcan : ∀ rnd ∈ t.peeks, σ.ratchet.pendingRekeyAckSeq.isSome → σ.ratchet.CanEncrypt P rnd)
    (hguards : t.Guards σ.ratchet.pendingRekeyAckSeq) :
    ((ackProgram P peer).step σ t).2.2.Guards
      ((ackProgram P peer).step σ t).2.1.ratchet.pendingRekeyAckSeq := by
  cases t with
  | poll req inp written point =>
    cases point with
    | peek =>
      intro ack hack
      have hkept := pendingRekeyAckSeq_peek P σ.ratchet inp.ackRnd (inp.clock 3)
      have hslot : ((ackProgram P peer).step σ (.poll req inp written .peek)).2.1.ratchet =
          (σ.ratchet.ratchetGenerateRekeyAckPeek P inp.ackRnd (inp.clock 3)).2 := rfl
      rw [hslot, hkept]
      obtain rfl := Option.some.inj hack
      cases hpending : σ.ratchet.pendingRekeyAckSeq with
      | none => exact .inr rfl
      | some seq =>
        -- the peek has answered with the acknowledgement of this very carrier
        obtain ⟨msg, hmsg⟩ := (hcan inp.ackRnd rfl (by simp [hpending])).peek_isSome hseals hpending
          (inp.clock 3)
        left
        simp [Session.exec, answeredMessage, hmsg]
    | syncPacket ack =>
      intro ack' hack
      have hquiet : (AckThread.poll req inp written (.syncPacket ack)).takesIn σ.ratchet = false :=
        rfl
      have hkept := pendingRekeyAckSeq_ackProgram P peer hquiet
      obtain rfl : ack = ack' := Option.some.inj hack
      rcases hkept with hkept | hkept
      · rw [hkept]
        exact hguards ack rfl
      · exact .inr hkept
    | write ack =>
      cases written with
      | true => exact hguards
      | false => rintro _ ⟨⟩
    | _ => rintro _ ⟨⟩
  | receive msg now finished => rintro _ ⟨⟩

end Turns

/-! ### Runs -/

section Runs

variable {P : Primitives K C} {peer : String} {pool : Pool (Session K C) (AckThread C)} {i : ℕ}

/-- An undisturbed turn keeps the assertions of all polls. -/
theorem guards_machine_step
    (hseals : ∀ key nonce pt aad, (P.aeadSeal key nonce pt aad).isSome = true)
    (h : ∀ t ∈ pool.threads, t.Guards pool.shared.ratchet.pendingRekeyAckSeq)
    (hundisturbed : PollsUndisturbed P pool i) :
    ∀ t ∈ ((ackProgram P peer).machine.step pool i).2.threads,
      t.Guards ((ackProgram P peer).machine.step pool i).2.shared.ratchet.pendingRekeyAckSeq := by
  cases hi : pool.threads[i]? with
  | none =>
    rw [Program.machine_step_of_none hi]
    exact h
  | some t =>
    rw [Program.machine_step_of_some hi]
    obtain ⟨htakes, hcan⟩ := hundisturbed t hi
    have hown := guards_ackProgram peer hseals hcan (h t (List.mem_of_getElem? hi))
    refine Pool.forall_mem_set
      (fun (σ : Session K C) (t : AckThread C) => t.Guards σ.ratchet.pendingRekeyAckSeq) h hown
      fun q hq hguards => ?_
    intro ack hack
    cases htake : t.takesIn pool.shared.ratchet with
    | true =>
      have hidle : q.window = none := htakes htake q hq
      rw [hidle] at hack
      cases hack
    | false =>
      rcases pendingRekeyAckSeq_ackProgram P peer htake with hkept | hcleared
      · rw [hkept]
        exact hguards ack hack
      · exact .inr hcleared

/-- Let polls be undisturbed and sealing not fail. In every interleaving of polls and handlers of a
peer, a consume clears nothing or the carrier that the written response of its poll has
acknowledged. -/
theorem consume_clears_only_acknowledged (P : Primitives K C) (peer : String)
    (hseals : ∀ key nonce pt aad, (P.aeadSeal key nonce pt aad).isSome = true)
    {pool : Pool (Session K C) (AckThread C)} (hfresh : ∀ t ∈ pool.threads, t.Fresh)
    {schedule : List ℕ}
    (hundisturbed : (ackProgram P peer).machine.Follows (PollsUndisturbed P) pool schedule)
    {i : ℕ} {ack cleared : Option ℕ}
    (hconsumed : (i, some (some (.consumed ack cleared))) ∈
      ((ackProgram P peer).machine.run pool schedule).1) :
    cleared = ack ∨ cleared = none := by
  let Inv : Pool (Session K C) (AckThread C) → Prop :=
    fun pool => ∀ t ∈ pool.threads, t.Guards pool.shared.ratchet.pendingRekeyAckSeq
  have hstart : Inv pool := by
    intro t ht ack hack
    cases t with
    | poll req inp written point =>
      obtain rfl : point = .sync := hfresh _ ht
      cases hack
    | receive msg now finished => cases hack
  let Good : Option (Option AckEvent) → Prop := fun output =>
    ∀ ack cleared, output = some (some (.consumed ack cleared)) → cleared = ack ∨ cleared = none
  have hgood : ∀ (pool : Pool (Session K C) (AckThread C)) (i : ℕ), Inv pool →
      Good ((ackProgram P peer).machine.step pool i).1 := by
    intro pool i h ack cleared hevent
    cases hi : pool.threads[i]? with
    | none =>
      rw [Program.machine_step_of_none hi] at hevent
      cases hevent
    | some t =>
      rw [Program.machine_step_of_some hi] at hevent
      obtain ⟨hwindow, rfl⟩ := consumed_ackProgram (Option.some.inj hevent)
      exact h t (List.mem_of_getElem? hi) ack hwindow
  have hall : ∀ e ∈ ((ackProgram P peer).machine.run pool schedule).1, Good e.2 :=
    Machine.forall_mem_run_of_follows Inv (fun _ _ h hu => guards_machine_step hseals h hu)
      (fun pool i h _ => hgood pool i h) hstart hundisturbed
  exact hall _ hconsumed ack cleared rfl

end Runs

namespace Symbolic

/-- The message of the phone that carries its first rekey proposal. -/
def phoneCarrier : Option (RatchetEncryptedMessage Ciphertext) := (sendAll responder 0 101).1[100]?

/-- A poll without ratchet messages, whose response is written. -/
def plainPoll : AckThread Ciphertext :=
  .poll { peer := "phone", sync := none, rekeyAck := none, needSync := false }
    { latestClip := []
      clipRnd := randomness 1
      ackRnd := randomness 2
      syncRnd := randomness 3
      clock := fun _ => ⟨0, 0⟩ }
    true .sync

/-- A desktop with a poll and a handler that receives the carrier of the phone. -/
def pollBesideCarrier : Pool (Session Key Ciphertext) (AckThread Ciphertext) :=
  ⟨⟨initiator, {}⟩, [plainPoll] ++ phoneCarrier.toList.map (.receive · ⟨0, 0⟩ false)⟩

end Symbolic

open Symbolic in
/-- The carrier is taken in before the poll: its acknowledgement is sent, and then cleared. -/
theorem consume_clears_only_acknowledged_after_carrier :
    let trace := ((ackProgram primitives "phone").machine.run pollBesideCarrier
      (1 :: List.replicate 7 0)).1
    (0, some (some (.consumed (some 100) (some 100)))) ∈ trace ∧
      ((some 100 : Option ℕ) = some 100 ∨ (some 100 : Option ℕ) = none) := by
  intro trace
  have hseals : ∀ key nonce pt aad, (primitives.aeadSeal key nonce pt aad).isSome = true :=
    fun _ _ _ _ => rfl
  have hfresh : ∀ t ∈ pollBesideCarrier.threads, t.Fresh := by
    intro t ht
    simp only [pollBesideCarrier, List.mem_append, List.mem_singleton, List.mem_map] at ht
    rcases ht with rfl | ⟨msg, -, rfl⟩
    · rfl
    · rfl
  have hrun : (ackProgram primitives "phone").machine.Follows (PollsUndisturbed primitives)
        pollBesideCarrier (1 :: List.replicate 7 0) ∧
      (0, some (some (.consumed (some 100) (some 100)))) ∈ trace := by
    decide +kernel
  exact ⟨hrun.2, consume_clears_only_acknowledged primitives "phone" hseals hfresh hrun.1 hrun.2⟩

open Symbolic in
/-- The carrier is taken in between the peek of a poll and its consume: no response acknowledges it,
and the consume clears it. -/
theorem consume_clears_unsent_acknowledgement :
    let trace := ((ackProgram primitives "phone").machine.run pollBesideCarrier
      (List.replicate 4 0 ++ [1] ++ List.replicate 3 0)).1
    (0, some (some (.consumed none (some 100)))) ∈ trace ∧
      ∀ turn ∈ trace, turn.2 ≠ some (some (.responded (some 100))) := by
  decide +kernel

end KyberPipe
