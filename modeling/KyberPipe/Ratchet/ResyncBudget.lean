import KyberPipe.Ratchet.Operations
import KyberPipe.Ratchet.SyncCalls

/-!
# The work of resynchronisations

`resync_receiving_chain` counts the positions it moves the receiving chain by in a counter that
only it changes. The counter survives commits, copies of the session and snapshots, so it is the
sum of all gaps that were applied in the life of a session, and its bound is theirs.
-/

namespace KyberPipe

variable {K C : Type}

namespace DoubleRatchetState

variable {P : Primitives K C} {s s' : DoubleRatchetState K C}

/-! ## The counter -/

theorem Evicts.resyncForwardTotal (h : Evicts s s') :
    s'.resyncForwardTotal = s.resyncForwardTotal ∧ s'.maxSkip = s.maxSkip := by
  cases h <;> exact ⟨rfl, rfl⟩

variable {now : Clock} {targetSeq gap : ℕ}

section

variable (h : s.resyncReceivingChain P targetSeq now = (.ok gap, s'))
include h

/-- A resynchronisation that succeeds adds its gap to the counter, within both budgets. -/
theorem resyncReceivingChain_ok :
    gap ≤ syncMaxGap ∧ s'.resyncForwardTotal = s.resyncForwardTotal + gap ∧
      s'.resyncForwardTotal ≤ syncMaxCumulative := by
  obtain ⟨t, hevicts, ⟨e, hfailed⟩ | hforward⟩ := exists_resyncForward P s targetSeq now
  · rw [h] at hfailed
    cases hfailed
  · rw [h] at hforward
    obtain ⟨rfl, hgap, htotal, rfl⟩ := resyncForward_ok hforward.symm
    rw [hevicts.resyncForwardTotal.1] at htotal
    have hmoved : (t.moveReceivingChain P targetSeq).resyncForwardTotal =
        s.resyncForwardTotal + (targetSeq - t.recv.messageCount) := by
      rw [← hevicts.resyncForwardTotal.1]
      rfl
    rw [hmoved]
    exact ⟨hgap, rfl, htotal⟩

/-- The cache after a resynchronisation that succeeds. -/
theorem resyncReceivingChain_skipMessageKeys :
    s'.skipMessageKeys.size ≤ 2 * s'.maxSkip ∧ ∀ e ∈ s'.skipMessageKeys,
      e.1 = s'.ratchetGeneration ∨ e.1 + 1 = s'.ratchetGeneration := by
  obtain ⟨t, -, ⟨e, hfailed⟩ | hforward⟩ := exists_resyncForward P s targetSeq now
  · rw [h] at hfailed
    cases hfailed
  · rw [h] at hforward
    obtain ⟨-, -, -, rfl⟩ := resyncForward_ok hforward.symm
    rw [Nat.mul_comm]
    exact ⟨size_pruneSkipKeys_le _ _ _, fun e he => generation_of_mem_pruneSkipKeys he⟩

end

theorem resyncReceivingChain_error {targetSeq : ℕ} {e : KyberError}
    (h : s.resyncReceivingChain P targetSeq now = (.error e, s')) :
    s'.resyncForwardTotal = s.resyncForwardTotal := by
  obtain ⟨t, hevicts, ⟨e', hfailed⟩ | ⟨-, hmoved⟩⟩ := resyncReceivingChain_cases P s targetSeq now
  · rw [h] at hfailed
    rw [(Prod.mk.inj hfailed).2, hevicts.resyncForwardTotal.1]
  · rw [h] at hmoved
    cases hmoved

theorem resyncForwardTotal_commitPendingRekey (s : DoubleRatchetState K C) :
    s.commitPendingRekey.resyncForwardTotal = s.resyncForwardTotal := by
  rw [commitPendingRekey_frame]

theorem resyncForwardTotal_commitOutgoingRekey (s : DoubleRatchetState K C) :
    s.commitOutgoingRekey.resyncForwardTotal = s.resyncForwardTotal := by
  rw [commitOutgoingRekey_frame]

theorem EncryptStep.resyncForwardTotal {pt : Bytes} {rnd : EncryptRandomness}
    {res : Except KyberError (RatchetEncryptedMessage C)} (h : EncryptStep P s pt rnd now res s') :
    s'.resyncForwardTotal = s.resyncForwardTotal := by
  rw [h.frame]

theorem DecryptStep.resyncForwardTotal {nonce : Nonce} {c : C} {payload : Option RekeyPayload}
    {res : Except KyberError Bytes} (h : DecryptStep P s nonce c payload now res s') :
    s'.resyncForwardTotal = s.resyncForwardTotal := by
  cases h with
  | refused e => rfl
  | failed e hadmits hskip hderives => rw [hderives.frame]
  | previous hadmits hdel => rw [hdel.frame]
  | current hadmits hskip hderives hdel =>
    rw [resolveRekeyRaceAndAck_frame, hdel.frame, hderives.frame]
  | @pending pt s₁ s₂ key hadmits hskip hderives hdel =>
    have hderived : s₁.resyncForwardTotal = s.resyncForwardTotal := by rw [hderives.frame]
    rw [hdel.hstate]
    show s₁.commitPendingRekeyWithRaceResolution.resyncForwardTotal = _
    rcases commitPendingRekeyWithRaceResolution_cases s₁ with heq | heq
    · rw [heq, resyncForwardTotal_commitPendingRekey]
      exact hderived
    · rw [heq, resyncForwardTotal_commitPendingRekey]
      exact hderived

variable (P s) in
theorem resyncForwardTotal_decryptMessage (msg : RatchetEncryptedMessage C) (now : Clock) :
    (s.decryptMessage P msg now).2.resyncForwardTotal = s.resyncForwardTotal := by
  unfold decryptMessage
  split_ifs
  · rfl
  · exact (ratchetDecryptWithRekey_step P s _ _ _ _ _ now).resyncForwardTotal
  · exact (ratchetDecrypt_step P s _ _ now).resyncForwardTotal

/-- The gap that a Synchronize packet applies to the session: the one of the copy, if the copy has
replaced the session. -/
def synchronizeGap (P : Primitives K C) (s : DoubleRatchetState K C)
    (msg : RatchetEncryptedMessage C) (now : Clock) : ℕ :=
  if msg.nonce.generation = s.ratchetGeneration ∧
      s.maxSkip < msg.nonce.seq - s.recv.messageCount then
    match (s.applySynchronize P msg now).1, (s.resyncReceivingChain P msg.nonce.seq now).1 with
    | .ok _, .ok gap => gap
    | _, _ => 0
  else 0

/-- A Synchronize packet adds the gap that it applies to the counter. -/
theorem resyncForwardTotal_applySynchronize (P : Primitives K C) (s : DoubleRatchetState K C)
    (msg : RatchetEncryptedMessage C) (now : Clock) :
    (s.applySynchronize P msg now).2.resyncForwardTotal =
        s.resyncForwardTotal + s.synchronizeGap P msg now ∧
      s.synchronizeGap P msg now ≤ syncMaxGap ∧
      (s.resyncForwardTotal ≤ syncMaxCumulative →
        (s.applySynchronize P msg now).2.resyncForwardTotal ≤ syncMaxCumulative) := by
  have hidle : ∀ t : DoubleRatchetState K C, t.resyncForwardTotal = s.resyncForwardTotal →
      t.resyncForwardTotal = s.resyncForwardTotal + 0 ∧ 0 ≤ syncMaxGap ∧
        (s.resyncForwardTotal ≤ syncMaxCumulative → t.resyncForwardTotal ≤ syncMaxCumulative) :=
    fun t ht => ⟨ht, Nat.zero_le _, fun hle => ht ▸ hle⟩
  have hown := resyncForwardTotal_decryptMessage P s msg now
  have heffect := synchronizeEffect_applySynchronize P s msg now
  unfold synchronizeGap
  generalize s.applySynchronize P msg now = res at heffect ⊢
  cases heffect with
  | refused e =>
    split_ifs
    · exact hidle s rfl
    · exact hidle s rfl
  | @moved gap trial t pt hbeyond hresync hdec =>
    -- the copy replaces the session, with the gap on its counter
    have hopen := resyncForwardTotal_decryptMessage P trial msg now
    rw [hdec] at hopen
    obtain ⟨hgap, htotal, hle⟩ := resyncReceivingChain_ok hresync
    rw [if_pos hbeyond, hresync]
    exact ⟨hopen.trans htotal, hgap, fun _ => hopen.trans_le hle⟩
  | opened hnear hdec =>
    rw [hdec] at hown
    rw [if_neg hnear]
    exact hidle _ hown
  | failed e hnear _ hdec =>
    rw [hdec] at hown
    rw [if_neg hnear]
    exact hidle _ hown

variable (P s) in
theorem resyncForwardTotal_ratchetGenerateRekeyAck (rnd : EncryptRandomness) (now : Clock) :
    (s.ratchetGenerateRekeyAck P rnd now).2.resyncForwardTotal = s.resyncForwardTotal := by
  have htaken : s.takePendingRekeyAckSeq.2.resyncForwardTotal = s.resyncForwardTotal := rfl
  rcases ratchetGenerateRekeyAck_state P s rnd now with heq | ⟨seq, heq⟩
  · rw [heq, htaken]
  · rw [heq, (ratchetEncrypt_step P _ _ rnd now).resyncForwardTotal, htaken]

variable (P s) in
theorem resyncForwardTotal_ratchetProcessRekeyAckBinary (msg : RatchetEncryptedMessage C)
    (now : Clock) :
    (s.ratchetProcessRekeyAckBinary P msg now).2.resyncForwardTotal = s.resyncForwardTotal := by
  have hdecrypted := resyncForwardTotal_decryptMessage P s msg now
  rcases ratchetProcessRekeyAckBinary_state P s msg now with heq | ⟨seq, heq⟩
  · rw [heq]
    exact hdecrypted
  · rw [heq]
    rcases processRekeyAck_cases (s.decryptMessage P msg now).2 seq with hack | hack
    · rw [hack, resyncForwardTotal_commitOutgoingRekey]
      exact hdecrypted
    · rw [hack]
      exact hdecrypted

end DoubleRatchetState

/-! ## The life of a session -/

/-- What happens to a session: a call, a new pairing epoch, or that it is stored and comes back in
a process with the Synchronize bookkeeping `gate`. -/
inductive SessionEvent (C : Type) where
  | call (call : Call C)
  | bumpPairingEpoch
  | restoreLatest (gate : SyncGate) (now : Clock)

namespace Session

open DoubleRatchetState

variable (P : Primitives K C) (peer : String) (σ : Session K C)

/-- The gap that `resync_receiving_chain` applies to the live session during a call. A gap on a
copy counts if the copy replaces the session. -/
def appliedGap : Call C → ℕ
  | .resync targetSeq now =>
    match (σ.ratchet.resyncReceivingChain P targetSeq now).1 with
    | .ok gap => gap
    | .error _ => 0
  | .processSynchronize msg digest now =>
    if (σ.gate.alreadyAppliedAuthenticated digest now.mono).1 ∨
        ((σ.gate.pruneApplied now.mono).syncRateLimited now.mono).1 then 0
    else σ.ratchet.synchronizeGap P msg now
  | _ => 0

/-- The life of a session, with the gap that each event applies to it. -/
def gapMachine : Machine (Session K C) (SessionEvent C) ℕ where
  step σ
    | .call call => (σ.appliedGap P call, (σ.exec P peer call).2)
    | .bumpPairingEpoch => (0, { σ with ratchet := σ.ratchet.bumpPairingEpoch })
    | .restoreLatest gate now => (0, ⟨fromSnapshot σ.ratchet.toSnapshot now, gate⟩)

/-- The counter of `σ'` is the one of `σ` and the gap that was applied in between, within both
budgets. -/
def Spends (σ : Session K C) (gap : ℕ) (σ' : Session K C) : Prop :=
  σ'.ratchet.resyncForwardTotal = σ.ratchet.resyncForwardTotal + gap ∧ gap ≤ syncMaxGap ∧
    (σ.ratchet.resyncForwardTotal ≤ syncMaxCumulative →
      σ'.ratchet.resyncForwardTotal ≤ syncMaxCumulative)

variable {P peer σ} {σ' : Session K C}

theorem Spends.zero (h : σ'.ratchet.resyncForwardTotal = σ.ratchet.resyncForwardTotal) :
    Spends σ 0 σ' :=
  ⟨h, Nat.zero_le _, fun hle => h.trans_le hle⟩

variable (P peer σ) in
theorem spends_resync (targetSeq : ℕ) (now : Clock) :
    Spends σ (σ.appliedGap P (.resync targetSeq now))
      (σ.exec P peer (.resync targetSeq now)).2 := by
  cases hcall : σ.ratchet.resyncReceivingChain P targetSeq now with
  | mk res s' =>
    simp only [appliedGap, exec, hcall]
    cases res with
    | error e => exact .zero (resyncReceivingChain_error hcall)
    | ok gap =>
      obtain ⟨hgap, htotal, hle⟩ := resyncReceivingChain_ok hcall
      exact ⟨htotal, hgap, fun _ => hle⟩

variable (P peer σ) in
theorem spends_processSynchronize (msg : RatchetEncryptedMessage C) (digest : ℕ) (now : Clock) :
    Spends σ (σ.appliedGap P (.processSynchronize msg digest now))
      (σ.exec P peer (.processSynchronize msg digest now)).2 := by
  have happlied := resyncForwardTotal_applySynchronize P σ.ratchet msg now
  simp only [appliedGap, exec, RatchetRegistry.ratchetProcessSynchronize_eq]
  by_cases hcached : (σ.gate.alreadyAppliedAuthenticated digest now.mono).1 = true
  · rw [if_pos hcached, if_pos (.inl hcached)]
    exact .zero rfl
  · by_cases hlimited : ((σ.gate.pruneApplied now.mono).syncRateLimited now.mono).1 = true
    · rw [if_neg hcached, if_pos hlimited, if_pos (.inr hlimited)]
      exact .zero rfl
    · rw [if_neg hcached, if_neg hlimited, if_neg (not_or.2 ⟨hcached, hlimited⟩)]
      cases hcall : σ.ratchet.applySynchronize P msg now with
      | mk res s' =>
        rw [hcall] at happlied
        cases res with
        | error e => exact happlied
        | ok skipped => exact happlied

variable (P peer σ) in
/-- Every call adds the gap that it applies to the counter. -/
theorem spends_exec (call : Call C) : Spends σ (σ.appliedGap P call) (σ.exec P peer call).2 := by
  cases call with
  | encrypt pt rnd now => exact .zero (ratchetEncrypt_step P _ pt rnd now).resyncForwardTotal
  | decrypt nonce c =>
    exact .zero (ratchetDecrypt_step P _ nonce c ⟨0, 0⟩).resyncForwardTotal
  | decryptWithRekey nonce c rct rx rm now =>
    exact .zero (ratchetDecryptWithRekey_step P _ nonce c rct rx rm now).resyncForwardTotal
  | processRekeyAck seq =>
    refine .zero ?_
    show (σ.ratchet.processRekeyAck seq).2.resyncForwardTotal = _
    unfold processRekeyAck
    split_ifs
    · exact resyncForwardTotal_commitOutgoingRekey _
    · rfl
  | processRekeyAckBinary msg now =>
    exact .zero (resyncForwardTotal_ratchetProcessRekeyAckBinary P _ msg now)
  | generateRekeyAck rnd now =>
    exact .zero (resyncForwardTotal_ratchetGenerateRekeyAck P _ rnd now)
  | peekRekeyAck rnd now =>
    refine .zero ?_
    show (σ.ratchet.ratchetGenerateRekeyAckPeek P rnd now).2.resyncForwardTotal = _
    obtain ⟨cache, hpeek | ⟨seq, hpeek⟩⟩ := peekRekeyAck_state P σ.ratchet rnd now
    · rw [hpeek]
    · rw [hpeek]
      exact (ratchetEncrypt_step P _ _ rnd now).resyncForwardTotal
  | consumeRekeyAck => exact .zero rfl
  | synchronizePacket rnd now =>
    exact .zero (ratchetEncrypt_step P _ _ rnd now).resyncForwardTotal
  | processSynchronize msg digest now => exact spends_processSynchronize P peer σ msg digest now
  | resync targetSeq now => exact spends_resync P peer σ targetSeq now
  | commitPendingRekey => exact .zero (resyncForwardTotal_commitPendingRekey _)
  | commitOutgoingRekey => exact .zero (resyncForwardTotal_commitOutgoingRekey _)
  | cancelOutgoingRekey => exact .zero rfl
  | cancelPendingIncomingRekey => exact .zero rfl

variable (P peer σ) in
/-- So does every event: the counter is part of the snapshot. -/
theorem spends_step (event : SessionEvent C) :
    Spends σ ((gapMachine P peer).step σ event).1 ((gapMachine P peer).step σ event).2 := by
  cases event with
  | call call => exact spends_exec P peer σ call
  | bumpPairingEpoch => exact .zero rfl
  | restoreLatest gate now => exact .zero rfl

variable (P peer) in
/-- At the end of a life the counter is the sum of all gaps that were applied. -/
theorem gaps_gapMachine (events : List (SessionEvent C)) :
    let r := (gapMachine P peer).run σ events
    r.2.ratchet.resyncForwardTotal = σ.ratchet.resyncForwardTotal + (r.1.map (·.2)).sum ∧
      (∀ gap ∈ r.1.map (·.2), gap ≤ syncMaxGap) ∧
      (σ.ratchet.resyncForwardTotal ≤ syncMaxCumulative →
        r.2.ratchet.resyncForwardTotal ≤ syncMaxCumulative) := by
  induction events generalizing σ with
  | nil =>
    refine ⟨rfl, ?_, fun hle => hle⟩
    rintro gap ⟨⟩
  | cons event events ih =>
    obtain ⟨htotal, hgap, hle⟩ := spends_step P peer σ event
    have ih := @ih ((gapMachine P peer).step σ event).2
    dsimp only at ih ⊢
    rw [Machine.run_cons_fst, Machine.run_cons_snd, List.map_cons, List.sum_cons,
      List.forall_mem_cons]
    exact ⟨by rw [ih.1, htotal, Nat.add_assoc], ⟨hgap, ih.2.1⟩, fun h => ih.2.2 (hle h)⟩

/-- Over every life of a session, with restarts from its latest snapshot, the gaps that were applied
to it add up to at most 20000, and none is above 1000. After every resynchronisation that succeeds,
the cache holds at most `2 * maxSkip` keys, all of the current and the previous generation. -/
theorem resync_work_bound (P : Primitives K C) :
    (∀ (peer : String) (secret : Bytes) (isInitiator : Bool) (pair : HybridKeyPair)
      (peerXpk peerMpk : Option Bytes) (gate : SyncGate) (events : List (SessionEvent C)),
      let gaps := ((gapMachine P peer).run
        ⟨newWithKeypair P secret isInitiator pair peerXpk peerMpk, gate⟩ events).1.map (·.2)
      gaps.sum ≤ 20000 ∧ ∀ gap ∈ gaps, gap ≤ 1000) ∧
    ∀ (s s' : DoubleRatchetState K C) (targetSeq gap : ℕ) (now : Clock),
      s.resyncReceivingChain P targetSeq now = (.ok gap, s') →
        gap ≤ 1000 ∧ s'.skipMessageKeys.size ≤ 2 * s'.maxSkip ∧
          ∀ e ∈ s'.skipMessageKeys,
            e.1 = s'.ratchetGeneration ∨ e.1 + 1 = s'.ratchetGeneration := by
  constructor
  · intro peer secret isInitiator pair peerXpk peerMpk gate events gaps
    obtain ⟨htotal, hgaps, hle⟩ := gaps_gapMachine P peer events
      (σ := ⟨newWithKeypair P secret isInitiator pair peerXpk peerMpk, gate⟩)
    -- the counter of a fresh session is zero
    have hbound := hle (Nat.zero_le _)
    rw [htotal] at hbound
    exact ⟨(Nat.le_add_left _ _).trans hbound, hgaps⟩
  · intro s s' targetSeq gap now h
    exact ⟨(resyncReceivingChain_ok h).1, resyncReceivingChain_skipMessageKeys h⟩

/-- A session that is moved forward by three positions, restarts and is moved by two more. -/
theorem resync_work_bound_across_restart :
    let trace := ((gapMachine Symbolic.primitives "peer").run ⟨Symbolic.initiator, {}⟩
      [.call (.resync 3 ⟨0, 0⟩), .restoreLatest {} ⟨1, 1⟩, .call (.resync 5 ⟨1, 1⟩)]).1
    trace.map (·.2) = [3, 0, 2] ∧ (trace.map (·.2)).sum ≤ 20000 := by
  intro trace
  exact ⟨by decide +kernel, ((resync_work_bound Symbolic.primitives).1 "peer" _ _ _ _ _ _ _).1⟩

end Session

end KyberPipe
