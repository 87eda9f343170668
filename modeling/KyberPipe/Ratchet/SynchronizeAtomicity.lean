import KyberPipe.Ratchet.Completeness

/-!
# The branches of a Synchronize call

A Synchronize packet is applied to a copy of the session in two of the three branches of
`ratchet_process_synchronize_impl`, and to the live session in the third. This file says which
packets are answered before the session is touched and what each branch leaves behind.
-/

namespace KyberPipe

variable {K C : Type}

/-! ## What the packet carries -/

/-- The packet is answered before the session is touched: its digest was applied recently, or
the burst is exhausted. -/
def SyncGate.Blocks (gate : SyncGate) (digest : ℕ) (now : Clock) : Prop :=
  (∃ e ∈ gate.appliedSync, now.mono - e.2 < appliedSyncCacheTtl ∧ e.1 = digest) ∨
    syncRateBurst ≤
      (gate.lastSyncAt.filter fun at_ => now.mono - at_ < syncRateWindow).length

namespace DoubleRatchetState

/-- The packet is tried on a copy of the session: it is beyond the skip limit of the current
generation, or of a higher generation. -/
def TriesCopy (s : DoubleRatchetState K C) (nonce : Nonce) : Prop :=
  nonce.generation = s.ratchetGeneration ∧ s.maxSkip < nonce.seq - s.recv.messageCount ∨
    saturatingSucc s.ratchetGeneration ≤ nonce.generation

variable {P : Primitives K C} {s s' : DoubleRatchetState K C} {now : Clock} {pt : Bytes}

/-! ## The three branches -/

variable (now) in
/-- Beyond the skip limit, a packet changes nothing or is opened by the moved chain as a
Synchronize packet of its position. -/
theorem applySynchronize_of_gap {msg : RatchetEncryptedMessage C}
    (hgen : msg.nonce.generation = s.ratchetGeneration)
    (hgap : s.maxSkip < msg.nonce.seq - s.recv.messageCount) :
    (∃ e, s.applySynchronize P msg now = (.error e, s)) ∨
      ∃ skipped moved pt t, s.resyncReceivingChain P msg.nonce.seq now = (.ok skipped, moved) ∧
        moved.decryptMessage P msg now = (.ok pt, t) ∧
        s.applySynchronize P msg now = (.ok skipped, t) := by
  have heffect := synchronizeEffect_applySynchronize P s msg now
  generalize s.applySynchronize P msg now = res at heffect ⊢
  cases heffect with
  | refused e => exact .inl ⟨e, rfl⟩
  | @moved gap trial t pt _ hresync hdec => exact .inr ⟨gap, trial, pt, t, hresync, hdec, rfl⟩
  | opened hnear => exact absurd ⟨hgen, hgap⟩ hnear
  | failed e hnear => exact absurd ⟨hgen, hgap⟩ hnear

/-- On the live session, a packet leaves what its failed decryption leaves. -/
theorem applySynchronize_of_error {msg : RatchetEncryptedMessage C} {e : KyberError}
    (h : ¬s.TriesCopy msg.nonce) (hdec : s.decryptMessage P msg now = (.error e, s')) :
    s.applySynchronize P msg now = (.error e, s') := by
  obtain ⟨hgap, hnext⟩ := not_or.1 h
  unfold applySynchronize
  dsimp only
  rw [if_neg hgap, if_neg hnext, hdec]

/-- On the live session, a decrypted packet is delivered whether it is a Synchronize packet or
not. -/
theorem applySynchronize_of_ok {msg : RatchetEncryptedMessage C}
    (h : ¬s.TriesCopy msg.nonce) (hdec : s.decryptMessage P msg now = (.ok pt, s')) :
    s.applySynchronize P msg now =
      ((verifySynchronize P msg.nonce.seq pt).map fun _ => 0, s') := by
  obtain ⟨hgap, hnext⟩ := not_or.1 h
  unfold applySynchronize
  dsimp only
  rw [if_neg hgap, if_neg hnext, hdec]
  cases hverify : verifySynchronize P msg.nonce.seq pt with
  | error e => simp [hverify, Except.map]
  | ok u => simp [hverify, Except.map]

end DoubleRatchetState

/-! ## The whole call -/

section Call

variable {P : Primitives K C} {gate : SyncGate} {s : DoubleRatchetState K C}
variable {msg : RatchetEncryptedMessage C} {digest : ℕ} {now : Clock}

theorem appliedSync_any_iff :
    (gate.appliedSync.filter fun e => now.mono - e.2 < appliedSyncCacheTtl).any
        (·.1 == digest) = true ↔
      ∃ e ∈ gate.appliedSync, now.mono - e.2 < appliedSyncCacheTtl ∧ e.1 = digest := by
  simp

/-- A packet that the gate answers does not reach the session. -/
theorem ratchetProcessSynchronize_of_blocks (peer : String) (h : gate.Blocks digest now) :
    (ratchetProcessSynchronize P peer gate s msg digest now).2.2 = s := by
  unfold ratchetProcessSynchronize
  dsimp only
  rcases h with happlied | hburst
  · rw [if_pos (appliedSync_any_iff.2 happlied)]
  · split_ifs
    · rfl
    · rfl

/-- A packet that the gate lets through is applied to the session. -/
theorem ratchetProcessSynchronize_of_not_blocks (peer : String) (h : ¬gate.Blocks digest now) :
    (ratchetProcessSynchronize P peer gate s msg digest now).1 =
        (s.applySynchronize P msg now).1 ∧
      (ratchetProcessSynchronize P peer gate s msg digest now).2.2 =
        (s.applySynchronize P msg now).2 := by
  obtain ⟨happlied, hburst⟩ := not_or.1 h
  unfold ratchetProcessSynchronize
  dsimp only
  rw [if_neg (mt appliedSync_any_iff.1 happlied), if_neg hburst]
  rcases s.applySynchronize P msg now with ⟨_ | _, _⟩
  · exact ⟨rfl, rfl⟩
  · exact ⟨rfl, rfl⟩

end Call

end KyberPipe
