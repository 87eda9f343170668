import KyberPipe.Ratchet.Registry

/-!
# Progress of sending

What a call can put on the wire and what it leaves behind. A message that leaves a session was
encrypted by the call, at a position between the ones before and after it, or it is the cached
acknowledgement. Both facts compose, so they hold for any sequence of calls.
-/

namespace KyberPipe

variable {K C : Type}

/-- The generation and position of a nonce, as a send position. -/
def Nonce.position (n : Nonce) : WithTop (ℕ ×ₗ ℕ) := (toLex (n.generation, n.seq) : ℕ ×ₗ ℕ)

namespace DoubleRatchetState

variable {P : Primitives K C} {s s' t : DoubleRatchetState K C} {n : Nonce}

/-- The nonce is the one of the cached acknowledgement. -/
def CachesAck (s : DoubleRatchetState K C) (n : Nonce) : Prop :=
  ∃ carrier msg, s.peekedAckCache = some (carrier, msg) ∧ msg.nonce = n

theorem SameEpochAndCache.cachesAck (h : SameEpochAndCache s s') (hn : s'.CachesAck n) :
    s.CachesAck n := by
  obtain ⟨carrier, msg, hcache, hnonce⟩ := hn
  exact ⟨carrier, msg, h.cache.symm.trans hcache, hnonce⟩

/-- Taking the pending carrier empties the cache, so nothing is cached afterwards. -/
theorem ratchetGenerateRekeyAck_epoch_cache (P : Primitives K C) (s : DoubleRatchetState K C)
    (rnd : EncryptRandomness) (now : Clock) :
    (s.ratchetGenerateRekeyAck P rnd now).2.pairingEpoch = s.pairingEpoch ∧
      (s.ratchetGenerateRekeyAck P rnd now).2.peekedAckCache = none := by
  rcases ratchetGenerateRekeyAck_state P s rnd now with heq | ⟨seq, heq⟩
  · rw [heq]
    exact ⟨rfl, rfl⟩
  · rw [heq]
    have hsame := (ratchetEncrypt_coreSteps P s.takePendingRekeyAckSeq.2
      (P.toJson (.rekeyAck seq)) rnd now).sameEpochAndCache
    exact ⟨hsame.epoch, hsame.cache⟩

/-- A peek serves the cached acknowledgement, or caches the one it encrypts. -/
theorem ratchetGenerateRekeyAckPeek_cases (P : Primitives K C) (s : DoubleRatchetState K C)
    (gate : SyncGate) (rnd : EncryptRandomness) (now : Clock) :
    let res := s.ratchetGenerateRekeyAckPeek P rnd now
    res.2.pairingEpoch = s.pairingEpoch ∧
      (((Session.mk s gate).peekCached = true ∧ res.2 = s ∧
          ∃ carrier msg, s.peekedAckCache = some (carrier, msg) ∧ res.1 = .ok (some msg)) ∨
        ((Session.mk s gate).peekCached = false ∧
          ((∃ carrier msg, res.1 = .ok (some msg) ∧ Sends s res.2 msg.nonce ∧
              res.2.peekedAckCache = some (carrier, msg)) ∨
            ((∀ msg, res.1 ≠ .ok (some msg)) ∧ ∀ n, res.2.CachesAck n → s.CachesAck n)))) := by
  dsimp only
  unfold ratchetGenerateRekeyAckPeek Session.peekCached
  cases hpending : s.pendingRekeyAckSeq with
  | none =>
    refine ⟨rfl, .inr ⟨rfl, .inr ⟨fun msg h => ?_, ?_⟩⟩⟩
    · simp at h
    · rintro n ⟨carrier, msg, hcache, -⟩
      cases hcache
  | some seq =>
    dsimp only
    cases hfilter : s.peekedAckCache.filter (·.1 == seq) with
    | some entry =>
      have hcache : s.peekedAckCache = some entry := (Option.filter_eq_some_iff.1 hfilter).1
      exact ⟨rfl, .inl ⟨rfl, rfl, entry.1, entry.2, hcache, rfl⟩⟩
    | none =>
      have hsame := (ratchetEncrypt_coreSteps P s (P.toJson (.rekeyAck seq)) rnd
        now).sameEpochAndCache
      simp only [generateRekeyAck]
      split
      · rename_i ack t henc
        rw [henc] at hsame
        obtain ⟨hne, hnonce, hgen, hcount⟩ := ratchetEncrypt_sends henc
        exact ⟨hsame.epoch, .inr ⟨rfl, .inl ⟨seq, ack, rfl, ⟨hne, hnonce, hgen, hcount⟩, rfl⟩⟩⟩
      · rename_i e t henc
        rw [henc] at hsame
        exact ⟨hsame.epoch, .inr ⟨rfl, .inr ⟨(by rintro _ ⟨⟩),
          fun n hn => hsame.cachesAck hn⟩⟩⟩

end DoubleRatchetState

open DoubleRatchetState

namespace Session

variable (P : Primitives K C) (peer : String) (σ : Session K C)

/-- A call keeps the epoch, and what it leaves in the cache was there or was just encrypted. -/
theorem exec_epoch_cached (call : Call C) :
    (σ.exec P peer call).2.ratchet.pairingEpoch = σ.ratchet.pairingEpoch ∧
      ∀ n, (σ.exec P peer call).2.ratchet.CachesAck n →
        σ.ratchet.CachesAck n ∨ Sends σ.ratchet (σ.exec P peer call).2.ratchet n := by
  -- all but the calls about acknowledgements leave the cache alone
  have hsame : SameEpochAndCache σ.ratchet (σ.exec P peer call).2.ratchet →
      (σ.exec P peer call).2.ratchet.pairingEpoch = σ.ratchet.pairingEpoch ∧
        ∀ n, (σ.exec P peer call).2.ratchet.CachesAck n →
          σ.ratchet.CachesAck n ∨ Sends σ.ratchet (σ.exec P peer call).2.ratchet n :=
    fun h => ⟨h.epoch, fun n hn => .inl (h.cachesAck hn)⟩
  cases call with
  | encrypt pt rnd now =>
    exact hsame (ratchetEncrypt_coreSteps P _ pt rnd now).sameEpochAndCache
  | decrypt nonce c => exact hsame (ratchetDecrypt_step P _ nonce c ⟨0, 0⟩).sameEpochAndCache
  | decryptWithRekey nonce c rct rx rm now =>
    exact hsame (ratchetDecryptWithRekey_step P _ nonce c rct rx rm now).sameEpochAndCache
  | processRekeyAck seq => exact hsame (processRekeyAck_coreSteps P _ seq).sameEpochAndCache
  | processRekeyAckBinary msg now =>
    exact hsame (ratchetProcessRekeyAckBinary_coreSteps P _ msg now).sameEpochAndCache
  | generateRekeyAck rnd now =>
    obtain ⟨hepoch, hcache⟩ := ratchetGenerateRekeyAck_epoch_cache P σ.ratchet rnd now
    refine ⟨hepoch, ?_⟩
    rintro n ⟨carrier, msg, hsome, -⟩
    cases hcache.symm.trans hsome
  | peekRekeyAck rnd now =>
    obtain ⟨hepoch, hcases⟩ := ratchetGenerateRekeyAckPeek_cases P σ.ratchet σ.gate rnd now
    refine ⟨hepoch, fun n hn => ?_⟩
    rcases hcases with ⟨-, hstate, -⟩ | ⟨-, ⟨carrier, msg, -, hsends, hcache⟩ | ⟨-, hold⟩⟩
    · exact .inl (hstate ▸ hn)
    · obtain ⟨carrier', msg', hcache', rfl⟩ := hn
      obtain ⟨-, rfl⟩ := Prod.mk.inj (Option.some.inj (hcache.symm.trans hcache'))
      exact .inr hsends
    · exact .inl (hold n hn)
  | consumeRekeyAck =>
    refine ⟨rfl, ?_⟩
    rintro n ⟨carrier, msg, hsome, -⟩
    cases hsome
  | synchronizePacket rnd now =>
    exact hsame (ratchetEncrypt_coreSteps P _ _ rnd now).sameEpochAndCache
  | processSynchronize msg digest now =>
    exact hsame (ratchetProcessSynchronize_coreSteps P _ peer _ msg digest now).sameEpochAndCache
  | resync targetSeq now => exact hsame (CoreStep.resync targetSeq now).sameEpochAndCache
  | commitPendingRekey => exact hsame (sameEpochAndCache_commitPendingRekey _)
  | commitOutgoingRekey => exact hsame (sameEpochAndCache_commitOutgoingRekey _)
  | cancelOutgoingRekey => exact hsame ⟨rfl, rfl⟩
  | cancelPendingIncomingRekey => exact hsame ⟨rfl, rfl⟩

end Session

end KyberPipe
