import KyberPipe.Ratchet.Session

/-!
# The size of a session

Whatever is called and whatever arrives, a session keeps a bounded number of cached message keys,
of delivered positions and of former key pairs.
-/

namespace KyberPipe

variable {K C : Type}

/-- The set of delivered positions ends within its bound. -/
theorem card_evictSeen_le {rounds : ℕ} {seen : Finset (ℕ × ℕ)} (h : seen.card ≤ rounds) :
    (evictSeen rounds seen).card ≤ seenSetMax := by
  induction rounds generalizing seen with
  | zero => exact h.trans (Nat.zero_le _)
  | succ rounds ih =>
    unfold evictSeen
    split_ifs with hfits hne
    · exact hfits
    · -- the oldest generation has an entry, so dropping it makes the set smaller
      have hlt : (seen.filter fun e => e.1 ≠ (seen.image Prod.fst).min' hne).card < seen.card := by
        obtain ⟨e, he, heq⟩ := Finset.mem_image.1 (Finset.min'_mem _ hne)
        exact Finset.card_lt_card (Finset.filter_ssubset.2 ⟨e, he, not_not.2 heq⟩)
      dsimp only
      rw [if_neg hlt.ne]
      exact ih (by omega)
    · rw [Finset.not_nonempty_iff_eq_empty, Finset.image_eq_empty] at hne
      exact absurd (hne ▸ Nat.zero_le _) hfits

namespace DoubleRatchetState

variable {P : Primitives K C} {s s' : DoubleRatchetState K C}

/-- The collections of a session are within their bounds. -/
structure Bounded (s : DoubleRatchetState K C) : Prop where
  maxSkip : s.maxSkip = 100
  maxKeyHistory : s.maxKeyHistory = 3
  cache : s.skipMessageKeys.size ≤ s.maxSkip * 2
  seen : s.replayWindow.seen.card ≤ seenSetMax
  history : s.previousKeypairs.length ≤ s.maxKeyHistory

namespace Bounded

theorem commitPendingRekey (h : s.Bounded) : s.commitPendingRekey.Bounded := by
  unfold DoubleRatchetState.commitPendingRekey
  split
  · exact { h with seen := Nat.zero_le _ }
  · exact { h with }

theorem commitOutgoingRekey (h : s.Bounded) : s.commitOutgoingRekey.Bounded := by
  unfold DoubleRatchetState.commitOutgoingRekey
  split
  · unfold adoptOutgoing
    cases s.outgoingProposal.hybridPair with
    | none => exact { h with seen := Nat.zero_le _ }
    | some newPair =>
      refine { h with seen := Nat.zero_le _, history := ?_ }
      show (List.drop _ _).length ≤ s.maxKeyHistory
      rw [List.length_drop]
      omega
  · exact { h with }

theorem decrypt {nonce : Nonce} {c : C} {payload : Option RekeyPayload} {now : Clock}
    {res : Except KyberError Bytes} (h : s.Bounded)
    (hstep : DecryptStep P s nonce c payload now res s') : s'.Bounded := by
  have hderived : ∀ {t}, Derives P s nonce now payload t → t.Bounded := by
    intro t hderives
    rw [hderives.frame]
    exact { h with }
  cases hstep with
  | refused => exact h
  | failed _ _ _ hderives => exact hderived hderives
  | previous _ hdel =>
    cases hdel with
    | cached =>
      exact { h with
        cache := (AList.size_erase_le _ _).trans h.cache
        seen := card_evictSeen_le le_rfl }
    | chain =>
      exact { h with cache := size_pruneSkipKeys_le _ _ _, seen := card_evictSeen_le le_rfl }
  | current _ _ hderives hdel =>
    have h₁ := hderived hderives
    rw [resolveRekeyRaceAndAck_frame]
    cases hdel with
    | cached =>
      exact { h₁ with
        cache := (AList.size_erase_le _ _).trans h₁.cache
        seen := card_evictSeen_le le_rfl }
    | chain =>
      exact { h₁ with
        cache := size_pruneSkipKeys_le _ _ _
        seen := (Finset.card_filter_le _ _).trans (card_evictSeen_le le_rfl) }
  | @pending _ s₁ _ _ _ _ hderives hdel =>
    have h₁ := hderived hderives
    have h₂ : s₁.commitPendingRekeyWithRaceResolution.Bounded := by
      unfold commitPendingRekeyWithRaceResolution
      split_ifs
      · exact commitPendingRekey { h₁ with }
      · exact h₁.commitPendingRekey
    rw [hdel.hstate]
    exact { h₂ with cache := size_pruneSkipKeys_le _ _ _, seen := card_evictSeen_le le_rfl }

theorem step (h : s.Bounded) (hstep : Evolves P s s') : s'.Bounded := by
  cases hstep with
  | encrypt hstep =>
    rw [hstep.frame]
    exact { h with }
  | decrypt hstep => exact h.decrypt hstep
  | commitOutgoing => exact h.commitOutgoingRekey
  | resync targetSeq now =>
    obtain ⟨t, hevicts, hres⟩ := resyncReceivingChain_cases P s targetSeq now
    have ht : t.Bounded := by
      cases hevicts <;> exact { h with }
    obtain ⟨e, hres⟩ | ⟨_, hres⟩ := hres
    · rw [hres]
      exact ht
    · rw [hres]
      exact { ht with cache := size_pruneSkipKeys_le _ _ _ }
  | ackState => exact { h with }

end Bounded

end DoubleRatchetState

theorem Session.exec_bounded (P : Primitives K C) (peer : String) (σ : Session K C)
    (call : Call C) (h : σ.ratchet.Bounded) : (σ.exec P peer call).2.ratchet.Bounded := by
  by_cases hmanual : call.Manual
  · cases call with
    | commitPendingRekey => exact h.commitPendingRekey
    | commitOutgoingRekey => exact h.commitOutgoingRekey
    | cancelOutgoingRekey => exact { h with }
    | cancelPendingIncomingRekey => exact { h with }
    | _ => exact hmanual.elim
  · have hevolves := σ.exec_evolves P peer hmanual
    generalize (σ.exec P peer call).2.ratchet = t at hevolves ⊢
    induction hevolves with
    | refl => exact h
    | tail _ hstep ih => exact ih.step hstep

/-- Whatever calls a session gets from its pairing on, and whatever messages come with them, it
keeps at most 200 message keys, 4096 delivered positions and 3 former key pairs. -/
theorem session_stays_bounded (P : Primitives K C) (peer : String) (secret : Bytes)
    (isInitiator : Bool) (pair : HybridKeyPair) (peerX25519Pk peerMlkemPk : Option Bytes)
    (gate : SyncGate) (calls : List (Call C)) :
    let s := ((Session.machine P peer).run
      ⟨.newWithKeypair P secret isInitiator pair peerX25519Pk peerMlkemPk, gate⟩ calls).2.ratchet
    s.skipMessageKeys.size ≤ 200 ∧ s.replayWindow.seen.card ≤ 4096 ∧
      s.previousKeypairs.length ≤ 3 := by
  have hfresh : (DoubleRatchetState.newWithKeypair P secret isInitiator pair peerX25519Pk
      peerMlkemPk).Bounded :=
    ⟨rfl, rfl, Nat.zero_le _, Nat.zero_le _, Nat.zero_le _⟩
  obtain ⟨hskip, hhistory, hcache, hseen, hkeys⟩ :=
    Machine.run_invariant (m := Session.machine P peer) (s := ⟨_, gate⟩) (·.ratchet.Bounded)
      (Session.exec_bounded P peer) hfresh calls
  rw [hskip] at hcache
  rw [hhistory] at hkeys
  exact ⟨hcache, hseen, hkeys⟩

end KyberPipe
