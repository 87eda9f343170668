import KyberPipe.Ratchet.Session

/-!
# Staged proposals and the roots they come from

A staged proposal is derived from one root key and one shared secret. Root keys form a tree
under rekeying, and a chain that was derived below a root is never derived again from a
different place.
-/

namespace KyberPipe

variable {K C : Type}

/-- The incoming slot holds no keys. -/
def IncomingProposal.Empty (p : IncomingProposal K) : Prop :=
  p.rootKey = none ∧ p.sendingChainKey = none ∧ p.receivingChainKey = none

/-- The incoming slot holds the peer's proposal over root `r` and secret `ss`. -/
def IncomingProposal.IsFrom (P : Primitives K C) (p : IncomingProposal K) (r : K)
    (ss : Bytes) : Prop :=
  p.rootKey = some (P.nextRootKey r ss) ∧ p.sendingChainKey = some (P.nextRecvChain r ss) ∧
    p.receivingChainKey = some (P.nextSendChain r ss)

/-- The outgoing slot holds nothing. -/
def OutgoingProposal.Empty (p : OutgoingProposal K) : Prop :=
  p.rootKey = none ∧ p.sendingChainKey = none ∧ p.receivingChainKey = none

/-- The outgoing slot holds our proposal over root `r` and secret `ss`. -/
def OutgoingProposal.IsFrom (P : Primitives K C) (p : OutgoingProposal K) (r : K)
    (ss : Bytes) : Prop :=
  p.rootKey = some (P.nextRootKey r ss) ∧ p.sendingChainKey = some (P.nextSendChain r ss) ∧
    p.receivingChainKey = some (P.nextRecvChain r ss)

variable {r : K}

theorem IncomingProposal.IsFrom.not_empty {P : Primitives K C} {p : IncomingProposal K} {ss : Bytes}
    (h : p.IsFrom P r ss) : ¬p.Empty := by
  intro hempty
  exact absurd (h.1.symm.trans hempty.1) (by simp)

theorem OutgoingProposal.IsFrom.not_empty {P : Primitives K C} {p : OutgoingProposal K} {ss : Bytes}
    (h : p.IsFrom P r ss) : ¬p.Empty := by
  intro hempty
  exact absurd (h.1.symm.trans hempty.1) (by simp)

/-! ## Roots -/

/-- Root `b` is derived from root `a` by rekeys. -/
def Descends (P : Primitives K C) : K → K → Prop :=
  Relation.ReflTransGen fun a b => ∃ ss, b = P.nextRootKey a ss

/-- No chain below root `x` is among the installed chains. -/
def Unspent (P : Primitives K C) (installed : Set K) (x : K) : Prop :=
  ∀ r ss, Descends P x r → P.nextSendChain r ss ∉ installed ∧ P.nextRecvChain r ss ∉ installed

variable {P : Primitives K C}

theorem Descends.of_next {a b : K} {ss : Bytes} (h : Descends P (P.nextRootKey a ss) b) :
    Descends P a b :=
  .head ⟨ss, rfl⟩ h

theorem Unspent.next {installed : Set K} {x : K} (h : Unspent P installed x) (ss : Bytes) :
    Unspent P installed (P.nextRootKey x ss) :=
  fun r ss' hr => h r ss' hr.of_next

theorem Unspent.self {installed : Set K} {x : K} (h : Unspent P installed x) (ss : Bytes) :
    P.nextSendChain x ss ∉ installed ∧ P.nextRecvChain x ss ∉ installed :=
  h x ss .refl

theorem Unspent.anti {installed installed' : Set K} {x : K} (h : Unspent P installed x)
    (hsub : installed' ⊆ installed) : Unspent P installed' x := by
  intro r ss hr
  obtain ⟨hsend, hrecv⟩ := h r ss hr
  exact ⟨fun hmem => hsend (hsub hmem), fun hmem => hrecv (hsub hmem)⟩

section Ideal

variable (ideal : P.Ideal)
include ideal

variable {ss ss' : Bytes}

theorem nextSendChain_inj {r r' : K} (h : P.nextSendChain r ss = P.nextSendChain r' ss') :
    r = r' ∧ ss = ss' := by
  obtain ⟨hsalt, hikm, _⟩ := ideal.hkdf_inj h
  exact ⟨Salt.key.inj hsalt, Ikm.secret.inj hikm⟩

theorem nextRecvChain_inj {r r' : K} (h : P.nextRecvChain r ss = P.nextRecvChain r' ss') :
    r = r' ∧ ss = ss' := by
  obtain ⟨hsalt, hikm, _⟩ := ideal.hkdf_inj h
  exact ⟨Salt.key.inj hsalt, Ikm.secret.inj hikm⟩

theorem nextSendChain_ne_nextRecvChain (r r' : K) (ss ss' : Bytes) :
    P.nextSendChain r ss ≠ P.nextRecvChain r' ss' := by
  intro h
  exact absurd (ideal.hkdf_inj h).2.2 (by decide)

/-- A root does not descend from a root derived from it. -/
theorem not_descends_next (r : K) (ss : Bytes) : ¬Descends P (P.nextRootKey r ss) r := by
  obtain ⟨rank, hrank⟩ := ideal.exists_rank
  have hle : ∀ {a b : K}, Descends P a b → rank a ≤ rank b := by
    intro a b h
    induction h with
    | refl => exact le_rfl
    | tail _ hstep ih =>
      obtain ⟨ss', rfl⟩ := hstep
      exact ih.trans (hrank _ _ _).le
  intro h
  exact absurd (hle h) (Nat.not_le.2 (hrank r _ _))

/-- Installing the sending chain of a proposal spends nothing below the proposal's root. -/
theorem Unspent.insert_send {installed : Set K} {r x : K} (h : Unspent P installed x)
    (hx : x = P.nextRootKey r ss') : Unspent P (insert (P.nextSendChain r ss) installed) x := by
  intro r' ss'' hdesc
  obtain ⟨hsend, hrecv⟩ := h r' ss'' hdesc
  refine ⟨?_, ?_⟩
  · rintro (heq | hmem)
    · obtain ⟨rfl, _⟩ := nextSendChain_inj ideal heq
      rw [hx] at hdesc
      exact not_descends_next ideal _ _ hdesc
    · exact hsend hmem
  · rintro (heq | hmem)
    · exact nextSendChain_ne_nextRecvChain ideal _ _ _ _ heq.symm
    · exact hrecv hmem

/-- Installing the receiving chain of a proposal spends nothing below a root derived from the
same parent. -/
theorem Unspent.insert_recv {installed : Set K} {r x : K} (h : Unspent P installed x)
    (hx : x = P.nextRootKey r ss') : Unspent P (insert (P.nextRecvChain r ss) installed) x := by
  intro r' ss'' hdesc
  obtain ⟨hsend, hrecv⟩ := h r' ss'' hdesc
  refine ⟨?_, ?_⟩
  · rintro (heq | hmem)
    · exact nextSendChain_ne_nextRecvChain ideal _ _ _ _ heq
    · exact hsend hmem
  · rintro (heq | hmem)
    · obtain ⟨rfl, _⟩ := nextRecvChain_inj ideal heq
      rw [hx] at hdesc
      exact not_descends_next ideal _ _ hdesc
    · exact hrecv hmem

end Ideal

/-! ## Slots of a session -/

namespace DoubleRatchetState

/-- The proposal slots of a session fit its root key and the receiving chains installed so
far: every staged chain is new, and no chain below the current root or below a staged root was
ever installed. -/
structure SlotsFit (P : Primitives K C) (s : DoubleRatchetState K C) (installed : Set K) :
    Prop where
  root : Unspent P installed s.rootKey
  incoming : s.incomingProposal.Empty ∨ ∃ r ss, s.incomingProposal.IsFrom P r ss ∧
    P.nextSendChain r ss ∉ installed ∧ Unspent P installed (P.nextRootKey r ss) ∧
    (¬s.outgoingProposal.Empty → r = s.rootKey)
  outgoing : s.outgoingProposal.Empty ∨ ∃ ss, s.outgoingProposal.IsFrom P s.rootKey ss

variable {s s' : DoubleRatchetState K C} {installed : Set K}

/-- Slots that fit a set of installed chains fit every smaller one. -/
theorem SlotsFit.anti (h : s.SlotsFit P installed) {installed' : Set K}
    (hsub : installed' ⊆ installed) : s.SlotsFit P installed' where
  root := h.root.anti hsub
  incoming := by
    rcases h.incoming with hempty | ⟨r, ss, hfrom, hnew, hunspent, hlink⟩
    · exact .inl hempty
    · exact .inr ⟨r, ss, hfrom, fun hmem => hnew (hsub hmem), hunspent.anti hsub, hlink⟩
  outgoing := h.outgoing

theorem SlotsFit.of_kept (h : s.SlotsFit P installed) (hroot : s'.rootKey = s.rootKey)
    (hincoming : (s'.incomingProposal.rootKey = s.incomingProposal.rootKey ∧
        s'.incomingProposal.sendingChainKey = s.incomingProposal.sendingChainKey ∧
        s'.incomingProposal.receivingChainKey = s.incomingProposal.receivingChainKey) ∨
      s'.incomingProposal.Empty)
    (houtgoing : s'.outgoingProposal = s.outgoingProposal ∨ s'.outgoingProposal.Empty) :
    s'.SlotsFit P installed where
  root := hroot ▸ h.root
  incoming := by
    rcases hincoming with ⟨hr, hs, hk⟩ | hempty
    · rcases h.incoming with ⟨hr', hs', hk'⟩ | ⟨r, ss, ⟨hr', hs', hk'⟩, hnew, hunspent, hlink⟩
      · exact .inl ⟨hr.trans hr', hs.trans hs', hk.trans hk'⟩
      · refine .inr ⟨r, ss, ⟨hr.trans hr', hs.trans hs', hk.trans hk'⟩, hnew, hunspent, ?_⟩
        intro hout
        rw [hroot]
        rcases houtgoing with heq | hempty
        · exact hlink (heq ▸ hout)
        · exact absurd hempty hout
    · exact .inl hempty
  outgoing := by
    rcases houtgoing with heq | hempty
    · rw [heq, hroot]
      exact h.outgoing
    · exact .inl hempty

theorem SlotsFit.of_eq (h : s.SlotsFit P installed) (hroot : s'.rootKey = s.rootKey)
    (hincoming : s'.incomingProposal = s.incomingProposal)
    (houtgoing : s'.outgoingProposal = s.outgoingProposal) : s'.SlotsFit P installed := by
  refine h.of_kept hroot (.inl ?_) (.inl houtgoing)
  rw [hincoming]
  exact ⟨rfl, rfl, rfl⟩

/-! ## Commits of staged proposals -/

/-- The session after the peer's proposal was committed. -/
theorem commitPendingRekeyWithRaceResolution_eq {ss : Bytes}
    (hfrom : s.incomingProposal.IsFrom P r ss) (hbump : s.incomingProposal.generationBump = true) :
    s.commitPendingRekeyWithRaceResolution =
      { s with
        rootKey := P.nextRootKey r ss
        send := ⟨P.nextRecvChain r ss, 0⟩
        recv := ⟨P.nextSendChain r ss, 0⟩
        peerX25519Pk := s.incomingProposal.peerX25519Pk.or s.peerX25519Pk
        peerMlkemPk := s.incomingProposal.peerMlkemPk.or s.peerMlkemPk
        ratchetGeneration := saturatingSucc s.ratchetGeneration
        previousRecvChainKey := some s.recv.key
        previousRecvAnchor := some s.recv.messageCount
        previousRecvGen := some s.ratchetGeneration
        replayWindow := ⟨∅, s.capturePreviousRecvWatermark⟩
        incomingProposal := { attachedAtMono := s.incomingProposal.attachedAtMono }
        outgoingProposal := if s.outgoingProposal.rootKey.isSome then {} else s.outgoingProposal
        rekeyPendingConfirmQueue :=
          if s.outgoingProposal.rootKey.isSome then [] else s.rekeyPendingConfirmQueue
        pendingRekeyAckSeq := s.pendingRekeyAckSeq.or s.incomingProposal.carrierSeq } := by
  obtain ⟨hroot, hsend, hrecv⟩ := hfrom
  unfold commitPendingRekeyWithRaceResolution
  split_ifs
  · rw [commitPendingRekey_eq (s := s.cancelOutgoingRekey) hroot hsend hrecv]
    have hbump' : s.cancelOutgoingRekey.incomingProposal.generationBump = true := hbump
    simp only [adoptIncoming, hbump', if_true]
    rfl
  · rw [commitPendingRekey_eq hroot hsend hrecv]
    simp only [adoptIncoming, hbump, if_true]
    rfl

/-- Without a staged proposal of our own a commit only empties the slot and the queue. -/
theorem commitOutgoingRekey_of_empty (hempty : s.outgoingProposal.Empty) :
    s.commitOutgoingRekey = s.cancelOutgoingRekey := by
  unfold commitOutgoingRekey
  rw [hempty.1]

/-- The session after our own proposal was committed. -/
theorem commitOutgoingRekey_eq_of_isFrom {ss : Bytes} {pair : HybridKeyPair}
    (hfrom : s.outgoingProposal.IsFrom P r ss) (hpair : s.outgoingProposal.hybridPair = some pair) :
    s.commitOutgoingRekey =
      { s with
        rootKey := P.nextRootKey r ss
        send := ⟨P.nextSendChain r ss, 0⟩
        recv := ⟨P.nextRecvChain r ss, 0⟩
        ourHybridPair := pair
        previousKeypairs := (s.previousKeypairs ++ [s.ourHybridPair]).drop
          ((s.previousKeypairs ++ [s.ourHybridPair]).length - s.maxKeyHistory)
        ratchetGeneration := saturatingSucc s.ratchetGeneration
        previousRecvChainKey := some s.recv.key
        previousRecvAnchor := some s.recv.messageCount
        previousRecvGen := some s.ratchetGeneration
        replayWindow := ⟨∅, s.capturePreviousRecvWatermark⟩
        outgoingProposal := {}
        rekeyPendingConfirmQueue := [] } := by
  obtain ⟨hroot, hsend, hrecv⟩ := hfrom
  rw [commitOutgoingRekey_eq hroot hsend hrecv]
  simp [adoptOutgoing, cancelOutgoingRekey, resetGenerationCounters, installKeys,
    retainPreviousReceivingChain, hpair]

end DoubleRatchetState

end KyberPipe
