import KyberPipe.Ratchet.Reachable

/-!
# The receiving side of a step

What an elementary step does to the part of a session that receives: the two receiving chains,
the replay window and the skip-key cache. A step within a generation leaves it alone, opens a
message with a key of one of four kinds, or moves the receiving chain forward.
-/

namespace KyberPipe

namespace DoubleRatchetState

variable {K C : Type} {P : Primitives K C} {s s' t : DoubleRatchetState K C}
variable {nonce : Nonce} {c : C} {payload : Option RekeyPayload} {now : Clock}

/-- Two sessions have the same receiving side. -/
structure SameReceive (s t : DoubleRatchetState K C) : Prop where
  generation : t.ratchetGeneration = s.ratchetGeneration
  recv : t.recv = s.recv
  previousKey : t.previousRecvChainKey = s.previousRecvChainKey
  previousAnchor : t.previousRecvAnchor = s.previousRecvAnchor
  previousGen : t.previousRecvGen = s.previousRecvGen
  window : t.replayWindow = s.replayWindow
  cache : t.skipMessageKeys = s.skipMessageKeys
  maxSkip : t.maxSkip = s.maxSkip

theorem SameReceive.refl (s : DoubleRatchetState K C) : SameReceive s s :=
  ⟨rfl, rfl, rfl, rfl, rfl, rfl, rfl, rfl⟩

theorem SameReceive.trans (h : SameReceive s s') (h' : SameReceive s' t) : SameReceive s t :=
  ⟨h'.generation.trans h.generation, h'.recv.trans h.recv, h'.previousKey.trans h.previousKey,
    h'.previousAnchor.trans h.previousAnchor, h'.previousGen.trans h.previousGen,
    h'.window.trans h.window, h'.cache.trans h.cache, h'.maxSkip.trans h.maxSkip⟩

/-! ## Steps that receive nothing -/

theorem Derives.sameReceive (h : Derives P s nonce now payload s') : SameReceive s s' := by
  rw [h.frame]
  exact ⟨rfl, rfl, rfl, rfl, rfl, rfl, rfl, rfl⟩

theorem sameReceive_resolve (s : DoubleRatchetState K C) (seq : ℕ) (hasPayload : Bool) :
    SameReceive s (s.resolveRekeyRaceAndAck seq hasPayload) := by
  rw [resolveRekeyRaceAndAck_frame]
  exact ⟨rfl, rfl, rfl, rfl, rfl, rfl, rfl, rfl⟩

theorem EncryptStep.sameReceive {pt : Bytes} {rnd : EncryptRandomness}
    {res : Except KyberError (RatchetEncryptedMessage C)}
    (h : EncryptStep P s pt rnd now res s') : SameReceive s s' := by
  rw [h.frame]
  exact ⟨rfl, rfl, rfl, rfl, rfl, rfl, rfl, rfl⟩

theorem Evicts.sameReceive (h : Evicts s t) : SameReceive s t := by
  cases h <;> exact ⟨rfl, rfl, rfl, rfl, rfl, rfl, rfl, rfl⟩

theorem DecryptStep.sameReceive_of_error {e : KyberError}
    (h : DecryptStep P s nonce c payload now (.error e) s') : SameReceive s s' := by
  cases h with
  | refused _ => exact .refl s
  | failed _ _ _ hderives => exact hderives.sameReceive

/-! ## Steps that open a message -/

/-- What opening a message with a key of the session does to its receiving side. -/
inductive Opens (P : Primitives K C) (s : DoubleRatchetState K C) (nonce : Nonce) :
    K → DoubleRatchetState K C → Prop
  | previousCached {key : K} {t : DoubleRatchetState K C}
      (hgen : s.previousRecvGen = some nonce.generation) (hck : s.previousRecvChainKey.isSome)
      (hkey : s.skipMessageKeys.lookup (nonce.generation, nonce.seq) = some key)
      (hsame : SameReceive
        (s.deliverPreviousCached (s.skipMessageKeys.erase (nonce.generation, nonce.seq))
          nonce.generation nonce.seq) t) :
      Opens P s nonce key t
  | previousChain {ck : K} {anchor : ℕ} {t : DoubleRatchetState K C}
      (hgen : s.previousRecvGen = some nonce.generation)
      (hck : s.previousRecvChainKey = some ck) (hanchor : s.previousRecvAnchor = some anchor)
      (hle : anchor ≤ nonce.seq)
      (hsame : SameReceive (s.deliverPreviousChain (P.chain.stateAt ck (nonce.seq - anchor + 1))
          (deriveSkipKeys P ck anchor nonce.generation (nonce.seq - anchor)).2
          nonce.generation nonce.seq) t) :
      Opens P s nonce (P.chain.keyAt ck (nonce.seq - anchor)) t
  | cached {key : K} {t : DoubleRatchetState K C} (hskip : s.SkipsPrevious nonce)
      (hkey : s.skipMessageKeys.lookup (nonce.generation, nonce.seq) = some key)
      (hsame : SameReceive (s.deliverCached (s.skipMessageKeys.erase (nonce.generation, nonce.seq))
          nonce.generation nonce.seq) t) :
      Opens P s nonce key t
  | chain {t : DoubleRatchetState K C} (hskip : s.SkipsPrevious nonce)
      (hsame : SameReceive
        (s.deliverChain (P.chain.stateAt s.recv.key (nonce.seq - s.recv.messageCount + 1))
          (deriveSkipKeys P s.recv.key s.recv.messageCount s.ratchetGeneration
            (nonce.seq - s.recv.messageCount)).2 nonce.seq) t) :
      Opens P s nonce (P.chain.keyAt s.recv.key (nonce.seq - s.recv.messageCount)) t

theorem Opens.generation_eq {key : K} (h : Opens P s nonce key t) :
    t.ratchetGeneration = s.ratchetGeneration := by
  cases h with
  | previousCached _ _ _ hsame => exact hsame.generation
  | previousChain _ _ _ _ hsame => exact hsame.generation
  | cached _ _ hsame => exact hsame.generation
  | chain _ hsame => exact hsame.generation

variable {aad pt : Bytes}

/-- A session and a copy of it with another incoming slot deliver in the same way. -/
theorem Derives.opens (hderives : Derives P s nonce now payload s') (hskip : s.SkipsPrevious nonce)
    (hdel : CurrentDelivery P s' nonce c aad pt t) (seq : ℕ) (hasPayload : Bool) :
    ∃ key, decryptChacha20 P key nonce c aad = .ok pt ∧
      Opens P s nonce key (t.resolveRekeyRaceAndAck seq hasPayload) := by
  have hframe := hderives.frame
  generalize s'.incomingProposal = slot at hframe
  subst hframe
  cases hdel with
  | cached hkey hdec =>
    refine ⟨_, hdec, .cached hskip hkey (.trans ?_ (sameReceive_resolve _ seq hasPayload))⟩
    exact ⟨rfl, rfl, rfl, rfl, rfl, rfl, rfl, rfl⟩
  | chain hgap hdec =>
    refine ⟨_, hdec, .chain hskip (.trans ?_ (sameReceive_resolve _ seq hasPayload))⟩
    exact ⟨rfl, rfl, rfl, rfl, rfl, rfl, rfl, rfl⟩

/-- A successful decryption opens the message with a key of the session or commits the staged
proposal. -/
theorem DecryptStep.opens {pt : Bytes} (h : DecryptStep P s nonce c payload now (.ok pt) s') :
    (∃ key, decryptChacha20 P key nonce c (payloadAad payload) = .ok pt ∧ Opens P s nonce key s') ∨
      ∃ s₁ seed, s.SkipsPrevious nonce ∧ Derives P s nonce now payload s₁ ∧
        PendingDelivery P s₁ nonce c (payloadAad payload) pt s' seed := by
  cases h with
  | previous _ hdel =>
    cases hdel with
    | cached hgen hck hkey hdec =>
      exact .inl ⟨_, hdec, .previousCached hgen hck hkey (.refl _)⟩
    | chain hgen hck hanchor hle _ hdec =>
      exact .inl ⟨_, hdec, .previousChain hgen hck hanchor hle (.refl _)⟩
  | current _ hskip hderives hdel => exact .inl (hderives.opens hskip hdel _ _)
  | pending _ hskip hderives hdel => exact .inr ⟨_, _, hskip, hderives, hdel⟩

/-- A successful decryption opens the ciphertext under some key. -/
theorem DecryptStep.exists_open {pt : Bytes} (h : DecryptStep P s nonce c payload now (.ok pt) s') :
    ∃ key, decryptChacha20 P key nonce c (payloadAad payload) = .ok pt := by
  rcases h.opens with ⟨key, hdec, _⟩ | ⟨_, _, _, _, hdel⟩
  · exact ⟨key, hdec⟩
  · exact ⟨_, hdel.hdec⟩

theorem Opens.maxSkip_eq {key : K} (h : Opens P s nonce key t) : t.maxSkip = s.maxSkip := by
  cases h with
  | previousCached _ _ _ hsame => exact hsame.maxSkip
  | previousChain _ _ _ _ hsame => exact hsame.maxSkip
  | cached _ _ hsame => exact hsame.maxSkip
  | chain _ hsame => exact hsame.maxSkip

theorem Evolves.maxSkip_eq (h : Evolves P s t) : t.maxSkip = s.maxSkip := by
  cases h with
  | encrypt h => exact h.sameReceive.maxSkip
  | @decrypt _ _ _ _ res _ h =>
    cases res with
    | error e => exact h.sameReceive_of_error.maxSkip
    | ok pt =>
      rcases h.opens with ⟨key, _, hopens⟩ | ⟨s₁, seed, _, hderives, hdel⟩
      · exact hopens.maxSkip_eq
      · rw [hdel.hstate, ← hderives.sameReceive.maxSkip]
        exact maxSkip_commitPendingRekeyWithRaceResolution
  | commitOutgoing =>
    rw [commitOutgoingRekey_frame]
  | resync targetSeq now =>
    rw [resyncReceivingChain_frame]
  | ackState pending carrier cache => rfl

/-! ## Steps beside a chain -/

/-- The ciphertext is not sealed under a key of the chain from `k`. -/
def Foreign (P : Primitives K C) (k : K) (c : C) : Prop :=
  ∀ i n pt aad, P.aeadSeal (P.chain.keyAt k i) n pt aad ≠ some c

/-- An elementary step that is not about a message of the chain from `k`. -/
inductive EvolvesBeside (P : Primitives K C) (k : K) (s : DoubleRatchetState K C) :
    DoubleRatchetState K C → Prop
  | encrypt {pt : Bytes} {rnd : EncryptRandomness} {now : Clock}
      {res : Except KyberError (RatchetEncryptedMessage C)} {s' : DoubleRatchetState K C}
      (h : EncryptStep P s pt rnd now res s') : EvolvesBeside P k s s'
  | decrypt {nonce : Nonce} {c : C} {payload : Option RekeyPayload} {now : Clock}
      {res : Except KyberError Bytes} {s' : DoubleRatchetState K C}
      (h : DecryptStep P s nonce c payload now res s') (hforeign : Foreign P k c) :
      EvolvesBeside P k s s'
  | commitOutgoing : EvolvesBeside P k s s.commitOutgoingRekey
  | resync (targetSeq : ℕ) (now : Clock) :
      EvolvesBeside P k s (s.resyncReceivingChain P targetSeq now).2
  | ackState (pending carrier : Option ℕ) (cache : Option (ℕ × RatchetEncryptedMessage C)) :
      EvolvesBeside P k s (s.withAckState pending carrier cache)

theorem EvolvesBeside.evolves {k : K} (h : EvolvesBeside P k s s') : Evolves P s s' := by
  cases h with
  | encrypt h => exact .encrypt h
  | decrypt h _ => exact .decrypt h
  | commitOutgoing => exact .commitOutgoing
  | resync targetSeq now => exact .resync targetSeq now
  | ackState pending carrier cache => exact .ackState pending carrier cache

/-- What a step beside the chain from `k` does to the receiving side. -/
inductive ReceivesBeside (P : Primitives K C) (k : K) (s t : DoubleRatchetState K C) : Prop
  | quiet (hsame : SameReceive s t)
  | opened {nonce : Nonce} {key : K} (hopens : Opens P s nonce key t)
      (hkey : ∀ i, key ≠ P.chain.keyAt k i)
  | moved (targetSeq : ℕ) (hlt : s.recv.messageCount < targetSeq)
      (hsame : SameReceive (s.moveReceivingChain P targetSeq) t)

variable {s₁ : DoubleRatchetState K C} {installed : Set K} {seed : K}

section

variable (hslots : s₁.SlotsFit P installed)
include hslots

/-- A delivery by the staged chain finds a proposal in its slot, with that chain. -/
theorem SlotsFit.isFrom_of_pendingDelivery (hdel : PendingDelivery P s₁ nonce c aad pt t seed) :
    ∃ r ss, s₁.incomingProposal.IsFrom P r ss ∧ P.nextSendChain r ss = seed := by
  rcases hslots.incoming with hempty | ⟨r, ss, hfrom, _⟩
  · exact absurd (hdel.hkey.symm.trans hempty.2.2) (by simp)
  · exact ⟨r, ss, hfrom, Option.some.inj (hfrom.2.2.symm.trans hdel.hkey)⟩

theorem generation_of_pendingDelivery (hbumps : s₁.BumpsOnCommit)
    (hdel : PendingDelivery P s₁ nonce c aad pt t seed) :
    t.ratchetGeneration = saturatingSucc s₁.ratchetGeneration := by
  obtain ⟨r, ss, hfrom, _⟩ := hslots.isFrom_of_pendingDelivery hdel
  have hbump := hbumps.incoming (by rw [hfrom.1]; rfl)
  rw [hdel.hstate, commitPendingRekeyWithRaceResolution_eq hfrom hbump]
  rfl

/-- A commit leaves the receiving chain past the message that committed. -/
theorem recv_of_pendingDelivery (hbumps : s₁.BumpsOnCommit)
    (hdel : PendingDelivery P s₁ nonce c aad pt t seed) :
    t.recv = ⟨P.chain.stateAt seed (nonce.seq + 1), nonce.seq + 1⟩ := by
  obtain ⟨r, ss, hfrom, rfl⟩ := hslots.isFrom_of_pendingDelivery hdel
  have hbump := hbumps.incoming (by rw [hfrom.1]; rfl)
  rw [hdel.hstate, commitPendingRekeyWithRaceResolution_eq hfrom hbump]
  rfl

end

/-- A commit of the own proposal drops an empty slot, or finds a proposal with its key pair. -/
theorem SlotsFit.commitOutgoingRekey_cases (hslots : s.SlotsFit P installed)
    (hbumps : s.BumpsOnCommit) : s.commitOutgoingRekey = s.cancelOutgoingRekey ∨
      ∃ ss pair, s.outgoingProposal.IsFrom P s.rootKey ss ∧
        s.outgoingProposal.hybridPair = some pair := by
  rcases hslots.outgoing with hempty | ⟨ss, hfrom⟩
  · left
    unfold commitOutgoingRekey
    rw [hempty.1]
  · obtain ⟨pair, hpair⟩ := Option.isSome_iff_exists.1
      (hbumps.outgoing (by rw [hfrom.1]; rfl))
    exact .inr ⟨ss, pair, hfrom, hpair⟩

/-- A step beside the chain from `k` that stays in its generation. -/
theorem EvolvesBeside.receivesBeside (ideal : P.Ideal) {k : K} {h : KeyHistory K}
    (hfit : s.KeysFit P h) (hbumps : s.BumpsOnCommit) (hne : s.ratchetGeneration ≠ u32Max)
    (hstep : EvolvesBeside P k s t) (hgen : t.ratchetGeneration = s.ratchetGeneration) :
    ReceivesBeside P k s t := by
  have hsucc : saturatingSucc s.ratchetGeneration ≠ s.ratchetGeneration := by
    rw [saturatingSucc_of_lt (lt_of_le_of_ne hbumps.generation_le hne)]
    exact Nat.succ_ne_self _
  cases hstep with
  | encrypt hstep => exact .quiet hstep.sameReceive
  | @decrypt nonce c payload now res _ hstep hforeign =>
    cases res with
    | error e => exact .quiet hstep.sameReceive_of_error
    | ok pt =>
      rcases hstep.opens with ⟨key, hdec, hopens⟩ | ⟨s₁, seed, _, hderives, hdel⟩
      · refine .opened hopens ?_
        rintro i rfl
        exact hforeign i _ _ _ (ideal.seal_of_open (aeadOpen_of_decryptChacha20 hdec))
      · -- a commit would leave the generation
        have hnext := generation_of_pendingDelivery (hderives.slotsFit hfit.slots)
          (hderives.advances.bumps hbumps) hdel
        rw [hgen, hderives.sameReceive.generation] at hnext
        exact absurd hnext.symm hsucc
  | commitOutgoing =>
    rcases hfit.slots.commitOutgoingRekey_cases hbumps with hcancel | ⟨ss, pair, hfrom, hpair⟩
    · rw [hcancel]
      exact .quiet ⟨rfl, rfl, rfl, rfl, rfl, rfl, rfl, rfl⟩
    · rw [commitOutgoingRekey_eq_of_isFrom hfrom hpair] at hgen
      exact absurd hgen hsucc
  | resync targetSeq now =>
    obtain ⟨u, hevict, ⟨e, hres⟩ | ⟨hlt, hres⟩⟩ := resyncReceivingChain_cases P s targetSeq now
    · rw [hres]
      exact .quiet hevict.sameReceive
    · rw [hres]
      rw [hevict.sameReceive.recv] at hlt
      refine .moved targetSeq hlt ?_
      cases hevict <;> exact ⟨rfl, rfl, rfl, rfl, rfl, rfl, rfl, rfl⟩
  | ackState pending carrier cache => exact .quiet ⟨rfl, rfl, rfl, rfl, rfl, rfl, rfl, rfl⟩

/-! ## Steps into the next generation -/

/-- A step into the next generation commits our own proposal, or opens a message with the chain
of the peer's proposal and commits that. -/
inductive CommitStep (P : Primitives K C) (s : DoubleRatchetState K C) :
    DoubleRatchetState K C → Prop
  | own {ss : Bytes} {pair : HybridKeyPair} (hfrom : s.outgoingProposal.IsFrom P s.rootKey ss)
      (hpair : s.outgoingProposal.hybridPair = some pair) : CommitStep P s s.commitOutgoingRekey
  | peer {nonce : Nonce} {c : C} {payload : Option RekeyPayload} {now : Clock} {pt : Bytes}
      {s₁ t : DoubleRatchetState K C} {seed : K}
      (hstep : DecryptStep P s nonce c payload now (.ok pt) t)
      (hderives : Derives P s nonce now payload s₁)
      (hdel : PendingDelivery P s₁ nonce c (payloadAad payload) pt t seed) : CommitStep P s t

theorem Evolves.commitStep {h : KeyHistory K} (hfit : s.KeysFit P h) (hbumps : s.BumpsOnCommit)
    (hstep : Evolves P s t) (hgen : t.ratchetGeneration = s.ratchetGeneration + 1) :
    CommitStep P s t := by
  have hstay : t.ratchetGeneration ≠ s.ratchetGeneration := by
    rw [hgen]
    exact Nat.succ_ne_self _
  cases hstep with
  | encrypt hstep => exact absurd hstep.sameReceive.generation hstay
  | @decrypt nonce c payload now res _ hstep =>
    cases res with
    | error e => exact absurd hstep.sameReceive_of_error.generation hstay
    | ok pt =>
      rcases hstep.opens with ⟨key, _, hopens⟩ | ⟨s₁, seed, _, hderives, hdel⟩
      · exact absurd hopens.generation_eq hstay
      · exact .peer hstep hderives hdel
  | commitOutgoing =>
    rcases hfit.slots.commitOutgoingRekey_cases hbumps with hcancel | ⟨ss, pair, hfrom, hpair⟩
    · rw [hcancel] at hstay
      exact absurd rfl hstay
    · exact .own hfrom hpair
  | resync targetSeq now =>
    rw [resyncReceivingChain_frame] at hstay
    exact absurd rfl hstay
  | ackState pending carrier cache => exact absurd rfl hstay

end DoubleRatchetState

end KyberPipe
