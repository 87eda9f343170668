import KyberPipe.Ratchet.KeyInvariant

/-!
# The keys of a session under its steps

Every elementary step keeps the keys of a session in line with a history, and a step that
delivers a message uses a key that was never used before.
-/

namespace KyberPipe

open KeyChain

variable {K C : Type}

namespace DoubleRatchetState

variable {P : Primitives K C} {s s' : DoubleRatchetState K C} {h : KeyHistory K}

/-! ## Commits -/

/-- A commit installs a fresh chain for the next generation and retains the current one. -/
theorem KeysFit.install (hfit : s.KeysFit P h) {seed : K} (hseed : P.chain.IsSeed seed)
    (hnew : seed ∉ h.installed s.ratchetGeneration) (hrecv : s'.recv.key = seed)
    (hgen : s'.ratchetGeneration = s.ratchetGeneration + 1)
    (hprevKey : s'.previousRecvChainKey = some s.recv.key)
    (hprevGen : s'.previousRecvGen = some s.ratchetGeneration)
    (hcache : s'.skipMessageKeys = s.skipMessageKeys)
    (hslots : s'.SlotsFit P (insert seed (h.installed s.ratchetGeneration))) :
    s'.KeysFit P (h.install (s.ratchetGeneration + 1) seed) := by
  -- older generations keep their seeds and positions
  have hseedOld : ∀ g ≤ s.ratchetGeneration,
      (h.install (s.ratchetGeneration + 1) seed).seed g = h.seed g := by
    intro g hg
    exact h.install_seed_of_ne (by omega) seed
  have hposOld : ∀ g ≤ s.ratchetGeneration,
      (h.install (s.ratchetGeneration + 1) seed).pos g = h.pos g := by
    intro g hg
    exact h.install_pos_of_ne (by omega) seed
  have hseedNew := h.install_seed_self (s.ratchetGeneration + 1) seed
  refine ⟨?_, ?_, ?_, ?_, ?_, ?_, ?_, ?_⟩
  · rw [hgen, hrecv, hseedNew, KeyHistory.install_pos_self, stateAt_zero]
  · intro ck g hck hg
    rw [hprevKey] at hck
    rw [hprevGen] at hg
    obtain rfl := Option.some.inj hck
    obtain rfl := Option.some.inj hg
    rw [hseedOld _ le_rfl, hposOld _ le_rfl, hgen]
    exact ⟨Nat.lt_succ_self _, hfit.recv⟩
  · intro g hg
    rcases Nat.le_or_eq_of_le_succ (hgen ▸ hg) with hle | rfl
    · rw [hseedOld g hle]
      exact hfit.isSeed g hle
    · rw [hseedNew]
      exact hseed
  · intro g hg g' hg' heq
    rcases Nat.le_or_eq_of_le_succ (hgen ▸ hg) with hle | rfl
    · rcases Nat.le_or_eq_of_le_succ (hgen ▸ hg') with hle' | rfl
      · rw [hseedOld g hle, hseedOld g' hle'] at heq
        exact hfit.seed_inj g hle g' hle' heq
      · rw [hseedOld g hle, hseedNew] at heq
        exact absurd ⟨g, hle, heq⟩ hnew
    · rcases Nat.le_or_eq_of_le_succ (hgen ▸ hg') with hle' | rfl
      · rw [hseedOld g' hle', hseedNew] at heq
        exact absurd ⟨g', hle', heq.symm⟩ hnew
      · rfl
  · intro e key hlookup
    rw [hcache] at hlookup
    obtain ⟨he, hused, q, hq, hkey⟩ := hfit.cache e key hlookup
    refine ⟨by omega, hused, q, ?_, ?_⟩
    · rw [hposOld _ he]
      exact hq
    · rw [hseedOld _ he]
      exact hkey
  · rw [hcache]
    exact hfit.cache_inj
  · intro key hkey
    obtain ⟨g, hg, q, hq, hkey⟩ := hfit.used key hkey
    refine ⟨g, by omega, q, ?_, ?_⟩
    · rw [hposOld g hg]
      exact hq
    · rw [hseedOld g hg]
      exact hkey
  · rw [hgen]
    exact hslots.anti (h.installed_install s.ratchetGeneration seed)

theorem saturatingSucc_of_lt {g : ℕ} (hg : g < u32Max) : saturatingSucc g = g + 1 :=
  min_eq_left hg

variable {installed : Set K}

theorem SlotsFit.outgoing_empty (hslots : s.SlotsFit P installed)
    (hroot : s.outgoingProposal.rootKey.isSome = false) : s.outgoingProposal.Empty := by
  rcases hslots.outgoing with hempty | ⟨ss, hfrom⟩
  · exact hempty
  · rw [hfrom.1] at hroot
    exact absurd hroot (by simp)

theorem SlotsFit.incoming_empty (hslots : s.SlotsFit P installed)
    (hroot : s.incomingProposal.rootKey.isSome = false) : s.incomingProposal.Empty := by
  rcases hslots.incoming with hempty | ⟨r, ss, hfrom, _⟩
  · exact hempty
  · rw [hfrom.1] at hroot
    exact absurd hroot (by simp)

section Ideal

variable (ideal : P.Ideal)
include ideal

/-- Committing the peer's proposal installs its receiving chain for the next generation. -/
theorem KeysFit.commitPending (hfit : s.KeysFit P h) (hbumps : s.BumpsOnCommit)
    (hgen : s.ratchetGeneration < u32Max) {key : K}
    (hkey : s.incomingProposal.receivingChainKey = some key) :
    s.commitPendingRekeyWithRaceResolution.KeysFit P
        (h.install (s.ratchetGeneration + 1) key) ∧
      s.commitPendingRekeyWithRaceResolution.ratchetGeneration = s.ratchetGeneration + 1 ∧
      s.commitPendingRekeyWithRaceResolution.recv.key = key := by
  rcases hfit.slots.incoming with hempty | ⟨r, ss, hfrom, hnew, hunspent, _⟩
  · rw [hempty.2.2] at hkey
    exact absurd hkey (by simp)
  · have hbump := hbumps.incoming (by rw [hfrom.1]; rfl)
    obtain rfl : P.nextSendChain r ss = key := Option.some.inj (hfrom.2.2.symm.trans hkey)
    rw [commitPendingRekeyWithRaceResolution_eq hfrom hbump]
    refine ⟨?_, saturatingSucc_of_lt hgen, rfl⟩
    refine hfit.install (ideal.isSeed_nextSendChain r ss) hnew rfl (saturatingSucc_of_lt hgen)
      rfl rfl rfl ⟨hunspent.insert_send ideal rfl, .inl ⟨rfl, rfl, rfl⟩, .inl ?_⟩
    dsimp only
    split_ifs with hroot
    · exact ⟨rfl, rfl, rfl⟩
    · exact hfit.slots.outgoing_empty (by simpa using hroot)

/-- Committing our own staged proposal installs its receiving chain for the next generation. -/
theorem KeysFit.commitOutgoing (hfit : s.KeysFit P h) (hbumps : s.BumpsOnCommit)
    (hgen : s.ratchetGeneration < u32Max) {ss : Bytes}
    (hfrom : s.outgoingProposal.IsFrom P s.rootKey ss) :
    s.commitOutgoingRekey.KeysFit P
      (h.install (s.ratchetGeneration + 1) (P.nextRecvChain s.rootKey ss)) := by
  obtain ⟨pair, hpair⟩ := Option.isSome_iff_exists.1 (hbumps.outgoing (by rw [hfrom.1]; rfl))
  have hnew := (hfit.slots.root.self ss).2
  rw [commitOutgoingRekey_eq_of_isFrom hfrom hpair]
  refine hfit.install (ideal.isSeed_nextRecvChain s.rootKey ss) hnew rfl
    (saturatingSucc_of_lt hgen) rfl rfl rfl
    ⟨(hfit.slots.root.next ss).insert_recv ideal rfl, ?_, .inl ⟨rfl, rfl, rfl⟩⟩
  rcases hfit.slots.incoming with hin | ⟨r, ss', hin, hnot, hunspent, hlink⟩
  · exact .inl hin
  · -- a proposal of the peer that is still staged comes from the same root as our own
    obtain rfl := hlink hfrom.not_empty
    refine .inr ⟨s.rootKey, ss', hin, ?_, hunspent.insert_recv ideal rfl, ?_⟩
    · rintro (heq | hmem)
      · exact nextSendChain_ne_nextRecvChain ideal _ _ _ _ heq
      · exact hnot hmem
    · intro hout
      exact absurd ⟨rfl, rfl, rfl⟩ hout

end Ideal

/-! ## Deliveries -/

/-- A step that used `key`, which was never used before. -/
def SpendsKey (P : Primitives K C) (s' : DoubleRatchetState K C) (h : KeyHistory K) (key : K) :
    Prop :=
  key ∉ h.used ∧ ∃ h', h'.used = insert key h.used ∧ h'.seed = h.seed ∧ s'.KeysFit P h'

theorem KeysFit.spendCached (hfit : s.KeysFit P h) {e : ℕ × ℕ} {key : K}
    (hkey : s.skipMessageKeys.lookup e = some key)
    (hrecv : s'.recv.key = s.recv.key)
    (hgen : s'.ratchetGeneration = s.ratchetGeneration)
    (hprevKey : s'.previousRecvChainKey = s.previousRecvChainKey)
    (hprevGen : s'.previousRecvGen = s.previousRecvGen)
    (hcache : s'.skipMessageKeys = s.skipMessageKeys.erase e)
    (hslots : s'.SlotsFit P (h.installed s.ratchetGeneration)) : SpendsKey P s' h key := by
  obtain ⟨he, hused, q, hq, rfl⟩ := hfit.cache e key hkey
  have hlookup : ∀ e' key', s'.skipMessageKeys.lookup e' = some key' →
      e' ≠ e ∧ s.skipMessageKeys.lookup e' = some key' := by
    intro e' key' h'
    rw [hcache] at h'
    exact ⟨AList.ne_of_lookup_erase h', AList.lookup_of_lookup_erase h'⟩
  have herased : s'.KeysFit P h := by
    refine ⟨?_, ?_, hgen ▸ hfit.isSeed, hgen ▸ hfit.seed_inj, ?_, ?_, hgen ▸ hfit.used,
      hgen ▸ hslots⟩
    · rw [hrecv, hgen, hfit.recv]
    · rw [hgen, hprevKey, hprevGen]
      exact hfit.previous
    · intro e' key' h'
      rw [hgen]
      exact hfit.cache e' key' (hlookup e' key' h').2
    · intro e₁ e₂ key' h₁ h₂
      exact hfit.cache_inj e₁ e₂ key' (hlookup e₁ key' h₁).2 (hlookup e₂ key' h₂).2
  refine ⟨hused, h.use _, rfl, rfl, herased.use (hgen ▸ he) hq ?_⟩
  intro e' h'
  obtain ⟨hne, hold⟩ := hlookup e' _ h'
  exact hne (hfit.cache_inj e' e _ hold hkey)

/-- A walk of the current chain leaves the retained one where it is. -/
theorem KeysFit.previous_advance (hfit : s.KeysFit P h) (n : ℕ) {ck : K} {g : ℕ}
    (hck : s.previousRecvChainKey = some ck) (hg : s.previousRecvGen = some g) :
    g < s.ratchetGeneration ∧
      ck = P.chain.stateAt (h.seed g) ((h.advance s.ratchetGeneration n).pos g) := by
  obtain ⟨hlt, hstate⟩ := hfit.previous ck g hck hg
  rw [h.advance_pos_of_ne hlt.ne]
  exact ⟨hlt, hstate⟩

section Ideal

variable (ideal : P.Ideal)
include ideal

/-- A delivery from the chain of generation `g`, `n` positions above the one it has reached. -/
theorem KeysFit.spendChain (hfit : s.KeysFit P h) {g n : ℕ} (base : ℕ)
    (hg : g ≤ s.ratchetGeneration)
    (hrecv : s'.recv.key = P.chain.stateAt (h.seed s.ratchetGeneration)
      ((h.advance g (n + 1)).pos s.ratchetGeneration))
    (hgen : s'.ratchetGeneration = s.ratchetGeneration)
    (hprev : ∀ ck g', s'.previousRecvChainKey = some ck → s'.previousRecvGen = some g' →
      g' < s.ratchetGeneration ∧ ck = P.chain.stateAt (h.seed g') ((h.advance g (n + 1)).pos g'))
    (hcache : ∀ e key, s'.skipMessageKeys.lookup e = some key →
      s.skipMessageKeys.lookup e = some key ∨
        ∃ j < n, e = (g, base + j) ∧ key = P.chain.keyAt (h.seed g) (h.pos g + j))
    (hslots : s'.SlotsFit P (h.installed s.ratchetGeneration)) :
    SpendsKey P s' h (P.chain.keyAt (h.seed g) (h.pos g + n)) := by
  have hadv : s'.KeysFit P (h.advance g (n + 1)) := by
    refine hfit.advance ideal base hg hrecv hgen hprev ?_ hslots
    intro e key hlookup
    rcases hcache e key hlookup with hold | ⟨j, hj, he, hkey⟩
    · exact .inl hold
    · exact .inr ⟨j, by omega, he, hkey⟩
  refine ⟨hfit.keyAt_not_used ideal hg (by omega), (h.advance g (n + 1)).use _, rfl, rfl,
    hadv.use (hgen ▸ hg) ?_ ?_⟩
  · rw [KeyHistory.advance_pos_self]
    omega
  · -- the spent key is above every cached position, old or newly skipped
    intro e hlookup
    rcases hcache e _ hlookup with hold | ⟨j, hj, _, hkey⟩
    · exact hfit.keyAt_not_cached ideal hg (by omega) e hold
    · obtain ⟨_, hpos⟩ := ideal.keyAt_inj (hfit.isSeed g hg) (hfit.isSeed g hg) hkey
      omega

variable {aad pt : Bytes}

section

variable (hfit : s.KeysFit P h)
include hfit

/-- The key that a delivery of the previous generation used is spent. -/
theorem PreviousDelivery.spendsKey {nonce : Nonce} {c : C} {fromCache : Bool}
    (hdel : PreviousDelivery P s nonce c aad pt fromCache s') :
    ∃ key, decryptChacha20 P key nonce c aad = .ok pt ∧ SpendsKey P s' h key := by
  have hslots : s'.SlotsFit P (h.installed s.ratchetGeneration) :=
    hfit.slots.of_eq (by rw [hdel.frame]) (by rw [hdel.frame]) (by rw [hdel.frame])
  cases hdel with
  | cached hgen hck hkey hdec =>
    exact ⟨_, hdec, hfit.spendCached hkey rfl rfl rfl rfl rfl hslots⟩
  | @chain ck anchor hgen hck hanchor hle hgap hdec =>
    obtain ⟨hlt, rfl⟩ := hfit.previous ck _ hck hgen
    rw [keyAt_stateAt] at hdec
    refine ⟨_, hdec, hfit.spendChain ideal anchor hlt.le ?_ rfl ?_ ?_ hslots⟩
    · -- the current chain stays where it is
      rw [h.advance_pos_of_ne hlt.ne']
      exact hfit.recv
    · intro ck' g' hck' hg'
      obtain rfl := Option.some.inj hck'
      obtain rfl := Option.some.inj (hgen.symm.trans hg')
      refine ⟨hlt, ?_⟩
      rw [stateAt_stateAt, KeyHistory.advance_pos_self]
    · intro e key hlookup
      rcases lookup_cacheSkipKeys_cases hlookup with hold | ⟨j, hj, he, hkey⟩
      · exact .inl hold
      · exact .inr ⟨j, hj, he, by rw [hkey, keyAt_stateAt]⟩

/-- The key that a delivery of the current generation used is spent. -/
theorem CurrentDelivery.spendsKey {nonce : Nonce} {c : C}
    (hdel : CurrentDelivery P s nonce c aad pt s') :
    ∃ key, decryptChacha20 P key nonce c aad = .ok pt ∧ SpendsKey P s' h key := by
  have hslots : s'.SlotsFit P (h.installed s.ratchetGeneration) :=
    hfit.slots.of_eq (by rw [hdel.frame]) (by rw [hdel.frame]) (by rw [hdel.frame])
  cases hdel with
  | cached hkey hdec =>
    exact ⟨_, hdec, hfit.spendCached hkey rfl rfl rfl rfl rfl hslots⟩
  | chain hgap hdec =>
    rw [hfit.recv, keyAt_stateAt] at hdec
    refine ⟨_, hdec, hfit.spendChain ideal s.recv.messageCount le_rfl ?_ rfl ?_ ?_ hslots⟩
    · show P.chain.stateAt s.recv.key _ = _
      rw [hfit.recv, stateAt_stateAt, KeyHistory.advance_pos_self]
    · intro ck g hck hg
      exact hfit.previous_advance _ hck hg
    · intro e key hlookup
      rcases lookup_cacheSkipKeys_cases hlookup with hold | ⟨j, hj, he, hkey⟩
      · exact .inl hold
      · exact .inr ⟨j, hj, he, by rw [hkey, hfit.recv, keyAt_stateAt]⟩

/-- The key that a delivery from the staged chain used is spent, after the chain was installed
for the next generation. -/
theorem PendingDelivery.spendsKey {nonce : Nonce} {c : C} {seed : K} (hbumps : s.BumpsOnCommit)
    (hgen : s.ratchetGeneration < u32Max) (hdel : PendingDelivery P s nonce c aad pt s' seed) :
    ∃ key, decryptChacha20 P key nonce c aad = .ok pt ∧
      SpendsKey P s' (h.install (s.ratchetGeneration + 1) seed) key := by
  obtain ⟨hcommit, hnext, hrecv⟩ := hfit.commitPending ideal hbumps hgen hdel.hkey
  rw [hdel.hstate]
  generalize s.commitPendingRekeyWithRaceResolution = t at hcommit hnext hrecv
  -- the staged chain is the chain of the new generation, at its start
  have hseed : (h.install (s.ratchetGeneration + 1) seed).seed t.ratchetGeneration = seed := by
    rw [hnext, KeyHistory.install_seed_self]
  have hpos : (h.install (s.ratchetGeneration + 1) seed).pos t.ratchetGeneration = 0 := by
    rw [hnext, KeyHistory.install_pos_self]
  have hspend : SpendsKey P
      (t.deliverCommitted (P.chain.stateAt t.recv.key (nonce.seq + 1))
        (deriveSkipKeys P t.recv.key 0 t.ratchetGeneration nonce.seq).2 nonce.seq)
      (h.install (s.ratchetGeneration + 1) seed)
      (P.chain.keyAt ((h.install (s.ratchetGeneration + 1) seed).seed t.ratchetGeneration)
        ((h.install (s.ratchetGeneration + 1) seed).pos t.ratchetGeneration + nonce.seq)) := by
    refine hcommit.spendChain ideal 0 le_rfl ?_ rfl ?_ ?_
      (hcommit.slots.of_eq rfl rfl rfl)
    · show P.chain.stateAt t.recv.key _ = _
      rw [hrecv, hseed, KeyHistory.advance_pos_self, hpos, Nat.zero_add]
    · intro ck g hck hg
      exact hcommit.previous_advance _ hck hg
    · intro e key hlookup
      rcases lookup_cacheSkipKeys_cases hlookup with hold | ⟨j, hj, he, hkey⟩
      · exact .inl hold
      · exact .inr ⟨j, hj, he, by rw [hkey, hrecv, hseed, hpos, Nat.zero_add]⟩
  rw [hseed, hpos, Nat.zero_add] at hspend
  exact ⟨_, hdel.hdec, hspend⟩

theorem KeysFit.move (targetSeq : ℕ) :
    ∃ h', h'.used = h.used ∧ (s.moveReceivingChain P targetSeq).KeysFit P h' := by
  refine ⟨h.advance s.ratchetGeneration (targetSeq - s.recv.messageCount), rfl, ?_⟩
  refine hfit.advance ideal s.recv.messageCount le_rfl ?_ rfl ?_ ?_
    (hfit.slots.of_eq rfl rfl rfl)
  · show (deriveSkipKeys P s.recv.key _ _ _).1 = _
    rw [deriveSkipKeys_fst, hfit.recv, stateAt_stateAt, KeyHistory.advance_pos_self]
  · intro ck g hck hg
    exact hfit.previous_advance _ hck hg
  · intro e key hlookup
    rcases lookup_cacheSkipKeys_cases hlookup with hold | ⟨j, hj, he, hkey⟩
    · exact .inl hold
    · exact .inr ⟨j, hj, he, by rw [hkey, hfit.recv, keyAt_stateAt]⟩

end

end Ideal

/-! ## Steps that use no key -/

variable {payload : Option RekeyPayload} {nonce : Nonce} {now : Clock}

theorem Derives.slotsFit (hslots : s.SlotsFit P installed)
    (hderives : Derives P s nonce now payload s') : s'.SlotsFit P installed := by
  cases hderives with
  | absent => exact hslots
  | superseded _ => exact hslots
  | @staged _ ss _ _ =>
    refine ⟨hslots.root, .inr ⟨s.rootKey, ss, ⟨rfl, rfl, rfl⟩, ?_, ?_, fun _ => rfl⟩,
      hslots.outgoing⟩
    · exact (hslots.root.self ss).1
    · exact hslots.root.next ss

theorem Derives.keysFit (hfit : s.KeysFit P h) (hderives : Derives P s nonce now payload s') :
    s'.KeysFit P h :=
  hfit.of_receive_eq (by rw [hderives.frame]) (by rw [hderives.frame]) (by rw [hderives.frame])
    (by rw [hderives.frame]) (by rw [hderives.frame]) (hderives.slotsFit hfit.slots)

theorem KeysFit.resolve (hfit : s.KeysFit P h) (seq : ℕ) (hasPayload : Bool) :
    (s.resolveRekeyRaceAndAck seq hasPayload).KeysFit P h := by
  have hframe := resolveRekeyRaceAndAck_frame s seq hasPayload
  refine hfit.of_receive_eq (by rw [hframe]) (by rw [hframe]) (by rw [hframe]) (by rw [hframe])
    (by rw [hframe]) (hfit.slots.of_kept (by rw [hframe]) ?_ ?_)
  · rcases resolveRekeyRaceAndAck_incoming s seq hasPayload with heq | heq
    · rw [heq]
      exact .inl ⟨rfl, rfl, rfl⟩
    · rw [heq]
      exact .inr ⟨rfl, rfl, rfl⟩
  · rcases resolveRekeyRaceAndAck_outgoing s seq hasPayload with heq | heq
    · exact .inl heq
    · rw [heq]
      exact .inr ⟨rfl, rfl, rfl⟩

variable {rnd : EncryptRandomness}

/-- Our own proposal is staged over the current root, and only next to an empty incoming
slot. -/
theorem Attaches.slotsFit {seq : ℕ} {res : Except KyberError (Option RekeyPayload)}
    (hslots : s.SlotsFit P installed) (hattach : Attaches P s seq rnd now res s') :
    s'.SlotsFit P installed := by
  cases hattach with
  | nothing => exact hslots.of_eq rfl rfl rfl
  | resend _ _ => exact hslots.of_eq rfl rfl rfl
  | unencapsulated _ _ _ => exact hslots.of_eq rfl rfl rfl
  | @propose _ _ kem hshould _ _ _ =>
    refine ⟨hslots.root, .inl ?_, .inr ⟨kem.combinedSharedSecret, rfl, rfl, rfl⟩⟩
    refine hslots.incoming_empty ?_
    have hin : s.incomingProposal.rootKey = none := (shouldRekey_iff.1 hshould).2.2.2
    rw [hin]
    rfl

theorem EncryptStep.keysFit {pt : Bytes} {res : Except KyberError (RatchetEncryptedMessage C)}
    (hfit : s.KeysFit P h) (hstep : EncryptStep P s pt rnd now res s') : s'.KeysFit P h := by
  have hcount : s.countSend.KeysFit P h :=
    hfit.of_receive_eq rfl rfl rfl rfl rfl (hfit.slots.of_eq rfl rfl rfl)
  refine hstep.preserves (Q := fun t => t.KeysFit P h) hcount ?_ ?_
  · intro res t hattach
    exact hcount.of_receive_eq (by rw [hattach.frame]) (by rw [hattach.frame])
      (by rw [hattach.frame]) (by rw [hattach.frame]) (by rw [hattach.frame])
      (hattach.slotsFit hcount.slots)
  · intro t ht
    exact ht.of_receive_eq rfl rfl rfl rfl rfl (ht.slots.of_eq rfl rfl rfl)

theorem Evicts.keysFit (hfit : s.KeysFit P h) (hevict : Evicts s s') : s'.KeysFit P h := by
  have hempty : ∀ {at_ : Option ℕ},
      ({ attachedAtMono := at_ } : IncomingProposal K).Empty := ⟨rfl, rfl, rfl⟩
  cases hevict with
  | none => exact hfit
  | incoming =>
    exact hfit.of_receive_eq rfl rfl rfl rfl rfl
      (hfit.slots.of_kept rfl (.inr hempty) (.inl rfl))
  | outgoing =>
    exact hfit.of_receive_eq rfl rfl rfl rfl rfl
      (hfit.slots.of_kept rfl (.inl ⟨rfl, rfl, rfl⟩) (.inr ⟨rfl, rfl, rfl⟩))
  | both =>
    exact hfit.of_receive_eq rfl rfl rfl rfl rfl
      (hfit.slots.of_kept rfl (.inr hempty) (.inr ⟨rfl, rfl, rfl⟩))

/-! ## Decryptions and elementary steps -/

theorem DecryptStep.keysFit_of_error {c : C} {e : KyberError} (hfit : s.KeysFit P h)
    (hstep : DecryptStep P s nonce c payload now (.error e) s') : s'.KeysFit P h := by
  cases hstep with
  | refused _ => exact hfit
  | failed _ _ _ hderives => exact hderives.keysFit hfit

section Ideal

variable (ideal : P.Ideal)
include ideal

/-- A successful decryption opens the message with a key that was never used before. -/
theorem DecryptStep.spendsKey {c : C} {pt : Bytes} (hfit : s.KeysFit P h) (hbumps : s.BumpsOnCommit)
    (hstep : DecryptStep P s nonce c payload now (.ok pt) s') :
    ∃ key, P.aeadOpen key nonce c (payloadAad payload) = some pt ∧ key ∉ h.used ∧
      ∃ h', h'.used = insert key h.used ∧ s'.KeysFit P h' := by
  cases hstep with
  | previous _ hdel =>
    obtain ⟨key, hdec, hnew, h', hused, _, hfit'⟩ := hdel.spendsKey ideal hfit
    exact ⟨key, aeadOpen_of_decryptChacha20 hdec, hnew, h', hused, hfit'⟩
  | current _ _ hderives hdel =>
    obtain ⟨key, hdec, hnew, h', hused, _, hfit'⟩ := hdel.spendsKey ideal (hderives.keysFit hfit)
    exact ⟨key, aeadOpen_of_decryptChacha20 hdec, hnew, h', hused, hfit'.resolve _ _⟩
  | @pending _ s₁ _ _ hadmits _ hderives hdel =>
    have hlt : s₁.ratchetGeneration < u32Max := by
      rw [hderives.frame]
      exact lt_of_le_of_ne hbumps.generation_le hadmits.generation_ne
    obtain ⟨key, hdec, hnew, h', hused, _, hfit'⟩ := hdel.spendsKey ideal (hderives.keysFit hfit)
      (hderives.advances.bumps hbumps) hlt
    exact ⟨key, aeadOpen_of_decryptChacha20 hdec, hnew, h', hused, hfit'⟩

/-- Every elementary step below the last generation keeps the keys in line with a history in
which no used key is forgotten. -/
theorem Evolves.keysFit (hfit : s.KeysFit P h) (hbumps : s.BumpsOnCommit)
    (hgen : s.ratchetGeneration ≠ u32Max) (hstep : Evolves P s s') :
    ∃ h', h.used ⊆ h'.used ∧ s'.KeysFit P h' := by
  cases hstep with
  | encrypt hstep => exact ⟨h, subset_rfl, hstep.keysFit hfit⟩
  | @decrypt _ _ _ _ res _ hstep =>
    cases res with
    | error e => exact ⟨h, subset_rfl, hstep.keysFit_of_error hfit⟩
    | ok pt =>
      obtain ⟨key, _, _, h', hused, hfit'⟩ := hstep.spendsKey ideal hfit hbumps
      exact ⟨h', hused ▸ Set.subset_insert key h.used, hfit'⟩
  | commitOutgoing =>
    rcases hfit.slots.outgoing with hempty | ⟨ss, hfrom⟩
    · refine ⟨h, subset_rfl, ?_⟩
      rw [commitOutgoingRekey_of_empty hempty]
      exact hfit.of_receive_eq rfl rfl rfl rfl rfl
        (hfit.slots.of_kept rfl (.inl ⟨rfl, rfl, rfl⟩) (.inr ⟨rfl, rfl, rfl⟩))
    · have hlt := lt_of_le_of_ne hbumps.generation_le hgen
      exact ⟨h.install _ _, subset_rfl, hfit.commitOutgoing ideal hbumps hlt hfrom⟩
  | resync targetSeq now =>
    obtain ⟨t, hevict, ⟨e, hres⟩ | ⟨_, hres⟩⟩ := resyncReceivingChain_cases P s targetSeq now
    · rw [hres]
      exact ⟨h, subset_rfl, hevict.keysFit hfit⟩
    · rw [hres]
      obtain ⟨h', hused, hfit'⟩ := (hevict.keysFit hfit).move ideal targetSeq
      exact ⟨h', hused.ge, hfit'⟩
  | ackState pending carrier cache =>
    refine ⟨h, subset_rfl, hfit.of_receive_eq rfl rfl rfl rfl rfl ?_⟩
    exact hfit.slots.of_kept rfl (.inl ⟨rfl, rfl, rfl⟩) (.inl rfl)

end Ideal

end DoubleRatchetState

end KyberPipe
