import KyberPipe.Ratchet.AtMostOnce

/-!
# Reachable sessions

A session is reachable if elementary steps lead to it from a fresh session with a generated key
pair. Its keys agree with a history, its key pairs are generated, and the payloads it carries
are encapsulations.
-/

namespace KyberPipe

variable {K C : Type}

namespace DoubleRatchetState

/-! ## The own proposal and its carriers -/

/-- The rekey interval is kept, and the own proposal is kept with some of its carriers or dropped
with all of them. -/
structure KeepsProposal (s s' : DoubleRatchetState K C) : Prop where
  interval : s'.rekeyInterval = s.rekeyInterval
  own : s'.outgoingProposal = s.outgoingProposal ∧
      s'.rekeyPendingConfirmQueue.Sublist s.rekeyPendingConfirmQueue ∨
    s'.outgoingProposal = {} ∧ s'.rekeyPendingConfirmQueue = []

section KeepsProposal

variable {P : Primitives K C} {s s' t : DoubleRatchetState K C}

theorem KeepsProposal.of_eq (hinterval : s'.rekeyInterval = s.rekeyInterval)
    (hslot : s'.outgoingProposal = s.outgoingProposal)
    (hqueue : s'.rekeyPendingConfirmQueue = s.rekeyPendingConfirmQueue) : KeepsProposal s s' :=
  ⟨hinterval, .inl ⟨hslot, hqueue ▸ .refl _⟩⟩

theorem KeepsProposal.trans (h : KeepsProposal s s') (h' : KeepsProposal s' t) :
    KeepsProposal s t := by
  refine ⟨h'.interval.trans h.interval, ?_⟩
  rcases h'.own with ⟨hslot', hqueue'⟩ | hdropped
  · rcases h.own with ⟨hslot, hqueue⟩ | ⟨hslot, hqueue⟩
    · exact .inl ⟨hslot'.trans hslot, hqueue'.trans hqueue⟩
    · rw [hqueue] at hqueue'
      exact .inr ⟨hslot'.trans hslot, List.eq_nil_of_sublist_nil hqueue'⟩
  · exact .inr hdropped

theorem KeepsProposal.queue_sublist (h : KeepsProposal s s') :
    s'.rekeyPendingConfirmQueue.Sublist s.rekeyPendingConfirmQueue := by
  rcases h.own with ⟨_, hqueue⟩ | ⟨_, hqueue⟩
  · exact hqueue
  · rw [hqueue]
    exact List.nil_sublist _

section

variable (s : DoubleRatchetState K C)

theorem keepsProposal_cancelOutgoingRekey :
    KeepsProposal s s.cancelOutgoingRekey :=
  ⟨rfl, .inr ⟨rfl, rfl⟩⟩

/-- A commit of our own proposal ends by dropping it, whether or not its keys were staged. -/
theorem keepsProposal_commitOutgoingRekey : KeepsProposal s s.commitOutgoingRekey := by
  rw [commitOutgoingRekey_frame]
  exact ⟨rfl, .inr ⟨rfl, rfl⟩⟩

theorem keepsProposal_commitPendingRekey : KeepsProposal s s.commitPendingRekey := by
  rw [commitPendingRekey_frame]
  exact .of_eq rfl rfl rfl

theorem keepsProposal_commitPendingRekeyWithRaceResolution :
    KeepsProposal s s.commitPendingRekeyWithRaceResolution := by
  rcases commitPendingRekeyWithRaceResolution_cases s with heq | heq
  · rw [heq]
    exact (keepsProposal_cancelOutgoingRekey s).trans (keepsProposal_commitPendingRekey _)
  · rw [heq]
    exact keepsProposal_commitPendingRekey s

theorem keepsProposal_resolveRekeyRaceAndAck (seq : ℕ) (hasPayload : Bool) :
    KeepsProposal s (s.resolveRekeyRaceAndAck seq hasPayload) := by
  unfold resolveRekeyRaceAndAck
  split_ifs
  · exact .of_eq rfl rfl rfl
  · exact ⟨rfl, .inr ⟨rfl, rfl⟩⟩
  · exact .of_eq rfl rfl rfl
  · exact .of_eq rfl rfl rfl

end

/-- A decryption queues no carriers and stages nothing of our own. -/
theorem DecryptStep.keepsProposal {nonce : Nonce} {c : C} {payload : Option RekeyPayload}
    {now : Clock} {res : Except KyberError Bytes}
    (hstep : DecryptStep P s nonce c payload now res s') : KeepsProposal s s' := by
  have hderived : ∀ {t}, Derives P s nonce now payload t → KeepsProposal s t := fun h =>
    .of_eq (by rw [h.frame]) (by rw [h.frame]) (by rw [h.frame])
  cases hstep with
  | refused _ => exact .of_eq rfl rfl rfl
  | failed _ _ _ hderives => exact hderived hderives
  | previous _ hdel => exact .of_eq (by rw [hdel.frame]) (by rw [hdel.frame]) (by rw [hdel.frame])
  | @current _ s₁ s₂ _ _ hderives hdel =>
    have hopened : KeepsProposal s₁ s₂ :=
      .of_eq (by rw [hdel.frame]) (by rw [hdel.frame]) (by rw [hdel.frame])
    exact ((hderived hderives).trans hopened).trans (keepsProposal_resolveRekeyRaceAndAck s₂ _ _)
  | pending _ _ hderives hdel =>
    rw [hdel.hstate]
    refine (hderived hderives).trans
      ((keepsProposal_commitPendingRekeyWithRaceResolution _).trans ?_)
    exact .of_eq rfl rfl rfl

theorem Evicts.keepsProposal (hevict : Evicts s s') : KeepsProposal s s' := by
  cases hevict with
  | none => exact .of_eq rfl rfl rfl
  | incoming => exact .of_eq rfl rfl rfl
  | outgoing => exact keepsProposal_cancelOutgoingRekey s
  | both => exact ⟨rfl, .inr ⟨rfl, rfl⟩⟩

theorem keepsProposal_resyncReceivingChain (P : Primitives K C) (s : DoubleRatchetState K C)
    (targetSeq : ℕ) (now : Clock) : KeepsProposal s (s.resyncReceivingChain P targetSeq now).2 := by
  obtain ⟨t, hevict, ⟨e, hres⟩ | ⟨_, hres⟩⟩ := resyncReceivingChain_cases P s targetSeq now
  · rw [hres]
    exact hevict.keepsProposal
  · rw [hres]
    exact hevict.keepsProposal.trans (.of_eq rfl rfl rfl)

end KeepsProposal

/-! ## Well-keyed sessions -/

/-- The session is reached from a fresh one by elementary steps. -/
def Reachable (P : Primitives K C) (s : DoubleRatchetState K C) : Prop :=
  ∃ secret isInitiator seed peerXpk peerMpk,
    EvolvesStar P (newWithKeypair P secret isInitiator (generateHybridKeypair P seed) peerXpk
      peerMpk) s

/-- The key pairs of the session are generated and its carriers hold encapsulations. -/
structure WellKeyed (P : Primitives K C) (s : DoubleRatchetState K C) : Prop where
  ours : ∃ seed, s.ourHybridPair = generateHybridKeypair P seed
  staged : ∀ pair, s.outgoingProposal.hybridPair = some pair →
    ∃ seed, pair = generateHybridKeypair P seed
  carriers : ∀ carrier ∈ s.rekeyPendingConfirmQueue, Encapsulated P carrier.payload.ciphertext

variable {P : Primitives K C} {s s' : DoubleRatchetState K C}

/-- A step that keeps the key pair and keeps or drops what is staged. -/
theorem WellKeyed.of_keeps (hkeyed : s.WellKeyed P) (hours : s'.ourHybridPair = s.ourHybridPair)
    (hkeeps : KeepsProposal s s') : s'.WellKeyed P where
  ours := hours ▸ hkeyed.ours
  staged := by
    intro pair hpair
    rcases hkeeps.own with ⟨hslot, _⟩ | ⟨hslot, _⟩
    · exact hkeyed.staged pair (hslot ▸ hpair)
    · rw [hslot] at hpair
      cases hpair
  carriers carrier hmem := hkeyed.carriers carrier (hkeeps.queue_sublist.subset hmem)

theorem WellKeyed.commitOutgoing (hkeyed : s.WellKeyed P) : s.commitOutgoingRekey.WellKeyed P := by
  unfold commitOutgoingRekey
  split
  · refine ⟨?_, (by rintro _ ⟨⟩), (by rintro _ ⟨⟩)⟩
    cases hpair : s.outgoingProposal.hybridPair with
    | none =>
      simp only [adoptOutgoing, hpair]
      exact hkeyed.ours
    | some pair =>
      simp only [adoptOutgoing, hpair]
      exact hkeyed.staged pair hpair
  · exact hkeyed.of_keeps rfl (keepsProposal_cancelOutgoingRekey s)

variable {payload : Option RekeyPayload} {res : Except KyberError Bytes} {now : Clock}

theorem DecryptStep.ourHybridPair_eq {nonce : Nonce} {c : C}
    (hstep : DecryptStep P s nonce c payload now res s') : s'.ourHybridPair = s.ourHybridPair := by
  cases hstep with
  | refused _ => rfl
  | failed _ _ _ hderives => rw [hderives.frame]
  | previous _ hdel => rw [hdel.frame]
  | current _ _ hderives hdel => rw [resolveRekeyRaceAndAck_frame, hdel.frame, hderives.frame]
  | @pending _ s₁ _ _ _ _ hderives hdel =>
    have hcommit : s₁.commitPendingRekeyWithRaceResolution.ourHybridPair = s₁.ourHybridPair := by
      unfold commitPendingRekeyWithRaceResolution commitPendingRekey
      split_ifs <;> split <;> rfl
    rw [hdel.hstate]
    exact hcommit.trans (by rw [hderives.frame])

theorem DecryptStep.wellKeyed {nonce : Nonce} {c : C} (hkeyed : s.WellKeyed P)
    (hstep : DecryptStep P s nonce c payload now res s') : s'.WellKeyed P :=
  hkeyed.of_keeps hstep.ourHybridPair_eq hstep.keepsProposal

variable {rnd : EncryptRandomness}

/-- A new payload is an encapsulation, a repeated one was already carried. -/
theorem Attaches.wellKeyed {seq : ℕ} {res : Except KyberError (Option RekeyPayload)}
    (hkeyed : s.WellKeyed P) (hattach : Attaches P s seq rnd now res s') :
    s'.WellKeyed P ∧ ∀ p, res = .ok (some p) → Encapsulated P p.ciphertext := by
  have hdropped : (s.dropDueCarriers now).WellKeyed P :=
    hkeyed.of_keeps rfl ⟨rfl, .inl ⟨rfl, List.filter_sublist⟩⟩
  cases hattach with
  | nothing => exact ⟨hdropped, (by rintro p ⟨⟩)⟩
  | @resend carrier hmem _ =>
    have hcarrier := hkeyed.carriers carrier hmem
    refine ⟨⟨hdropped.ours, hdropped.staged, ?_⟩, ?_⟩
    · intro c hc
      rcases List.mem_append.1 hc with hold | hnew
      · exact hdropped.carriers c hold
      · obtain rfl := List.mem_singleton.1 hnew
        exact hcarrier
    · intro p h
      obtain rfl := Option.some.inj (Except.ok.inj h)
      exact hcarrier
  | @propose peerXpk peerMpk kem _ _ _ hkem =>
    have hnew : Encapsulated P kem.ciphertextBytes :=
      ⟨peerXpk, peerMpk, rnd.encapsulation, kem, hkem, rfl⟩
    refine ⟨⟨hdropped.ours, ?_, ?_⟩, ?_⟩
    · intro pair hpair
      exact ⟨rnd.keygen, (Option.some.inj hpair).symm⟩
    · intro c hc
      rcases List.mem_append.1 hc with hold | hmem
      · exact hdropped.carriers c hold
      · obtain rfl := List.mem_singleton.1 hmem
        exact hnew
    · intro p h
      obtain rfl := Option.some.inj (Except.ok.inj h)
      exact hnew
  | unencapsulated _ _ _ => exact ⟨hdropped, (by rintro p ⟨⟩)⟩

theorem EncryptStep.wellKeyed {pt : Bytes} {res : Except KyberError (RatchetEncryptedMessage C)}
    (hkeyed : s.WellKeyed P) (hstep : EncryptStep P s pt rnd now res s') : s'.WellKeyed P := by
  have hcount : s.countSend.WellKeyed P := hkeyed.of_keeps rfl (.of_eq rfl rfl rfl)
  exact hstep.preserves hcount (fun hattach => (hattach.wellKeyed hcount).1)
    fun t ht => ht.of_keeps rfl (.of_eq rfl rfl rfl)

/-- Every elementary step keeps the key pairs generated and the carriers encapsulated. -/
theorem Evolves.wellKeyed (hkeyed : s.WellKeyed P) (hstep : Evolves P s s') :
    s'.WellKeyed P := by
  cases hstep with
  | encrypt hstep => exact hstep.wellKeyed hkeyed
  | decrypt hstep => exact hstep.wellKeyed hkeyed
  | commitOutgoing => exact hkeyed.commitOutgoing
  | resync targetSeq now =>
    refine hkeyed.of_keeps ?_ (keepsProposal_resyncReceivingChain P s targetSeq now)
    rw [resyncReceivingChain_frame]
  | ackState pending carrier cache => exact hkeyed.of_keeps rfl (.of_eq rfl rfl rfl)

/-! ## Invariants of reachable sessions -/

theorem Reachable.step (hreach : s.Reachable P) (hstep : Evolves P s s') : s'.Reachable P := by
  obtain ⟨secret, isInitiator, seed, peerXpk, peerMpk, hsteps⟩ := hreach
  exact ⟨secret, isInitiator, seed, peerXpk, peerMpk, hsteps.tail hstep⟩

theorem EvolvesStar.wellKeyed (hsteps : EvolvesStar P s s') (hkeyed : s.WellKeyed P) :
    s'.WellKeyed P := by
  induction hsteps with
  | refl => exact hkeyed
  | tail _ hstep ih => exact hstep.wellKeyed ih

theorem Reachable.wellKeyed (hreach : s.Reachable P) : s.WellKeyed P := by
  obtain ⟨secret, isInitiator, seed, peerXpk, peerMpk, hsteps⟩ := hreach
  exact EvolvesStar.wellKeyed hsteps
    ⟨⟨seed, rfl⟩, (by rintro _ ⟨⟩), (by rintro _ ⟨⟩)⟩

theorem Reachable.spent (ideal : P.Ideal) (hreach : s.Reachable P) : s.Spent P ∅ := by
  obtain ⟨secret, isInitiator, seed, peerXpk, peerMpk, hsteps⟩ := hreach
  exact hsteps.spent ideal (spent_newWithKeypair ideal _ _ _ _ _)

end DoubleRatchetState

end KyberPipe
