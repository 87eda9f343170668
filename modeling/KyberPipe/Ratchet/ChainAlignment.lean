import KyberPipe.Ratchet.ConcurrentImport
import KyberPipe.Ratchet.Operations

/-!
# Chains and their counters

A chain is aligned with its counter if its key is the initial key of the generation, stepped as
often as the counter says. The initial keys are those that were derived together with the root key.

The sending chain falls behind its counter when an encapsulation to the peer's keys fails: the
counter was taken at the entry of `ratchet_encrypt`, the key moves near the exit. The receiving
chain gets ahead of its counter when a message numbered below the counter opens under the key at
the counter: the chain moves on by one and the counter back to the number of the message.

The module introduces:

* `SendAligned P`, `ReceiveAligned P` — the two chains are aligned with their counters.
* `SlotsStaged P` — each proposal slot is empty or holds a complete proposal.
* `ChainStep P s op` — what an operation can do to the root, the generation and the chains.

Every operation is a chain step (`perform_chainStep`). From this the sending chain is aligned while
encapsulation succeeds (`send_chain_aligned`), and the receiving chain while messages are in order
(`receive_chain_aligned`).
-/

namespace KyberPipe

open Symbolic

variable {K C : Type}

/-- The initial chain keys that were derived together with a root key, sending key first: at a
pairing, by our own proposal, or by the peer's. -/
inductive InitialChains (P : Primitives K C) : K → K → K → Prop
  | initiator (secret : Bytes) :
      InitialChains P (initialRootKey P secret)
        (deriveChainKeysFromRoot P (initialRootKey P secret) .sendChain .recvChain).1
        (deriveChainKeysFromRoot P (initialRootKey P secret) .sendChain .recvChain).2
  | responder (secret : Bytes) :
      InitialChains P (initialRootKey P secret)
        (deriveChainKeysFromRoot P (initialRootKey P secret) .recvChain .sendChain).1
        (deriveChainKeysFromRoot P (initialRootKey P secret) .recvChain .sendChain).2
  | proposed (root : K) (ss : Bytes) :
      InitialChains P (P.nextRootKey root ss) (P.nextSendChain root ss) (P.nextRecvChain root ss)
  | accepted (root : K) (ss : Bytes) :
      InitialChains P (P.nextRootKey root ss) (P.nextRecvChain root ss) (P.nextSendChain root ss)

/-- The chain has moved on in step with its counter. -/
def Chain.MovesTo (P : Primitives K C) (c c' : Chain K) : Prop :=
  ∃ n, c'.key = P.chain.stateAt c.key n ∧ c'.messageCount = c.messageCount + n

theorem Chain.MovesTo.refl {P : Primitives K C} (c : Chain K) : c.MovesTo P c := ⟨0, rfl, rfl⟩

theorem Chain.MovesTo.trans {P : Primitives K C} {c c' c'' : Chain K} (h : c.MovesTo P c')
    (h' : c'.MovesTo P c'') : c.MovesTo P c'' := by
  obtain ⟨n, hkey, hcount⟩ := h
  obtain ⟨m, hkey', hcount'⟩ := h'
  refine ⟨n + m, ?_, ?_⟩
  · rw [hkey', hkey, KeyChain.stateAt_stateAt]
  · rw [hcount', hcount, Nat.add_assoc]

namespace DoubleRatchetState

variable (P : Primitives K C) (s : DoubleRatchetState K C)

/-- The sending chain is the initial one of its root key, stepped as often as its counter says. -/
def SendAligned : Prop :=
  ∃ k k', InitialChains P s.rootKey k k' ∧ s.send.key = P.chain.stateAt k s.send.messageCount

/-- The receiving chain is the initial one of its root key, stepped as often as its counter
says. -/
def ReceiveAligned : Prop :=
  ∃ k k', InitialChains P s.rootKey k k' ∧ s.recv.key = P.chain.stateAt k' s.recv.messageCount

/-- If the next message is one that proposes a rekey, encapsulation to the peer's keys
succeeds. -/
def EncapsulationAccepted (rnd : EncryptRandomness) : Prop :=
  s.ratchetGeneration ≠ u32Max → s.shouldRekey s.send.messageCount = true →
    ∀ xpk ∈ s.peerX25519Pk, ∀ mpk ∈ s.peerMlkemPk,
      (encapsulateHybrid P xpk mpk rnd.encapsulation).isOk = true

instance (rnd : EncryptRandomness) : Decidable (s.EncapsulationAccepted P rnd) :=
  inferInstanceAs (Decidable (s.ratchetGeneration ≠ u32Max →
    s.shouldRekey s.send.messageCount = true → ∀ xpk ∈ s.peerX25519Pk, ∀ mpk ∈ s.peerMlkemPk,
      (encapsulateHybrid P xpk mpk rnd.encapsulation).isOk = true))

end DoubleRatchetState

namespace Operation

/-- An operation that encrypts does not meet keys of the peer that encapsulation refuses. -/
def EncapsulationAccepted (P : Primitives K C) (s : DoubleRatchetState K C) : Operation C → Prop
  | .encrypt _ rnd _ => s.EncapsulationAccepted P rnd
  | .peekRekeyAck rnd _ => s.peekEncrypts = true → s.EncapsulationAccepted P rnd
  | _ => True

instance (P : Primitives K C) (s : DoubleRatchetState K C) (op : Operation C) :
    Decidable (op.EncapsulationAccepted P s) :=
  match op with
  | .encrypt _ rnd _ => inferInstanceAs (Decidable (s.EncapsulationAccepted P rnd))
  | .peekRekeyAck rnd _ =>
    inferInstanceAs (Decidable (s.peekEncrypts = true → s.EncapsulationAccepted P rnd))
  | .decrypt _ _ | .decryptWithRekey _ _ _ _ _ _ | .processRekeyAck _ | .takePendingRekeyAckSeq
  | .consumeRekeyAck | .resync _ _ | .commitPendingRekey | .commitOutgoingRekey
  | .cancelOutgoingRekey | .cancelPendingIncomingRekey | .restore _ => .isTrue trivial

/-- A decryption is of a message in order, and no commit is made at the last generation, whose
number stays. -/
def InOrder (P : Primitives K C) (s : DoubleRatchetState K C) : Operation C → Prop
  | .decrypt nonce c => s.InOrder P nonce c none
  | .decryptWithRekey nonce c rct rx rm _ =>
    s.InOrder P nonce c (DoubleRatchetState.completePayload rct rx rm)
  | .processRekeyAck _ | .commitPendingRekey | .commitOutgoingRekey =>
    s.ratchetGeneration ≠ u32Max
  | _ => True

instance (P : Primitives K C) (s : DoubleRatchetState K C) (nonce : Nonce) (c : C)
    (payload : Option RekeyPayload) : Decidable (s.InOrder P nonce c payload) :=
  inferInstanceAs (Decidable (nonce.seq < s.recv.messageCount →
    (decryptChacha20 P (P.chain.keyAt s.recv.key 0) nonce c (payloadAad payload)).isOk = false))

instance (P : Primitives K C) (s : DoubleRatchetState K C) (op : Operation C) :
    Decidable (op.InOrder P s) :=
  match op with
  | .decrypt nonce c => inferInstanceAs (Decidable (s.InOrder P nonce c none))
  | .decryptWithRekey nonce c rct rx rm _ =>
    inferInstanceAs
      (Decidable (s.InOrder P nonce c (DoubleRatchetState.completePayload rct rx rm)))
  | .processRekeyAck _ | .commitPendingRekey | .commitOutgoingRekey =>
    inferInstanceAs (Decidable (s.ratchetGeneration ≠ u32Max))
  | .encrypt _ _ _ | .takePendingRekeyAckSeq | .peekRekeyAck _ _ | .consumeRekeyAck
  | .resync _ _ | .cancelOutgoingRekey | .cancelPendingIncomingRekey | .restore _ =>
    .isTrue trivial

end Operation

/-- Initial chain keys are no steps of a chain. -/
theorem InitialChains.isSeed {P : Primitives K C} (ideal : P.Ideal) {root k k' : K}
    (h : InitialChains P root k k') : P.chain.IsSeed k ∧ P.chain.IsSeed k' := by
  cases h with
  | initiator secret =>
    exact ⟨ideal.isSeed_of_info_ne (by decide), ideal.isSeed_of_info_ne (by decide)⟩
  | responder secret =>
    exact ⟨ideal.isSeed_of_info_ne (by decide), ideal.isSeed_of_info_ne (by decide)⟩
  | proposed root ss => exact ⟨ideal.isSeed_nextSendChain _ _, ideal.isSeed_nextRecvChain _ _⟩
  | accepted root ss => exact ⟨ideal.isSeed_nextRecvChain _ _, ideal.isSeed_nextSendChain _ _⟩

namespace DoubleRatchetState

variable {P : Primitives K C} {s s' t : DoubleRatchetState K C} {op : Operation C}

/-- The key of an aligned sending chain shows what its counter is. -/
theorem SendAligned.count_eq (ideal : P.Ideal) (h : s.SendAligned P) {k : K} {n : ℕ}
    (hseed : P.chain.IsSeed k) (hkey : s.send.key = P.chain.stateAt k n) :
    s.send.messageCount = n := by
  obtain ⟨m, m', hchains, haligned⟩ := h
  exact (KeyChain.stateAt_inj ideal.step_injective (hchains.isSeed ideal).1 hseed
    (haligned.symm.trans hkey)).2

/-- The key of an aligned receiving chain shows what its counter is. -/
theorem ReceiveAligned.count_eq (ideal : P.Ideal) (h : s.ReceiveAligned P) {k : K} {n : ℕ}
    (hseed : P.chain.IsSeed k) (hkey : s.recv.key = P.chain.stateAt k n) :
    s.recv.messageCount = n := by
  obtain ⟨m, m', hchains, haligned⟩ := h
  exact (KeyChain.stateAt_inj ideal.step_injective (hchains.isSeed ideal).2 hseed
    (haligned.symm.trans hkey)).2

/-! ## Staged proposals -/

/-- Each slot is empty or holds a complete proposal that leads to the next generation. -/
structure SlotsStaged (P : Primitives K C) (s : DoubleRatchetState K C) : Prop where
  incoming : s.incomingProposal.Empty ∨
    (∃ r ss, s.incomingProposal.IsFrom P r ss) ∧ s.incomingProposal.generationBump = true
  outgoing : s.outgoingProposal.Empty ∨
    (∃ r ss, s.outgoingProposal.IsFrom P r ss) ∧ s.outgoingProposal.hybridPair.isSome

/-- The incoming slot holds the same keys. -/
def SameIncomingKeys (s s' : DoubleRatchetState K C) : Prop :=
  s'.incomingProposal.rootKey = s.incomingProposal.rootKey ∧
    s'.incomingProposal.sendingChainKey = s.incomingProposal.sendingChainKey ∧
    s'.incomingProposal.receivingChainKey = s.incomingProposal.receivingChainKey ∧
    s'.incomingProposal.generationBump = s.incomingProposal.generationBump

/-- Slots that were kept or emptied are staged as before. -/
theorem SlotsStaged.of_kept (h : s.SlotsStaged P)
    (hincoming : SameIncomingKeys s s' ∨ s'.incomingProposal.Empty)
    (houtgoing : s'.outgoingProposal = s.outgoingProposal ∨ s'.outgoingProposal = {}) :
    s'.SlotsStaged P := by
  constructor
  · rcases hincoming with ⟨hroot, hsend, hrecv, hbump⟩ | hempty
    · unfold IncomingProposal.Empty IncomingProposal.IsFrom
      rw [hroot, hsend, hrecv, hbump]
      exact h.incoming
    · exact .inl hempty
  · rcases houtgoing with hkept | hdropped
    · rw [hkept]
      exact h.outgoing
    · rw [hdropped]
      exact .inl ⟨rfl, rfl, rfl⟩

/-- A new session has nothing staged. -/
theorem slotsStaged_newWithKeypair (secret : Bytes) (isInitiator : Bool) (pair : HybridKeyPair)
    (peerX25519Pk peerMlkemPk : Option Bytes) :
    (newWithKeypair P secret isInitiator pair peerX25519Pk peerMlkemPk).SlotsStaged P :=
  ⟨.inl ⟨rfl, rfl, rfl⟩, .inl ⟨rfl, rfl, rfl⟩⟩

variable {now : Clock} {payload : Option RekeyPayload} {nonce : Nonce}

/-- Deriving stages chains over the root of the session. -/
theorem Derives.slotsStaged (hderives : Derives P s nonce now payload s') (h : s.SlotsStaged P) :
    s'.SlotsStaged P := by
  cases hderives with
  | absent => exact h
  | superseded _ => exact h
  | @staged _ ss _ _ => exact ⟨.inr ⟨⟨s.rootKey, ss, rfl, rfl, rfl⟩, rfl⟩, h.outgoing⟩

variable {rnd : EncryptRandomness}

/-- So does making a proposal of our own. -/
theorem Attaches.slotsStaged {seq : ℕ} {res : Except KyberError (Option RekeyPayload)}
    (hattach : Attaches P s seq rnd now res s') (h : s.SlotsStaged P) : s'.SlotsStaged P := by
  cases hattach with
  | nothing => exact ⟨h.incoming, h.outgoing⟩
  | resend _ _ => exact ⟨h.incoming, h.outgoing⟩
  | unencapsulated _ _ _ => exact ⟨h.incoming, h.outgoing⟩
  | @propose _ _ kem _ _ _ _ =>
    exact ⟨h.incoming, .inr ⟨⟨s.rootKey, kem.combinedSharedSecret, rfl, rfl, rfl⟩, rfl⟩⟩

/-- An encryption moves the sending chain and keeps what is staged. -/
theorem EncryptStep.slotsStaged {pt : Bytes} {res : Except KyberError (RatchetEncryptedMessage C)}
    (hstep : EncryptStep P s pt rnd now res s') (h : s.SlotsStaged P) : s'.SlotsStaged P := by
  have hcount : s.countSend.SlotsStaged P := ⟨h.incoming, h.outgoing⟩
  exact hstep.preserves hcount (·.slotsStaged hcount) fun t ht => ⟨ht.incoming, ht.outgoing⟩

/-- Deciding a race keeps a slot or empties it. -/
theorem SlotsStaged.resolve (h : s.SlotsStaged P) (seq : ℕ) (hasPayload : Bool) :
    (s.resolveRekeyRaceAndAck seq hasPayload).SlotsStaged P := by
  refine h.of_kept ?_ (resolveRekeyRaceAndAck_outgoing s seq hasPayload)
  rcases resolveRekeyRaceAndAck_incoming s seq hasPayload with hkept | hemptied
  · exact .inl (by rw [SameIncomingKeys, hkept]; exact ⟨rfl, rfl, rfl, rfl⟩)
  · exact .inr (by rw [hemptied]; exact ⟨rfl, rfl, rfl⟩)

/-- Evicting stale proposals empties slots or keeps them. -/
theorem Evicts.slotsStaged (hevict : Evicts s t) (h : s.SlotsStaged P) : t.SlotsStaged P := by
  cases hevict with
  | none => exact h
  | incoming => exact h.of_kept (.inr ⟨rfl, rfl, rfl⟩) (.inl rfl)
  | outgoing => exact h.of_kept (.inl ⟨rfl, rfl, rfl, rfl⟩) (.inr rfl)
  | both => exact h.of_kept (.inr ⟨rfl, rfl, rfl⟩) (.inr rfl)

/-! ## What an operation does to the chains -/

/-- The root key, the generation and the two chains of a session. -/
def chains (s : DoubleRatchetState K C) : K × ℕ × Chain K × Chain K :=
  (s.rootKey, s.ratchetGeneration, s.send, s.recv)

/-- What an operation does to the root key, the generation and the chains. -/
inductive ChainStep (P : Primitives K C) (s : DoubleRatchetState K C) (op : Operation C) :
    K × ℕ × Chain K × Chain K → Prop
  | kept : ChainStep P s op s.chains
  | sent : ChainStep P s op (s.rootKey, s.ratchetGeneration,
      ⟨P.chain.step s.send.key, s.send.messageCount + 1⟩, s.recv)
  /-- The counter was taken and the chain did not move. -/
  | counted (hrefused : s.ratchetGeneration = u32Max ∨ ¬op.EncapsulationAccepted P s) :
      ChainStep P s op (s.rootKey, s.ratchetGeneration,
        ⟨s.send.key, s.send.messageCount + 1⟩, s.recv)
  | received (seq : ℕ) (hseq : s.recv.messageCount ≤ seq ∨ ¬op.InOrder P s) :
      ChainStep P s op (s.rootKey, s.ratchetGeneration, s.send,
        ⟨P.chain.stateAt s.recv.key (seq - s.recv.messageCount + 1), seq + 1⟩)
  | resynced (target : ℕ) (hlt : s.recv.messageCount < target) :
      ChainStep P s op (s.rootKey, s.ratchetGeneration, s.send,
        ⟨P.chain.stateAt s.recv.key (target - s.recv.messageCount), target⟩)
  /-- A proposal was committed, and a message that was opened with its chain moved it on. -/
  | entered {root k k' : K} (n : ℕ) (hlast : s.ratchetGeneration ≠ u32Max ∨ ¬op.InOrder P s)
      (hchains : InitialChains P root k k') :
      ChainStep P s op (root, saturatingSucc s.ratchetGeneration, ⟨k, 0⟩,
        ⟨P.chain.stateAt k' n, n⟩)

/-- Nothing but an encapsulation that fails keeps a payload from being chosen. -/
theorem attachRekey_error (seq : ℕ) (rnd : EncryptRandomness) (now : Clock) (e : KyberError)
    (h : (s.attachRekey P seq rnd now).1 = .error e) :
    s.shouldRekey seq = true ∧ ∃ xpk mpk, s.peerX25519Pk = some xpk ∧ s.peerMlkemPk = some mpk ∧
      encapsulateHybrid P xpk mpk rnd.encapsulation = .error e := by
  unfold attachRekey at h
  cases hfind : s.rekeyPendingConfirmQueue.find? (·.isDue now) with
  | some carrier =>
    rw [hfind] at h
    cases h
  | none =>
    rw [hfind] at h
    dsimp only at h
    rw [dropDueCarriers_of_find?_eq_none hfind] at h
    split_ifs at h with hshould
    refine ⟨hshould, ?_⟩
    unfold proposeRekey at h
    split at h
    · rename_i xpk mpk hxpk hmpk
      split at h
      · cases h
      · rename_i e' hkem
        obtain rfl := Except.error.inj h
        exact ⟨xpk, mpk, hxpk, hmpk, hkem⟩
    · cases h

/-- An encryption moves the sending chain by one unless the generation is the last one or an
encapsulation fails. -/
theorem chainStep_ratchetEncrypt {pt : Bytes}
    (hop : op.EncapsulationAccepted P s → s.EncapsulationAccepted P rnd) :
    ChainStep P s op (s.ratchetEncrypt P pt rnd now).2.chains := by
  unfold ratchetEncrypt
  dsimp only
  split_ifs with hmax
  · exact .counted (.inl hmax)
  · have herror := attachRekey_error (P := P) (s := s.countSend) s.send.messageCount rnd now
    have hattach := attachRekey_attaches P s.countSend s.send.messageCount rnd now
    generalize s.countSend.attachRekey P s.send.messageCount rnd now = r at herror hattach ⊢
    obtain ⟨res, t⟩ := r
    have hframe := hattach.frame
    dsimp only at hframe
    cases res with
    | error e =>
      rw [hframe]
      refine .counted (.inr fun haccepted => ?_)
      obtain ⟨hshould, xpk, mpk, hxpk, hmpk, hkem⟩ := herror e rfl
      have hok := hop haccepted hmax hshould xpk hxpk mpk hmpk
      rw [hkem] at hok
      cases hok
    | ok payload =>
      dsimp only
      rw [sealMessage_snd, hframe]
      exact .sent

/-- A commit of the peer's proposal enters its generation, or finds no proposal. -/
theorem chainStep_commitPendingRekey (hslots : s.SlotsStaged P)
    (hlast : s.ratchetGeneration ≠ u32Max ∨ ¬op.InOrder P s) :
    ChainStep P s op s.commitPendingRekey.chains := by
  rcases hslots.incoming with ⟨hroot, _, _⟩ | ⟨⟨r, ss, hroot, hsend, hrecv⟩, hbump⟩
  · unfold commitPendingRekey
    rw [hroot]
    exact .kept
  · rw [commitPendingRekey_eq hroot hsend hrecv]
    have hgen : (if s.incomingProposal.generationBump then saturatingSucc s.ratchetGeneration
        else s.ratchetGeneration) = saturatingSucc s.ratchetGeneration := if_pos hbump
    change ChainStep P s op (_, ite _ _ _, _, _)
    rw [hgen]
    exact .entered 0 hlast (.accepted r ss)

/-- A commit of the peer's proposal empties its slot. -/
theorem SlotsStaged.commitPendingRekey (h : s.SlotsStaged P) :
    s.commitPendingRekey.SlotsStaged P := by
  rw [commitPendingRekey_frame]
  exact h.of_kept (.inr ⟨rfl, rfl, rfl⟩) (.inl rfl)

/-- A commit of our own proposal enters its generation, or finds no proposal. -/
theorem chainStep_commitOutgoingRekey (hslots : s.SlotsStaged P)
    (hlast : s.ratchetGeneration ≠ u32Max ∨ ¬op.InOrder P s) :
    ChainStep P s op s.commitOutgoingRekey.chains := by
  rcases hslots.outgoing with hempty | ⟨⟨r, ss, hfrom⟩, hpair⟩
  · rw [commitOutgoingRekey_of_empty hempty]
    exact .kept
  · obtain ⟨pair, hpair⟩ := Option.isSome_iff_exists.1 hpair
    rw [commitOutgoingRekey_eq_of_isFrom hfrom hpair]
    exact .entered 0 hlast (.proposed r ss)

/-- A commit of our own proposal empties its slot. -/
theorem SlotsStaged.commitOutgoingRekey (h : s.SlotsStaged P) :
    s.commitOutgoingRekey.SlotsStaged P := by
  rw [commitOutgoingRekey_frame]
  exact h.of_kept (.inl ⟨rfl, rfl, rfl, rfl⟩) (.inr rfl)

/-- A delivery from the chain of the staged proposal enters its generation past the message. -/
theorem PendingDelivery.entered {c : C} {aad pt : Bytes} {key : K}
    (hdel : PendingDelivery P s nonce c aad pt s' key) (hslots : s.SlotsStaged P) :
    (∃ root k k', InitialChains P root k k' ∧
      s'.chains = (root, saturatingSucc s.ratchetGeneration, ⟨k, 0⟩,
        ⟨P.chain.stateAt k' (nonce.seq + 1), nonce.seq + 1⟩)) ∧ s'.SlotsStaged P := by
  rcases hslots.incoming with ⟨_, _, hrecv⟩ | ⟨⟨r, ss, hfrom⟩, hbump⟩
  · rw [hdel.hkey] at hrecv
    cases hrecv
  · have hstate := hdel.hstate
    rw [commitPendingRekeyWithRaceResolution_eq hfrom hbump] at hstate
    rw [hstate]
    refine ⟨⟨_, _, _, .accepted r ss, rfl⟩, hslots.of_kept (.inr ⟨rfl, rfl, rfl⟩) ?_⟩
    show (if s.outgoingProposal.rootKey.isSome then {} else s.outgoingProposal) = _ ∨
      (if s.outgoingProposal.rootKey.isSome then {} else s.outgoingProposal) = _
    split_ifs
    · exact .inr rfl
    · exact .inl rfl

/-- A decryption moves the receiving chain past its message, enters the generation of the staged
proposal, or leaves the chains alone. -/
theorem DecryptStep.chainStep {c : C} {res : Except KyberError Bytes}
    (h : DecryptStep P s nonce c payload now res s') (hslots : s.SlotsStaged P)
    (hop : op.InOrder P s → s.InOrder P nonce c payload) :
    ChainStep P s op s'.chains ∧ s'.SlotsStaged P := by
  cases h with
  | refused _ => exact ⟨.kept, hslots⟩
  | failed _ _ _ hderives =>
    refine ⟨?_, hderives.slotsStaged hslots⟩
    rw [hderives.frame]
    exact .kept
  | previous _ hdel =>
    rw [hdel.frame]
    exact ⟨.kept, hslots.of_kept (.inl ⟨rfl, rfl, rfl, rfl⟩) (.inl rfl)⟩
  | @current pt s₁ s₂ _ _ hderives hdel =>
    have hslots₂ : s₂.SlotsStaged P := by
      rw [hdel.frame]
      exact (hderives.slotsStaged hslots).of_kept (.inl ⟨rfl, rfl, rfl, rfl⟩) (.inl rfl)
    refine ⟨?_, hslots₂.resolve nonce.seq payload.isSome⟩
    rw [resolveRekeyRaceAndAck_frame]
    have hframe := hderives.frame
    generalize s₁.incomingProposal = slot at hframe
    subst hframe
    cases hdel with
    | cached _ _ => exact .kept
    | chain hgap hdec =>
      refine .received nonce.seq ?_
      -- a message below the counter was opened with the key at the counter
      by_cases hlt : nonce.seq < s.recv.messageCount
      · refine .inr fun horder => ?_
        have hclosed := hop horder hlt
        have hzero : nonce.seq - s.recv.messageCount = 0 := by omega
        dsimp only at hdec
        rw [hzero] at hdec
        rw [hdec] at hclosed
        cases hclosed
      · exact .inl (Nat.le_of_not_lt hlt)
  | @pending pt s₁ s₂ key hadmits _ hderives hdel =>
    obtain ⟨⟨root, k, k', hchains, heq⟩, hslots'⟩ := hdel.entered (hderives.slotsStaged hslots)
    have hsame : s₁.ratchetGeneration = s.ratchetGeneration := by rw [hderives.frame]
    rw [heq, hsame]
    exact ⟨.entered _ (.inl hadmits.generation_ne) hchains, hslots'⟩

/-- A resynchronisation moves the receiving chain in step with its counter, or nothing. -/
theorem chainStep_resyncReceivingChain (hslots : s.SlotsStaged P) (targetSeq : ℕ) (now : Clock) :
    ChainStep P s op (s.resyncReceivingChain P targetSeq now).2.chains ∧
      (s.resyncReceivingChain P targetSeq now).2.SlotsStaged P := by
  obtain ⟨t, hevict, ⟨e, hres⟩ | ⟨hlt, hres⟩⟩ := resyncReceivingChain_cases P s targetSeq now
  · rw [hres]
    refine ⟨?_, hevict.slotsStaged hslots⟩
    cases hevict <;> exact .kept
  · rw [hres]
    have hmoved : (t.moveReceivingChain P targetSeq).SlotsStaged P :=
      (hevict.slotsStaged hslots).of_kept (.inl ⟨rfl, rfl, rfl, rfl⟩) (.inl rfl)
    refine ⟨?_, hmoved⟩
    have hchains : (t.moveReceivingChain P targetSeq).chains =
        (t.rootKey, t.ratchetGeneration, t.send,
          ⟨P.chain.stateAt t.recv.key (targetSeq - t.recv.messageCount), targetSeq⟩) := by
      rw [← deriveSkipKeys_fst (P := P) t.recv.key t.recv.messageCount t.ratchetGeneration]
      rfl
    rw [hchains]
    cases hevict <;> exact .resynced targetSeq hlt

/-- What every operation does to the chains of a session whose slots are staged. -/
theorem perform_chainStep (hslots : s.SlotsStaged P) (op : Operation C) :
    ChainStep P s op (s.perform P op).chains ∧ (s.perform P op).SlotsStaged P := by
  have hkept : ∀ s' : DoubleRatchetState K C, SameIncomingKeys s s' →
      s'.outgoingProposal = s.outgoingProposal → s'.SlotsStaged P := fun s' hin hout =>
    hslots.of_kept (.inl hin) (.inl hout)
  -- commits at the last generation are out of order
  have hlast : (op.InOrder P s → s.ratchetGeneration ≠ u32Max) →
      s.ratchetGeneration ≠ u32Max ∨ ¬op.InOrder P s := by
    intro h
    by_cases horder : op.InOrder P s
    · exact .inl (h horder)
    · exact .inr horder
  cases op with
  | encrypt pt rnd now =>
    exact ⟨chainStep_ratchetEncrypt id, (ratchetEncrypt_step P s pt rnd now).slotsStaged hslots⟩
  | decrypt nonce c => exact (ratchetDecrypt_step P s nonce c ⟨0, 0⟩).chainStep hslots id
  | decryptWithRekey nonce c rct rx rm now =>
    exact (ratchetDecryptWithRekey_step P s nonce c rct rx rm now).chainStep hslots id
  | processRekeyAck seq =>
    show ChainStep P s _ (s.processRekeyAck seq).2.chains ∧
      (s.processRekeyAck seq).2.SlotsStaged P
    rcases processRekeyAck_cases s seq with heq | heq
    · rw [heq]
      exact ⟨chainStep_commitOutgoingRekey hslots (hlast id), hslots.commitOutgoingRekey⟩
    · rw [heq]
      exact ⟨.kept, hslots⟩
  | takePendingRekeyAckSeq => exact ⟨.kept, hkept _ ⟨rfl, rfl, rfl, rfl⟩ rfl⟩
  | peekRekeyAck rnd now =>
    show ChainStep P s _ (s.ratchetGenerateRekeyAckPeek P rnd now).2.chains ∧
      (s.ratchetGenerateRekeyAckPeek P rnd now).2.SlotsStaged P
    by_cases hencrypts : s.peekEncrypts = true
    · obtain ⟨cache, hpeek | ⟨seq, hpeek⟩⟩ := peekRekeyAck_state P s rnd now
      · rw [hpeek]
        exact ⟨.kept, hkept _ ⟨rfl, rfl, rfl, rfl⟩ rfl⟩
      · have hstaged :=
          (ratchetEncrypt_step P s (P.toJson (.rekeyAck seq)) rnd now).slotsStaged hslots
        rw [hpeek]
        exact ⟨chainStep_ratchetEncrypt fun h => h hencrypts,
          hstaged.of_kept (.inl ⟨rfl, rfl, rfl, rfl⟩) (.inl rfl)⟩
    · obtain ⟨cache, hpeek⟩ := peekRekeyAck_of_not_encrypts P hencrypts rnd now
      rw [hpeek]
      exact ⟨.kept, hkept _ ⟨rfl, rfl, rfl, rfl⟩ rfl⟩
  | consumeRekeyAck => exact ⟨.kept, hkept _ ⟨rfl, rfl, rfl, rfl⟩ rfl⟩
  | resync targetSeq now => exact chainStep_resyncReceivingChain hslots targetSeq now
  | commitPendingRekey =>
    exact ⟨chainStep_commitPendingRekey hslots (hlast id), hslots.commitPendingRekey⟩
  | commitOutgoingRekey =>
    exact ⟨chainStep_commitOutgoingRekey hslots (hlast id), hslots.commitOutgoingRekey⟩
  | cancelOutgoingRekey =>
    exact ⟨.kept, hslots.of_kept (.inl ⟨rfl, rfl, rfl, rfl⟩) (.inr rfl)⟩
  | cancelPendingIncomingRekey =>
    exact ⟨.kept, hslots.of_kept (.inr ⟨rfl, rfl, rfl⟩) (.inl rfl)⟩
  | restore now =>
    show ChainStep P s _ (fromSnapshot s.toSnapshot now).chains ∧
      (fromSnapshot s.toSnapshot now).SlotsStaged P
    rw [fromSnapshot_toSnapshot]
    exact ⟨.kept, hkept _ ⟨rfl, rfl, rfl, rfl⟩ rfl⟩

/-! ## Runs -/

/-- The chains of a new session were derived together with its root key. -/
theorem initialChains_newWithKeypair (P : Primitives K C) (secret : Bytes) (isInitiator : Bool)
    (pair : HybridKeyPair) (peerX25519Pk peerMlkemPk : Option Bytes) :
    let s : DoubleRatchetState K C :=
      newWithKeypair P secret isInitiator pair peerX25519Pk peerMlkemPk
    InitialChains P s.rootKey s.send.key s.recv.key := by
  cases isInitiator with
  | true => exact .initiator secret
  | false => exact .responder secret

variable {root : K} {gen : ℕ} {snd rcv : Chain K}

section

variable (hstep : ChainStep P s op (root, gen, snd, rcv))
include hstep

/-- Unless an encapsulation fails or the generation is the last one, the sending chain moves with
its counter, or it is the initial one of the next generation. -/
theorem ChainStep.send (hop : op.EncapsulationAccepted P s) (hmax : s.ratchetGeneration ≠ u32Max) :
    root = s.rootKey ∧ gen = s.ratchetGeneration ∧ s.send.MovesTo P snd ∨
      gen = saturatingSucc s.ratchetGeneration ∧
        ∃ k k', InitialChains P root k k' ∧ snd = ⟨k, 0⟩ := by
  cases hstep with
  | kept => exact .inl ⟨rfl, rfl, .refl _⟩
  | sent => exact .inl ⟨rfl, rfl, 1, rfl, rfl⟩
  | counted hrefused => exact absurd hop (hrefused.resolve_left hmax)
  | received => exact .inl ⟨rfl, rfl, .refl _⟩
  | resynced => exact .inl ⟨rfl, rfl, .refl _⟩
  | entered n _ hchains => exact .inr ⟨rfl, _, _, hchains, rfl⟩

/-- If the messages that it opens are in order, the receiving chain moves with its counter, or it
is one of the next generation. -/
theorem ChainStep.receive (hop : op.InOrder P s) :
    root = s.rootKey ∧ gen = s.ratchetGeneration ∧ s.recv.MovesTo P rcv ∨
      s.ratchetGeneration ≠ u32Max ∧ gen = saturatingSucc s.ratchetGeneration ∧
        ∃ k k' n, InitialChains P root k k' ∧ rcv = ⟨P.chain.stateAt k' n, n⟩ := by
  cases hstep with
  | kept => exact .inl ⟨rfl, rfl, .refl _⟩
  | sent => exact .inl ⟨rfl, rfl, .refl _⟩
  | counted => exact .inl ⟨rfl, rfl, .refl _⟩
  | received seq hseq =>
    have hle : s.recv.messageCount ≤ seq := hseq.resolve_right (not_not_intro hop)
    refine .inl ⟨rfl, rfl, seq - s.recv.messageCount + 1, rfl, ?_⟩
    show seq + 1 = _
    omega
  | resynced target hlt =>
    refine .inl ⟨rfl, rfl, target - s.recv.messageCount, rfl, ?_⟩
    show target = _
    omega
  | entered n hlast hchains =>
    exact .inr ⟨hlast.resolve_right (not_not_intro hop), rfl, _, _, n, hchains, rfl⟩

/-- An operation keeps the generation or enters the next one. -/
theorem ChainStep.generation :
    gen = s.ratchetGeneration ∨ gen = saturatingSucc s.ratchetGeneration := by
  cases hstep with
  | entered => exact .inr rfl
  | _ => exact .inl rfl

end

/-- The sending chain stays aligned unless an encapsulation fails. -/
theorem SendAligned.step (h : s.ratchetGeneration ≠ u32Max → s.SendAligned P)
    (hstep : ChainStep P s op s'.chains) (hop : op.EncapsulationAccepted P s)
    (hmax : s'.ratchetGeneration ≠ u32Max) : s'.SendAligned P := by
  -- the last generation is never left
  have hmax' : s.ratchetGeneration ≠ u32Max := by
    intro hlast
    rcases hstep.generation with hgen | hgen
    · exact hmax (hgen.trans hlast)
    · rw [hlast] at hgen
      exact hmax hgen
  rcases hstep.send hop hmax' with ⟨hroot, _, n, hkey, hcount⟩ | ⟨_, k, k', hchains, hsend⟩
  · obtain ⟨k, k', hchains, haligned⟩ := h hmax'
    refine ⟨k, k', hroot ▸ hchains, ?_⟩
    rw [hkey, hcount, haligned, KeyChain.stateAt_stateAt]
  · refine ⟨k, k', hchains, ?_⟩
    rw [hsend]
    rfl

/-- The receiving chain stays aligned if the messages that it opens are in order. -/
theorem ReceiveAligned.step (h : s.ReceiveAligned P) (hstep : ChainStep P s op s'.chains)
    (hop : op.InOrder P s) : s'.ReceiveAligned P := by
  rcases hstep.receive hop with ⟨hroot, _, n, hkey, hcount⟩ | ⟨_, _, k, k', n, hchains, hrecv⟩
  · obtain ⟨k, k', hchains, haligned⟩ := h
    refine ⟨k, k', hroot ▸ hchains, ?_⟩
    rw [hkey, hcount, haligned, KeyChain.stateAt_stateAt]
  · refine ⟨k, k', hchains, ?_⟩
    rw [hrecv]

/-- Generations are entered in order, and within one that is covered the chain moves with its
counter. -/
def Forward (P : Primitives K C) (chain : DoubleRatchetState K C → Chain K) (covered : ℕ → Prop)
    (s s' : DoubleRatchetState K C) : Prop :=
  s.ratchetGeneration ≤ s'.ratchetGeneration ∧
    (s'.ratchetGeneration = s.ratchetGeneration → covered s.ratchetGeneration →
      (chain s).MovesTo P (chain s'))

section Forward

variable {chain : DoubleRatchetState K C → Chain K} {covered : ℕ → Prop}

theorem Forward.refl (s : DoubleRatchetState K C) : Forward P chain covered s s :=
  ⟨le_rfl, fun _ _ => .refl _⟩

/-- Within a generation a chain moves on with its counter over any number of steps. -/
theorem Forward.trans {a b c : DoubleRatchetState K C} (h : Forward P chain covered a b)
    (h' : Forward P chain covered b c) : Forward P chain covered a c := by
  refine ⟨h.1.trans h'.1, fun hgen hcovered => ?_⟩
  -- no generation is left between two states of the same one
  have hab : b.ratchetGeneration = a.ratchetGeneration :=
    le_antisymm (hgen ▸ h'.1) h.1
  exact (h.2 hab hcovered).trans (h'.2 (hgen.trans hab.symm) (hab ▸ hcovered))

end Forward

section

variable (hstep : ChainStep P s op s'.chains)
include hstep

/-- The generation never falls and never passes its last value. -/
theorem ChainStep.generation_le (hle : s.ratchetGeneration ≤ u32Max) :
    s.ratchetGeneration ≤ s'.ratchetGeneration ∧ s'.ratchetGeneration ≤ u32Max := by
  rcases hstep.generation with hgen | hgen
  · rw [hgen]
    exact ⟨le_rfl, hle⟩
  · rw [hgen, saturatingSucc]
    omega

/-- If encapsulation succeeds, the sending chain moves with its counter. -/
theorem ChainStep.sendForward (hop : op.EncapsulationAccepted P s)
    (hle : s.ratchetGeneration ≤ u32Max) : Forward P (·.send) (· ≠ u32Max) s s' := by
  refine ⟨(hstep.generation_le hle).1, fun hgen hmax => ?_⟩
  rcases hstep.send hop hmax with ⟨_, _, hmoves⟩ | ⟨hnext, _⟩
  · exact hmoves
  · -- the number of the generation grows, so no chains are compared
    rw [saturatingSucc] at hnext
    omega

/-- On messages in order the receiving chain moves with its counter. -/
theorem ChainStep.receiveForward (hop : op.InOrder P s) (hle : s.ratchetGeneration ≤ u32Max) :
    Forward P (·.recv) (fun _ => True) s s' := by
  refine ⟨(hstep.generation_le hle).1, fun hgen _ => ?_⟩
  rcases hstep.receive hop with ⟨_, _, hmoves⟩ | ⟨hmax, hnext, _⟩
  · exact hmoves
  · rw [saturatingSucc] at hnext
    omega

end

/-- In every run from a fresh session in which encapsulation to the peer's keys succeeds whenever a
message proposes a rekey, the sending chain is aligned with its counter, and between two states of
one generation it has moved with it. -/
theorem send_chain_aligned (P : Primitives K C) (secret : Bytes) (isInitiator : Bool)
    (pair : HybridKeyPair) (peerX25519Pk peerMlkemPk : Option Bytes) (ops : List (Operation C))
    (hfollows : (operated P).Follows (fun s op => op.EncapsulationAccepted P s)
      (newWithKeypair P secret isInitiator pair peerX25519Pk peerMlkemPk) ops) :
    let states := fun n => ((operated P).run
      (newWithKeypair P secret isInitiator pair peerX25519Pk peerMlkemPk) (ops.take n)).2
    ((states ops.length).ratchetGeneration ≠ u32Max → (states ops.length).SendAligned P) ∧
      ∀ i j, i ≤ j → (states j).ratchetGeneration = (states i).ratchetGeneration →
        (states i).ratchetGeneration ≠ u32Max → (states i).send.MovesTo P (states j).send := by
  intro states
  constructor
  · show ((operated P).run _ (ops.take ops.length)).2.ratchetGeneration ≠ u32Max →
      ((operated P).run _ (ops.take ops.length)).2.SendAligned P
    rw [List.take_length]
    refine (Machine.run_invariant_of_follows
      (fun s => s.SlotsStaged P ∧ (s.ratchetGeneration ≠ u32Max → s.SendAligned P)) ?_
      ⟨slotsStaged_newWithKeypair .., fun _ => ?_⟩ hfollows).2
    · rintro s op ⟨hslots, haligned⟩ hop
      obtain ⟨hstep, hslots'⟩ := perform_chainStep hslots op
      exact ⟨hslots', SendAligned.step haligned hstep hop⟩
    · exact ⟨_, _, initialChains_newWithKeypair .., rfl⟩
  · intro i j hij
    refine (Machine.run_take_related (R := Forward P (·.send) (· ≠ u32Max))
      (fun s => s.SlotsStaged P ∧ s.ratchetGeneration ≤ u32Max) Forward.refl
      (fun a b c hab hbc => hab.trans hbc) ?_
      ⟨slotsStaged_newWithKeypair .., Nat.zero_le _⟩ hfollows hij).2
    · rintro s op ⟨hslots, hle⟩ hop
      obtain ⟨hstep, hslots'⟩ := perform_chainStep hslots op
      exact ⟨⟨hslots', (hstep.generation_le hle).2⟩, hstep.sendForward hop hle⟩

end DoubleRatchetState

namespace Symbolic

/-- The secret of a proposal that the initiator makes to the responder. -/
def announced : HybridKemResult :=
  (encapsulateHybrid primitives responderPair.x25519Pk responderPair.mlkemPk
    ⟨[], 5⟩).toOption.getD ⟨[], []⟩

/-- A proposal that announces a point of low order as the new X25519 key. -/
def lowOrderPayload : RekeyPayload := ⟨List.replicate 32 0, [9], announced.ciphertextBytes⟩

/-- The arrival of a message that was sealed under the given key at the given nonce. -/
def arrival (key : Key) (nonce : Nonce) (payload : Option RekeyPayload) (now : Clock) :
    Operation Ciphertext :=
  .decryptWithRekey nonce ⟨key, nonce, [], payloadAad payload⟩ (payload.map (·.ciphertext))
    (payload.map (·.x25519Pk)) (payload.map (·.mlkemPk)) now

/-- Encrypt `n` messages. -/
def encryptions (n : ℕ) : List (Operation Ciphertext) :=
  (List.range n).map fun i => .encrypt [] (randomness i) ⟨0, 0⟩

/-- The initiator announces a point of low order, the responder follows and sends up to the message
that proposes a rekey. -/
def lowOrderRun : List (Operation Ciphertext) :=
  arrival (primitives.chain.keyAt initiator.send.key 0) ⟨0, 0⟩ (some lowOrderPayload) ⟨0, 0⟩ ::
    arrival (primitives.chain.keyAt
      (primitives.nextSendChain initiator.rootKey announced.combinedSharedSecret) 0) ⟨1, 0⟩
      none ⟨0, 0⟩ ::
    encryptions 101

end Symbolic

namespace DoubleRatchetState

/-- The theorem at the symbolic initiator: the 101st message proposes a rekey and the chain has
moved 101 times. -/
theorem send_chain_aligned_past_proposal :
    let states := fun n => ((operated primitives).run initiator ((encryptions 101).take n)).2
    (states 101).outgoingProposal.rootKey.isSome = true ∧
      (states 101).SendAligned primitives ∧
      (states 0).send.MovesTo primitives (states 101).send := by
  intro states
  have haligned := send_chain_aligned primitives [7] true initiatorPair
    (some responderPair.x25519Pk) (some responderPair.mlkemPk)
    (encryptions 101) (by decide +kernel)
  exact ⟨by decide +kernel, haligned.1 (by decide +kernel),
    haligned.2 0 101 (by decide) (by decide +kernel) (by decide +kernel)⟩

/-- After a point of low order, the encryption that would propose a rekey fails with its counter
taken. -/
theorem send_chain_misaligned_by_low_order_key :
    let s := ((operated primitives).run responder lowOrderRun).2
    s.ratchetGeneration = 1 ∧ s.send.messageCount = 101 ∧ ¬s.SendAligned primitives := by
  intro s
  have hseed : primitives.chain.IsSeed (primitives.nextRecvChain
      initiator.rootKey announced.combinedSharedSecret) :=
    ideal.isSeed_nextRecvChain _ _
  have hkey : s.send.key = primitives.chain.stateAt (primitives.nextRecvChain
      initiator.rootKey announced.combinedSharedSecret) 100 := by
    decide +kernel
  have hcount : s.send.messageCount = 101 := by decide +kernel
  refine ⟨by decide +kernel, hcount, fun haligned => ?_⟩
  have hequal := haligned.count_eq ideal hseed hkey
  rw [hcount] at hequal
  cases hequal

/-- In every run from a fresh session in which no message numbered below the receive counter opens
under the key at the counter and no commit is made at the last generation, the receiving chain is
aligned with its counter, and within a generation it moves forward with it. -/
theorem receive_chain_aligned (P : Primitives K C) (secret : Bytes) (isInitiator : Bool)
    (pair : HybridKeyPair) (peerX25519Pk peerMlkemPk : Option Bytes) (ops : List (Operation C))
    (hfollows : (operated P).Follows (fun s op => op.InOrder P s)
      (newWithKeypair P secret isInitiator pair peerX25519Pk peerMlkemPk) ops) :
    let states := fun n => ((operated P).run
      (newWithKeypair P secret isInitiator pair peerX25519Pk peerMlkemPk) (ops.take n)).2
    (states ops.length).ReceiveAligned P ∧
      ∀ i j, i ≤ j → (states j).ratchetGeneration = (states i).ratchetGeneration →
        (states i).recv.messageCount ≤ (states j).recv.messageCount ∧
          (states i).recv.MovesTo P (states j).recv := by
  intro states
  constructor
  · show ((operated P).run _ (ops.take ops.length)).2.ReceiveAligned P
    rw [List.take_length]
    refine (Machine.run_invariant_of_follows (fun s => s.SlotsStaged P ∧ s.ReceiveAligned P) ?_
      ⟨slotsStaged_newWithKeypair .., ?_⟩ hfollows).2
    · rintro s op ⟨hslots, haligned⟩ hop
      obtain ⟨hstep, hslots'⟩ := perform_chainStep hslots op
      exact ⟨hslots', haligned.step hstep hop⟩
    · exact ⟨_, _, initialChains_newWithKeypair .., rfl⟩
  · intro i j hij hgen
    have hforward : Forward P (·.recv) (fun _ => True) (states i) (states j) := by
      refine Machine.run_take_related
        (fun s => s.SlotsStaged P ∧ s.ratchetGeneration ≤ u32Max) Forward.refl
        (fun a b c hab hbc => hab.trans hbc) ?_
        ⟨slotsStaged_newWithKeypair .., Nat.zero_le _⟩ hfollows hij
      · rintro s op ⟨hslots, hle⟩ hop
        obtain ⟨hstep, hslots'⟩ := perform_chainStep hslots op
        exact ⟨⟨hslots', (hstep.generation_le hle).2⟩, hstep.receiveForward hop hle⟩
    have hmoves : (states i).recv.MovesTo P (states j).recv := hforward.2 hgen trivial
    obtain ⟨n, hkey, hcount⟩ := hmoves
    exact ⟨by omega, n, hkey, hcount⟩

end DoubleRatchetState

namespace Symbolic

/-- The first two messages of the initiator, and a third one that is numbered 0 in the next
generation. -/
def undercutRun : List (Operation Ciphertext) :=
  [arrival (primitives.chain.keyAt initiator.send.key 0) ⟨0, 0⟩ none ⟨0, 0⟩,
    arrival (primitives.chain.keyAt initiator.send.key 1) ⟨0, 1⟩ none ⟨0, 0⟩,
    arrival (primitives.chain.keyAt initiator.send.key 2) ⟨1, 0⟩ none ⟨0, 0⟩]

end Symbolic

namespace DoubleRatchetState

/-- The theorem at the symbolic responder: two messages in order. -/
theorem receive_chain_aligned_in_order :
    let states := fun n => ((operated primitives).run responder ((undercutRun.take 2).take n)).2
    (states 2).recv.messageCount = 2 ∧ (states 2).ReceiveAligned primitives ∧
      (states 1).recv.messageCount ≤ (states 2).recv.messageCount := by
  intro states
  have haligned := receive_chain_aligned primitives [7] false responderPair
    (some initiatorPair.x25519Pk) (some initiatorPair.mlkemPk)
    (undercutRun.take 2) (by decide +kernel)
  exact ⟨by decide +kernel, haligned.1, (haligned.2 1 2 (by decide) (by decide +kernel)).1⟩

/-- A message sealed under the number 0 of the next generation moves the chain on and the counter
back. -/
theorem receive_chain_misaligned_by_low_number :
    let states := fun n => ((operated primitives).run responder (undercutRun.take n)).2
    (states 3).ratchetGeneration = (states 2).ratchetGeneration ∧
      (states 3).recv.messageCount < (states 2).recv.messageCount ∧
      ¬(states 3).ReceiveAligned primitives := by
  intro states
  have hseed : primitives.chain.IsSeed initiator.send.key :=
    ideal.isSeed_of_info_ne (by decide)
  have hkey : (states 3).recv.key =
      primitives.chain.stateAt initiator.send.key 3 := by
    decide +kernel
  have hcount : (states 3).recv.messageCount = 1 := by decide +kernel
  refine ⟨by decide +kernel, by decide +kernel, fun haligned => ?_⟩
  have hequal := haligned.count_eq ideal hseed hkey
  rw [hcount] at hequal
  cases hequal

end DoubleRatchetState

end KyberPipe
