import KyberPipe.Pair.HonestRuns

/-!
# The first message of a new generation

The peer has committed a proposal that the receiver still holds as its staged one. The first message
of the new generation to arrive moves the receiver along if and only if it carries no rekey payload
of its own: a payload is staged before the message is opened and takes the place of the proposal
that would open it.
-/

namespace KyberPipe

open Symbolic

variable {K C : Type}

namespace DoubleRatchetState

variable {P : Primitives K C} {s t : DoubleRatchetState K C}

/-! ## Positions of generations to come -/

/-- Every recorded delivery is of a generation up to the current one. -/
def SeenFits (s : DoubleRatchetState K C) : Prop :=
  ∀ e ∈ s.replayWindow.seen, e.1 ≤ s.ratchetGeneration

theorem SeenFits.record (w : ReplayWindow) (g seq : ℕ) (hseen : s.SeenFits)
    (hwindow : ∀ e ∈ t.replayWindow.seen, e ∈ (w.recordDelivered g seq).seen)
    (hw : w.seen = s.replayWindow.seen) (hgen : t.ratchetGeneration = s.ratchetGeneration)
    (hg : g ≤ s.ratchetGeneration) : t.SeenFits := by
  intro e he
  rw [hgen]
  rcases mem_seen_of_recordDelivered (hwindow e he) with rfl | hold
  · exact hg
  · exact hseen e (hw ▸ hold)

variable {h : KeyHistory K}

/-- Opening a message records a generation up to the current one. -/
theorem SeenFits.opens {nonce : Nonce} {key : K} (hfit : s.KeysFit P h) (hseen : s.SeenFits)
    (hopens : Opens P s nonce key t) : t.SeenFits := by
  have hprevious : s.previousRecvGen = some nonce.generation → s.previousRecvChainKey.isSome →
      nonce.generation ≤ s.ratchetGeneration := by
    intro hgen hck
    obtain ⟨ck, hck⟩ := Option.isSome_iff_exists.1 hck
    exact (hfit.previous ck _ hck hgen).1.le
  cases hopens with
  | previousCached hgen hck _ hsame =>
    refine hseen.record s.replayWindow _ nonce.seq (fun e he => ?_) rfl hsame.generation
      (hprevious hgen hck)
    rw [hsame.window] at he
    exact he
  | previousChain hgen hck _ _ hsame =>
    refine hseen.record (s.replayWindow.raiseWatermark nonce.seq) _ nonce.seq (fun e he => ?_) rfl
      hsame.generation (hprevious hgen (by rw [hck]; rfl))
    rw [hsame.window] at he
    exact he
  | cached _ hkey hsame =>
    refine hseen.record s.replayWindow _ nonce.seq (fun e he => ?_) rfl hsame.generation
      (hfit.cache _ _ hkey).1
    rw [hsame.window] at he
    exact he
  | chain _ hsame =>
    refine hseen.record s.replayWindow _ nonce.seq (fun e he => ?_) rfl hsame.generation le_rfl
    rw [hsame.window] at he
    exact (Finset.mem_filter.1 he).1

/-- Every elementary step of a reachable session records only generations it has reached. -/
theorem Evolves.seenFits (hspent : s.Spent P ∅) (hseen : s.SeenFits) (hstep : Evolves P s t) :
    t.SeenFits := by
  have hsame : SameReceive s t → t.SeenFits := by
    intro h e he
    rw [h.window] at he
    rw [h.generation]
    exact hseen e he
  cases hstep with
  | encrypt hstep => exact hsame hstep.sameReceive
  | @decrypt nonce c payload now res _ hstep =>
    cases res with
    | error e => exact hsame hstep.sameReceive_of_error
    | ok pt =>
      obtain ⟨h, _, hfit⟩ := hspent.2.resolve_left hstep.generation_ne
      rcases hstep.opens with ⟨key, _, hopens⟩ | ⟨s₁, seed, _, hderives, hdel⟩
      · exact hseen.opens hfit hopens
      · -- a commit starts with an empty window
        have hslots := hderives.slotsFit hfit.slots
        obtain ⟨r, ss, hfrom, _⟩ := hslots.isFrom_of_pendingDelivery hdel
        have hbump := (hderives.advances.bumps hspent.1).incoming (by rw [hfrom.1]; rfl)
        intro e he
        rw [hdel.hstate, commitPendingRekeyWithRaceResolution_eq hfrom hbump] at he ⊢
        rcases mem_seen_of_recordDelivered he with rfl | hold
        · exact le_rfl
        · cases hold
  | commitOutgoing =>
    unfold commitOutgoingRekey
    split
    · rintro e ⟨⟩
    · exact hseen
  | resync targetSeq now =>
    rw [resyncReceivingChain_frame]
    exact hseen
  | ackState pending carrier cache => exact hseen

section Ideal

variable (ideal : P.Ideal)
include ideal

theorem Reachable.seenFits (hreach : s.Reachable P) : s.SeenFits := by
  obtain ⟨secret, isInitiator, seed, peerXpk, peerMpk, hsteps⟩ := hreach
  induction hsteps with
  | refl => rintro e ⟨⟩
  | tail hsteps hstep ih =>
    exact hstep.seenFits (EvolvesStar.spent ideal (spent_newWithKeypair ideal _ _ _ _ _) hsteps) ih

end Ideal

/-! ## Messages of the next generation -/

variable {ss : Bytes}

/-- The chain of the staged proposal is not the current receiving chain. -/
theorem KeysFit.staged_ne (hfit : s.KeysFit P h) {r : K}
    (hfrom : s.incomingProposal.IsFrom P r ss) :
    P.nextSendChain r ss ≠ h.seed s.ratchetGeneration := by
  rcases hfit.slots.incoming with hempty | ⟨r', ss', hfrom', hnew, _⟩
  · exact absurd hempty hfrom.not_empty
  · rw [Option.some.inj (hfrom'.2.2.symm.trans hfrom.2.2)] at hnew
    exact fun heq => hnew ⟨_, le_rfl, heq.symm⟩

variable {c : C}

/-- The chain of the staged proposal opens a message that the current chain refuses. -/
theorem openCurrent_of_pending (nonce : Nonce) {aad pt : Bytes} {key : K} {e : KyberError}
    (hcache : s.skipMessageKeys.lookup (nonce.generation, nonce.seq) = none)
    (hchain : s.tryDecryptWithChain P nonce.seq nonce c aad = (.error e, s))
    (hkey : s.incomingProposal.receivingChainKey = some key) (hgap : nonce.seq ≤ s.maxSkip)
    (hdec : decryptChacha20 P (P.chain.keyAt key nonce.seq) nonce c aad = .ok pt)
    (hasPayload : Bool) :
    ∃ out t, s.openCurrent P nonce.generation nonce.seq nonce c aad hasPayload =
      (.ok (pt, out), t) := by
  simp only [openCurrent, tryDecryptWithCachedKey_none.2 hcache, hchain, tryPendingChain, hkey,
    deriveTentativeMsgKey, Nat.sub_zero, if_neg (Nat.not_lt.2 hgap), hdec, deliverPending_eq hgap]
  exact ⟨_, _, rfl⟩

section Ideal

variable (ideal : P.Ideal)
include ideal

/-- A message of the next generation is accepted only with the chain of the proposal that is
staged after its own payload was derived. -/
theorem DecryptStep.pending_of_next (hfit : s.KeysFit P h) {k : K} (hk : P.chain.IsSeed k)
    (hne : k ≠ h.seed s.ratchetGeneration) {i : ℕ} {pt pt' : Bytes} {payload : Option RekeyPayload}
    {now : Clock}
    (hseal : P.aeadSeal (P.chain.keyAt k i) ⟨s.ratchetGeneration + 1, i⟩ pt (payloadAad payload) =
      some c) (hstep : DecryptStep P s ⟨s.ratchetGeneration + 1, i⟩ c payload now (.ok pt') t) :
    ∃ s₁, Derives P s ⟨s.ratchetGeneration + 1, i⟩ now payload s₁ ∧
      PendingDelivery P s₁ ⟨s.ratchetGeneration + 1, i⟩ c (payloadAad payload) pt' t k := by
  rcases hstep.opens with ⟨key, hdec, hopens⟩ | ⟨s₁, seed, _, hderives, hdel⟩
  · have hkey := key_eq_of_decryptChacha20 ideal hseal hdec
    exfalso
    cases hopens with
    | previousCached hgen hck _ _ =>
      obtain ⟨ck, hck⟩ := Option.isSome_iff_exists.1 hck
      exact absurd (hfit.previous ck _ hck hgen).1 (by simp)
    | previousChain hgen hck _ _ _ => exact absurd (hfit.previous _ _ hck hgen).1 (by simp)
    | cached _ hlookup _ =>
      rw [hfit.lookup_next] at hlookup
      cases hlookup
    | chain _ _ =>
      rw [hfit.recv, KeyChain.keyAt_stateAt] at hkey
      exact hne (ideal.keyAt_inj (hfit.isSeed _ le_rfl) hk hkey).1.symm
  · have hkey := key_eq_of_decryptChacha20 ideal hseal hdel.hdec
    obtain ⟨r, ss, _, rfl⟩ := (hderives.slotsFit hfit.slots).isFrom_of_pendingDelivery hdel
    obtain ⟨rfl, _⟩ := ideal.keyAt_inj (ideal.isSeed_nextSendChain r ss) hk hkey
    exact ⟨s₁, hderives, hdel⟩

/-- A message of the next generation without a payload is accepted with the chain of the staged
proposal, and the session adopts that proposal. -/
theorem receive_next (hreach : s.Reachable P) {r : K} (hfrom : s.incomingProposal.IsFrom P r ss)
    (hlt : s.ratchetGeneration + 1 < u32Max) {i : ℕ} (hgap : i ≤ s.maxSkip) {pt : Bytes}
    (hseal : P.aeadSeal (P.chain.keyAt (P.nextSendChain r ss) i) ⟨s.ratchetGeneration + 1, i⟩ pt
      (payloadAad none) = some c) (now : Clock) :
    ∃ t, s.receive P (messageOf ⟨s.ratchetGeneration + 1, i⟩ c none) now = (.ok pt, t) ∧
      t.ratchetGeneration = s.ratchetGeneration + 1 ∧ t.rootKey = P.nextRootKey r ss ∧
      t.send = ⟨P.nextRecvChain r ss, 0⟩ ∧
      t.recv = ⟨P.chain.stateAt (P.nextSendChain r ss) (i + 1), i + 1⟩ := by
  have hspent := hreach.spent ideal
  have hmax : s.ratchetGeneration ≠ u32Max := by omega
  obtain ⟨h, _, hfit⟩ := hspent.2.resolve_left hmax
  have hne := hfit.staged_ne hfrom
  have hseed := ideal.isSeed_nextSendChain r ss
  have hsucc : saturatingSucc s.ratchetGeneration = s.ratchetGeneration + 1 :=
    saturatingSucc_of_lt (by omega)
  have haccept : ∃ t, s.receive P (messageOf ⟨s.ratchetGeneration + 1, i⟩ c none) now =
      (.ok pt, t) := by
    rw [receive_messageOf]
    refine decryptPayload_of_openCurrent ⟨hmax, .inr (.inl hsucc.symm), ?_⟩
      (dispatchPreviousGeneration_of_ne ?_) (by rintro p ⟨⟩) ?_
    · intro hseen
      have := hreach.seenFits ideal _ hseen
      simp at this
    · intro hck heq
      obtain ⟨ck, hck⟩ := Option.isSome_iff_exists.1 hck
      cases hprev : s.previousRecvGen with
      | none =>
        rw [hprev] at heq
        exact absurd heq hlt.ne
      | some g =>
        rw [hprev] at heq
        have heq : s.ratchetGeneration + 1 = g := heq
        have := (hfit.previous ck g hck hprev).1
        omega
    · rintro s₁ ⟨⟩
      rcases tryDecryptWithChain_cases P s ⟨s.ratchetGeneration + 1, i⟩ c (payloadAad none) with
        ⟨e, hchain⟩ | ⟨pt', _, hdec, _⟩
      · exact openCurrent_of_pending ⟨s.ratchetGeneration + 1, i⟩ (hfit.lookup_next i) hchain
          hfrom.2.2 hgap (decryptChacha20_of_seal ideal hseal) _
      · -- the current chain has other keys
        have hkey := key_eq_of_decryptChacha20 ideal hseal hdec
        rw [hfit.recv, KeyChain.keyAt_stateAt] at hkey
        exact absurd (ideal.keyAt_inj (hfit.isSeed _ le_rfl) hseed hkey).1.symm hne
  obtain ⟨t, ht⟩ := haccept
  refine ⟨t, ht, ?_⟩
  have hstep := decryptPayload_step P s ⟨s.ratchetGeneration + 1, i⟩ c none now
  rw [← receive_messageOf, ht] at hstep
  dsimp only at hstep
  obtain ⟨s₁, hderives, hdel⟩ := hstep.pending_of_next ideal hfit hseed hne hseal
  cases hderives
  have hbump := hspent.1.incoming (by rw [hfrom.1]; rfl)
  rw [hdel.hstate, commitPendingRekeyWithRaceResolution_eq hfrom hbump]
  exact ⟨hsucc, rfl, rfl, rfl⟩

/-- A message of the next generation with a payload is refused if the payload does not
decapsulate to the secret of the staged proposal. -/
theorem not_receive_next (hreach : s.Reachable P) {r : K} (hfrom : s.incomingProposal.IsFrom P r ss)
    (hmax : s.ratchetGeneration ≠ u32Max) {payload : RekeyPayload} {i : ℕ} {pt pt' : Bytes}
    {now : Clock}
    (hseal : P.aeadSeal (P.chain.keyAt (P.nextSendChain r ss) i) ⟨s.ratchetGeneration + 1, i⟩ pt
      (payloadAad (some payload)) = some c)
    (hcurrent : s.carrierSuperseded (s.ratchetGeneration + 1) = false)
    (hsecret : s.decapsulateRekey P payload.ciphertext ≠ some ss) :
    s.receive P (messageOf ⟨s.ratchetGeneration + 1, i⟩ c (some payload)) now ≠ (.ok pt', t) := by
  intro hok
  obtain ⟨h, _, hfit⟩ := (hreach.spent ideal).2.resolve_left hmax
  have hstep := decryptPayload_step P s ⟨s.ratchetGeneration + 1, i⟩ c (some payload) now
  rw [← receive_messageOf, hok] at hstep
  obtain ⟨s₁, hderives, hdel⟩ := hstep.pending_of_next ideal hfit
    (ideal.isSeed_nextSendChain r ss) (hfit.staged_ne hfrom) hseal
  cases hderives with
  | superseded hsup => exact absurd hsup (by rw [hcurrent]; simp)
  | staged _ hss =>
    -- the payload was staged over the old root
    have hchain : P.nextSendChain s.rootKey _ = P.nextSendChain r ss := Option.some.inj hdel.hkey
    obtain ⟨_, rfl⟩ := nextSendChain_inj ideal hchain
    exact hsecret hss

end Ideal

/-- `y` holds as its staged incoming proposal what `s` has committed: the root of `s`, and the two
chains of `s` with the roles swapped. -/
structure HoldsCommitted (P : Primitives K C) (y s : DoubleRatchetState K C) : Prop where
  root : y.incomingProposal.rootKey = some s.rootKey
  send : ∃ k, y.incomingProposal.receivingChainKey = some k ∧
    s.send.key = P.chain.stateAt k s.send.messageCount
  recv : ∃ k, y.incomingProposal.sendingChainKey = some k ∧
    s.recv.key = P.chain.stateAt k s.recv.messageCount

instance [DecidableEq K] (P : Primitives K C) (y s : DoubleRatchetState K C) :
    Decidable (HoldsCommitted P y s) :=
  decidable_of_iff (y.incomingProposal.rootKey = some s.rootKey ∧
      (∃ k ∈ y.incomingProposal.receivingChainKey,
        s.send.key = P.chain.stateAt k s.send.messageCount) ∧
      ∃ k ∈ y.incomingProposal.sendingChainKey, s.recv.key = P.chain.stateAt k s.recv.messageCount)
    ⟨fun ⟨hroot, hsend, hrecv⟩ => ⟨hroot, hsend, hrecv⟩,
      fun ⟨hroot, hsend, hrecv⟩ => ⟨hroot, hsend, hrecv⟩⟩

/-- `t` and `s` have one root and swapped chains. -/
structure Matches (P : Primitives K C) (t s : DoubleRatchetState K C) : Prop where
  generation : t.ratchetGeneration = s.ratchetGeneration
  root : t.rootKey = s.rootKey
  recv : ∃ k, s.send.key = P.chain.stateAt k s.send.messageCount ∧
    t.recv.key = P.chain.stateAt k t.recv.messageCount
  send : ∃ k, s.recv.key = P.chain.stateAt k s.recv.messageCount ∧
    t.send.key = P.chain.stateAt k t.send.messageCount

end DoubleRatchetState

namespace Pair

open DoubleRatchetState

variable {P : Primitives K C} {p : Pair K C} {l : Role → Ledger K} {x : Role}

/-- The proposal that the receiver holds is of the generation before, with which the peer entered
the new one. -/
theorem Keeps.staged_of_old_offer (ideal : P.Ideal) (kem : P.KemCorrect) (hkeeps : p.Keeps P l)
    {g n : ℕ} {r : K} {ss xsk msk : Bytes} {o : Offer}
    (hgen : (p.party x).session.ratchetGeneration = g + 1) (ho : (n, o) ∈ (l x).offers)
    (hss : decapsulateHybrid P o.payload.ciphertext xsk msk = .ok ss)
    (hseed : (l x).seed (g + 1) = P.nextSendChain r ss) : n = g := by
  rcases (hkeeps.fits x).seeds g (by omega) with ⟨r', o', ho', hsend⟩ | ⟨r', ss', hrecv⟩
  · obtain ⟨_, rfl⟩ := nextSendChain_inj ideal (hseed.symm.trans hsend)
    obtain ⟨_, _, hss'⟩ := (hkeeps.valid ho').exists_decapsulate kem
    have hcoins := (hkeeps.valid ho).coins_eq kem (hkeeps.valid ho') hss hss'
    exact (hkeeps.coins x n o x g o' ho ho' hcoins).2.1
  · exact absurd (hseed.symm.trans hrecv) (nextSendChain_ne_nextRecvChain ideal _ _ _ _)

/-- In every honest run, let the peer of a receiver be one generation ahead with a proposal that the
receiver holds as its staged one. A message that the peer has sent in the new generation, at a
position up to `maxSkip`, is accepted as the first one to arrive and moves the receiver to the
peer's generation, root and chains, if and only if it carries no rekey payload. -/
theorem new_generation_completeness (ideal : P.Ideal) (kem : P.KemCorrect)
    (hrun : Reached P (fun p a => p.Honest a.2) p)
    (hahead : (p.party x).session.ratchetGeneration =
      (p.party x.peer).session.ratchetGeneration + 1)
    (hholds : HoldsCommitted P (p.party x.peer).session (p.party x).session) {e : Packet C}
    (he : e ∈ (p.party x).sent)
    (hgen : e.msg.nonce.generation = (p.party x).session.ratchetGeneration)
    (hgap : e.msg.nonce.seq ≤ (p.party x.peer).session.maxSkip) (now : Clock) :
    (∃ t, (p.party x.peer).session.receive P e.msg now = (.ok e.plaintext, t) ∧
        t.Matches P (p.party x).session) ↔ e.msg.rekeyCiphertext = none := by
  obtain ⟨l, hkeeps⟩ := hrun.keeps ideal kem (fun _ _ h => h)
  have hreach := hkeeps.reachable x.peer
  have hfits := hkeeps.fits x.peer
  rw [Role.peer_peer] at hfits
  obtain ⟨⟨g, i⟩, c, payload, hmsg, _, hmax, hseal, hoffer⟩ := hkeeps.logged x e he
  rw [hmsg] at hgen hgap ⊢
  obtain rfl : g = (p.party x).session.ratchetGeneration := hgen
  dsimp only at hmax hseal hoffer
  have hgap : i ≤ (p.party x.peer).session.maxSkip := hgap
  -- the proposal that the receiver holds opens the peer's chain of the new generation
  obtain ⟨k, hk, hsend⟩ := hholds.send
  obtain ⟨n, o, r, ss, xsk, msk, ho, hn, hfrom, hss, _⟩ := hfits.incoming.resolve_left
    fun hempty => absurd (hholds.root.symm.trans hempty.1) (by simp)
  obtain rfl := Option.some.inj (hfrom.2.2.symm.trans hk)
  have hseed : (l x).seed (p.party x).session.ratchetGeneration = P.nextSendChain r ss :=
    KeyChain.stateAt_left_inj ideal.step_injective (((hkeeps.fits x).send hmax).symm.trans hsend)
  obtain ⟨k, hk', hrecv⟩ := hholds.recv
  obtain rfl := Option.some.inj (hfrom.2.1.symm.trans hk')
  have hroot : P.nextRootKey r ss = (p.party x).session.rootKey :=
    Option.some.inj (hfrom.1.symm.trans hholds.root)
  have hlt : (p.party x.peer).session.ratchetGeneration + 1 < u32Max :=
    hahead ▸ lt_of_le_of_ne (hkeeps.bumps ideal x).generation_le hmax
  rw [hseed, hahead] at hseal
  rw [hahead] at hseed hoffer
  cases payload with
  | none =>
    refine iff_of_true ?_ rfl
    obtain ⟨t, ht, hgen, hroot', hsend', hrecv'⟩ :=
      receive_next ideal hreach hfrom hlt hgap hseal now
    refine ⟨t, hahead ▸ ht, hgen.trans hahead.symm, hroot'.trans hroot, ⟨_, hsend, ?_⟩,
      ⟨_, hrecv, ?_⟩⟩
    · rw [hrecv']
    · rw [hsend']
      rfl
  | some payload =>
    refine iff_of_false ?_ (by simp [messageOf])
    rintro ⟨t, ht, _⟩
    obtain rfl := hkeeps.staged_of_old_offer ideal kem hahead ho hss hseed
    obtain ⟨o', ho', rfl⟩ := hoffer payload rfl
    rw [hahead] at ht
    refine not_receive_next ideal hreach hfrom (by omega) hseal ?_ ?_ ht
    · simp [carrierSuperseded, hn]
    · -- the two offers were made with different coins
      intro hss'
      obtain ⟨_, _, hdec⟩ := exists_decapsulateHybrid hss'
      have hcoins := (hkeeps.valid ho).coins_eq kem (hkeeps.valid ho') hss hdec
      have hsame := (hkeeps.coins _ _ _ _ _ _ ho ho' hcoins).2.1
      omega

/-- The first message of the new generation is accepted after the responder has received only the
carrier. -/
theorem new_generation_completeness_first_message : ∃ p e,
    Reached primitives (fun p a => p.Honest a.2) p ∧
    e ∈ (p.party .initiator).sent ∧ e.msg.nonce = ⟨1, 0⟩ ∧
    ∃ t, (p.party .responder).session.receive primitives e.msg ⟨0, 0⟩ =
        (.ok e.plaintext, t) ∧ t.Matches primitives (p.party .initiator).session := by
  have hrun := reached_after (fun p a => p.Honest a.2)
    (rekeyed ++ sends 101 1) (by decide +kernel)
  have hfacts : let p := after (rekeyed ++ sends 101 1)
      (p.party .initiator).session.ratchetGeneration =
        (p.party .responder).session.ratchetGeneration + 1 ∧
      HoldsCommitted primitives (p.party .responder).session
        (p.party .initiator).session ∧
      ∃ e ∈ (p.party .initiator).sent, e.msg.nonce = ⟨1, 0⟩ ∧
        e.msg.nonce.generation = (p.party .initiator).session.ratchetGeneration ∧
        e.msg.nonce.seq ≤ (p.party .responder).session.maxSkip ∧
        e.msg.rekeyCiphertext = none := by
    decide +kernel
  generalize after (rekeyed ++ sends 101 1) = p at hrun hfacts
  obtain ⟨hahead, hholds, e, he, hnonce, hgen, hgap, hnone⟩ := hfacts
  exact ⟨p, e, hrun, he, hnonce, (new_generation_completeness (x := .initiator) ideal
    kemCorrect hrun hahead hholds he hgen hgap ⟨0, 0⟩).2 hnone⟩

/-- The 101st message of the new generation carries a fresh proposal. If it arrives first it is
refused and the responder stays behind. -/
theorem new_generation_completeness_fails_for_carrier : ∃ p e,
    Reached primitives (fun p a => p.Honest a.2) p ∧
    (p.party .initiator).session.ratchetGeneration =
      (p.party .responder).session.ratchetGeneration + 1 ∧
    HoldsCommitted primitives (p.party .responder).session
      (p.party .initiator).session ∧
    e ∈ (p.party .initiator).sent ∧ e.msg.nonce = ⟨1, 100⟩ ∧
    e.msg.nonce.seq ≤ (p.party .responder).session.maxSkip ∧
    ((p.party .responder).session.receive primitives e.msg ⟨0, 0⟩).1.isOk = false ∧
    ((p.party .responder).session.receive primitives e.msg
      ⟨0, 0⟩).2.ratchetGeneration = 0 := by
  refine ⟨after (rekeyed ++ sends 101 101), ?_⟩
  have hrun := reached_after (fun p a => p.Honest a.2)
    (rekeyed ++ sends 101 101) (by decide +kernel)
  have hfacts : let p := after (rekeyed ++ sends 101 101)
      (p.party .initiator).session.ratchetGeneration =
        (p.party .responder).session.ratchetGeneration + 1 ∧
      HoldsCommitted primitives (p.party .responder).session
        (p.party .initiator).session ∧
      ∃ e ∈ (p.party .initiator).sent, e.msg.nonce = ⟨1, 100⟩ ∧
        e.msg.nonce.seq ≤ (p.party .responder).session.maxSkip ∧
        ((p.party .responder).session.receive primitives e.msg ⟨0, 0⟩).1.isOk = false ∧
        ((p.party .responder).session.receive primitives e.msg
          ⟨0, 0⟩).2.ratchetGeneration = 0 := by
    decide +kernel
  generalize after (rekeyed ++ sends 101 101) = p at hrun hfacts ⊢
  obtain ⟨hahead, hholds, e, he, hrest⟩ := hfacts
  exact ⟨e, hrun, hahead, hholds, he, hrest⟩

end Pair

end KyberPipe
