import KyberPipe.Pair.System

/-!
# What the ends of a pairing have sent and proposed

A ledger records, for one end, the seed of its sending chain and the rekey offers it made in
every generation. In every honest run each packet is sealed under the chain of its generation
and carries an offer of its generation, each staged proposal comes from an offer, and no two
offers share their coins.
-/

namespace KyberPipe

variable {K C : Type}

/-! ## Offers -/

/-- A rekey proposal as its proposer made it. -/
structure Offer where
  payload : RekeyPayload
  secret : Bytes
  pair : HybridKeyPair
  coins : BitVec 256

namespace Offer

/-- The outgoing slot of the proposer, over root `root`. -/
def staged (P : Primitives K C) (root : K) (o : Offer) : OutgoingProposal K where
  rootKey := some (P.nextRootKey root o.secret)
  sendingChainKey := some (P.nextSendChain root o.secret)
  receivingChainKey := some (P.nextRecvChain root o.secret)
  hybridPair := some o.pair
  rekeyPayload := some o.payload

/-- The offer announces a generated key pair and encapsulates its secret, with its coins, to
another generated key pair. -/
structure Valid (P : Primitives K C) (o : Offer) : Prop where
  pair : ∃ seed, o.pair = generateHybridKeypair P seed
  x25519Pk : o.payload.x25519Pk = o.pair.x25519Pk
  mlkemPk : o.payload.mlkemPk = o.pair.mlkemPk
  encapsulated : ∃ target seed, encapsulateHybrid P (generateHybridKeypair P target).x25519Pk
    (generateHybridKeypair P target).mlkemPk seed = .ok ⟨o.payload.ciphertext, o.secret⟩ ∧
      seed.mlkemCoins = o.coins

variable {P : Primitives K C} {o o' : Offer}

theorem isFrom_staged (P : Primitives K C) (root : K) (o : Offer) :
    (o.staged P root).IsFrom P root o.secret :=
  ⟨rfl, rfl, rfl⟩

theorem Valid.exists_decapsulate (kem : P.KemCorrect) (ho : o.Valid P) :
    ∃ xsk msk, decapsulateHybrid P o.payload.ciphertext xsk msk = .ok o.secret := by
  obtain ⟨target, seed, hkem, _⟩ := ho.encapsulated
  exact ⟨_, _, kem.decapsulateHybrid_of_encapsulateHybrid hkem⟩

/-- The coins of an offer are fixed by the ML-KEM part of its ciphertext. -/
theorem Valid.drop_ciphertext (kem : P.KemCorrect) (ho : o.Valid P) :
    ∃ pk, o.payload.ciphertext.drop 32 = (P.mlkemEncapsulate pk o.coins).2 := by
  obtain ⟨target, seed, hkem, hcoins⟩ := ho.encapsulated
  rw [kem.encapsulateHybrid_generate] at hkem
  have hct := congrArg HybridKemResult.ciphertextBytes (Except.ok.inj hkem)
  dsimp only at hct
  refine ⟨(P.mlkemKeypair target.mlkemSeed).1, ?_⟩
  rw [← hcoins, ← hct]
  exact List.drop_left' (kem.x25519Public_length _)

/-- Two offers that decapsulate to one secret have the same coins. -/
theorem Valid.coins_eq (kem : P.KemCorrect) (ho : o.Valid P) (ho' : o'.Valid P)
    {xsk msk xsk' msk' ss : Bytes} (h : decapsulateHybrid P o.payload.ciphertext xsk msk = .ok ss)
    (h' : decapsulateHybrid P o'.payload.ciphertext xsk' msk' = .ok ss) : o.coins = o'.coins := by
  obtain ⟨pk, hct⟩ := ho.drop_ciphertext kem
  obtain ⟨pk', hct'⟩ := ho'.drop_ciphertext kem
  have heq := kem.drop_eq_of_decapsulateHybrid h h'
  rw [hct, hct'] at heq
  exact kem.mlkemEncapsulate_fresh heq

end Offer

/-! ## Ledgers -/

/-- The seeds of the sending chains of one end and its offers, by generation. -/
structure Ledger (K : Type) where
  seed : ℕ → K
  offers : Set (ℕ × Offer) := ∅

namespace Ledger

/-- The ledger with one more offer. -/
def add (l : Ledger K) (g : ℕ) (o : Offer) : Ledger K :=
  { l with offers := insert (g, o) l.offers }

/-- The ledger with the seed of generation `g`. -/
def enter (l : Ledger K) (g : ℕ) (seed : K) : Ledger K :=
  { l with seed := Function.update l.seed g seed }

@[simp]
theorem enter_seed_self (l : Ledger K) (g : ℕ) (seed : K) : (l.enter g seed).seed g = seed :=
  Function.update_self ..

theorem enter_seed_of_ne (l : Ledger K) {g n : ℕ} (h : n ≠ g) (seed : K) :
    (l.enter g seed).seed n = l.seed n :=
  Function.update_of_ne h ..

end Ledger

/-- The packet is sealed under the chain of its generation, which is at most `g`, and carries
at most an offer of that generation. -/
def Logged (P : Primitives K C) (own : Ledger K) (g : ℕ) (e : Packet C) : Prop :=
  ∃ nonce c payload, e.msg = DoubleRatchetState.messageOf nonce c payload ∧
    nonce.generation ≤ g ∧ nonce.generation ≠ u32Max ∧
    P.aeadSeal (P.chain.keyAt (own.seed nonce.generation) nonce.seq) nonce e.plaintext
      (payloadAad payload) = some c ∧
    ∀ p, payload = some p → ∃ o, (nonce.generation, o) ∈ own.offers ∧ o.payload = p

theorem Logged.mono {P : Primitives K C} {own own' : Ledger K} {g g' : ℕ} {e : Packet C}
    (h : Logged P own g e) (hg : g ≤ g') (hseed : ∀ n ≤ g, own'.seed n = own.seed n)
    (hoffers : own.offers ⊆ own'.offers) : Logged P own' g' e := by
  obtain ⟨nonce, c, payload, hmsg, hle, hmax, hseal, hpayload⟩ := h
  refine ⟨nonce, c, payload, hmsg, hle.trans hg, hmax, ?_, ?_⟩
  · rw [hseed _ hle]
    exact hseal
  · intro p hp
    obtain ⟨o, ho, hop⟩ := hpayload p hp
    exact ⟨o, hoffers ho, hop⟩

/-! ## Sessions and ledgers -/

/-- The slot holds the proposal that an offer made in generation `n` decapsulates to. -/
def IncomingProposal.Offered (P : Primitives K C) (p : IncomingProposal K) (peer : Ledger K) :
    Prop :=
  ∃ n o r ss xsk msk, (n, o) ∈ peer.offers ∧ p.carrierGen = some n ∧ p.IsFrom P r ss ∧
    decapsulateHybrid P o.payload.ciphertext xsk msk = .ok ss ∧
    p.peerX25519Pk = some o.payload.x25519Pk ∧ p.peerMlkemPk = some o.payload.mlkemPk

/-- Two incoming slots hold the same proposal. They may differ in the sequence number of the
carrier and in the attach times. -/
structure IncomingProposal.Same (p q : IncomingProposal K) : Prop where
  rootKey : q.rootKey = p.rootKey
  sendingChainKey : q.sendingChainKey = p.sendingChainKey
  receivingChainKey : q.receivingChainKey = p.receivingChainKey
  peerX25519Pk : q.peerX25519Pk = p.peerX25519Pk
  peerMlkemPk : q.peerMlkemPk = p.peerMlkemPk
  carrierGen : q.carrierGen = p.carrierGen

theorem IncomingProposal.Same.refl (p : IncomingProposal K) : p.Same p :=
  ⟨rfl, rfl, rfl, rfl, rfl, rfl⟩

variable {p q : IncomingProposal K}

theorem IncomingProposal.Same.empty (h : p.Same q) (hp : p.Empty) :
    q.Empty :=
  ⟨h.rootKey.trans hp.1, h.sendingChainKey.trans hp.2.1, h.receivingChainKey.trans hp.2.2⟩

variable {ss : Bytes}

theorem IncomingProposal.Same.isFrom {P : Primitives K C} (h : p.Same q) {r : K}
    (hp : p.IsFrom P r ss) : q.IsFrom P r ss :=
  ⟨h.rootKey.trans hp.1, h.sendingChainKey.trans hp.2.1, h.receivingChainKey.trans hp.2.2⟩

namespace DoubleRatchetState

/-- A session agrees with its own ledger and the ledger of its peer. -/
structure Fits (P : Primitives K C) (s : DoubleRatchetState K C) (own peer : Ledger K) :
    Prop where
  send : s.ratchetGeneration ≠ u32Max →
    s.send.key = P.chain.stateAt (own.seed s.ratchetGeneration) s.send.messageCount
  outgoing : (s.outgoingProposal = {} ∧ s.rekeyPendingConfirmQueue = []) ∨
    ∃ o, (s.ratchetGeneration, o) ∈ own.offers ∧
      s.outgoingProposal = o.staged P s.rootKey ∧
      ∀ c ∈ s.rekeyPendingConfirmQueue, c.payload = o.payload
  offers : ∀ n o, (n, o) ∈ own.offers → n ≤ s.ratchetGeneration ∧ o.Valid P
  seeds : ∀ n < s.ratchetGeneration,
    (∃ r o, (n, o) ∈ own.offers ∧ own.seed (n + 1) = P.nextSendChain r o.secret) ∨
      ∃ r ss, own.seed (n + 1) = P.nextRecvChain r ss
  view : ∀ xpk mpk, s.peerX25519Pk = some xpk → s.peerMlkemPk = some mpk →
    ∃ seed, xpk = (generateHybridKeypair P seed).x25519Pk ∧
      mpk = (generateHybridKeypair P seed).mlkemPk
  incoming : s.incomingProposal.Empty ∨ s.incomingProposal.Offered P peer

variable {P : Primitives K C} {s s' : DoubleRatchetState K C} {own peer : Ledger K}

/-- A step within the generation that keeps what is staged or drops it. -/
theorem Fits.of_kept (hfits : s.Fits P own peer)
    (hgen : s'.ratchetGeneration = s.ratchetGeneration) (hroot : s'.rootKey = s.rootKey)
    (hsend : s'.ratchetGeneration ≠ u32Max →
      s'.send.key = P.chain.stateAt (own.seed s.ratchetGeneration) s'.send.messageCount)
    (hxpk : s'.peerX25519Pk = s.peerX25519Pk) (hmpk : s'.peerMlkemPk = s.peerMlkemPk)
    (hout : (s'.outgoingProposal = {} ∧ s'.rekeyPendingConfirmQueue = []) ∨
      s'.outgoingProposal = s.outgoingProposal ∧ ∀ c ∈ s'.rekeyPendingConfirmQueue,
        ∃ c' ∈ s.rekeyPendingConfirmQueue, c'.payload = c.payload)
    (hin : s'.incomingProposal.Empty ∨ s.incomingProposal.Same s'.incomingProposal ∨
      s'.incomingProposal.Offered P peer) : s'.Fits P own peer where
  send hmax := by rw [hgen, hsend hmax]
  outgoing := by
    rw [hgen, hroot]
    rcases hout with hempty | ⟨hsame, hqueue⟩
    · exact .inl hempty
    · rw [hsame]
      rcases hfits.outgoing with ⟨hempty, hnil⟩ | ⟨o, ho, hstaged, hcarriers⟩
      · refine .inl ⟨hempty, List.eq_nil_iff_forall_not_mem.2 fun c hc => ?_⟩
        obtain ⟨c', hc', _⟩ := hqueue c hc
        rw [hnil] at hc'
        cases hc'
      · refine .inr ⟨o, ho, hstaged, fun c hc => ?_⟩
        obtain ⟨c', hc', hpayload⟩ := hqueue c hc
        rw [← hpayload, hcarriers c' hc']
  offers := by
    rw [hgen]
    exact hfits.offers
  seeds := by
    rw [hgen]
    exact hfits.seeds
  view := by
    rw [hxpk, hmpk]
    exact hfits.view
  incoming := by
    rcases hin with hempty | hsame | hoffered
    · exact .inl hempty
    · rcases hfits.incoming with hempty | ⟨n, o, r, ss, xsk, msk, ho, hn, hfrom, hss, hx, hm⟩
      · exact .inl (hsame.empty hempty)
      · exact .inr ⟨n, o, r, ss, xsk, msk, ho, hsame.carrierGen.trans hn, hsame.isFrom hfrom, hss,
          hsame.peerX25519Pk.trans hx, hsame.peerMlkemPk.trans hm⟩
    · exact .inr hoffered

/-- A step that touches none of the fields that ledgers are about. -/
theorem Fits.of_eq (hfits : s.Fits P own peer)
    (hgen : s'.ratchetGeneration = s.ratchetGeneration) (hroot : s'.rootKey = s.rootKey)
    (hsend : s'.send = s.send) (hxpk : s'.peerX25519Pk = s.peerX25519Pk)
    (hmpk : s'.peerMlkemPk = s.peerMlkemPk) (hout : s'.outgoingProposal = s.outgoingProposal)
    (hqueue : s'.rekeyPendingConfirmQueue = s.rekeyPendingConfirmQueue)
    (hin : s.incomingProposal.Same s'.incomingProposal) : s'.Fits P own peer := by
  refine hfits.of_kept hgen hroot ?_ hxpk hmpk (.inr ⟨hout, ?_⟩) (.inr (.inl hin))
  · rw [hgen, hsend]
    exact hfits.send
  · rw [hqueue]
    exact fun c hc => ⟨c, hc, rfl⟩

theorem Fits.mono_peer (hfits : s.Fits P own peer) {peer' : Ledger K}
    (hoffers : peer.offers ⊆ peer'.offers) : s.Fits P own peer' :=
  { hfits with
    incoming := by
      rcases hfits.incoming with hempty | ⟨n, o, r, ss, xsk, msk, ho, hrest⟩
      · exact .inl hempty
      · exact .inr ⟨n, o, r, ss, xsk, msk, hoffers ho, hrest⟩ }

/-! ### Receiving -/

theorem exists_decapsulateHybrid {ct ss : Bytes} (h : s.decapsulateRekey P ct = some ss) :
    ∃ xsk msk, decapsulateHybrid P ct xsk msk = .ok ss := by
  obtain ⟨pair, _, hpair⟩ := List.exists_of_findSome?_eq_some h
  refine ⟨pair.x25519Sk, pair.mlkemSk, ?_⟩
  cases hdec : decapsulateHybrid P ct pair.x25519Sk pair.mlkemSk with
  | error e =>
    rw [hdec] at hpair
    cases hpair
  | ok ss' =>
    rw [hdec] at hpair
    exact congrArg Except.ok (Option.some.inj hpair)

variable {o : Offer}

theorem offered_stageIncoming {n seq : ℕ} {now : Clock} (ho : (n, o) ∈ peer.offers)
    (hss : s.decapsulateRekey P o.payload.ciphertext = some ss) :
    (s.stageIncoming P ss o.payload.x25519Pk o.payload.mlkemPk n seq
      now).incomingProposal.Offered P peer := by
  obtain ⟨xsk, msk, hdec⟩ := exists_decapsulateHybrid hss
  exact ⟨n, o, s.rootKey, ss, xsk, msk, ho, rfl, ⟨rfl, rfl, rfl⟩, hdec, rfl, rfl⟩

variable {payload : Option RekeyPayload}

section

variable (hfits : s.Fits P own peer)
include hfits

theorem Fits.derives {nonce : Nonce} {now : Clock}
    (hpayload : ∀ p, payload = some p → ∃ o, (nonce.generation, o) ∈ peer.offers ∧ o.payload = p)
    (hderives : Derives P s nonce now payload s') : s'.Fits P own peer := by
  cases hderives with
  | absent => exact hfits
  | superseded _ => exact hfits
  | @staged p ss _ hss =>
    obtain ⟨o, ho, rfl⟩ := hpayload p rfl
    refine hfits.of_kept rfl rfl hfits.send rfl rfl (.inr ⟨rfl, fun c hc => ⟨c, hc, rfl⟩⟩)
      (.inr (.inr (offered_stageIncoming ho hss)))

theorem Fits.resolve (seq : ℕ) (hasPayload : Bool) :
    (s.resolveRekeyRaceAndAck seq hasPayload).Fits P own peer := by
  unfold resolveRekeyRaceAndAck
  split_ifs
  · exact hfits
  · exact hfits.of_kept rfl rfl hfits.send rfl rfl (.inl ⟨rfl, rfl⟩) (.inr (.inl (.refl _)))
  · exact hfits.of_kept rfl rfl hfits.send rfl rfl (.inr ⟨rfl, fun c hc => ⟨c, hc, rfl⟩⟩)
      (.inl ⟨rfl, rfl, rfl⟩)
  · exact hfits.of_eq rfl rfl rfl rfl rfl rfl rfl (.refl _)

/-- Committing the peer's proposal enters the next generation. -/
theorem Fits.commitPending {r : K} (hpeer : ∀ n o, (n, o) ∈ peer.offers → o.Valid P)
    (hfrom : s.incomingProposal.IsFrom P r ss) (hbump : s.incomingProposal.generationBump = true)
    (hlt : s.ratchetGeneration < u32Max) :
    s.commitPendingRekeyWithRaceResolution.Fits P
      (own.enter (s.ratchetGeneration + 1) (P.nextRecvChain r ss)) peer := by
  rw [commitPendingRekeyWithRaceResolution_eq hfrom hbump, saturatingSucc_of_lt hlt]
  constructor
  · intro _
    exact (Ledger.enter_seed_self ..).symm
  · refine .inl ?_
    rcases hfits.outgoing with ⟨hempty, hnil⟩ | ⟨o, _, hstaged, _⟩
    · rw [hempty]
      exact ⟨rfl, hnil⟩
    · rw [hstaged]
      exact ⟨rfl, rfl⟩
  · intro n o ho
    obtain ⟨hn, hvalid⟩ := hfits.offers n o ho
    exact ⟨Nat.le_succ_of_le hn, hvalid⟩
  · intro n hn
    rcases Nat.lt_succ_iff_lt_or_eq.1 hn with hlt | rfl
    · have hne : n + 1 ≠ s.ratchetGeneration + 1 := by omega
      rw [Ledger.enter_seed_of_ne _ hne]
      exact hfits.seeds n hlt
    · exact .inr ⟨r, ss, Ledger.enter_seed_self ..⟩
  · intro xpk mpk hx hm
    rcases hfits.incoming with hempty | ⟨n, o, _, _, _, _, ho, _, _, _, hxpk, hmpk⟩
    · exact absurd hempty hfrom.not_empty
    · have hvalid := hpeer n o ho
      obtain ⟨seed, hseed⟩ := hvalid.pair
      simp only [hxpk, hmpk, Option.some_or, Option.some.injEq] at hx hm
      exact ⟨seed, by rw [← hx, hvalid.x25519Pk, hseed], by rw [← hm, hvalid.mlkemPk, hseed]⟩
  · exact .inl ⟨rfl, rfl, rfl⟩

/-- A decryption of a message that carries at most an offer of the peer stays in the generation,
or commits a staged offer and enters the next generation. -/
theorem Fits.decrypt (hbumps : s.BumpsOnCommit) (hpeer : ∀ n o, (n, o) ∈ peer.offers → o.Valid P)
    {nonce : Nonce} {c : C} {now : Clock} {res : Except KyberError Bytes}
    (hpayload : ∀ p, payload = some p → ∃ o, (nonce.generation, o) ∈ peer.offers ∧ o.payload = p)
    (hstep : DecryptStep P s nonce c payload now res s') :
    s'.ratchetGeneration = s.ratchetGeneration ∧ s'.Fits P own peer ∨
      ∃ r ss, s'.ratchetGeneration = s.ratchetGeneration + 1 ∧
        s'.Fits P (own.enter (s.ratchetGeneration + 1) (P.nextRecvChain r ss)) peer := by
  cases hstep with
  | refused _ => exact .inl ⟨rfl, hfits⟩
  | failed _ _ _ hderives =>
    exact .inl ⟨hderives.sameReceive.generation, hfits.derives hpayload hderives⟩
  | previous _ hdel =>
    refine .inl ?_
    rw [hdel.frame]
    exact ⟨rfl, hfits.of_eq rfl rfl rfl rfl rfl rfl rfl (.refl _)⟩
  | @current _ s₁ s₂ _ _ hderives hdel =>
    refine .inl ⟨?_, Fits.resolve ?_ _ _⟩
    · rw [(sameReceive_resolve s₂ nonce.seq payload.isSome).generation, hdel.frame]
      exact hderives.sameReceive.generation
    · rw [hdel.frame]
      exact (hfits.derives hpayload hderives).of_eq rfl rfl rfl rfl rfl rfl rfl (.refl _)
  | @pending _ s₁ _ key hadmits _ hderives hdel =>
    have hfits₁ := hfits.derives hpayload hderives
    rcases hfits₁.incoming with hempty | ⟨_, _, r, ss, _, _, _, _, hfrom, _⟩
    · exact absurd (hdel.hkey.symm.trans hempty.2.2) (by simp)
    have hgen := hderives.sameReceive.generation
    have hlt : s₁.ratchetGeneration < u32Max := by
      rw [hgen]
      exact lt_of_le_of_ne hbumps.generation_le hadmits.generation_ne
    have hbump := (hderives.advances.bumps hbumps).incoming (by rw [hfrom.1]; rfl)
    have hcommit := hfits₁.commitPending hpeer hfrom hbump hlt
    refine .inr ⟨r, ss, ?_, ?_⟩
    · rw [hdel.hstate, commitPendingRekeyWithRaceResolution_eq hfrom hbump, ← hgen]
      exact saturatingSucc_of_lt hlt
    · rw [hdel.hstate, ← hgen]
      exact hcommit.of_eq rfl rfl rfl rfl rfl rfl rfl (.refl _)

end

/-! ### Sending -/

/-- The encryption stages the offer `o`. -/
structure Proposes (P : Primitives K C) (s : DoubleRatchetState K C) (rnd : EncryptRandomness)
    (o : Offer) (s' : DoubleRatchetState K C) : Prop where
  outgoing : s.outgoingProposal.rootKey = none
  incoming : s.incomingProposal.rootKey = none
  pair : o.pair = generateHybridKeypair P rnd.keygen
  x25519Pk : o.payload.x25519Pk = o.pair.x25519Pk
  mlkemPk : o.payload.mlkemPk = o.pair.mlkemPk
  coins : o.coins = rnd.encapsulation.mlkemCoins
  encapsulated : ∃ xpk mpk, s.peerX25519Pk = some xpk ∧ s.peerMlkemPk = some mpk ∧
    encapsulateHybrid P xpk mpk rnd.encapsulation = .ok ⟨o.payload.ciphertext, o.secret⟩
  staged : s'.outgoingProposal = o.staged P s.rootKey
  carriers : ∀ c ∈ s'.rekeyPendingConfirmQueue, c.payload = o.payload

/-- What an encryption does to the outgoing slot, and the payload it attaches: nothing or a
repeated payload, or a new offer. -/
inductive Carries (P : Primitives K C) (s : DoubleRatchetState K C) (rnd : EncryptRandomness) :
    Option RekeyPayload → DoubleRatchetState K C → Prop
  | repeats {payload : Option RekeyPayload} {s' : DoubleRatchetState K C}
      (hout : s'.outgoingProposal = s.outgoingProposal)
      (hqueue : ∀ c ∈ s'.rekeyPendingConfirmQueue,
        ∃ c' ∈ s.rekeyPendingConfirmQueue, c'.payload = c.payload)
      (hpayload : ∀ p, payload = some p → ∃ c ∈ s.rekeyPendingConfirmQueue, c.payload = p) :
      Carries P s rnd payload s'
  | proposes {o : Offer} {s' : DoubleRatchetState K C} (h : Proposes P s rnd o s') :
      Carries P s rnd (some o.payload) s'

variable {pt : Bytes} {rnd : EncryptRandomness} {now : Clock}

theorem Attaches.carries {seq : ℕ} {res : Except KyberError (Option RekeyPayload)}
    (hattach : Attaches P s seq rnd now res s') : Carries P s rnd (res.toOption.join) s' := by
  have hdropped : ∀ c ∈ (s.dropDueCarriers now).rekeyPendingConfirmQueue,
      ∃ c' ∈ s.rekeyPendingConfirmQueue, c'.payload = c.payload :=
    fun c hc => ⟨c, (List.mem_filter.1 hc).1, rfl⟩
  cases hattach with
  | nothing => exact .repeats rfl hdropped (by rintro p ⟨⟩)
  | @resend carrier hmem _ =>
    refine .repeats rfl ?_ ?_
    · intro c hc
      rcases List.mem_append.1 hc with hold | hnew
      · exact hdropped c hold
      · obtain rfl := List.mem_singleton.1 hnew
        exact ⟨carrier, hmem, rfl⟩
    · intro p hp
      exact ⟨carrier, hmem, Option.some.inj hp⟩
  | @propose xpk mpk kem hshould hxpk hmpk hkem =>
    obtain ⟨_, hqueue, hout, hin⟩ := shouldRekey_iff.1 hshould
    refine .proposes (o := ⟨_, kem.combinedSharedSecret, _, _⟩) ⟨hout, hin, rfl,
      rfl, rfl, rfl, ⟨xpk, mpk, hxpk, hmpk, hkem⟩, rfl, ?_⟩
    intro c hc
    rcases List.mem_append.1 hc with hold | hnew
    · rw [hqueue] at hold
      cases hold
    · obtain rfl := List.mem_singleton.1 hnew
      rfl
  | unencapsulated _ _ _ => exact .repeats rfl hdropped (by rintro p ⟨⟩)

/-- The message is sealed over `pt` and the payload at the next position of the session. -/
def Seals (P : Primitives K C) (s : DoubleRatchetState K C) (pt : Bytes)
    (payload : Option RekeyPayload) (m : RatchetEncryptedMessage C) : Prop :=
  s.ratchetGeneration ≠ u32Max ∧ ∃ c,
    m = messageOf ⟨s.ratchetGeneration, s.send.messageCount⟩ c payload ∧
    P.aeadSeal (P.chain.out s.send.key) ⟨s.ratchetGeneration, s.send.messageCount⟩ pt
      (payloadAad payload) = some c

variable {res : Except KyberError (RatchetEncryptedMessage C)}

/-- What an encryption attaches, and the message it returns. -/
theorem EncryptStep.carries (hstep : EncryptStep P s pt rnd now res s') :
    ∃ payload, Carries P s rnd payload s' ∧ ∀ m, res = .ok m → s.Seals P pt payload m := by
  have hcount : ∀ {payload t t'}, Carries P s.countSend rnd payload t →
      t'.outgoingProposal = t.outgoingProposal →
      t'.rekeyPendingConfirmQueue = t.rekeyPendingConfirmQueue → Carries P s rnd payload t' := by
    intro payload t t' h hout hqueue
    cases h with
    | repeats h₁ h₂ h₃ => exact .repeats (hout.trans h₁) (hqueue ▸ h₂) h₃
    | proposes h =>
      exact .proposes ⟨h.outgoing, h.incoming, h.pair, h.x25519Pk, h.mlkemPk, h.coins,
        h.encapsulated, hout.trans h.staged, hqueue ▸ h.carriers⟩
  cases hstep with
  | exhausted _ _ =>
    exact ⟨none, .repeats rfl (fun c hc => ⟨c, hc, rfl⟩) (by rintro p ⟨⟩),
      (by rintro m ⟨⟩)⟩
  | unattached _ hattach => exact ⟨_, hcount hattach.carries rfl rfl, (by rintro m ⟨⟩)⟩
  | unsealed _ _ hattach => exact ⟨_, hcount hattach.carries rfl rfl, (by rintro m ⟨⟩)⟩
  | @sent payload _ c hmax hattach hseal =>
    refine ⟨payload, hcount hattach.carries rfl rfl, fun m hm => ⟨hmax, c, ?_, hseal⟩⟩
    exact (Except.ok.inj hm).symm

theorem Proposes.valid (hfits : s.Fits P own peer) (h : Proposes P s rnd o s') : o.Valid P := by
  obtain ⟨xpk, mpk, hxpk, hmpk, hkem⟩ := h.encapsulated
  obtain ⟨seed, rfl, rfl⟩ := hfits.view xpk mpk hxpk hmpk
  exact ⟨⟨_, h.pair⟩, h.x25519Pk, h.mlkemPk, ⟨seed, _, hkem, h.coins.symm⟩⟩

section Kem

variable (kem : P.KemCorrect)
include kem

/-- Encapsulation to a generated pair succeeds, so every encryption outside the last generation
moves the sending chain with its counter. -/
theorem Fits.send_encrypt (hfits : s.Fits P own peer) (hstep : EncryptStep P s pt rnd now res s')
    (hmax : s'.ratchetGeneration ≠ u32Max) :
    s'.send.key = P.chain.stateAt (own.seed s.ratchetGeneration) s'.send.messageCount := by
  obtain ⟨hgen, hcount⟩ := hstep.send_count
  have hsend := hfits.send (hgen ▸ hmax)
  have hnext : s'.send.key = P.chain.step s.send.key := by
    cases hstep with
    | exhausted _ hmax' => exact absurd hmax' hmax
    | unattached _ hattach =>
      cases hattach with
      | unencapsulated hxpk hmpk hkem =>
        obtain ⟨seed, rfl, rfl⟩ := hfits.view _ _ hxpk hmpk
        rw [kem.encapsulateHybrid_generate] at hkem
        cases hkem
    | unsealed _ _ hattach =>
      rw [hattach.frame]
      rfl
    | sent _ hattach _ =>
      rw [hattach.frame]
      rfl
  rw [hnext, hcount, hsend, KeyChain.step_stateAt]

theorem Fits.repeats (hfits : s.Fits P own peer) (hstep : EncryptStep P s pt rnd now res s')
    (hout : s'.outgoingProposal = s.outgoingProposal)
    (hqueue : ∀ c ∈ s'.rekeyPendingConfirmQueue,
      ∃ c' ∈ s.rekeyPendingConfirmQueue, c'.payload = c.payload) : s'.Fits P own peer := by
  refine hfits.of_kept hstep.send_count.1 ?_ (hfits.send_encrypt kem hstep) ?_ ?_
    (.inr ⟨hout, hqueue⟩) (.inr (.inl ?_))
  · rw [hstep.frame]
  · rw [hstep.frame]
  · rw [hstep.frame]
  · rw [hstep.frame]
    exact .refl _

theorem Fits.proposes (hfits : s.Fits P own peer) (hstep : EncryptStep P s pt rnd now res s')
    (h : Proposes P s rnd o s') : s'.Fits P (own.add s.ratchetGeneration o) peer := by
  have hgen := hstep.send_count.1
  have hframe := hstep.frame
  constructor
  · intro hmax
    have hsend := hfits.send_encrypt kem hstep hmax
    rw [hgen]
    exact hsend
  · refine .inr ⟨o, ?_, ?_, h.carriers⟩
    · rw [hgen]
      exact Set.mem_insert _ _
    · rw [h.staged, hframe]
  · rintro n o' (heq | hold)
    · obtain ⟨rfl, rfl⟩ := Prod.mk.inj heq
      exact ⟨hgen.ge, h.valid hfits⟩
    · rw [hgen]
      exact hfits.offers n o' hold
  · intro n hn
    rcases hfits.seeds n (hgen ▸ hn) with ⟨r, o', ho', hseed⟩ | hrecv
    · exact .inl ⟨r, o', Set.mem_insert_of_mem _ ho', hseed⟩
    · exact .inr hrecv
  · rw [hframe]
    exact hfits.view
  · rw [hframe]
    exact hfits.incoming

end Kem

/-- The message of an encryption is logged in the ledger after it. -/
theorem Fits.logged (hfits : s.Fits P own peer) {m : RatchetEncryptedMessage C} {tag : Option ℕ}
    {own' : Ledger K} (hseals : s.Seals P pt payload m) (hseed : own'.seed = own.seed)
    (hpayload : ∀ p, payload = some p → ∃ o, (s.ratchetGeneration, o) ∈ own'.offers ∧
      o.payload = p) : Logged P own' s.ratchetGeneration ⟨m, pt, tag⟩ := by
  obtain ⟨hmax, c, rfl, hseal⟩ := hseals
  refine ⟨_, c, payload, rfl, le_rfl, hmax, ?_, hpayload⟩
  rw [hfits.send hmax, KeyChain.out_stateAt] at hseal
  rw [hseed]
  exact hseal

/-- A repeated payload is an offer of the generation. -/
theorem Fits.offer_of_carrier (hfits : s.Fits P own peer) {carrier : RekeyCarrier}
    (hmem : carrier ∈ s.rekeyPendingConfirmQueue) :
    ∃ o, (s.ratchetGeneration, o) ∈ own.offers ∧ o.payload = carrier.payload := by
  rcases hfits.outgoing with ⟨_, hnil⟩ | ⟨o, ho, _, hcarriers⟩
  · rw [hnil] at hmem
    cases hmem
  · exact ⟨o, ho, (hcarriers carrier hmem).symm⟩

/-! ### Committing our own proposal -/

theorem Fits.cancelOutgoing (hfits : s.Fits P own peer) :
    s.cancelOutgoingRekey.Fits P own peer :=
  hfits.of_kept rfl rfl hfits.send rfl rfl (.inl ⟨rfl, rfl⟩) (.inr (.inl (.refl _)))

/-- Committing our own offer enters the next generation. -/
theorem Fits.commitOutgoing (hfits : s.Fits P own peer) (ho : (s.ratchetGeneration, o) ∈ own.offers)
    (hstaged : s.outgoingProposal = o.staged P s.rootKey) (hlt : s.ratchetGeneration < u32Max) :
    s.commitOutgoingRekey.Fits P
      (own.enter (s.ratchetGeneration + 1) (P.nextSendChain s.rootKey o.secret)) peer := by
  have hfrom : s.outgoingProposal.IsFrom P s.rootKey o.secret :=
    hstaged ▸ o.isFrom_staged P s.rootKey
  have hpair : s.outgoingProposal.hybridPair = some o.pair := by
    rw [hstaged]
    rfl
  rw [commitOutgoingRekey_eq_of_isFrom hfrom hpair, saturatingSucc_of_lt hlt]
  constructor
  · intro _
    exact (Ledger.enter_seed_self ..).symm
  · exact .inl ⟨rfl, rfl⟩
  · intro n o' ho'
    obtain ⟨hn, hvalid⟩ := hfits.offers n o' ho'
    exact ⟨Nat.le_succ_of_le hn, hvalid⟩
  · intro n hn
    rcases Nat.lt_succ_iff_lt_or_eq.1 hn with hlt | rfl
    · have hne : n + 1 ≠ s.ratchetGeneration + 1 := by omega
      rw [Ledger.enter_seed_of_ne _ hne]
      exact hfits.seeds n hlt
    · exact .inl ⟨s.rootKey, o, ho, Ledger.enter_seed_self ..⟩
  · exact hfits.view
  · exact hfits.incoming

/-- In the last generation a commit of our own offer changes nothing that ledgers are about. -/
theorem Fits.commitOutgoing_last (hfits : s.Fits P own peer)
    (hstaged : s.outgoingProposal = o.staged P s.rootKey) (hmax : s.ratchetGeneration = u32Max) :
    s.commitOutgoingRekey.ratchetGeneration = s.ratchetGeneration ∧
      s.commitOutgoingRekey.Fits P own peer := by
  have hpair : s.outgoingProposal.hybridPair = some o.pair := by
    rw [hstaged]
    rfl
  have hlast : saturatingSucc s.ratchetGeneration = s.ratchetGeneration := by
    rw [hmax]
    decide
  rw [commitOutgoingRekey_eq_of_isFrom (hstaged ▸ o.isFrom_staged P s.rootKey) hpair, hlast]
  exact ⟨rfl, (fun h => absurd hmax h), .inl ⟨rfl, rfl⟩, hfits.offers, hfits.seeds, hfits.view,
    hfits.incoming⟩

end DoubleRatchetState

end KyberPipe
