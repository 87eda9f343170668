import KyberPipe.Pair.Simulation

/-!
# Honest runs carry out the rekey protocol

Two sessions of one pairing carry out a run of the rekey protocol as long as no acknowledgement
is taken for one of another generation. The induction is over the actions of the run. It carries
what each end knows of the other's key pair, since a carrier that decapsulates to another secret
would not be the proposal of the peer.
-/

namespace KyberPipe

open RekeyProtocol

variable {K C : Type}

namespace DoubleRatchetState

/-- What end `x` with session `s` and its peer with session `t` know of each other's keys. -/
structure Knows (P : Primitives K C) (A : RekeyProtocol Offer) (x : Role)
    (s t : DoubleRatchetState K C) : Prop where
  /-- Unless the peer is ahead, we know its public keys or none. -/
  view : t.ratchetGeneration ≤ s.ratchetGeneration →
    (∀ pk, s.peerX25519Pk = some pk → pk = t.ourHybridPair.x25519Pk) ∧
      ∀ pk, s.peerMlkemPk = some pk → pk = t.ourHybridPair.mlkemPk
  /-- The peer can open every offer that does not come too late. -/
  opens : ∀ n o, (n, o) ∈ (A.ends x).offers → t.ratchetGeneration ≤ n →
    decapsulateHybrid P o.payload.ciphertext t.ourHybridPair.x25519Sk t.ourHybridPair.mlkemSk =
      .ok o.secret
  /-- Whoever is ahead uses the key pair of its winning offer. -/
  rotated : s.ratchetGeneration = t.ratchetGeneration + 1 →
    ∀ o, A.winner t.ratchetGeneration = some (x, o) → s.ourHybridPair = o.pair

variable {P : Primitives K C} {A B : RekeyProtocol Offer} {x : Role}
variable {s s' t : DoubleRatchetState K C}

theorem Knows.of_same (hknows : Knows P A x s t) (hsame : SameKem s s')
    (hoffers : (B.ends x).offers = (A.ends x).offers) (hwinner : B.winner = A.winner) :
    Knows P B x s' t where
  view := by
    rw [hsame.generation, hsame.peerX25519Pk, hsame.peerMlkemPk]
    exact hknows.view
  opens := by
    rw [hoffers]
    exact hknows.opens
  rotated := by
    rw [hsame.generation, hsame.pair, hwinner]
    exact hknows.rotated

theorem Knows.of_same_peer (hknows : Knows P A x t s) (hsame : SameKem s s')
    (hends : B.ends x = A.ends x) (hwinner : B.winner = A.winner) : Knows P B x t s' where
  view := by
    rw [hsame.generation, hsame.pair]
    exact hknows.view
  opens := by
    rw [hsame.generation, hsame.pair, hends]
    exact hknows.opens
  rotated := by
    rw [hsame.generation, hwinner]
    exact hknows.rotated

/-- An offer opens with the key pair it was encapsulated to. -/
theorem decapsulateRekey_of_ours {ct ss : Bytes}
    (h : decapsulateHybrid P ct s.ourHybridPair.x25519Sk s.ourHybridPair.mlkemSk = .ok ss) :
    s.decapsulateRekey P ct = some ss := by
  simp only [decapsulateRekey, List.findSome?_cons, h]
  rfl

end DoubleRatchetState

namespace Pair

open DoubleRatchetState

/-- The two ends, with ledgers `l`, carry out the protocol run `A` over the root key `base`. -/
structure Realizes (P : Primitives K C) (base : K) (p : Pair K C) (l : Role → Ledger K)
    (A : RekeyProtocol Offer) : Prop where
  keeps : p.Keeps P l
  safe : A.Safe
  session : ∀ x, (p.party x).session.Realizes P base A x
  offers : ∀ x, (l x).offers = (A.ends x).offers
  seeds : ∀ x, ∀ n ≤ (A.ends x).generation, n ≠ u32Max → (l x).seed n = A.seed P base x n
  pending : ∀ x, (p.party x).session.pendingRekeyAckSeq.isSome →
    (p.party x).ackGen ∈ (A.ends x).acks
  tags : ∀ x, ∀ e ∈ (p.party x).sent, ∀ n, e.ackGen = some n → n ∈ (A.ends x).acks
  knows : ∀ x, Knows P A x (p.party x).session (p.party x.peer).session

variable {P : Primitives K C} {base : K} {p q : Pair K C} {l l' : Role → Ledger K}
variable {A B : RekeyProtocol Offer} {x : Role}

theorem Realizes.knows_peer (hreal : p.Realizes P base l A) (x : Role) :
    Knows P A x.peer (p.party x.peer).session (p.party x).session := by
  have hknows := hreal.knows x.peer
  rwa [Role.peer_peer] at hknows

theorem Realizes.set (hreal : p.Realizes P base l A) (hkeeps : q.Keeps P l') (hsafe : B.Safe)
    (hpeer : q.party x.peer = p.party x.peer) (hledger : l' x.peer = l x.peer)
    (hends : B.ends x.peer = A.ends x.peer)
    (hwinner : ∀ n < (A.ends x.peer).generation, B.winner n = A.winner n)
    (hsession : (q.party x).session.Realizes P base B x)
    (hoffers : (l' x).offers = (B.ends x).offers)
    (hseeds : ∀ n ≤ (B.ends x).generation, n ≠ u32Max → (l' x).seed n = B.seed P base x n)
    (hpending : (q.party x).session.pendingRekeyAckSeq.isSome →
      (q.party x).ackGen ∈ (B.ends x).acks)
    (htags : ∀ e ∈ (q.party x).sent, ∀ n, e.ackGen = some n → n ∈ (B.ends x).acks)
    (hknows : Knows P B x (q.party x).session (p.party x.peer).session)
    (hknows' : Knows P B x.peer (p.party x.peer).session (q.party x).session) :
    q.Realizes P base l' B := by
  constructor
  · exact hkeeps
  · exact hsafe
  · intro y
    rcases Role.eq_or_eq_peer x y with rfl | rfl
    · exact hsession
    · have hold := hreal.session x.peer
      rw [hpeer]
      refine hold.congr hends fun n hn => hwinner n ?_
      rwa [← hold.generation]
  · intro y
    rcases Role.eq_or_eq_peer x y with rfl | rfl
    · exact hoffers
    · rw [hledger, hends, hreal.offers]
  · intro y
    rcases Role.eq_or_eq_peer x y with rfl | rfl
    · exact hseeds
    · intro n hn hmax
      rw [hends] at hn
      rw [hledger, hreal.seeds x.peer n hn hmax, seed_congr fun m hm => hwinner m (hm.trans_le hn)]
  · intro y
    rcases Role.eq_or_eq_peer x y with rfl | rfl
    · exact hpending
    · rw [hpeer, hends]
      exact hreal.pending x.peer
  · intro y
    rcases Role.eq_or_eq_peer x y with rfl | rfl
    · exact htags
    · rw [hpeer, hends]
      exact hreal.tags x.peer
  · intro y
    rcases Role.eq_or_eq_peer x y with rfl | rfl
    · rw [hpeer]
      exact hknows
    · rw [Role.peer_peer, hpeer]
      exact hknows'

/-! ## Sending -/

section Encrypt

variable {pt : Bytes} {rnd : EncryptRandomness} {now : Clock} {tag : Option ℕ}
variable {res : Except KyberError (RatchetEncryptedMessage C)} {s' : DoubleRatchetState K C}

/-- A new packet is marked with the generation of an acknowledged carrier or not at all. -/
theorem Realizes.tags_emit (hreal : p.Realizes P base l A)
    (htag : ∀ n, tag = some n → n ∈ (A.ends x).acks) :
    ∀ e ∈ ((p.party x).emit pt tag res.toOption s').sent, ∀ n, e.ackGen = some n →
      n ∈ (A.ends x).acks := by
  intro e he n hn
  rcases List.mem_append.1 he with hold | hnew
  · exact hreal.tags x e hold n hn
  · cases res with
    | error _ => cases hnew
    | ok m =>
      obtain rfl := List.mem_singleton.1 hnew
      exact htag n hn

theorem EncryptStep.sameKem {s : DoubleRatchetState K C}
    (hstep : EncryptStep P s pt rnd now res s') : SameKem s s' := by
  rw [hstep.frame]
  exact ⟨rfl, rfl, rfl, rfl⟩

/-- An offer that is encapsulated to the keys we know opens with the peer's key pair. -/
theorem Realizes.opens_offer (kem : P.KemCorrect) (hreal : p.Realizes P base l A) {o : Offer}
    (h : Proposes P (p.party x).session rnd o s')
    (hle : (p.party x.peer).session.ratchetGeneration ≤ (p.party x).session.ratchetGeneration) :
    decapsulateHybrid P o.payload.ciphertext (p.party x.peer).session.ourHybridPair.x25519Sk
      (p.party x.peer).session.ourHybridPair.mlkemSk = .ok o.secret := by
  obtain ⟨xpk, mpk, hxpk, hmpk, hkem⟩ := h.encapsulated
  obtain ⟨hviewX, hviewM⟩ := (hreal.knows x).view hle
  obtain ⟨seed, hpair⟩ := (hreal.keeps.reachable x.peer).wellKeyed.ours
  rw [hviewX xpk hxpk, hviewM mpk hmpk, hpair] at hkem
  rw [hpair]
  exact kem.decapsulateHybrid_of_encapsulateHybrid hkem

variable (kem : P.KemCorrect)
include kem

theorem Realizes.encrypt (hreal : p.Realizes P base l A)
    (hacked : ∀ n, tag = some n → n ∈ (A.ends x).acks)
    (hfresh : rnd.encapsulation.mlkemCoins ∉ p.drawn)
    (hstep : EncryptStep P (p.party x).session pt rnd now res s') :
    ∃ l' B, ((p.set x ((p.party x).emit pt tag res.toOption s')).draw rnd).Realizes P base l' B ∧
      RekeyProtocol.Speaks x A B := by
  have hsession := hreal.session x
  have hsame := EncryptStep.sameKem hstep
  have hgen := hsession.generation
  have hpending : s'.pendingRekeyAckSeq = (p.party x).session.pendingRekeyAckSeq := by
    rw [hstep.frame]
  obtain ⟨payload, hcarries, hseals⟩ := hstep.carries
  cases hcarries with
  | repeats hout hqueue hpayload =>
    refine ⟨l, A, ?_, .silent⟩
    refine hreal.set (x := x) (hreal.keeps.repeats kem hstep hout hqueue hpayload hseals)
      hreal.safe (party_set_peer ..) rfl rfl (fun _ _ => rfl) ?_ (hreal.offers x) (hreal.seeds x)
      ?_ ?_ ?_ ?_
    all_goals rw [party_draw, party_set_self]
    · exact hsession.repeats hstep hout
    · exact fun h => hreal.pending x (hpending ▸ h)
    · exact hreal.tags_emit hacked
    · exact (hreal.knows x).of_same hsame rfl rfl
    · exact (hreal.knows_peer x).of_same_peer hsame rfl rfl
  | @proposes o _ h =>
    obtain ⟨hpropose, hsession'⟩ := hsession.proposes hstep h
    refine ⟨Function.update l x ((l x).add (p.party x).session.ratchetGeneration o), _, ?_,
      .propose o (hsession.outgoing_eq_none.1 h.outgoing) (hsession.incoming_eq_none.1 h.incoming)⟩
    refine hreal.set (x := x) (hreal.keeps.proposes kem hfresh hstep h hseals)
      (hreal.safe.step hpropose) (party_set_peer ..) (Function.update_of_ne x.peer_ne ..)
      (ends_set_peer ..) (fun _ _ => rfl) ?_ ?_ ?_ ?_ ?_ ?_ ?_
    · rw [party_draw, party_set_self]
      exact hsession'
    · rw [Function.update_self, ends_set_self, ← hgen, ← hreal.offers x]
      rfl
    · rw [Function.update_self, ends_set_self]
      intro n hn hmax
      rw [seed_set]
      exact hreal.seeds x n hn hmax
    · rw [party_draw, party_set_self, ends_set_self]
      exact fun h => hreal.pending x (hpending ▸ h)
    · rw [party_draw, party_set_self, ends_set_self]
      exact hreal.tags_emit hacked
    · rw [party_draw, party_set_self]
      have hknows := (hreal.knows x).of_same hsame (B := A) rfl rfl
      refine ⟨hknows.view, ?_, hknows.rotated⟩
      rw [ends_set_self]
      rintro n o' (heq | hold) hle
      · obtain ⟨rfl, rfl⟩ := Prod.mk.inj heq
        exact hreal.opens_offer kem h (hgen ▸ hle)
      · exact hknows.opens n o' hold hle
    · rw [party_draw, party_set_self]
      exact (hreal.knows_peer x).of_same_peer hsame (ends_set_peer ..) rfl

end Encrypt

/-! ## Receiving -/

/-- Offers of one end with the same secret were made in the same generation. -/
theorem Keeps.generation_eq_of_secret (kem : P.KemCorrect) (hkeeps : p.Keeps P l) {n m : ℕ}
    {o o' : Offer} (ho : (n, o) ∈ (l x).offers) (ho' : (m, o') ∈ (l x).offers)
    (hsecret : o.secret = o'.secret) : n = m := by
  obtain ⟨_, _, hss⟩ := (hkeeps.valid ho).exists_decapsulate kem
  obtain ⟨_, _, hss'⟩ := (hkeeps.valid ho').exists_decapsulate kem
  rw [← hsecret] at hss'
  exact (hkeeps.coins _ _ _ _ _ _ ho ho' ((hkeeps.valid ho).coins_eq kem (hkeeps.valid ho') hss
    hss')).2.1

variable {payload : Option RekeyPayload}

/-- The payload of a packet of the peer opens to the secret of its offer. -/
theorem Realizes.carried (hreal : p.Realizes P base l A) {e : Packet C}
    (he : e ∈ (p.party x.peer).sent)
    (hpayload : payload = none ∨ e.msg = messageOf e.msg.nonce e.msg.ciphertext payload) :
    (p.party x).session.Carried P A x e.msg.nonce payload := by
  intro q hq
  obtain ⟨o, ho, rfl⟩ := hreal.keeps.offer_of_payload he hpayload q hq
  rw [hreal.offers] at ho
  exact ⟨o, ho, rfl, fun hle => decapsulateRekey_of_ours ((hreal.knows_peer x).opens _ o ho hle)⟩

section Follow

variable {s' : DoubleRatchetState K C} (hreal : p.Realizes P base l A)
  (hfollow : FollowsKem P base A x (p.party x).session s')
include hreal hfollow

/-- A follower knows the new public keys of the peer. -/
theorem Realizes.knows_of_follows (hoffers : (B.ends x).offers = (A.ends x).offers) :
    Knows P B x s' (p.party x.peer).session := by
  have hgen := (hreal.session x).generation
  have hgen' := (hreal.session x.peer).generation
  have hahead : (p.party x.peer).session.ratchetGeneration =
      (p.party x).session.ratchetGeneration + 1 := by rw [hgen, hgen', hfollow.ahead]
  refine ⟨fun _ => ?_, ?_, ?_⟩
  · obtain ⟨o, hwinner, hxpk, hmpk⟩ := hfollow.adopted
    have hpair := (hreal.knows_peer x).rotated hahead o (hgen ▸ hwinner)
    obtain ⟨_, _, o', ho', hwinner'⟩ := (hreal.safe.peer x).ahead hfollow.ahead
    obtain rfl : o' = o := by
      rw [hwinner'] at hwinner
      exact (Prod.mk.inj (Option.some.inj hwinner)).2
    rw [← hreal.offers] at ho'
    have hvalid := hreal.keeps.valid ho'
    constructor
    · intro pk hpk
      rw [hpair, ← hvalid.x25519Pk]
      exact Option.some.inj (hpk.symm.trans hxpk)
    · intro pk hpk
      rw [hpair, ← hvalid.mlkemPk]
      exact Option.some.inj (hpk.symm.trans hmpk)
  · rw [hoffers]
    exact (hreal.knows x).opens
  · intro h
    rw [hfollow.generation, hahead] at h
    omega

theorem Realizes.knows_peer_of_follows (hpeer : B.ends x.peer = A.ends x.peer) :
    Knows P B x.peer (p.party x.peer).session s' := by
  have hahead : (p.party x.peer).session.ratchetGeneration =
      (p.party x).session.ratchetGeneration + 1 := by
    rw [(hreal.session x).generation, (hreal.session x.peer).generation, hfollow.ahead]
  have hknows := hreal.knows_peer x
  refine ⟨fun _ => ?_, fun n o ho hn => ?_, fun h => ?_⟩
  · rw [hfollow.pair]
    exact hknows.view (by omega)
  · rw [hfollow.generation] at hn
    rw [hfollow.pair]
    exact hknows.opens n o (hpeer ▸ ho) (by omega)
  · rw [hfollow.generation, hahead] at h
    omega

end Follow

section Ideal

variable (ideal : P.Ideal) (kem : P.KemCorrect)
include ideal kem

/-- Taking in a packet of the peer continues the protocol run. -/
theorem Realizes.decrypt (hreal : p.Realizes P base l A) {e : Packet C} {now : Clock}
    {res : Except KyberError Bytes} {s' : DoubleRatchetState K C} (he : e ∈ (p.party x.peer).sent)
    (hpayload : payload = none ∨ e.msg = messageOf e.msg.nonce e.msg.ciphertext payload)
    (hstep : DecryptStep P (p.party x).session e.msg.nonce e.msg.ciphertext payload now res s') :
    ∃ l' B, (p.set x ((p.party x).takeIn (messageOf e.msg.nonce e.msg.ciphertext payload)
      (res, s'))).Realizes P base l' B ∧ RekeyProtocol.Hears x A B := by
  have hgen := (hreal.session x).generation
  -- the packet is sealed under the peer's chain of its generation
  obtain ⟨nonce, c, payload', hmsg, hreached, hmax, hseal, _⟩ := hreal.keeps.logged x.peer e he
  have hnonce : nonce = e.msg.nonce := by rw [hmsg]; rfl
  have hc : c = e.msg.ciphertext := by rw [hmsg]; rfl
  rw [(hreal.session x.peer).generation] at hreached
  rw [hreal.seeds x.peer _ hreached hmax] at hseal
  rw [hnonce] at hseal hreached
  rw [hc] at hseal
  obtain ⟨B, hears, hsession, hack, hkem⟩ := (hreal.session x).heard
    (hreal.carried he hpayload) (hreal.pending x) ideal hreal.safe (hreal.keeps.bumps ideal x)
    (fun n o m o' ho ho' => hreal.keeps.generation_eq_of_secret kem
      (hreal.offers x.peer ▸ ho) (hreal.offers x.peer ▸ ho')) hreached hseal hstep
  have hsafe := hreal.safe.steps hears.steps
  have hwinner : ∀ n < (A.ends x.peer).generation, B.winner n = A.winner n :=
    fun n _ => congrFun hears.winner n
  have htags : ∀ e ∈ (p.party x).sent, ∀ n, e.ackGen = some n → n ∈ (B.ends x).acks :=
    fun e he n hn => hears.acks (hreal.tags x e he n hn)
  rcases hreal.keeps.decrypt ideal he hpayload hstep
    ((p.party x).session.ackGenAfter s' (messageOf e.msg.nonce e.msg.ciphertext payload) res.isOk
      (p.party x).ackGen) with ⟨hsameGen, hkeeps⟩ | ⟨r, ss, hnext, hkeeps⟩
  · -- within the generation
    have hsame := hkem.resolve_right fun h => absurd h.generation (by omega)
    refine ⟨l, B, hreal.set (x := x) hkeeps hsafe (party_set_peer ..) rfl hears.peer hwinner ?_ ?_
      ?_ ?_ ?_ ?_ ?_, hears⟩
    · rw [party_set_self]
      exact hsession
    · rw [hears.offers, hreal.offers]
    · intro n hn hmax'
      rw [← hsession.generation, hsameGen, hgen] at hn
      rw [hreal.seeds x n hn hmax', seed_congr fun m _ => congrFun hears.winner m]
    · rw [party_set_self]
      exact hack
    · rw [party_set_self]
      exact htags
    · rw [party_set_self]
      exact (hreal.knows x).of_same hsame hears.offers hears.winner
    · rw [party_set_self]
      exact (hreal.knows_peer x).of_same_peer hsame hears.peer hears.winner
  · -- into the next generation
    have hfollow := hkem.resolve_left fun h => absurd h.generation (by omega)
    refine ⟨_, B, hreal.set (x := x) hkeeps hsafe (party_set_peer ..)
      (Function.update_of_ne x.peer_ne ..) hears.peer hwinner ?_ ?_ ?_ ?_ ?_ ?_ ?_, hears⟩
    · rw [party_set_self]
      exact hsession
    · rw [Function.update_self, hears.offers, ← hreal.offers]
      rfl
    · intro n hn hmax'
      rw [← hsession.generation, hnext] at hn
      rw [seed_congr fun m _ => congrFun hears.winner m]
      rcases Nat.le_succ_iff.1 hn with hle | rfl
      · rw [Function.update_self, Ledger.enter_seed_of_ne _ (by omega),
          hreal.seeds x n (hgen ▸ hle) hmax']
      · have hsend := (hkeeps.fits x).send
        rw [party_set_self] at hsend
        dsimp only at hsend
        rw [hfollow.send, hnext] at hsend
        exact (hsend hmax').symm
    · rw [party_set_self]
      exact hack
    · rw [party_set_self]
      exact htags
    · rw [party_set_self]
      exact hreal.knows_of_follows hfollow hears.offers
    · rw [party_set_self]
      exact hreal.knows_peer_of_follows hfollow hears.peer

omit kem in
/-- Committing our standing proposal once the peer has acknowledged a carrier of this
generation. -/
theorem Realizes.commit (hreal : p.Realizes P base l A) {o : Offer}
    (hout : (A.ends x).outgoing = some o)
    (hack : (A.ends x).generation ∈ (A.ends x.peer).acks)
    (hmax : (p.party x).session.ratchetGeneration ≠ u32Max) :
    ∃ l', (p.commit x).Realizes P base l' (A.commit x o) := by
  have hsession := hreal.session x
  have hgen := hsession.generation
  have hbumps := hreal.keeps.bumps ideal x
  have hlt := lt_of_le_of_ne hbumps.generation_le hmax
  have hstaged := hsession.outgoing_some o hout
  have ho : ((p.party x).session.ratchetGeneration, o) ∈ (l x).offers := by
    rw [hreal.offers, hgen]
    exact (hreal.safe x).outgoing o hout
  obtain ⟨hpeer, _, _⟩ := hreal.safe.agreement hout hack
  have hpeer' : (p.party x.peer).session.ratchetGeneration =
      (p.party x).session.ratchetGeneration := by
    rw [(hreal.session x.peer).generation, hpeer, hgen]
  have hends : (A.commit x o).ends x = { A.ends x with
      generation := (A.ends x).generation + 1, outgoing := none } :=
    ends_set_self ..
  have hpeerEnds : (A.commit x o).ends x.peer = A.ends x.peer := ends_set_peer ..
  have hwinner : ∀ n < (A.ends x.peer).generation, (A.commit x o).winner n = A.winner n :=
    fun n hn => Function.update_of_ne (hpeer ▸ hn).ne ..
  have hfrom : (p.party x).session.outgoingProposal.IsFrom P (p.party x).session.rootKey o.secret :=
    hstaged ▸ o.isFrom_staged P _
  have hpair : (p.party x).session.outgoingProposal.hybridPair = some o.pair := by
    rw [hstaged]
    rfl
  have hcommit := commitOutgoingRekey_eq_of_isFrom hfrom hpair
  rw [saturatingSucc_of_lt hlt] at hcommit
  refine ⟨_, hreal.set (x := x) (hreal.keeps.commit_staged ideal ho hstaged hmax)
    (hreal.safe.commit hout hack) (party_set_peer ..) (Function.update_of_ne x.peer_ne ..)
    hpeerEnds hwinner ?_ ?_ ?_ ?_ ?_ ?_ ?_⟩
  · rw [Pair.commit, party_set_self]
    exact hsession.commit ideal hbumps hlt hout fun n o' h => hpeer ▸ hreal.safe.incoming_le h
  · rw [Function.update_self, hends, ← hreal.offers]
    rfl
  · rw [hends, Function.update_self]
    intro n hn hmax'
    rcases Nat.le_succ_iff.1 hn with hle | rfl
    · rw [Ledger.enter_seed_of_ne _ (by omega), hreal.seeds x n hle hmax',
        seed_commit_of_le hle]
    · rw [seed_succ_of_winner (A.winner_commit_self x o),
        root_commit_of_le le_rfl, ← hgen, Ledger.enter_seed_self, ← hsession.root]
  · rw [Pair.commit, party_set_self, hends]
    dsimp only
    rw [hcommit]
    exact hreal.pending x
  · rw [Pair.commit, party_set_self, hends]
    exact hreal.tags x
  · rw [Pair.commit, party_set_self]
    dsimp only
    rw [hcommit]
    have hknows := hreal.knows x
    refine ⟨fun _ => hknows.view hpeer'.le, ?_, fun _ o' ho' => ?_⟩
    · rw [hends]
      exact hknows.opens
    · rw [hpeer', hgen, A.winner_commit_self] at ho'
      rw [(Prod.mk.inj (Option.some.inj ho')).2]
  · -- the peer is behind now, and has made no offer of the new generation
    rw [Pair.commit, party_set_self]
    dsimp only
    rw [hcommit]
    refine ⟨fun h => ?_, fun n o' ho' hn => ?_, fun h => ?_⟩
    · dsimp only at h
      omega
    · rw [hpeerEnds] at ho'
      have := (hreal.safe.peer x).offers_le n o' ho'
      dsimp only at hn
      omega
    · dsimp only at h
      omega

end Ideal

end Pair

end KyberPipe
