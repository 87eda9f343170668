import KyberPipe.Pair.Ledger

/-!
# Ledgers along honest runs

Every honest run of the two ends keeps a ledger for each of them. The induction is over the
actions of the run, and every action is a sequence of elementary moves and commits.
-/

namespace KyberPipe

variable {K C : Type}

namespace Pair

open DoubleRatchetState

/-- Both ends agree with the ledgers `l`, and no two offers share their coins. -/
structure Keeps (P : Primitives K C) (p : Pair K C) (l : Role → Ledger K) : Prop where
  reachable : ∀ x, (p.party x).session.Reachable P
  fits : ∀ x, (p.party x).session.Fits P (l x) (l x.peer)
  logged : ∀ x, ∀ e ∈ (p.party x).sent, Logged P (l x) (p.party x).session.ratchetGeneration e
  drawn : ∀ x n o, (n, o) ∈ (l x).offers → o.coins ∈ p.drawn
  coins : ∀ x n o y m o', (n, o) ∈ (l x).offers → (m, o') ∈ (l y).offers → o.coins = o'.coins →
    x = y ∧ n = m ∧ o = o'

variable {P : Primitives K C} {p : Pair K C} {l : Role → Ledger K} {x : Role}

theorem Keeps.wellFormed (hkeeps : p.Keeps P l) (x : Role) : p.WellFormed x := by
  intro e he
  obtain ⟨nonce, c, payload, hmsg, _⟩ := hkeeps.logged x e he
  refine ⟨payload, ?_⟩
  rw [hmsg]
  rfl

variable {o : Offer}

theorem Keeps.valid (hkeeps : p.Keeps P l) {x : Role} {n : ℕ} (ho : (n, o) ∈ (l x).offers) :
    o.Valid P :=
  ((hkeeps.fits x).offers n o ho).2

variable {payload : Option RekeyPayload}

/-- The payload of a packet is an offer of its generation. -/
theorem Keeps.offer_of_payload (hkeeps : p.Keeps P l) {e : Packet C} (he : e ∈ (p.party x).sent)
    (hpayload : payload = none ∨ e.msg = messageOf e.msg.nonce e.msg.ciphertext payload) :
    ∀ q, payload = some q → ∃ o, (e.msg.nonce.generation, o) ∈ (l x).offers ∧ o.payload = q := by
  rintro q rfl
  have hmsg := hpayload.resolve_left (by simp)
  obtain ⟨nonce, c, payload', hmsg', _, _, _, hoffer⟩ := hkeeps.logged x e he
  -- the fields of the message determine the payload
  have heq : payload' = some q := by
    have hct := congrArg RatchetEncryptedMessage.rekeyCiphertext (hmsg'.symm.trans hmsg)
    have hx := congrArg RatchetEncryptedMessage.rekeyX25519Pk (hmsg'.symm.trans hmsg)
    have hm := congrArg RatchetEncryptedMessage.rekeyMlkemPk (hmsg'.symm.trans hmsg)
    cases payload' with
    | none => cases hct
    | some q' =>
      obtain ⟨_, _, _⟩ := q'
      obtain ⟨_, _, _⟩ := q
      simp only [messageOf, Option.map_some, Option.some.injEq] at hct hx hm
      rw [hct, hx, hm]
  rw [hmsg']
  exact hoffer q heq

/-- One end moves on, with the same offers or with one more, whose coins were not drawn
before. -/
theorem Keeps.set (hkeeps : p.Keeps P l) (a : Party K C) (own : Ledger K)
    (drawn : List (BitVec 256)) (hreach : a.session.Reachable P)
    (hfits : a.session.Fits P own (l x.peer))
    (hlogged : ∀ e ∈ a.sent, Logged P own a.session.ratchetGeneration e)
    (hdrawn : p.drawn ⊆ drawn)
    (hoffers : own.offers = (l x).offers ∨ ∃ g o, own.offers = insert (g, o) (l x).offers ∧
      o.coins ∉ p.drawn ∧ o.coins ∈ drawn) :
    ({ p.set x a with drawn } : Pair K C).Keeps P (Function.update l x own) := by
  have hsub : (l x).offers ⊆ own.offers := by
    rcases hoffers with h | ⟨g, o, h, _⟩
    · exact h.ge
    · exact h ▸ Set.subset_insert _ _
  -- an offer is an old one or the new one
  have hcases : ∀ y n o, (n, o) ∈ (Function.update l x own y).offers → (n, o) ∈ (l y).offers ∨
      y = x ∧ own.offers = insert (n, o) (l x).offers ∧ o.coins ∉ p.drawn ∧ o.coins ∈ drawn := by
    intro y n o ho
    rcases Role.eq_or_eq_peer x y with rfl | rfl
    · rw [Function.update_self] at ho
      rcases hoffers with h | ⟨g, o', h, hfresh⟩
      · exact .inl (h ▸ ho)
      · rcases h ▸ ho with heq | hold
        · obtain ⟨rfl, rfl⟩ := Prod.mk.inj heq
          exact .inr ⟨rfl, h, hfresh⟩
        · exact .inl hold
    · rw [Function.update_of_ne x.peer_ne] at ho
      exact .inl ho
  constructor
  · intro y
    rcases Role.eq_or_eq_peer x y with rfl | rfl
    · rwa [party_set_self]
    · rw [party_set_peer]
      exact hkeeps.reachable _
  · intro y
    rcases Role.eq_or_eq_peer x y with rfl | rfl
    · rw [party_set_self, Function.update_self, Function.update_of_ne y.peer_ne]
      exact hfits
    · have hpeer := hkeeps.fits x.peer
      rw [Role.peer_peer] at hpeer
      rw [party_set_peer, Function.update_of_ne x.peer_ne, Role.peer_peer, Function.update_self]
      exact hpeer.mono_peer hsub
  · intro y
    rcases Role.eq_or_eq_peer x y with rfl | rfl
    · rwa [party_set_self, Function.update_self]
    · rw [party_set_peer, Function.update_of_ne x.peer_ne]
      exact hkeeps.logged _
  · intro y n o ho
    rcases hcases y n o ho with hold | ⟨_, _, _, hnew⟩
    · exact hdrawn (hkeeps.drawn y n o hold)
    · exact hnew
  · intro y n o z m o' ho ho' hcoins
    rcases hcases y n o ho with hold | ⟨rfl, h, hfresh, _⟩
    · rcases hcases z m o' ho' with hold' | ⟨_, _, hfresh', _⟩
      · exact hkeeps.coins y n o z m o' hold hold' hcoins
      · exact absurd (hcoins ▸ hkeeps.drawn y n o hold) hfresh'
    · rcases hcases z m o' ho' with hold' | ⟨rfl, h', _, _⟩
      · exact absurd (hcoins ▸ hkeeps.drawn z m o' hold') hfresh
      · -- the new offer was not among the old ones, so both are the same
        have hmem : (n, o) ∈ insert (m, o') (l z).offers := h' ▸ h ▸ Set.mem_insert _ _
        rcases hmem with heq | hold
        · obtain ⟨rfl, rfl⟩ := Prod.mk.inj heq
          exact ⟨rfl, rfl, rfl⟩
        · exact absurd (hkeeps.drawn z n o hold) hfresh

/-! ## Moves -/

section

variable (hkeeps : p.Keeps P l)
include hkeeps

theorem Keeps.session {s' : DoubleRatchetState K C} (hstep : Evolves P (p.party x).session s')
    (hgen : s'.ratchetGeneration = (p.party x).session.ratchetGeneration)
    (hfits : s'.Fits P (l x) (l x.peer)) (ackGen : ℕ) :
    (p.set x { p.party x with session := s', ackGen }).Keeps P l := by
  have hset := hkeeps.set { p.party x with session := s', ackGen } (l x) p.drawn
    ((hkeeps.reachable x).step hstep) hfits
    (by
      rw [hgen]
      exact hkeeps.logged x)
    (List.Subset.refl _) (.inl rfl)
  rwa [Function.update_eq_self] at hset

theorem Keeps.withAckState (pending carrier : Option ℕ)
    (cache : Option (ℕ × RatchetEncryptedMessage C)) :
    (p.set x { p.party x with
      session := (p.party x).session.withAckState pending carrier cache }).Keeps P l :=
  hkeeps.session (.ackState pending carrier cache) rfl
    ((hkeeps.fits x).of_eq rfl rfl rfl rfl rfl rfl rfl ⟨rfl, rfl, rfl, rfl, rfl, rfl⟩) _

theorem Keeps.draw (rnd : EncryptRandomness) : (p.draw rnd).Keeps P l :=
  { hkeeps with drawn := fun x n o ho => List.mem_cons_of_mem _ (hkeeps.drawn x n o ho) }

/-- Entering the next generation keeps the packets logged. -/
theorem Keeps.enter {s' : DoubleRatchetState K C} {k : K} (hstep : Evolves P (p.party x).session s')
    (hgen : s'.ratchetGeneration = (p.party x).session.ratchetGeneration + 1)
    (hfits : s'.Fits P ((l x).enter ((p.party x).session.ratchetGeneration + 1) k) (l x.peer))
    (ackGen : ℕ) :
    (p.set x { p.party x with session := s', ackGen }).Keeps P (Function.update l x
      ((l x).enter ((p.party x).session.ratchetGeneration + 1) k)) := by
  refine hkeeps.set { p.party x with session := s', ackGen } _ p.drawn
    ((hkeeps.reachable x).step hstep) hfits ?_ (List.Subset.refl _) (.inl rfl)
  intro e he
  have hle : (p.party x).session.ratchetGeneration ≤ s'.ratchetGeneration := by omega
  refine (hkeeps.logged x e he).mono hle (fun n hn => ?_) (subset_refl _)
  exact Ledger.enter_seed_of_ne _ (by omega) _

end

section Encrypt

variable {pt : Bytes} {rnd : EncryptRandomness} {now : Clock} {tag : Option ℕ}
variable {res : Except KyberError (RatchetEncryptedMessage C)} {s' : DoubleRatchetState K C}

theorem Keeps.logged_emit (hkeeps : p.Keeps P l) {own : Ledger K} (hseed : own.seed = (l x).seed)
    (hsub : (l x).offers ⊆ own.offers) (hstep : EncryptStep P (p.party x).session pt rnd now res s')
    (hpayload : ∀ q, payload = some q →
      ∃ o, ((p.party x).session.ratchetGeneration, o) ∈ own.offers ∧ o.payload = q)
    (hseals : ∀ m, res = .ok m → (p.party x).session.Seals P pt payload m) :
    ∀ e ∈ ((p.party x).emit pt tag res.toOption s').sent,
      Logged P own s'.ratchetGeneration e := by
  intro e he
  rw [hstep.send_count.1]
  rcases List.mem_append.1 he with hold | hnew
  · exact (hkeeps.logged x e hold).mono le_rfl (fun n _ => by rw [hseed]) hsub
  · cases res with
    | error _ => cases hnew
    | ok m =>
      obtain rfl := List.mem_singleton.1 hnew
      exact (hkeeps.fits x).logged (hseals m rfl) hseed hpayload

variable (kem : P.KemCorrect)
include kem

theorem Keeps.repeats (hkeeps : p.Keeps P l)
    (hstep : EncryptStep P (p.party x).session pt rnd now res s')
    (hout : s'.outgoingProposal = (p.party x).session.outgoingProposal)
    (hqueue : ∀ c ∈ s'.rekeyPendingConfirmQueue,
      ∃ c' ∈ (p.party x).session.rekeyPendingConfirmQueue, c'.payload = c.payload)
    (hpayload : ∀ q, payload = some q →
      ∃ c ∈ (p.party x).session.rekeyPendingConfirmQueue, c.payload = q)
    (hseals : ∀ m, res = .ok m → (p.party x).session.Seals P pt payload m) :
    ((p.set x ((p.party x).emit pt tag res.toOption s')).draw rnd).Keeps P l := by
  have hset := hkeeps.set ((p.party x).emit pt tag res.toOption s') (l x)
    (rnd.encapsulation.mlkemCoins :: p.drawn)
    ((hkeeps.reachable x).step (.encrypt hstep))
    ((hkeeps.fits x).repeats kem hstep hout hqueue)
    (hkeeps.logged_emit rfl (subset_refl _) hstep ?_ hseals)
    (List.subset_cons_self _ _) (.inl rfl)
  · rw [Function.update_eq_self] at hset
    exact hset
  · intro q hq
    obtain ⟨c, hc, rfl⟩ := hpayload q hq
    exact (hkeeps.fits x).offer_of_carrier hc

theorem Keeps.proposes (hkeeps : p.Keeps P l) (hfresh : rnd.encapsulation.mlkemCoins ∉ p.drawn)
    (hstep : EncryptStep P (p.party x).session pt rnd now res s')
    (h : Proposes P (p.party x).session rnd o s')
    (hseals : ∀ m, res = .ok m → (p.party x).session.Seals P pt (some o.payload) m) :
    ((p.set x ((p.party x).emit pt tag res.toOption s')).draw rnd).Keeps P
      (Function.update l x ((l x).add (p.party x).session.ratchetGeneration o)) := by
  refine hkeeps.set ((p.party x).emit pt tag res.toOption s') _
    (rnd.encapsulation.mlkemCoins :: p.drawn)
    ((hkeeps.reachable x).step (.encrypt hstep)) ((hkeeps.fits x).proposes kem hstep h)
    (hkeeps.logged_emit rfl (Set.subset_insert _ _) hstep ?_ hseals)
    (List.subset_cons_self _ _)
    (.inr ⟨_, o, rfl, h.coins ▸ hfresh, h.coins ▸ List.mem_cons_self⟩)
  intro q hq
  exact ⟨o, Set.mem_insert _ _, Option.some.inj hq⟩

/-- An encryption, whether it makes an offer or not. -/
theorem Keeps.encrypt (hkeeps : p.Keeps P l) (tag : Option ℕ)
    (hfresh : rnd.encapsulation.mlkemCoins ∉ p.drawn)
    (hstep : EncryptStep P (p.party x).session pt rnd now res s') :
    ∃ l', ((p.set x ((p.party x).emit pt tag res.toOption s')).draw rnd).Keeps P l' := by
  obtain ⟨payload, hcarries, hseals⟩ := hstep.carries
  cases hcarries with
  | repeats hout hqueue hpayload =>
    exact ⟨l, hkeeps.repeats kem hstep hout hqueue hpayload hseals⟩
  | proposes h => exact ⟨_, hkeeps.proposes kem hfresh hstep h hseals⟩

end Encrypt

section Ideal

variable (ideal : P.Ideal)
include ideal

section

variable (hkeeps : p.Keeps P l)
include hkeeps

theorem Keeps.bumps (x : Role) : (p.party x).session.BumpsOnCommit :=
  ((hkeeps.reachable x).spent ideal).1

theorem Keeps.decrypt {e : Packet C} {now : Clock} {res : Except KyberError Bytes}
    {s' : DoubleRatchetState K C} (he : e ∈ (p.party x.peer).sent)
    (hpayload : payload = none ∨ e.msg = messageOf e.msg.nonce e.msg.ciphertext payload)
    (hstep : DecryptStep P (p.party x).session e.msg.nonce e.msg.ciphertext payload now res s')
    (ackGen : ℕ) :
    s'.ratchetGeneration = (p.party x).session.ratchetGeneration ∧
        (p.set x { p.party x with session := s', ackGen }).Keeps P l ∨
      ∃ r ss, s'.ratchetGeneration = (p.party x).session.ratchetGeneration + 1 ∧
        (p.set x { p.party x with session := s', ackGen }).Keeps P (Function.update l x
          ((l x).enter ((p.party x).session.ratchetGeneration + 1) (P.nextRecvChain r ss))) := by
  rcases (hkeeps.fits x).decrypt (hkeeps.bumps ideal x) (fun n o ho => hkeeps.valid ho)
    (hkeeps.offer_of_payload he hpayload) hstep with ⟨hgen, hfits⟩ | ⟨r, ss, hgen, hfits⟩
  · exact .inl ⟨hgen, hkeeps.session (.decrypt hstep) hgen hfits ackGen⟩
  · exact .inr ⟨r, ss, hgen, hkeeps.enter (.decrypt hstep) hgen hfits ackGen⟩

theorem Keeps.commit_staged (ho : ((p.party x).session.ratchetGeneration, o) ∈ (l x).offers)
    (hstaged : (p.party x).session.outgoingProposal = o.staged P (p.party x).session.rootKey)
    (hmax : (p.party x).session.ratchetGeneration ≠ u32Max) :
    (p.commit x).Keeps P (Function.update l x ((l x).enter
      ((p.party x).session.ratchetGeneration + 1)
      (P.nextSendChain (p.party x).session.rootKey o.secret))) := by
  have hlt := lt_of_le_of_ne (hkeeps.bumps ideal x).generation_le hmax
  have hpair : (p.party x).session.outgoingProposal.hybridPair = some o.pair := by
    rw [hstaged]
    rfl
  refine hkeeps.enter .commitOutgoing ?_ ((hkeeps.fits x).commitOutgoing ho hstaged hlt) _
  rw [commitOutgoingRekey_eq_of_isFrom (hstaged ▸ o.isFrom_staged P _) hpair]
  exact saturatingSucc_of_lt hlt

theorem Keeps.commit : ∃ l', (p.commit x).Keeps P l' := by
  have hfits := hkeeps.fits x
  rcases hfits.outgoing with ⟨hempty, _⟩ | ⟨o, ho, hstaged, _⟩
  · have hcancel := commitOutgoingRekey_of_empty (s := (p.party x).session)
      (by rw [hempty]; exact ⟨rfl, rfl, rfl⟩)
    refine ⟨l, hkeeps.session .commitOutgoing ?_ ?_ _⟩
    · rw [hcancel]
      rfl
    · rw [hcancel]
      exact hfits.cancelOutgoing
  · by_cases hmax : (p.party x).session.ratchetGeneration = u32Max
    · obtain ⟨hgen, hlast⟩ := hfits.commitOutgoing_last hstaged hmax
      exact ⟨l, hkeeps.session .commitOutgoing hgen hlast _⟩
    · exact ⟨_, hkeeps.commit_staged ideal ho hstaged hmax⟩

end

variable (kem : P.KemCorrect)
include kem

theorem Keeps.moves {q : Pair K C} (hkeeps : p.Keeps P l) (hmove : Moves P x p q) :
    ∃ l', q.Keeps P l' := by
  cases hmove with
  | @encrypt s₀ s' pt tag rnd now res hstart hstep hfresh htag =>
    rcases hstart with rfl | rfl
    · exact hkeeps.encrypt kem tag hfresh hstep
    · have hstep' : EncryptStep P ((p.set x { p.party x with
          session := (p.party x).session.takePendingRekeyAckSeq.2 }).party x).session pt rnd now
          res s' := by
        rw [party_set_self]
        exact hstep
      have hkept := (hkeeps.withAckState (x := x) none none none).encrypt kem tag hfresh
        hstep'
      rw [set_set, party_set_self] at hkept
      exact hkept
  | decrypt he hpayload hstep =>
    rcases hkeeps.decrypt ideal he hpayload hstep _ with ⟨_, h⟩ | ⟨r, ss, _, h⟩
    · exact ⟨_, h⟩
    · exact ⟨_, h⟩
  | ackState _ _ => exact ⟨l, hkeeps.withAckState _ _ _⟩
  | take rnd => exact ⟨l, (hkeeps.withAckState none none none).draw rnd⟩
  | draw rnd => exact ⟨l, hkeeps.draw rnd⟩

theorem Keeps.movesStar {q : Pair K C} (hkeeps : p.Keeps P l)
    (hmoves : Relation.ReflTransGen (Moves P x) p q) : ∃ l', q.Keeps P l' := by
  induction hmoves with
  | refl => exact ⟨l, hkeeps⟩
  | tail _ hmove ih =>
    obtain ⟨l', hkeeps'⟩ := ih
    exact hkeeps'.moves ideal kem hmove

theorem Keeps.exec (hkeeps : p.Keeps P l) {action : Action} (hhonest : p.Honest action) :
    ∃ l', (p.exec P x action).Keeps P l' := by
  by_cases hprocess : ∃ i now, action = .processAck i now
  · obtain ⟨i, now, rfl⟩ := hprocess
    cases he : (p.party x.peer).sent[i]? with
    | none =>
      refine ⟨l, ?_⟩
      simp only [Pair.exec, he]
      exact hkeeps
    | some e =>
      obtain ⟨payload, res, s₁, hmsg, _, hstep, hcases⟩ :=
        processAck_cases (P := P) now he (hkeeps.wellFormed x.peer)
      obtain ⟨l₁, hkeeps₁⟩ := hkeeps.moves ideal kem
        (.decrypt (List.mem_of_getElem? he) (.inr hmsg) hstep)
      rw [← hmsg] at hkeeps₁
      rcases hcases with heq | ⟨_, _, _, _, _, heq⟩
      · rw [heq]
        exact ⟨l₁, hkeeps₁⟩
      · rw [heq]
        exact hkeeps₁.commit ideal
  · refine hkeeps.movesStar ideal kem (exec_moves hhonest (hkeeps.wellFormed x.peer) ?_)
    exact fun i now heq => hprocess ⟨i, now, heq⟩

end Ideal

/-! ## Runs -/

theorem keeps_initial (P : Primitives K C) (secret : Bytes) (seed : Role → KeygenSeed)
    (knows : Role → Bool) :
    let p := initial P secret seed knows
    p.Keeps P fun x => ⟨fun _ => (p.party x).session.send.key, ∅⟩ := by
  refine ⟨fun x => ⟨secret, _, seed x, _, _, .refl⟩, fun x => ?_, (by rintro _ _ ⟨⟩),
    (by rintro _ _ _ ⟨⟩), (by rintro _ _ _ _ _ _ ⟨⟩)⟩
  refine ⟨fun _ => rfl, .inl ⟨rfl, rfl⟩, (by rintro _ _ ⟨⟩), (by rintro _ ⟨⟩), ?_,
    .inl ⟨rfl, rfl, rfl⟩⟩
  intro xpk mpk hx hm
  refine ⟨seed x.peer, ?_⟩
  simp only [initial, newWithKeypair] at hx hm
  split_ifs at hx hm
  exact ⟨(Option.some.inj hx).symm, (Option.some.inj hm).symm⟩

theorem Reached.keeps (ideal : P.Ideal) (kem : P.KemCorrect)
    {Allowed : Pair K C → Role × Action → Prop}
    (hallowed : ∀ p a, Allowed p a → p.Honest a.2) (hreached : Reached P Allowed p) :
    ∃ l, p.Keeps P l := by
  obtain ⟨secret, seed, knows, actions, hfollows, rfl⟩ := hreached
  refine Machine.run_invariant_of_follows (fun p => ∃ l, p.Keeps P l) ?_
    ⟨_, keeps_initial P secret seed knows⟩ hfollows
  rintro p a ⟨l, hkeeps⟩ ha
  exact hkeeps.exec ideal kem (hallowed p a ha)

end Pair

end KyberPipe
