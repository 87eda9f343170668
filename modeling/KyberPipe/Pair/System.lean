import KyberPipe.Ratchet.Completeness

/-!
# Two sessions over a network

The two ends of a pairing exchange messages over a network that may drop, delay, reorder and
duplicate them: every packet that was ever sent can be taken from the wire at any time. Each end
encrypts, decrypts, produces and processes acknowledgements.

Packets and ends carry history that no code reads: the plaintext of a packet, and the generation of
the carrier that an acknowledgement is about.
-/

namespace KyberPipe

open DoubleRatchetState

/-- The two ends of a pairing. -/
inductive Role where
  | initiator
  | responder
  deriving DecidableEq

namespace Role

/-- The other end. -/
def peer : Role → Role
  | initiator => responder
  | responder => initiator

@[simp]
theorem peer_peer (x : Role) : x.peer.peer = x := by
  cases x <;> rfl

theorem peer_ne (x : Role) : x.peer ≠ x := by
  cases x <;> decide

theorem eq_or_eq_peer (x y : Role) : y = x ∨ y = x.peer := by
  cases x <;> cases y <;> decide

end Role

/-- A message on the wire with its plaintext and, for an acknowledgement, the generation of the
carrier it acknowledges. -/
structure Packet (C : Type) where
  msg : RatchetEncryptedMessage C
  plaintext : Bytes
  ackGen : Option ℕ := none

/-- One end: its session, what it has sent, and the generation of the carrier that
`pendingRekeyAckSeq` names. -/
structure Party (K C : Type) where
  session : DoubleRatchetState K C
  sent : List (Packet C) := []
  ackGen : ℕ := 0

/-- Both ends and the encapsulation coins drawn so far. -/
structure Pair (K C : Type) where
  party : Role → Party K C
  drawn : List (BitVec 256) := []

/-- What an end does. Packets of the other end are given by their index on the wire. -/
inductive Action where
  | encrypt (plaintext : Bytes) (rnd : EncryptRandomness) (now : Clock)
  | decrypt (index : ℕ) (now : Clock)
  | decryptPlain (index : ℕ)
  | peekAck (rnd : EncryptRandomness) (now : Clock)
  | takeAck (rnd : EncryptRandomness) (now : Clock)
  | consumeAck
  | processAck (index : ℕ) (now : Clock)

/-- The packet that an action takes in. -/
def Action.packet : Action → Option ℕ
  | .decrypt i _ | .decryptPlain i | .processAck i _ => some i
  | .encrypt _ _ _ | .peekAck _ _ | .takeAck _ _ | .consumeAck => none

variable {K C : Type}

/-! ## History of acknowledgements -/

namespace DoubleRatchetState

/-- The generation of the carrier in the incoming slot after the payload of `msg` was
derived. -/
def carrierGenAfter (s : DoubleRatchetState K C) (msg : RatchetEncryptedMessage C) : ℕ :=
  if msg.rekeyCiphertext.isSome && !s.carrierSuperseded msg.nonce.generation then
    msg.nonce.generation
  else s.incomingProposal.carrierGen.getD s.ratchetGeneration

/-- The generation of the carrier that `pendingRekeyAckSeq` names after `msg` led from `s` to `s'`.
A commit queues the carrier of the committed proposal unless another one is pending, and a carrier
of the current generation is queued unless our own proposal stays. -/
def ackGenAfter (s s' : DoubleRatchetState K C) (msg : RatchetEncryptedMessage C)
    (delivered : Bool) (old : ℕ) : ℕ :=
  if s'.ratchetGeneration ≠ s.ratchetGeneration then
    if s.pendingRekeyAckSeq.isSome then old else s.carrierGenAfter msg
  else if delivered && msg.rekeyCiphertext.isSome &&
      msg.nonce.generation == s.ratchetGeneration && s'.outgoingProposal.rootKey.isNone then
    msg.nonce.generation
  else old

end DoubleRatchetState

/-! ## Steps -/

namespace Party

/-- The party after an encryption. -/
def emit (a : Party K C) (plaintext : Bytes) (ackGen : Option ℕ)
    (msg : Option (RatchetEncryptedMessage C)) (s : DoubleRatchetState K C) : Party K C :=
  { a with
    session := s
    sent := a.sent ++ (msg.map (⟨·, plaintext, ackGen⟩)).toList }

/-- The party after `msg` was taken in. -/
def takeIn (a : Party K C) (msg : RatchetEncryptedMessage C)
    (result : Except KyberError Bytes × DoubleRatchetState K C) : Party K C :=
  { a with
    session := result.2
    ackGen := a.session.ackGenAfter result.2 msg result.1.isOk a.ackGen }

variable (P : Primitives K C) (a : Party K C)

/-- The party after a peek: nothing new is sent if the acknowledgement is cached. -/
def peekAck (rnd : EncryptRandomness) (now : Clock) : Party K C :=
  let r := a.session.ratchetGenerateRekeyAckPeek P rnd now
  match a.session.pendingRekeyAckSeq with
  | some seq =>
    if (a.session.peekedAckCache.filter (·.1 == seq)).isSome then { a with session := r.2 }
    else a.emit (P.toJson (.rekeyAck seq)) (some a.ackGen) r.1.toOption.join r.2
  | none => { a with session := r.2 }

/-- The party after the pending acknowledgement was taken and encrypted. -/
def takeAck (rnd : EncryptRandomness) (now : Clock) : Party K C :=
  let r := a.session.ratchetGenerateRekeyAck P rnd now
  match a.session.pendingRekeyAckSeq with
  | some seq => a.emit (P.toJson (.rekeyAck seq)) (some a.ackGen) r.1.toOption.join r.2
  | none => { a with session := r.2 }

/-- The party after an acknowledgement of the peer was processed. -/
def processAck (msg : RatchetEncryptedMessage C) (now : Clock) : Party K C :=
  { a.takeIn msg (a.session.decryptMessage P msg now) with
    session := (a.session.ratchetProcessRekeyAckBinary P msg now).2 }

end Party

namespace Pair

/-- Replace one end. -/
def set (p : Pair K C) (x : Role) (a : Party K C) : Pair K C :=
  { p with party := Function.update p.party x a }

/-- Draw the coins of an encryption. -/
def draw (p : Pair K C) (rnd : EncryptRandomness) : Pair K C :=
  { p with drawn := rnd.encapsulation.mlkemCoins :: p.drawn }

@[simp]
theorem party_set_self (p : Pair K C) (x : Role) (a : Party K C) : (p.set x a).party x = a :=
  Function.update_self ..

@[simp]
theorem party_set_peer (p : Pair K C) (x : Role) (a : Party K C) :
    (p.set x a).party x.peer = p.party x.peer :=
  Function.update_of_ne x.peer_ne ..

variable (P : Primitives K C)

/-- One action of end `x`. -/
def exec (p : Pair K C) (x : Role) : Action → Pair K C
  | .encrypt pt rnd now =>
    let r := (p.party x).session.ratchetEncrypt P pt rnd now
    (p.set x ((p.party x).emit pt none r.1.toOption r.2)).draw rnd
  | .decrypt i now =>
    match (p.party x.peer).sent[i]? with
    | some e => p.set x ((p.party x).takeIn e.msg ((p.party x).session.receive P e.msg now))
    | none => p
  | .decryptPlain i =>
    match (p.party x.peer).sent[i]? with
    | some e =>
      p.set x ((p.party x).takeIn (messageOf e.msg.nonce e.msg.ciphertext none)
        ((p.party x).session.ratchetDecrypt P e.msg.nonce e.msg.ciphertext))
    | none => p
  | .peekAck rnd now => (p.set x ((p.party x).peekAck P rnd now)).draw rnd
  | .takeAck rnd now => (p.set x ((p.party x).takeAck P rnd now)).draw rnd
  | .consumeAck =>
    p.set x { p.party x with session := (p.party x).session.ratchetConsumeRekeyAck.2 }
  | .processAck i now =>
    match (p.party x.peer).sent[i]? with
    | some e => p.set x ((p.party x).processAck P e.msg now)
    | none => p

/-- Two fresh sessions of one pairing. Each end knows the public keys of the other or none. -/
def initial (secret : Bytes) (seed : Role → KeygenSeed) (knows : Role → Bool) : Pair K C where
  party x :=
    let peerPair := generateHybridKeypair P (seed x.peer)
    { session := .newWithKeypair P secret (x == .initiator) (generateHybridKeypair P (seed x))
        (if knows x then some peerPair.x25519Pk else none)
        (if knows x then some peerPair.mlkemPk else none) }

/-- The two ends as a machine. -/
def machine : Machine (Pair K C) (Role × Action) Unit where
  step p a := ((), p.exec P a.1 a.2)

/-- An honest action draws fresh encapsulation coins. -/
def Honest (p : Pair K C) : Action → Prop
  | .encrypt _ rnd _ => rnd.encapsulation.mlkemCoins ∉ p.drawn
  | .peekAck rnd _ => rnd.encapsulation.mlkemCoins ∉ p.drawn
  | .takeAck rnd _ => rnd.encapsulation.mlkemCoins ∉ p.drawn
  | _ => True

instance (p : Pair K C) : ∀ action, Decidable (p.Honest action)
  | .encrypt _ _ _ => inferInstanceAs (Decidable (¬ _))
  | .peekAck _ _ => inferInstanceAs (Decidable (¬ _))
  | .takeAck _ _ => inferInstanceAs (Decidable (¬ _))
  | .decrypt _ _ | .decryptPlain _ | .consumeAck | .processAck _ _ => .isTrue trivial

/-- A run from fresh sessions, every action of which meets `Allowed`, ends in `p`. -/
def Reached (Allowed : Pair K C → Role × Action → Prop) (p : Pair K C) : Prop :=
  ∃ secret seed knows actions, (machine P).Follows Allowed (initial P secret seed knows) actions ∧
    ((machine P).run (initial P secret seed knows) actions).2 = p

/-! ## Elementary moves -/

/-- An elementary move of end `x`: an encryption, a decryption of a packet of the peer, or
bookkeeping of acknowledgements. Committing our own proposal is not among them. -/
inductive Moves (P : Primitives K C) (x : Role) (p : Pair K C) : Pair K C → Prop
  | encrypt {s₀ s' : DoubleRatchetState K C} {pt : Bytes} {tag : Option ℕ}
      {rnd : EncryptRandomness} {now : Clock}
      {res : Except KyberError (RatchetEncryptedMessage C)}
      (hstart : s₀ = (p.party x).session ∨ s₀ = (p.party x).session.takePendingRekeyAckSeq.2)
      (hstep : DoubleRatchetState.EncryptStep P s₀ pt rnd now res s')
      (hfresh : rnd.encapsulation.mlkemCoins ∉ p.drawn)
      (htag : tag = none ∨
        tag = some (p.party x).ackGen ∧ (p.party x).session.pendingRekeyAckSeq.isSome) :
      Moves P x p ((p.set x ((p.party x).emit pt tag res.toOption s')).draw rnd)
  | decrypt {e : Packet C} {payload : Option RekeyPayload} {now : Clock}
      {res : Except KyberError Bytes} {s' : DoubleRatchetState K C}
      (he : e ∈ (p.party x.peer).sent)
      (hpayload : payload = none ∨ e.msg = messageOf e.msg.nonce e.msg.ciphertext payload)
      (hstep : DoubleRatchetState.DecryptStep P (p.party x).session e.msg.nonce e.msg.ciphertext
        payload now res s') :
      Moves P x p (p.set x ((p.party x).takeIn
        (messageOf e.msg.nonce e.msg.ciphertext payload) (res, s')))
  | ackState {pending : Option ℕ} (cache : Option (ℕ × RatchetEncryptedMessage C))
      (hpending : pending = (p.party x).session.pendingRekeyAckSeq ∨ pending = none) :
      Moves P x p (p.set x { p.party x with
        session := (p.party x).session.withAckState pending
          (p.party x).session.incomingProposal.carrierSeq cache })
  | take (rnd : EncryptRandomness) :
      Moves P x p ((p.set x { p.party x with
        session := (p.party x).session.takePendingRekeyAckSeq.2 }).draw rnd)
  | draw (rnd : EncryptRandomness) : Moves P x p (p.draw rnd)

/-- A move that takes in no packet. -/
inductive Sends (P : Primitives K C) (x : Role) (p : Pair K C) : Pair K C → Prop
  | encrypt {s₀ s' : DoubleRatchetState K C} {pt : Bytes} {tag : Option ℕ}
      {rnd : EncryptRandomness} {now : Clock}
      {res : Except KyberError (RatchetEncryptedMessage C)}
      (hstart : s₀ = (p.party x).session ∨ s₀ = (p.party x).session.takePendingRekeyAckSeq.2)
      (hstep : DoubleRatchetState.EncryptStep P s₀ pt rnd now res s')
      (hfresh : rnd.encapsulation.mlkemCoins ∉ p.drawn)
      (htag : tag = none ∨
        tag = some (p.party x).ackGen ∧ (p.party x).session.pendingRekeyAckSeq.isSome) :
      Sends P x p ((p.set x ((p.party x).emit pt tag res.toOption s')).draw rnd)
  | ackState {pending : Option ℕ} (cache : Option (ℕ × RatchetEncryptedMessage C))
      (hpending : pending = (p.party x).session.pendingRekeyAckSeq ∨ pending = none) :
      Sends P x p (p.set x { p.party x with
        session := (p.party x).session.withAckState pending
          (p.party x).session.incomingProposal.carrierSeq cache })
  | take (rnd : EncryptRandomness) :
      Sends P x p ((p.set x { p.party x with
        session := (p.party x).session.takePendingRekeyAckSeq.2 }).draw rnd)
  | draw (rnd : EncryptRandomness) : Sends P x p (p.draw rnd)

theorem Sends.moves {P : Primitives K C} {x : Role} {p q : Pair K C} (h : Sends P x p q) :
    Moves P x p q := by
  cases h with
  | encrypt hstart hstep hfresh htag => exact .encrypt hstart hstep hfresh htag
  | ackState cache hpending => exact .ackState cache hpending
  | take rnd => exact .take rnd
  | draw rnd => exact .draw rnd

/-- The packets of an end are complete messages: a payload is attached as a whole. -/
def WellFormed (p : Pair K C) (x : Role) : Prop :=
  ∀ e ∈ (p.party x).sent, ∃ payload,
    e.msg = messageOf e.msg.nonce e.msg.ciphertext payload

variable {P} {p : Pair K C} {x : Role}

@[simp]
theorem set_self (p : Pair K C) (x : Role) : p.set x (p.party x) = p := by
  rw [set, Function.update_eq_self]

@[simp]
theorem set_set (p : Pair K C) (x : Role) (a b : Party K C) : (p.set x a).set x b = p.set x b := by
  rw [set, set, set, Function.update_idem]

@[simp]
theorem party_draw (p : Pair K C) (rnd : EncryptRandomness) : (p.draw rnd).party = p.party := rfl

theorem set_draw (p : Pair K C) (rnd : EncryptRandomness) (x : Role) (a : Party K C) :
    (p.draw rnd).set x a = (p.set x a).draw rnd :=
  rfl

variable {e : Packet C}

/-- Decrypting a well-formed message of the peer through either entry. -/
theorem decryptMessage_step {payload : Option RekeyPayload} (now : Clock)
    (s : DoubleRatchetState K C)
    (he : e.msg = messageOf e.msg.nonce e.msg.ciphertext payload) :
    DoubleRatchetState.DecryptStep P s e.msg.nonce e.msg.ciphertext payload now
      (s.decryptMessage P e.msg now).1 (s.decryptMessage P e.msg now).2 := by
  have hfields : e.msg.rekeyCiphertext = payload.map (·.ciphertext) ∧
      e.msg.rekeyX25519Pk = payload.map (·.x25519Pk) ∧
      e.msg.rekeyMlkemPk = payload.map (·.mlkemPk) := by
    rw [he]
    exact ⟨rfl, rfl, rfl⟩
  obtain ⟨hct, hx, hm⟩ := hfields
  unfold decryptMessage
  cases payload with
  | none =>
    rw [hct, hx, hm]
    exact ratchetDecrypt_step P s _ _ now
  | some payload =>
    rw [hct, hx, hm]
    simp only [Option.map_some, Option.isSome_some, Bool.true_or, if_true]
    split_ifs
    · exact .refused _
    · exact decryptPayload_step P s _ _ (some payload) now

variable {rnd : EncryptRandomness}

/-- A peek serves the cached acknowledgement, or encrypts one and caches it. -/
theorem peekAck_sends {now : Clock} (hfresh : rnd.encapsulation.mlkemCoins ∉ p.drawn) :
    Relation.ReflTransGen (Sends P x) p (p.exec P x (.peekAck rnd now)) := by
  unfold exec Party.peekAck ratchetGenerateRekeyAckPeek
  dsimp only
  cases hpending : (p.party x).session.pendingRekeyAckSeq with
  | none =>
    have hclear := Sends.ackState (P := P) (p := p) (x := x) none (.inl hpending.symm)
    exact (Relation.ReflTransGen.single hclear).tail (.draw rnd)
  | some seq =>
    dsimp only
    cases hcache : (p.party x).session.peekedAckCache.filter (·.1 == seq) with
    | some cached =>
      simp only [Option.isSome_some, if_true]
      rw [show { p.party x with session := (p.party x).session } = p.party x from rfl, set_self]
      exact .single (.draw rnd)
    | none =>
      simp only [Option.isSome_none, Bool.false_eq_true, if_false, generateRekeyAck]
      have hmove := Sends.encrypt (p := p) (x := x) (.inl rfl)
        (ratchetEncrypt_step P (p.party x).session (P.toJson (.rekeyAck seq))
          rnd now) hfresh (.inr ⟨rfl, by rw [hpending]; rfl⟩)
      generalize (p.party x).session.ratchetEncrypt P (P.toJson (.rekeyAck seq)) rnd now = r
        at hmove ⊢
      obtain ⟨res, s'⟩ := r
      cases res with
      | error e => exact .single hmove
      | ok ack =>
        refine (Relation.ReflTransGen.single hmove).tail ?_
        have hstore := Sends.ackState (P := P) (x := x)
          (p := (p.set x ((p.party x).emit (P.toJson (.rekeyAck seq)) (some (p.party x).ackGen)
            (some ack) s')).draw rnd) (some (seq, ack)) (.inl rfl)
        simp only [party_draw, party_set_self, set_draw, set_set] at hstore
        exact hstore

/-- Taking an acknowledgement clears the pending carrier and encrypts. -/
theorem takeAck_sends {now : Clock} (hfresh : rnd.encapsulation.mlkemCoins ∉ p.drawn) :
    Relation.ReflTransGen (Sends P x) p (p.exec P x (.takeAck rnd now)) := by
  unfold exec Party.takeAck ratchetGenerateRekeyAck
  dsimp only
  cases hpending : (p.party x).session.pendingRekeyAckSeq with
  | none =>
    simp only [takePendingRekeyAckSeq, hpending]
    exact .single (.take rnd)
  | some seq =>
    have hmove := Sends.encrypt (p := p) (x := x) (.inr rfl)
      (ratchetEncrypt_step P (p.party x).session.takePendingRekeyAckSeq.2
        (P.toJson (.rekeyAck seq)) rnd now) hfresh (.inr ⟨rfl, by rw [hpending]; rfl⟩)
    simp only [takePendingRekeyAckSeq, hpending, generateRekeyAck] at hmove ⊢
    generalize ratchetEncrypt P _ (P.toJson (.rekeyAck seq)) rnd now = r
      at hmove ⊢
    obtain ⟨res, s'⟩ := r
    cases res with
    | error e => exact .single hmove
    | ok ack => exact .single hmove

/-- An honest action that takes in no packet is a sequence of moves that take in no packet. -/
theorem exec_sends {action : Action} (hhonest : p.Honest action) (hnone : action.packet = none) :
    Relation.ReflTransGen (Sends P x) p (p.exec P x action) := by
  cases action with
  | encrypt pt rnd now =>
    exact .single (.encrypt (.inl rfl) (ratchetEncrypt_step P _ pt rnd now) hhonest (.inl rfl))
  | decrypt i now => cases hnone
  | decryptPlain i => cases hnone
  | peekAck rnd now => exact peekAck_sends hhonest
  | takeAck rnd now => exact takeAck_sends hhonest
  | consumeAck => exact .single (.ackState _ (.inr rfl))
  | processAck i now => cases hnone

/-- Taking in a packet of the peer through the rekey-aware entry. -/
theorem decrypt_cases {i : ℕ} (now : Clock) (he : (p.party x.peer).sent[i]? = some e)
    (hwell : p.WellFormed x.peer) :
    ∃ payload res s', e.msg = messageOf e.msg.nonce e.msg.ciphertext payload ∧
      (p.party x).session.receive P e.msg now = (res, s') ∧
      DoubleRatchetState.DecryptStep P (p.party x).session e.msg.nonce e.msg.ciphertext payload
        now res s' ∧
      p.exec P x (.decrypt i now) = p.set x ((p.party x).takeIn e.msg (res, s')) := by
  obtain ⟨payload, hpayload⟩ := hwell e (List.mem_of_getElem? he)
  have hstep := decryptPayload_step P (p.party x).session e.msg.nonce
    e.msg.ciphertext payload now
  rw [← receive_messageOf, ← hpayload] at hstep
  simp only [exec, he]
  generalize (p.party x).session.receive P e.msg now = r at hstep ⊢
  obtain ⟨res, s'⟩ := r
  exact ⟨payload, res, s', hpayload, rfl, hstep, rfl⟩

/-- Every honest action other than processing an acknowledgement is a sequence of elementary
moves. -/
theorem exec_moves {action : Action} (hhonest : p.Honest action)
    (hwell : p.WellFormed x.peer) (hprocess : ∀ i now, action ≠ .processAck i now) :
    Relation.ReflTransGen (Moves P x) p (p.exec P x action) := by
  cases action with
  | encrypt pt rnd now =>
    exact .single (.encrypt (.inl rfl) (ratchetEncrypt_step P _ pt rnd now) hhonest (.inl rfl))
  | decrypt i now =>
    cases he : (p.party x.peer).sent[i]? with
    | none =>
      simp only [exec, he]
      exact .refl
    | some e =>
      obtain ⟨payload, res, s', hpayload, _, hstep, heq⟩ := decrypt_cases (P := P) now he hwell
      have hmove := Moves.decrypt (List.mem_of_getElem? he) (.inr hpayload) hstep
      rw [← hpayload, ← heq] at hmove
      exact .single hmove
  | decryptPlain i =>
    unfold exec
    dsimp only
    split
    · rename_i e he
      exact .single (.decrypt (List.mem_of_getElem? he) (.inl rfl)
        (ratchetDecrypt_step P _ _ _ ⟨0, 0⟩))
    · exact .refl
  | peekAck rnd now =>
    exact Relation.ReflTransGen.mono (fun _ _ => Sends.moves) _ _ (exec_sends hhonest rfl)
  | takeAck rnd now =>
    exact Relation.ReflTransGen.mono (fun _ _ => Sends.moves) _ _ (exec_sends hhonest rfl)
  | consumeAck => exact .single (.ackState _ (.inr rfl))
  | processAck i now => exact absurd rfl (hprocess i now)

/-- End `x` commits its own proposal. -/
def commit (p : Pair K C) (x : Role) : Pair K C :=
  p.set x { p.party x with session := (p.party x).session.commitOutgoingRekey }

/-- Processing an acknowledgement decrypts a packet of the peer and, if it names a queued
carrier, commits our own proposal. -/
theorem processAck_cases {i : ℕ} (now : Clock) (he : (p.party x.peer).sent[i]? = some e)
    (hwell : p.WellFormed x.peer) :
    ∃ payload res s₁, e.msg = messageOf e.msg.nonce e.msg.ciphertext payload ∧
      (p.party x).session.decryptMessage P e.msg now = (res, s₁) ∧
      DoubleRatchetState.DecryptStep P (p.party x).session e.msg.nonce e.msg.ciphertext payload
        now res s₁ ∧
      let q := p.set x ((p.party x).takeIn e.msg (res, s₁))
      (p.exec P x (.processAck i now) = q ∨
        ∃ pt seq, res = .ok pt ∧ P.fromJson pt = some (.rekeyAck seq) ∧
          (∃ c ∈ s₁.rekeyPendingConfirmQueue, c.carrierSeq = seq) ∧
          p.exec P x (.processAck i now) = q.commit x) := by
  obtain ⟨payload, hpayload⟩ := hwell e (List.mem_of_getElem? he)
  have hstep := decryptMessage_step (P := P) now (p.party x).session hpayload
  simp only [exec, he, Party.processAck, ratchetProcessRekeyAckBinary]
  generalize (p.party x).session.decryptMessage P e.msg now = r at hstep ⊢
  obtain ⟨res, s₁⟩ := r
  refine ⟨payload, res, s₁, hpayload, rfl, hstep, ?_⟩
  cases res with
  | error e => exact .inl rfl
  | ok pt =>
    dsimp only
    split
    · exact .inl rfl
    · rename_i seq hjson
      unfold processRekeyAck
      split_ifs with hany
      · refine .inr ⟨pt, seq, rfl, hjson, ?_, ?_⟩
        · obtain ⟨c, hc, hseq⟩ := List.any_eq_true.1 hany
          exact ⟨c, hc, eq_of_beq hseq⟩
        · rw [commit, party_set_self, set_set]
          rfl
      · exact .inl rfl
    · exact .inl rfl

end Pair

/-! ## A symbolic pairing -/

namespace Symbolic

/-- Both ends of a fresh pairing. -/
def pair : Pair Key Ciphertext :=
  .initial primitives [7] (fun | .initiator => ⟨[], [1]⟩ | .responder => ⟨[], [2]⟩) fun _ => true

/-- The pair after a list of actions. -/
def after (actions : List (Role × Action)) : Pair Key Ciphertext :=
  ((Pair.machine primitives).run pair actions).2

/-- The initiator sends `n` messages, drawing randomness from the `first` draw on. -/
def sends (first n : ℕ) : List (Role × Action) :=
  (List.range' first n).map fun i => (.initiator, .encrypt [] (randomness i) ⟨0, 0⟩)

/-- The initiator proposes with its 101st message; the responder receives only that one and
acknowledges it. -/
def acknowledged : List (Role × Action) :=
  sends 0 101 ++ [(.responder, .decrypt 100 ⟨0, 0⟩),
    (.responder, .peekAck (randomness 500) ⟨0, 0⟩), (.responder, .consumeAck)]

/-- The initiator commits. -/
def rekeyed : List (Role × Action) := acknowledged ++ [(.initiator, .processAck 0 ⟨0, 0⟩)]

/-- The responder follows and acknowledges the first carrier once more, and the initiator makes
its second proposal. -/
def acknowledgedTwice : List (Role × Action) :=
  rekeyed ++ sends 101 1 ++ [(.responder, .decrypt 101 ⟨0, 0⟩),
    (.responder, .peekAck (randomness 501) ⟨0, 0⟩)] ++ sends 102 100

theorem reached_after (Allowed : Pair Key Ciphertext → Role × Action → Prop)
    (actions : List (Role × Action))
    (hfollows : (Pair.machine primitives).Follows Allowed pair actions) :
    Pair.Reached primitives Allowed (after actions) :=
  ⟨_, _, _, actions, hfollows, rfl⟩

end Symbolic

end KyberPipe
