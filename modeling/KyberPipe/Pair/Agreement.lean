import KyberPipe.Pair.NewGeneration
import KyberPipe.Pair.Refinement

/-!
# Agreement of rekeys

`process_rekey_ack` matches an acknowledgement by the sequence number of the carrier alone. If every
one that matches is for a carrier of the current generation, whoever commits finds its proposal
staged at the peer. Sequence numbers restart in every generation, so one of an earlier generation
can match as well, and then the proposal may be unknown to the peer.
-/

namespace KyberPipe

open Symbolic

variable {K C : Type}

/-- The carrier that a packet acknowledges, by its sequence number. -/
def Packet.ackedSeq (P : Primitives K C) (e : Packet C) : Option ℕ :=
  match P.fromJson e.plaintext with
  | some (.rekeyAck seq) => some seq
  | _ => none

namespace DoubleRatchetState

variable {P : Primitives K C} {s : DoubleRatchetState K C} {now : Clock}

/-- A match of an acknowledgement commits our own proposal. -/
theorem ratchetProcessRekeyAckBinary_of_true {msg : RatchetEncryptedMessage C}
    (h : (s.ratchetProcessRekeyAckBinary P msg now).1 = .ok true) :
    ∃ pt seq s₁, s.decryptMessage P msg now = (.ok pt, s₁) ∧
      P.fromJson pt = some (.rekeyAck seq) ∧
      (∃ carrier ∈ s₁.rekeyPendingConfirmQueue, carrier.carrierSeq = seq) ∧
      (s.ratchetProcessRekeyAckBinary P msg now).2 = s₁.commitOutgoingRekey := by
  unfold ratchetProcessRekeyAckBinary at h ⊢
  generalize s.decryptMessage P msg now = r at h ⊢
  obtain ⟨res, s₁⟩ := r
  cases res with
  | error e => cases h
  | ok pt =>
    dsimp only at h ⊢
    split at h
    · cases h
    · rename_i seq hjson
      have hany := Except.ok.inj h
      unfold processRekeyAck at hany
      split_ifs at hany with hmatch
      obtain ⟨carrier, hmem, hseq⟩ := List.any_eq_true.1 hmatch
      refine ⟨pt, seq, s₁, rfl, hjson, ⟨carrier, hmem, eq_of_beq hseq⟩, ?_⟩
      simp only [processRekeyAck, if_pos hmatch]
    · cases h

end DoubleRatchetState

namespace Pair

open DoubleRatchetState

variable (P : Primitives K C)

/-- An acknowledgement that matches a queued carrier by its sequence number is for a carrier of
the current generation. -/
def Timely (p : Pair K C) (x : Role) : Action → Prop
  | .processAck i _ => ∀ e ∈ (p.party x.peer).sent[i]?, ∀ seq ∈ e.ackedSeq P,
      (∃ c ∈ (p.party x).session.rekeyPendingConfirmQueue, c.carrierSeq = seq) →
        e.ackGen = some (p.party x).session.ratchetGeneration
  | _ => True

instance (p : Pair K C) (x : Role) : ∀ action, Decidable (p.Timely P x action)
  | .processAck i _ => inferInstanceAs (Decidable (∀ e ∈ (p.party x.peer).sent[i]?,
      ∀ seq ∈ e.ackedSeq P, (∃ c ∈ (p.party x).session.rekeyPendingConfirmQueue,
        c.carrierSeq = seq) → e.ackGen = some (p.party x).session.ratchetGeneration))
  | .encrypt _ _ _ | .decrypt _ _ | .decryptPlain _ | .peekAck _ _ | .takeAck _ _
  | .consumeAck => .isTrue trivial

variable {P} {base : K} {p q : Pair K C} {l : Role → Ledger K} {A : RekeyProtocol Offer} {x : Role}

/-! ## Moves -/

theorem Realizes.withAckState (hreal : p.Realizes P base l A) {pending : Option ℕ}
    (carrier : Option ℕ) (cache : Option (ℕ × RatchetEncryptedMessage C))
    (hpending : pending = (p.party x).session.pendingRekeyAckSeq ∨ pending = none) :
    (p.set x { p.party x with
      session := (p.party x).session.withAckState pending carrier cache }).Realizes P base l A := by
  have hsame : SameKem (p.party x).session
      ((p.party x).session.withAckState pending carrier cache) := ⟨rfl, rfl, rfl, rfl⟩
  refine hreal.set (x := x) (hreal.keeps.withAckState _ _ _) hreal.safe (party_set_peer ..) rfl rfl
    (fun _ _ => rfl) ?_ (hreal.offers x) (hreal.seeds x) ?_ ?_ ?_ ?_
  all_goals rw [party_set_self]
  · exact (hreal.session x).withAckState _ _ _
  · intro hsome
    rcases hpending with rfl | rfl
    · exact hreal.pending x hsome
    · cases hsome
  · exact hreal.tags x
  · exact (hreal.knows x).of_same hsame rfl rfl
  · exact (hreal.knows_peer x).of_same_peer hsame rfl rfl

theorem Realizes.draw (hreal : p.Realizes P base l A) (rnd : EncryptRandomness) :
    (p.draw rnd).Realizes P base l A :=
  { hreal with keeps := hreal.keeps.draw rnd }

section Ideal

variable (ideal : P.Ideal) (kem : P.KemCorrect)
include ideal kem

omit ideal in
/-- A move that takes in no packet makes at most a proposal. -/
theorem Realizes.sends (hreal : p.Realizes P base l A) (hsend : Sends P x p q) :
    ∃ l' B, q.Realizes P base l' B ∧ RekeyProtocol.Speaks x A B := by
  cases hsend with
  | @encrypt s₀ s' pt tag rnd now res hstart hstep hfresh htag =>
    have hacked : ∀ n, tag = some n → n ∈ (A.ends x).acks := by
      intro n hn
      rcases htag with rfl | ⟨rfl, hsome⟩
      · cases hn
      · rw [← Option.some.inj hn]
        exact hreal.pending x hsome
    rcases hstart with rfl | rfl
    · exact hreal.encrypt kem hacked hfresh hstep
    · have htaken := hreal.withAckState (x := x) none none (.inr rfl)
      have hstep' : EncryptStep P ((p.set x { p.party x with
          session := (p.party x).session.withAckState none none none }).party x).session pt rnd
          now res s' := by
        rw [party_set_self]
        exact hstep
      have hreal' := htaken.encrypt kem hacked hfresh hstep'
      rw [set_set, party_set_self] at hreal'
      exact hreal'
  | ackState _ hpending => exact ⟨l, A, hreal.withAckState _ _ hpending, .silent⟩
  | take rnd => exact ⟨l, A, (hreal.withAckState none none (.inr rfl)).draw rnd, .silent⟩
  | draw rnd => exact ⟨l, A, hreal.draw rnd, .silent⟩

theorem Realizes.moves (hreal : p.Realizes P base l A) (hmove : Moves P x p q) :
    ∃ l' B, q.Realizes P base l' B := by
  have hsent : Sends P x p q → ∃ l' B, q.Realizes P base l' B := by
    intro hsend
    obtain ⟨l', B, hreal', _⟩ := hreal.sends kem hsend
    exact ⟨l', B, hreal'⟩
  cases hmove with
  | encrypt hstart hstep hfresh htag => exact hsent (.encrypt hstart hstep hfresh htag)
  | decrypt he hpayload hstep =>
    obtain ⟨l', B, hreal', _⟩ := hreal.decrypt ideal kem he hpayload hstep
    exact ⟨l', B, hreal'⟩
  | ackState cache hpending => exact hsent (.ackState cache hpending)
  | take rnd => exact hsent (.take rnd)
  | draw rnd => exact hsent (.draw rnd)

theorem Realizes.movesStar (hreal : p.Realizes P base l A)
    (hmoves : Relation.ReflTransGen (Moves P x) p q) : ∃ l' B, q.Realizes P base l' B := by
  induction hmoves with
  | refl => exact ⟨l, A, hreal⟩
  | tail _ hmove ih =>
    obtain ⟨l', B, hreal'⟩ := ih
    exact hreal'.moves ideal kem hmove

/-! ## Acknowledgements -/

/-- A timely acknowledgement that matches finds our proposal standing, and the peer has
acknowledged a carrier of this generation. -/
theorem Realizes.matched (hreal : p.Realizes P base l A) {e : Packet C}
    {payload : Option RekeyPayload} {now : Clock} {pt : Bytes} {seq : ℕ}
    {s₁ : DoubleRatchetState K C} (he : e ∈ (p.party x.peer).sent)
    (hmsg : e.msg = messageOf e.msg.nonce e.msg.ciphertext payload)
    (htimely : ∀ seq ∈ e.ackedSeq P,
      (∃ c ∈ (p.party x).session.rekeyPendingConfirmQueue, c.carrierSeq = seq) →
        e.ackGen = some (p.party x).session.ratchetGeneration)
    (hstep : DecryptStep P (p.party x).session e.msg.nonce e.msg.ciphertext payload now (.ok pt) s₁)
    (hjson : P.fromJson pt = some (.rekeyAck seq))
    (hmatch : ∃ c ∈ s₁.rekeyPendingConfirmQueue, c.carrierSeq = seq) :
    ∃ l' B o, (p.set x ((p.party x).takeIn e.msg (.ok pt, s₁))).Realizes P base l' B ∧
      RekeyProtocol.Hears x A B ∧ (B.ends x).outgoing = some o ∧
      (B.ends x).generation ∈ (B.ends x.peer).acks ∧ s₁.ratchetGeneration ≠ u32Max := by
  obtain ⟨l', B, hreal', hears⟩ := hreal.decrypt ideal kem he (.inr hmsg) hstep
  rw [← hmsg] at hreal'
  have hsession := hreal'.session x
  have hfits := hreal'.keeps.fits x
  rw [party_set_self] at hsession hfits
  have hsession : s₁.Realizes P base B x := hsession
  have hgen := (hreal.session x).generation
  -- a queued carrier belongs to a standing proposal
  obtain ⟨carrier, hmem, hseq⟩ := hmatch
  have hout : ∃ o, (B.ends x).outgoing = some o := by
    refine Option.ne_none_iff_exists'.1 fun hnone => ?_
    rcases hfits.outgoing with ⟨_, hnil⟩ | ⟨o, _, hstaged, _⟩
    · have hnil : s₁.rekeyPendingConfirmQueue = [] := hnil
      rw [hnil] at hmem
      cases hmem
    · have hstaged : s₁.outgoingProposal = o.staged P s₁.rootKey := hstaged
      rw [hsession.outgoing_none hnone] at hstaged
      cases congrArg OutgoingProposal.rootKey hstaged
  obtain ⟨o, hout⟩ := hout
  -- so the generation did not change
  have hle : (B.ends x).generation ≤ (A.ends x).generation := by
    have ho := (hreal'.safe x).outgoing o hout
    rw [hears.offers] at ho
    exact (hreal.safe x).offers_le _ o ho
  have hsame : s₁.ratchetGeneration = (p.party x).session.ratchetGeneration := by
    have hmono := hsession.generation
    rcases (hreal.keeps.decrypt ideal he (.inr hmsg) hstep 0) with ⟨h, _⟩ | ⟨_, _, h, _⟩
    · exact h
    · omega
  -- the plaintext of the packet is what was sealed
  have hplain : e.plaintext = pt := by
    obtain ⟨nonce, c, payload', hmsg', _, _, hseal, _⟩ := hreal.keeps.logged x.peer e he
    have hc : c = e.msg.ciphertext := by
      rw [hmsg']
      rfl
    obtain ⟨key, hdec⟩ := hstep.exists_open
    rw [hc] at hseal
    exact (ideal.seal_inj hseal (ideal.seal_of_open (aeadOpen_of_decryptChacha20 hdec))).2.2.1
  have hacked : seq ∈ e.ackedSeq P := by
    simp only [Packet.ackedSeq, hplain, hjson]
    rfl
  have htag := htimely seq hacked ⟨carrier, hstep.keepsProposal.queue_sublist.subset hmem, hseq⟩
  refine ⟨l', B, o, hreal', hears, hout, ?_, ?_⟩
  · rw [hears.peer, ← hsession.generation, hsame]
    exact hreal.tags x.peer e he _ htag
  · rw [hsame]
    exact hstep.generation_ne

/-- Every honest and timely action continues the protocol run. -/
theorem Realizes.exec (hreal : p.Realizes P base l A) {action : Action}
    (hhonest : p.Honest action) (htimely : p.Timely P x action) :
    ∃ l' B, (p.exec P x action).Realizes P base l' B := by
  have hwell := hreal.keeps.wellFormed x.peer
  by_cases hprocess : ∃ i now, action = .processAck i now
  · obtain ⟨i, now, rfl⟩ := hprocess
    cases he : (p.party x.peer).sent[i]? with
    | none =>
      refine ⟨l, A, ?_⟩
      simp only [Pair.exec, he]
      exact hreal
    | some e =>
      obtain ⟨payload, res, s₁, hmsg, _, hstep, hcases⟩ := processAck_cases (P := P) now he hwell
      have hmem := List.mem_of_getElem? he
      rcases hcases with heq | ⟨pt, seq, rfl, hjson, hmatch, heq⟩
      · rw [heq]
        obtain ⟨l', B, hreal', _⟩ := hreal.decrypt ideal kem hmem (.inr hmsg) hstep
        rw [← hmsg] at hreal'
        exact ⟨l', B, hreal'⟩
      · rw [heq]
        obtain ⟨l', B, o, hreal', _, hout, hack, hmax⟩ := hreal.matched ideal kem hmem hmsg
          (htimely e he) hstep hjson hmatch
        have hmax' : ((p.set x ((p.party x).takeIn e.msg (.ok pt, s₁))).party
            x).session.ratchetGeneration ≠ u32Max := by
          rw [party_set_self]
          exact hmax
        obtain ⟨l'', hreal''⟩ := hreal'.commit ideal hout hack hmax'
        exact ⟨l'', _, hreal''⟩
  · refine hreal.movesStar ideal kem (exec_moves hhonest hwell ?_)
    exact fun i now heq => hprocess ⟨i, now, heq⟩

omit kem in
/-- Fresh sessions carry out the empty protocol run. -/
theorem realizes_initial (secret : Bytes) (seed : Role → KeygenSeed) (knows : Role → Bool) :
    let p := initial P secret seed knows
    p.Realizes P (initialRootKey P secret)
      (fun x => ⟨fun _ => (p.party x).session.send.key, ∅⟩) {} := by
  intro p
  have hsend : ∀ x, (p.party x).session.send.key =
      RekeyProtocol.seed P (initialRootKey P secret) {} x 0 := by
    intro x
    cases x <;> rfl
  have hrecv : ∀ x, (p.party x).session.recv.key =
      RekeyProtocol.seed P (initialRootKey P secret) {} x.peer 0 := by
    intro x
    cases x <;> rfl
  refine ⟨keeps_initial P secret seed knows, RekeyProtocol.safe_init, fun x => ?_, fun _ => rfl,
    ?_, (by rintro _ ⟨⟩), (by rintro _ _ ⟨⟩), fun x => ?_⟩
  · refine ⟨rfl, rfl, fun _ => ?_, (by rintro ⟨⟩), fun _ => rfl, (by rintro _ ⟨⟩),
      fun _ => ⟨⟨rfl, rfl, rfl⟩, rfl, rfl, rfl⟩, (by rintro _ _ ⟨⟩)⟩
    refine ⟨_, keysFit_newWithKeypair ideal secret (x == .initiator) _ _ _, fun n hn => ?_⟩
    obtain rfl := Nat.le_zero.1 hn
    exact hrecv x
  · intro x n hn _
    obtain rfl := Nat.le_zero.1 hn
    exact hsend x
  · refine ⟨fun _ => ?_, (by rintro _ _ ⟨⟩), (by rintro ⟨⟩)⟩
    simp only [p, initial, newWithKeypair]
    constructor
    · intro pk hpk
      split_ifs at hpk
      exact (Option.some.inj hpk).symm
    · intro pk hpk
      split_ifs at hpk
      exact (Option.some.inj hpk).symm

/-- Every honest and timely run carries out a run of the rekey protocol. -/
theorem Reached.realizes {Allowed : Pair K C → Role × Action → Prop}
    (hallowed : ∀ p a, Allowed p a → p.Honest a.2 ∧ p.Timely P a.1 a.2)
    (hreached : Reached P Allowed p) : ∃ base l A, p.Realizes P base l A := by
  obtain ⟨secret, seed, knows, actions, hfollows, rfl⟩ := hreached
  refine ⟨initialRootKey P secret, ?_⟩
  refine Machine.run_invariant_of_follows
    (fun p => ∃ l A, p.Realizes P (initialRootKey P secret) l A) ?_
    ⟨_, _, realizes_initial ideal secret seed knows⟩ hfollows
  rintro p a ⟨l, A, hreal⟩ ha
  obtain ⟨hhonest, htimely⟩ := hallowed p a ha
  exact hreal.exec ideal kem hhonest htimely

/-! ## Agreement -/

/-- In every honest run in which each acknowledgement that matches a queued carrier is for one of
the current generation, an end that commits its proposal on an acknowledgement finds exactly that
proposal staged at its peer: the same root and the two chains with the roles swapped. -/
theorem rekey_agreement
    (hrun : Reached P (fun p a => p.Honest a.2 ∧ p.Timely P a.1 a.2) p) {i : ℕ} {e : Packet C}
    {now : Clock} (he : (p.party x.peer).sent[i]? = some e)
    (htimely : p.Timely P x (.processAck i now))
    (hmatched : ((p.party x).session.ratchetProcessRekeyAckBinary P e.msg now).1 = .ok true) :
    let s' := ((p.party x).session.ratchetProcessRekeyAckBinary P e.msg now).2
    let staged := (p.party x.peer).session.incomingProposal
    staged.rootKey = some s'.rootKey ∧ staged.receivingChainKey = some s'.send.key ∧
      staged.sendingChainKey = some s'.recv.key := by
  intro s' staged
  obtain ⟨base, l, A, hreal⟩ := hrun.realizes ideal kem (fun _ _ h => h)
  obtain ⟨pt, seq, s₁, hdec, hjson, hmatch, hcommit⟩ :=
    ratchetProcessRekeyAckBinary_of_true hmatched
  have hmem := List.mem_of_getElem? he
  obtain ⟨payload, hmsg⟩ := hreal.keeps.wellFormed x.peer e hmem
  have hstep := decryptMessage_step (P := P) now (p.party x).session hmsg
  rw [hdec] at hstep
  obtain ⟨l', B, o, hreal', _, hout, hack, _⟩ := hreal.matched ideal kem hmem hmsg (htimely e he)
    hstep hjson hmatch
  -- the peer has the offer staged over the same root
  obtain ⟨hgen, _, hin⟩ := hreal'.safe.agreement hout hack
  have hpeer := hreal'.session x.peer
  have hown := hreal'.session x
  rw [party_set_peer] at hpeer
  rw [party_set_self] at hown
  have hown : s₁.Realizes P base B x := hown
  have hholds := hpeer.incoming_some _ o hin
  rw [hpeer.generation, hgen, min_self, ← hown.generation, ← hown.root] at hholds
  have hfrom : s₁.outgoingProposal.IsFrom P s₁.rootKey o.secret :=
    hown.outgoing_some o hout ▸ o.isFrom_staged P s₁.rootKey
  have hpair : s₁.outgoingProposal.hybridPair = some o.pair := by
    rw [hown.outgoing_some o hout]
    rfl
  have hs' : s' = s₁.commitOutgoingRekey := hcommit
  rw [hs', commitOutgoingRekey_eq_of_isFrom hfrom hpair]
  exact ⟨hholds.isFrom.1, hholds.isFrom.2.2, hholds.isFrom.2.1⟩

end Ideal

/-- The first rekey of a run. -/
theorem rekey_agreement_first_rekey : ∃ p e,
    Reached primitives
      (fun p a => p.Honest a.2 ∧ p.Timely primitives a.1 a.2) p ∧
    (p.party .responder).sent[0]? = some e ∧
    let r := (p.party .initiator).session.ratchetProcessRekeyAckBinary primitives e.msg
      ⟨0, 0⟩
    let staged := (p.party .responder).session.incomingProposal
    r.1 = .ok true ∧ r.2.ratchetGeneration = 1 ∧ staged.rootKey = some r.2.rootKey ∧
      staged.receivingChainKey = some r.2.send.key ∧
      staged.sendingChainKey = some r.2.recv.key := by
  have hrun := reached_after
    (fun p a => p.Honest a.2 ∧ p.Timely primitives a.1 a.2) acknowledged
    (by decide +kernel)
  have hfacts : let p := after acknowledged
      p.Timely primitives .initiator (.processAck 0 ⟨0, 0⟩) ∧
      ∃ e ∈ (p.party .responder).sent[0]?,
        ((p.party .initiator).session.ratchetProcessRekeyAckBinary primitives e.msg
          ⟨0, 0⟩).1 = .ok true ∧
        ((p.party .initiator).session.ratchetProcessRekeyAckBinary primitives e.msg
          ⟨0, 0⟩).2.ratchetGeneration = 1 := by
    decide +kernel
  generalize after acknowledged = p at hrun hfacts
  obtain ⟨htimely, e, he, hmatched, hgen⟩ := hfacts
  exact ⟨p, e, hrun, he, hmatched, hgen, rekey_agreement ideal kemCorrect hrun he htimely hmatched⟩

/-- The first acknowledgement of carrier 100 brings the initiator to generation 1. The responder
follows and, since the consumed carrier is still in its slot, queues it again. Its second
acknowledgement matches the initiator's carrier 100 of generation 1, which it has never seen. -/
theorem rekey_agreement_fails_for_late_ack : ∃ p e,
    Reached primitives (fun p a => p.Honest a.2) p ∧
    e ∈ (p.party .responder).sent ∧
    let r := (p.party .initiator).session.ratchetProcessRekeyAckBinary primitives e.msg
      ⟨0, 0⟩
    let peer := (p.party .responder).session
    r.1 = .ok true ∧ r.2.ratchetGeneration = 2 ∧ peer.ratchetGeneration = 1 ∧
      peer.incomingProposal.rootKey = none ∧ peer.rootKey ≠ r.2.rootKey := by
  have hrun := reached_after (fun p a => p.Honest a.2) acknowledgedTwice
    (by decide +kernel)
  have hfacts : let p := after acknowledgedTwice
      ∃ e ∈ (p.party .responder).sent,
        let r := (p.party .initiator).session.ratchetProcessRekeyAckBinary primitives
          e.msg ⟨0, 0⟩
        let peer := (p.party .responder).session
        r.1 = .ok true ∧ r.2.ratchetGeneration = 2 ∧ peer.ratchetGeneration = 1 ∧
          peer.incomingProposal.rootKey = none ∧ peer.rootKey ≠ r.2.rootKey := by
    decide +kernel
  generalize after acknowledgedTwice = p at hrun hfacts
  obtain ⟨e, he, hrest⟩ := hfacts
  exact ⟨p, e, hrun, he, hrest⟩

/-! ## Staying in step -/

/-- In every honest and timely run no end is more than one generation ahead. In the same generation
both have the same root, and one receives on the chain that the other sends on. An end that is
behind has no proposal of its own and holds one of its peer. -/
theorem ends_stay_in_step (ideal : P.Ideal) (kem : P.KemCorrect)
    (hrun : Reached P (fun p a => p.Honest a.2 ∧ p.Timely P a.1 a.2) p) (x : Role) :
    let s := (p.party x).session
    let t := (p.party x.peer).session
    s.ratchetGeneration ≤ t.ratchetGeneration + 1 ∧
      (s.ratchetGeneration = t.ratchetGeneration → s.rootKey = t.rootKey ∧
        (s.ratchetGeneration ≠ u32Max → ∃ seed n, P.chain.IsSeed seed ∧
          s.recv.key = P.chain.stateAt seed n ∧
          t.send.key = P.chain.stateAt seed t.send.messageCount)) ∧
      (s.ratchetGeneration = t.ratchetGeneration + 1 →
        t.outgoingProposal = {} ∧ t.incomingProposal.rootKey.isSome) := by
  intro s t
  obtain ⟨base, l, A, hreal⟩ := hrun.realizes ideal kem (fun _ _ h => h)
  have hs : s.Realizes P base A x := hreal.session x
  have ht : t.Realizes P base A x.peer := hreal.session x.peer
  have hlead := (hreal.safe x).lead
  have hbehind := (hreal.safe x).ahead
  rw [← hs.generation, ← ht.generation] at hlead hbehind
  refine ⟨hlead, fun hgen => ⟨?_, fun hmax => ?_⟩, fun hahead => ?_⟩
  · rw [hs.root, ht.root, hgen]
  · obtain ⟨h, hfit, hseed⟩ := hs.keys hmax
    have hsend := (hreal.keeps.fits x.peer).send (hgen ▸ hmax)
    rw [hreal.seeds x.peer _ ht.generation.le (hgen ▸ hmax), ← hgen, ← hseed _ le_rfl] at hsend
    exact ⟨_, _, hfit.isSeed _ le_rfl, hfit.recv, hsend⟩
  · obtain ⟨hnone, hsome, -⟩ := hbehind hahead
    obtain ⟨⟨n, o⟩, hin⟩ := Option.isSome_iff_exists.1 hsome
    have hholds := ht.incoming_some n o hin
    exact ⟨ht.outgoing_none hnone, by rw [hholds.isFrom.1]; rfl⟩

/-- The initiator has committed its first proposal, and the responder follows. -/
theorem ends_stay_in_step_across_rekey : ∃ p,
    Reached primitives (fun p a => p.Honest a.2 ∧ p.Timely primitives a.1 a.2) p ∧
    (p.party .responder).session.ratchetGeneration = 1 ∧
    (p.party .responder).session.rootKey = (p.party .initiator).session.rootKey := by
  have hrun := reached_after (fun p a => p.Honest a.2 ∧ p.Timely primitives a.1 a.2)
    (rekeyed ++ sends 101 1 ++ [(.responder, .decrypt 101 ⟨0, 0⟩)]) (by decide +kernel)
  have hgens : let p := after (rekeyed ++ sends 101 1 ++ [(.responder, .decrypt 101 ⟨0, 0⟩)])
      (p.party .responder).session.ratchetGeneration = 1 ∧
        (p.party .initiator).session.ratchetGeneration = 1 := by
    decide +kernel
  generalize after (rekeyed ++ sends 101 1 ++ [(.responder, .decrypt 101 ⟨0, 0⟩)]) = p at hrun hgens
  exact ⟨p, hrun, hgens.1, ((ends_stay_in_step ideal kemCorrect hrun .responder).2.1
    (hgens.1.trans hgens.2.symm)).1⟩

end Pair

end KyberPipe
