import KyberPipe.Pair.HonestRuns
import KyberPipe.Pair.KeySchedule

/-!
# Sessions that carry out the rekey protocol

Every step of a session that the peer's packets allow is a sequence of protocol steps.

The module introduces:

* `Realizes P base A x` — the session carries out end `x` of the protocol run `A`: it has the
  generation, the root and the slots of that end and receives on the peer's sending chains.
* `Carried P s A x` — what is known of the payload of a packet of the peer.
* `HeardAs P base A x` — the session after a decryption carries out a continuation of `A`.

A proposal (`Realizes.proposes`), a decryption (`Realizes.heard`) and a commit of our own proposal
(`Realizes.commit`) lead to sessions that carry out the protocol run with these steps added.
-/

namespace KyberPipe

open RekeyProtocol

variable {K C : Type}

/-- The incoming slot holds nothing of a proposal. -/
structure IncomingProposal.Vacant (p : IncomingProposal K) : Prop where
  empty : p.Empty
  peerX25519Pk : p.peerX25519Pk = none
  peerMlkemPk : p.peerMlkemPk = none
  carrierGen : p.carrierGen = none

/-- The incoming slot holds the peer's offer `o`, derived over root `r` from a carrier of
generation `n`. -/
structure IncomingProposal.Holds (P : Primitives K C) (p : IncomingProposal K) (r : K) (n : ℕ)
    (o : Offer) : Prop where
  isFrom : p.IsFrom P r o.secret
  peerX25519Pk : p.peerX25519Pk = some o.payload.x25519Pk
  peerMlkemPk : p.peerMlkemPk = some o.payload.mlkemPk
  carrierGen : p.carrierGen = some n

variable {p q : IncomingProposal K}

/-- A slot with the same proposal is vacant too. -/
theorem IncomingProposal.Same.vacant (h : p.Same q) (hp : p.Vacant) :
    q.Vacant :=
  ⟨h.empty hp.empty, h.peerX25519Pk.trans hp.peerX25519Pk, h.peerMlkemPk.trans hp.peerMlkemPk,
    h.carrierGen.trans hp.carrierGen⟩

variable {o : Offer}

/-- A slot with the same proposal holds the same offer. -/
theorem IncomingProposal.Same.holds {P : Primitives K C} (h : p.Same q) {r : K} {n : ℕ}
    (hp : p.Holds P r n o) : q.Holds P r n o :=
  ⟨h.isFrom hp.isFrom, h.peerX25519Pk.trans hp.peerX25519Pk, h.peerMlkemPk.trans hp.peerMlkemPk,
    h.carrierGen.trans hp.carrierGen⟩

namespace DoubleRatchetState

/-- The session carries out end `x` of the protocol run `A` over the root key `base`. -/
structure Realizes (P : Primitives K C) (base : K) (A : RekeyProtocol Offer) (x : Role)
    (s : DoubleRatchetState K C) : Prop where
  generation : s.ratchetGeneration = (A.ends x).generation
  root : s.rootKey = A.root P base s.ratchetGeneration
  keys : s.ratchetGeneration ≠ u32Max → ∃ h, s.KeysFit P h ∧
    ∀ n ≤ s.ratchetGeneration, h.seed n = A.seed P base x.peer n
  retained : s.previousRecvChainKey.isSome →
    s.previousRecvAnchor.isSome ∧ s.previousRecvGen.isSome
  outgoing_none : (A.ends x).outgoing = none → s.outgoingProposal = {}
  outgoing_some : ∀ o, (A.ends x).outgoing = some o → s.outgoingProposal = o.staged P s.rootKey
  incoming_none : (A.ends x).incoming = none → s.incomingProposal.Vacant
  incoming_some : ∀ n o, (A.ends x).incoming = some (n, o) →
    s.incomingProposal.Holds P (A.root P base (min n s.ratchetGeneration)) n o

variable {P : Primitives K C} {base : K} {A B : RekeyProtocol Offer} {x : Role}
variable {s s' : DoubleRatchetState K C}

section

variable (hreal : s.Realizes P base A x)
include hreal

/-- The session sees only its own end and the generations before its own. -/
theorem Realizes.congr (hends : B.ends x = A.ends x)
    (hwinner : ∀ n < s.ratchetGeneration, B.winner n = A.winner n) : s.Realizes P base B x where
  generation := hends ▸ hreal.generation
  root := by
    rw [root_congr hwinner]
    exact hreal.root
  keys hmax := by
    obtain ⟨h, hfit, hseed⟩ := hreal.keys hmax
    refine ⟨h, hfit, fun n hn => ?_⟩
    rw [seed_congr fun m hm => hwinner m (hm.trans_le hn)]
    exact hseed n hn
  retained := hreal.retained
  outgoing_none := hends ▸ hreal.outgoing_none
  outgoing_some := hends ▸ hreal.outgoing_some
  incoming_none := hends ▸ hreal.incoming_none
  incoming_some := by
    intro n o ho
    rw [root_congr fun m hm => hwinner m (hm.trans_le (min_le_right _ _))]
    exact hreal.incoming_some n o (hends ▸ ho)

/-- A step within the generation: the slots follow the protocol and the receiving keys stay on
the peer's chains. -/
theorem Realizes.of_slots (hgen : s'.ratchetGeneration = s.ratchetGeneration)
    (hroot : s'.rootKey = s.rootKey)
    (hkeys : ∀ h, s.KeysFit P h → ∃ h', h'.seed = h.seed ∧ s'.KeysFit P h')
    (hretained : s'.previousRecvChainKey.isSome →
      s'.previousRecvAnchor.isSome ∧ s'.previousRecvGen.isSome)
    (hgenB : (B.ends x).generation = (A.ends x).generation) (hwinner : B.winner = A.winner)
    (hout : (B.ends x).outgoing = none → s'.outgoingProposal = {})
    (hout' : ∀ o, (B.ends x).outgoing = some o → s'.outgoingProposal = o.staged P s.rootKey)
    (hin : (B.ends x).incoming = none → s'.incomingProposal.Vacant)
    (hin' : ∀ n o, (B.ends x).incoming = some (n, o) →
      s'.incomingProposal.Holds P (A.root P base (min n s.ratchetGeneration)) n o) :
    s'.Realizes P base B x where
  generation := by rw [hgen, hgenB, hreal.generation]
  root := by
    rw [hroot, hgen, root_congr fun m _ => congrFun hwinner m]
    exact hreal.root
  keys hmax := by
    obtain ⟨h, hfit, hseed⟩ := hreal.keys (hgen ▸ hmax)
    obtain ⟨h', hseed', hfit'⟩ := hkeys h hfit
    refine ⟨h', hfit', fun n hn => ?_⟩
    rw [hseed', hseed n (hgen ▸ hn), seed_congr fun m _ => congrFun hwinner m]
  retained := hretained
  outgoing_none := hout
  outgoing_some := hroot.symm ▸ hout'
  incoming_none := hin
  incoming_some := by
    intro n o ho
    rw [hgen, root_congr fun m _ => congrFun hwinner m]
    exact hin' n o ho

/-- A step that touches neither slot is no step of the protocol. -/
theorem Realizes.of_same (hgen : s'.ratchetGeneration = s.ratchetGeneration)
    (hroot : s'.rootKey = s.rootKey)
    (hkeys : ∀ h, s.KeysFit P h → ∃ h', h'.seed = h.seed ∧ s'.KeysFit P h')
    (hretained : s'.previousRecvChainKey.isSome →
      s'.previousRecvAnchor.isSome ∧ s'.previousRecvGen.isSome)
    (hout : s'.outgoingProposal = s.outgoingProposal)
    (hin : s.incomingProposal.Same s'.incomingProposal) : s'.Realizes P base A x :=
  hreal.of_slots hgen hroot hkeys hretained rfl rfl
    (fun h => hout.trans (hreal.outgoing_none h))
    (fun o h => hout.trans (hreal.outgoing_some o h))
    (fun h => hin.vacant (hreal.incoming_none h))
    (fun n o h => hin.holds (hreal.incoming_some n o h))

/-- A standing proposal is visible in the outgoing slot. -/
theorem Realizes.outgoing_eq_none :
    s.outgoingProposal.rootKey = none ↔ (A.ends x).outgoing = none := by
  cases ho : (A.ends x).outgoing with
  | none => exact iff_of_true (by rw [hreal.outgoing_none ho]) rfl
  | some o => exact iff_of_false (by rw [hreal.outgoing_some o ho]; exact nofun) nofun

/-- A staged proposal is visible in the incoming slot. -/
theorem Realizes.incoming_eq_none :
    s.incomingProposal.rootKey = none ↔ (A.ends x).incoming = none := by
  cases ho : (A.ends x).incoming with
  | none => exact iff_of_true (hreal.incoming_none ho).empty.1 rfl
  | some no =>
    refine iff_of_false ?_ nofun
    rw [(hreal.incoming_some no.1 no.2 ho).isFrom.1]
    exact nofun

end

/-! ## Sending and acknowledgement state -/

section Encrypt

variable {pt : Bytes} {rnd : EncryptRandomness} {now : Clock}
variable {res : Except KyberError (RatchetEncryptedMessage C)}

/-- An encryption that makes no new offer is no step of the protocol. -/
theorem Realizes.repeats (hreal : s.Realizes P base A x) (hstep : EncryptStep P s pt rnd now res s')
    (hout : s'.outgoingProposal = s.outgoingProposal) : s'.Realizes P base A x := by
  refine hreal.of_same hstep.send_count.1 ?_ (fun h hfit => ⟨h, rfl, hstep.keysFit hfit⟩) ?_ hout ?_
  · rw [hstep.frame]
  · rw [hstep.frame]
    exact hreal.retained
  · rw [hstep.frame]
    exact .refl _

/-- An encryption that makes an offer is a proposal of the protocol. -/
theorem Realizes.proposes (hreal : s.Realizes P base A x)
    (hstep : EncryptStep P s pt rnd now res s') (h : Proposes P s rnd o s') :
    RekeyProtocol.Step x A (A.set x { A.ends x with
        outgoing := some o
        offers := insert ((A.ends x).generation, o) (A.ends x).offers }) ∧
      s'.Realizes P base (A.set x { A.ends x with
        outgoing := some o
        offers := insert ((A.ends x).generation, o) (A.ends x).offers }) x := by
  have hin : s.incomingProposal.Same s'.incomingProposal := by
    rw [hstep.frame]
    exact .refl _
  constructor
  · exact .propose o (hreal.outgoing_eq_none.1 h.outgoing) (hreal.incoming_eq_none.1 h.incoming)
  · refine hreal.of_slots hstep.send_count.1 ?_ (fun h hfit => ⟨h, rfl, hstep.keysFit hfit⟩) ?_
      ?_ rfl ?_ ?_ ?_ ?_
    · rw [hstep.frame]
    · rw [hstep.frame]
      exact hreal.retained
    · rw [ends_set_self]
    · rw [ends_set_self]
      rintro ⟨⟩
    · rw [ends_set_self]
      intro o' ho'
      rw [← Option.some.inj ho', h.staged]
    · rw [ends_set_self]
      exact fun hnone => hin.vacant (hreal.incoming_none hnone)
    · rw [ends_set_self]
      exact fun n o' ho' => hin.holds (hreal.incoming_some n o' ho')

end Encrypt

/-- The state of acknowledgements is not part of the protocol. -/
theorem Realizes.withAckState (hreal : s.Realizes P base A x) (pending carrier : Option ℕ)
    (cache : Option (ℕ × RatchetEncryptedMessage C)) :
    (s.withAckState pending carrier cache).Realizes P base A x := by
  refine hreal.of_same rfl rfl (fun h hfit => ⟨h, rfl, ?_⟩) hreal.retained rfl
    ⟨rfl, rfl, rfl, rfl, rfl, rfl⟩
  exact hfit.of_receive_eq rfl rfl rfl rfl rfl
    (hfit.slots.of_kept rfl (.inl ⟨rfl, rfl, rfl⟩) (.inl rfl))

/-! ## Receiving -/

/-- What is known of the payload of a packet of the peer: it is an offer of the packet's
generation, and unless it comes too late it decapsulates to the offer's secret. -/
def Carried (P : Primitives K C) (s : DoubleRatchetState K C) (A : RekeyProtocol Offer)
    (x : Role) (nonce : Nonce) (payload : Option RekeyPayload) : Prop :=
  ∀ q, payload = some q → ∃ o, (nonce.generation, o) ∈ (A.ends x.peer).offers ∧ o.payload = q ∧
    (s.ratchetGeneration ≤ nonce.generation → s.decapsulateRekey P q.ciphertext = some o.secret)

section Receive

variable {nonce : Nonce} {c : C} {aad pt : Bytes} {payload : Option RekeyPayload} {now : Clock}

/-- Deriving a proposal leaves the session alone or stages an offer of the peer. -/
theorem Realizes.derives (hreal : s.Realizes P base A x) (hcarried : s.Carried P A x nonce payload)
    (hderives : Derives P s nonce now payload s') :
    (s' = s ∧ (payload = none ∨ s.carrierSuperseded nonce.generation = true)) ∨
      ∃ o, RekeyProtocol.Step x A (A.set x { A.ends x with
          incoming := some (nonce.generation, o) }) ∧
        s.ratchetGeneration ≤ nonce.generation ∧
        s'.Realizes P base (A.set x { A.ends x with
          incoming := some (nonce.generation, o) }) x := by
  have hkeys : ∀ h, s.KeysFit P h → ∃ h', h'.seed = h.seed ∧ s'.KeysFit P h' :=
    fun h hfit => ⟨h, rfl, hderives.keysFit hfit⟩
  cases hderives with
  | absent => exact .inl ⟨rfl, .inl rfl⟩
  | superseded hsup => exact .inl ⟨rfl, .inr hsup⟩
  | @staged q ss hsup hss =>
    simp only [carrierSuperseded, Bool.or_eq_false_iff, decide_eq_false_iff_not] at hsup
    obtain ⟨hlate, hnewer⟩ := hsup
    obtain ⟨o, ho, rfl, hsecret⟩ := hcarried q rfl
    have hle : s.ratchetGeneration ≤ nonce.generation := Nat.not_lt.1 hlate
    obtain rfl := Option.some.inj (hss.symm.trans (hsecret hle))
    refine .inr ⟨o, .stage ho (hreal.generation ▸ hle) ?_, hle, ?_⟩
    · intro m o' ho'
      rw [(hreal.incoming_some m o' ho').carrierGen] at hnewer
      simpa using hnewer
    · refine hreal.of_slots rfl rfl hkeys hreal.retained ?_ rfl ?_ ?_ ?_ ?_
      · rw [ends_set_self]
      · rw [ends_set_self]
        exact hreal.outgoing_none
      · rw [ends_set_self]
        exact hreal.outgoing_some
      · rw [ends_set_self]
        rintro ⟨⟩
      · rw [ends_set_self]
        intro n o' heq
        obtain ⟨rfl, rfl⟩ := Prod.mk.inj (Option.some.inj heq)
        rw [min_eq_right hle, ← hreal.root]
        exact ⟨⟨rfl, rfl, rfl⟩, rfl, rfl, rfl⟩

/-- Deriving the payload of a packet of the peer continues the protocol run. -/
theorem Realizes.exists_derives (hreal : s.Realizes P base A x)
    (hcarried : s.Carried P A x nonce payload) (hderives : Derives P s nonce now payload s') :
    ∃ B, RekeyProtocol.Hears x A B ∧ s'.Realizes P base B x := by
  rcases hreal.derives hcarried hderives with ⟨rfl, _⟩ | ⟨o, hstep, _, hreal'⟩
  · exact ⟨A, .refl x A, hreal⟩
  · exact ⟨_, .of_step hstep rfl (subset_refl _), hreal'⟩

/-- After an authenticated carrier our own proposal stays, or none stands and the carrier is the
one to acknowledge. -/
theorem resolveRekeyRaceAndAck_cases (s : DoubleRatchetState K C) (seq : ℕ) :
    (s.outgoingProposal.rootKey.isSome ∧
        s.resolveRekeyRaceAndAck seq true = s.cancelPendingIncomingRekey) ∨
      ∃ out queue, (out = {} ∨ s.outgoingProposal.rootKey = none ∧ out = s.outgoingProposal) ∧
        s.resolveRekeyRaceAndAck seq true = { s with
          outgoingProposal := out
          rekeyPendingConfirmQueue := queue
          pendingRekeyAckSeq := some seq } := by
  unfold resolveRekeyRaceAndAck
  split_ifs with htrue hsome hwins
  · cases htrue
  · exact .inr ⟨_, _, .inl rfl, rfl⟩
  · exact .inl ⟨hsome, rfl⟩
  · exact .inr ⟨_, _, .inr ⟨Option.not_isSome_iff_eq_none.1 hsome, rfl⟩, rfl⟩

/-- Deciding a race is an acknowledgement or an insistence of the protocol. -/
theorem Realizes.resolve (hreal : s.Realizes P base A x) {n : ℕ}
    (hin : (A.ends x).incoming = some (n, o)) (hn : (A.ends x).generation ≤ n) (seq : ℕ) :
    ∃ B, RekeyProtocol.Hears x A B ∧ (s.resolveRekeyRaceAndAck seq true).Realizes P base B x ∧
      ((s.resolveRekeyRaceAndAck seq true).outgoingProposal.rootKey = none ∧
          s.ratchetGeneration ∈ (B.ends x).acks ∨
        (s.resolveRekeyRaceAndAck seq true).outgoingProposal.rootKey ≠ none ∧
          (s.resolveRekeyRaceAndAck seq true).pendingRekeyAckSeq = s.pendingRekeyAckSeq) := by
  have hkeys : ∀ h, s.KeysFit P h → ∃ h', h'.seed = h.seed ∧
      (s.resolveRekeyRaceAndAck seq true).KeysFit P h' :=
    fun h hfit => ⟨h, rfl, hfit.resolve seq true⟩
  rcases resolveRekeyRaceAndAck_cases s seq with ⟨hsome, heq⟩ | ⟨out, queue, hout, heq⟩
  · -- our own proposal stays
    rw [heq] at hkeys ⊢
    have hne : s.outgoingProposal.rootKey ≠ none := Option.isSome_iff_ne_none.1 hsome
    have hstands : (A.ends x).outgoing.isSome :=
      Option.isSome_iff_ne_none.2 fun h => hne (hreal.outgoing_eq_none.2 h)
    refine ⟨_, .of_step (.insist hstands) rfl (subset_refl _), ?_, .inr ⟨hne, rfl⟩⟩
    refine hreal.of_slots rfl rfl hkeys hreal.retained ?_ rfl ?_ ?_ ?_ ?_
    · rw [ends_set_self]
    · rw [ends_set_self]
      exact hreal.outgoing_none
    · rw [ends_set_self]
      exact hreal.outgoing_some
    · exact fun _ => ⟨⟨rfl, rfl, rfl⟩, rfl, rfl, rfl⟩
    · rw [ends_set_self]
      rintro _ _ ⟨⟩
  · -- no proposal of our own stands
    rw [heq] at hkeys ⊢
    have hempty : out = {} := by
      rcases hout with rfl | ⟨hnone, rfl⟩
      · rfl
      · exact hreal.outgoing_none (hreal.outgoing_eq_none.1 hnone)
    refine ⟨_, .of_step (.acknowledge hin hn) rfl (Set.subset_insert _ _), ?_, .inl ⟨?_, ?_⟩⟩
    · refine hreal.of_slots rfl rfl hkeys hreal.retained ?_ rfl (fun _ => hempty) ?_ ?_ ?_
      · rw [ends_set_self]
      · rw [ends_set_self]
        rintro _ ⟨⟩
      · rw [ends_set_self]
        exact hreal.incoming_none
      · rw [ends_set_self]
        exact hreal.incoming_some
    · rw [hempty]
    · rw [ends_set_self, hreal.generation]
      exact Set.mem_insert _ _

/-- A nonce that is admitted and not left to the retained chain is of the current or the next
generation. -/
theorem Realizes.generation_of_admits (hreal : s.Realizes P base A x) (hadmits : s.Admits nonce)
    (hskip : s.SkipsPrevious nonce) (hlt : s.ratchetGeneration < u32Max) :
    nonce.generation = s.ratchetGeneration ∨ nonce.generation = s.ratchetGeneration + 1 := by
  rcases hadmits.generation with hcurrent | hnext | ⟨hprev, hck⟩
  · exact .inl hcurrent
  · exact .inr (hnext.trans (saturatingSucc_of_lt hlt))
  · obtain ⟨hanchor, hgen⟩ := hreal.retained hck
    obtain ⟨g, hg⟩ := Option.isSome_iff_exists.1 hgen
    rw [hg] at hprev
    exact absurd (hg.trans (congrArg some hprev.symm)) (hskip hck hanchor)

section Ideal

variable (ideal : P.Ideal)
include ideal

/-- A delivery by the retained chain is no step of the protocol. -/
theorem Realizes.previous {fromCache : Bool} (hreal : s.Realizes P base A x)
    (hdel : PreviousDelivery P s nonce c aad pt fromCache s') : s'.Realizes P base A x := by
  have hkeys : ∀ h, s.KeysFit P h → ∃ h', h'.seed = h.seed ∧ s'.KeysFit P h' := by
    intro h hfit
    obtain ⟨_, _, _, h', _, hseed, hfit'⟩ := hdel.spendsKey ideal hfit
    exact ⟨h', hseed, hfit'⟩
  have hretained : s'.previousRecvChainKey.isSome →
      s'.previousRecvAnchor.isSome ∧ s'.previousRecvGen.isSome := by
    cases hdel with
    | cached _ _ _ _ => exact hreal.retained
    | chain hgen _ _ _ _ _ => exact fun _ => ⟨rfl, Option.isSome_of_eq_some hgen⟩
  refine hreal.of_same ?_ ?_ hkeys hretained ?_ ?_
  · rw [hdel.frame]
  · rw [hdel.frame]
  · rw [hdel.frame]
  · rw [hdel.frame]
    exact .refl _

/-- Neither is one by the current chain. -/
theorem Realizes.current (hreal : s.Realizes P base A x)
    (hdel : CurrentDelivery P s nonce c aad pt s') : s'.Realizes P base A x := by
  refine hreal.of_same ?_ ?_ ?_ ?_ ?_ ?_
  · rw [hdel.frame]
  · rw [hdel.frame]
  · intro h hfit
    obtain ⟨_, _, _, h', _, hseed, hfit'⟩ := hdel.spendsKey ideal hfit
    exact ⟨h', hseed, hfit'⟩
  · rw [hdel.frame]
    exact hreal.retained
  · rw [hdel.frame]
  · rw [hdel.frame]
    exact .refl _

variable {t : DoubleRatchetState K C}

/-- A packet that a cached key or the current chain opens is of the current generation. -/
theorem Realizes.generation_of_current (hreal : s.Realizes P base A x)
    (hmax : s.ratchetGeneration ≠ u32Max)
    (hnext : nonce.generation = s.ratchetGeneration ∨ nonce.generation = s.ratchetGeneration + 1)
    {pt' aad' : Bytes}
    (hseal : P.aeadSeal (P.chain.keyAt (A.seed P base x.peer nonce.generation) nonce.seq) nonce
      pt' aad' = some c) (hdel : CurrentDelivery P s nonce c aad pt t) :
    nonce.generation = s.ratchetGeneration := by
  obtain ⟨h, hfit, hseed⟩ := hreal.keys hmax
  cases hdel with
  | cached hkey _ =>
    have hle : nonce.generation ≤ s.ratchetGeneration := (hfit.cache _ _ hkey).1
    omega
  | chain _ hdec =>
    have hkey := key_eq_of_decryptChacha20 ideal hseal hdec
    rw [hfit.recv, KeyChain.keyAt_stateAt, hseed _ le_rfl] at hkey
    obtain ⟨heq, _⟩ := ideal.keyAt_inj (isSeed_seed ideal _ _)
      (isSeed_seed ideal _ _) hkey
    exact (seed_injective ideal _ heq).symm

/-- A packet that the staged chain opens is of the next generation, and the peer has entered that
generation with the staged proposal. -/
theorem Realizes.ahead_of_pending (hreal : s.Realizes P base A x) (hsafe : A.Safe)
    (hdistinct : ∀ n o m o', (n, o) ∈ (A.ends x.peer).offers → (m, o') ∈ (A.ends x.peer).offers →
      o.secret = o'.secret → n = m) (hreached : nonce.generation ≤ (A.ends x.peer).generation)
    {pt' aad' : Bytes}
    (hseal : P.aeadSeal (P.chain.keyAt (A.seed P base x.peer nonce.generation) nonce.seq) nonce
      pt' aad' = some c) {key : K} (hdel : PendingDelivery P s nonce c aad pt t key) :
    ∃ o, (A.ends x).incoming = some ((A.ends x).generation, o) ∧
      (A.ends x.peer).generation = (A.ends x).generation + 1 := by
  cases hin : (A.ends x).incoming with
  | none => cases hdel.hkey.symm.trans (hreal.incoming_none hin).empty.2.2
  | some no =>
    obtain ⟨n, o⟩ := no
    have hholds := hreal.incoming_some n o hin
    obtain rfl := Option.some.inj (hholds.isFrom.2.2.symm.trans hdel.hkey)
    obtain ⟨hseed, _⟩ := ideal.keyAt_inj (ideal.isSeed_nextSendChain _ _)
      (isSeed_seed ideal _ _) (key_eq_of_decryptChacha20 ideal hseal hdel.hdec)
    obtain ⟨hnext, hproposer, hsecret⟩ :=
      eq_of_seed_eq_nextSendChain ideal hseed.symm
    rw [hreal.generation] at hnext hproposer hsecret
    obtain ⟨ho, hlost⟩ := (hsafe x).incoming n o hin
    by_cases hlt : n < (A.ends x).generation
    · -- the generation of the staged proposal was left with our own
      obtain ⟨o', hwinner⟩ := hlost hlt
      rw [min_eq_left hlt.le, proposer, hwinner] at hproposer
      exact absurd hproposer.symm x.peer_ne
    · rw [min_eq_right (Nat.not_lt.1 hlt)] at hnext hproposer hsecret
      have hlead := (hsafe.peer x).lead
      have hahead : (A.ends x.peer).generation = (A.ends x).generation + 1 := by omega
      obtain ⟨_, _, o', ho', hwinner⟩ := (hsafe.peer x).ahead hahead
      rw [secret, hwinner] at hsecret
      rw [hdistinct n o _ o' ho ho' hsecret.symm]
      exact ⟨o, rfl, hahead⟩

/-- Committing the staged proposal that the peer has committed follows the peer. -/
theorem Realizes.follow (hreal : s.Realizes P base A x) (hbumps : s.BumpsOnCommit)
    (hlt : s.ratchetGeneration < u32Max)
    (hin : (A.ends x).incoming = some ((A.ends x).generation, o))
    (hwinner : A.winner (A.ends x).generation = some (x.peer, o)) {key : K}
    (hdel : PendingDelivery P s nonce c aad pt s' key) :
    s'.Realizes P base (A.set x { A.ends x with
        generation := (A.ends x).generation + 1
        outgoing := none
        incoming := none
        acks := insert (A.ends x).generation (A.ends x).acks }) x ∧
      s'.ratchetGeneration = s.ratchetGeneration + 1 ∧
      s'.send = ⟨A.seed P base x (s.ratchetGeneration + 1), 0⟩ ∧
      s'.ourHybridPair = s.ourHybridPair ∧ s'.peerX25519Pk = some o.payload.x25519Pk ∧
      s'.peerMlkemPk = some o.payload.mlkemPk := by
  have hholds := hreal.incoming_some _ o hin
  rw [← hreal.generation] at hwinner hin
  rw [← hreal.generation, min_self] at hholds
  have hfrom := hholds.isFrom
  have hbump := hbumps.incoming (by rw [hfrom.1]; rfl)
  obtain ⟨h, hfit, hseed⟩ := hreal.keys hlt.ne
  obtain ⟨_, _, _, h', _, hseed', hfit'⟩ := hdel.spendsKey ideal hfit hbumps hlt
  obtain rfl := Option.some.inj (hfrom.2.2.symm.trans hdel.hkey)
  have hstate := hdel.hstate
  rw [commitPendingRekeyWithRaceResolution_eq hfrom hbump, saturatingSucc_of_lt hlt] at hstate
  have hgen : s'.ratchetGeneration = s.ratchetGeneration + 1 := by rw [hstate]; rfl
  refine ⟨⟨?_, ?_, ?_, ?_, ?_, ?_, ?_, ?_⟩, hgen, ?_, ?_, ?_, ?_⟩
  · rw [hgen, ends_set_self, hreal.generation]
  · rw [hgen, root_set, root_succ_of_winner hwinner, hstate]
    rfl
  · intro _
    refine ⟨h', hfit', fun n hn => ?_⟩
    rw [hgen] at hn
    rw [hseed', seed_set]
    rcases Nat.le_succ_iff.1 hn with hle | rfl
    · rw [KeyHistory.install_seed_of_ne _ (by omega), hseed n hle]
    · rw [KeyHistory.install_seed_self, seed_succ_of_winner hwinner]
  · rw [hstate]
    exact fun _ => ⟨rfl, rfl⟩
  · intro _
    rw [hstate]
    show (if s.outgoingProposal.rootKey.isSome then {} else s.outgoingProposal) = _
    split_ifs with hsome
    · rfl
    · exact hreal.outgoing_none (hreal.outgoing_eq_none.1 (Option.not_isSome_iff_eq_none.1 hsome))
  · rw [ends_set_self]
    rintro _ ⟨⟩
  · rw [hstate]
    exact fun _ => ⟨⟨rfl, rfl, rfl⟩, rfl, rfl, rfl⟩
  · rw [ends_set_self]
    rintro _ _ ⟨⟩
  · rw [hstate, seed_succ_of_winner_ne hwinner x.peer_ne]
    rfl
  · rw [hstate]
    rfl
  · rw [hstate]
    show s.incomingProposal.peerX25519Pk.or s.peerX25519Pk = _
    rw [hholds.peerX25519Pk]
    rfl
  · rw [hstate]
    show s.incomingProposal.peerMlkemPk.or s.peerMlkemPk = _
    rw [hholds.peerMlkemPk]
    rfl

end Ideal

/-! ## Decryption -/

/-- The carrier that a commit would queue is the one in the slot. -/
theorem Derives.carrierGenAfter (hderives : Derives P s nonce now payload s') (c : C) :
    s.carrierGenAfter (messageOf nonce c payload) =
      s'.incomingProposal.carrierGen.getD s.ratchetGeneration := by
  cases hderives with
  | absent => simp [DoubleRatchetState.carrierGenAfter, messageOf]
  | superseded hsup => simp [DoubleRatchetState.carrierGenAfter, messageOf, hsup]
  | staged hsup _ =>
    simp only [DoubleRatchetState.carrierGenAfter, messageOf, hsup]
    rfl

/-- The two sessions have the same generation and key material. -/
structure SameKem (s s' : DoubleRatchetState K C) : Prop where
  generation : s'.ratchetGeneration = s.ratchetGeneration
  pair : s'.ourHybridPair = s.ourHybridPair
  peerX25519Pk : s'.peerX25519Pk = s.peerX25519Pk
  peerMlkemPk : s'.peerMlkemPk = s.peerMlkemPk

theorem SameKem.trans {t : DoubleRatchetState K C} (h : SameKem s s') (h' : SameKem s' t) :
    SameKem s t :=
  ⟨h'.generation.trans h.generation, h'.pair.trans h.pair, h'.peerX25519Pk.trans h.peerX25519Pk,
    h'.peerMlkemPk.trans h.peerMlkemPk⟩

/-- Deriving a proposal keeps the key material. -/
theorem Derives.sameKem (h : Derives P s nonce now payload s') : SameKem s s' := by
  rw [h.frame]
  exact ⟨rfl, rfl, rfl, rfl⟩

/-- So does a delivery by the retained chain. -/
theorem PreviousDelivery.sameKem {fromCache : Bool}
    (h : PreviousDelivery P s nonce c aad pt fromCache s') : SameKem s s' := by
  rw [h.frame]
  exact ⟨rfl, rfl, rfl, rfl⟩

/-- So does a delivery by the current chain. -/
theorem CurrentDelivery.sameKem (h : CurrentDelivery P s nonce c aad pt s') : SameKem s s' := by
  rw [h.frame]
  exact ⟨rfl, rfl, rfl, rfl⟩

/-- So does deciding a race. -/
theorem sameKem_resolve (s : DoubleRatchetState K C) (seq : ℕ) (hasPayload : Bool) :
    SameKem s (s.resolveRekeyRaceAndAck seq hasPayload) := by
  rw [resolveRekeyRaceAndAck_frame]
  exact ⟨rfl, rfl, rfl, rfl⟩

section

variable (P) (base) (A) (x)

/-- A follower enters the peer's generation with its own chain of that generation and the public
keys of the winning offer. -/
structure FollowsKem (s s' : DoubleRatchetState K C) : Prop where
  generation : s'.ratchetGeneration = s.ratchetGeneration + 1
  ahead : (A.ends x.peer).generation = (A.ends x).generation + 1
  send : s'.send = ⟨A.seed P base x (s.ratchetGeneration + 1), 0⟩
  pair : s'.ourHybridPair = s.ourHybridPair
  adopted : ∃ o, A.winner (A.ends x).generation = some (x.peer, o) ∧
    s'.peerX25519Pk = some o.payload.x25519Pk ∧ s'.peerMlkemPk = some o.payload.mlkemPk

/-- The session after a decryption carries out a continuation of the protocol run, and the
generation of the carrier it would acknowledge is acknowledged there. -/
def HeardAs (s s' : DoubleRatchetState K C) (ackGen : ℕ) : Prop :=
  ∃ B, RekeyProtocol.Hears x A B ∧ s'.Realizes P base B x ∧
    (s'.pendingRekeyAckSeq.isSome → ackGen ∈ (B.ends x).acks) ∧
    (SameKem s s' ∨ FollowsKem P base A x s s')

end

/-- A message that is refused queues no carrier. -/
theorem ackGenAfter_of_error (s s' : DoubleRatchetState K C) (msg : RatchetEncryptedMessage C)
    (old : ℕ) (hgen : s'.ratchetGeneration = s.ratchetGeneration) :
    s.ackGenAfter s' msg false old = old := by
  simp [ackGenAfter, hgen]

/-- Neither does one of another generation, unless it leads to a commit. -/
theorem ackGenAfter_of_generation_ne (s s' : DoubleRatchetState K C)
    (msg : RatchetEncryptedMessage C) (delivered : Bool) (old : ℕ)
    (hgen : s'.ratchetGeneration = s.ratchetGeneration)
    (hne : msg.nonce.generation ≠ s.ratchetGeneration) :
    s.ackGenAfter s' msg delivered old = old := by
  simp [ackGenAfter, hgen, hne]

section Decrypt

variable {old : ℕ} (hreal : s.Realizes P base A x)
  (hcarried : s.Carried P A x nonce payload)
  (hold : s.pendingRekeyAckSeq.isSome → old ∈ (A.ends x).acks)
include hreal hcarried hold

/-- A message that is not opened may leave its proposal staged. -/
theorem Realizes.failed (hderives : Derives P s nonce now payload s') :
    HeardAs P base A x s s' old := by
  have hpending : s'.pendingRekeyAckSeq = s.pendingRekeyAckSeq := by rw [hderives.frame]
  obtain ⟨B, hears, hreal'⟩ := hreal.exists_derives hcarried hderives
  refine ⟨B, hears, hreal', ?_, .inl hderives.sameKem⟩
  rw [hpending]
  exact fun h => hears.acks (hold h)

omit hold in
/-- An authenticated carrier of the current generation finds a staged proposal: its own, or one
of a later generation. -/
theorem Realizes.exists_incoming (hgen : nonce.generation = s.ratchetGeneration)
    (hpayload : payload.isSome) (hderives : Derives P s nonce now payload s') :
    ∃ B n o, RekeyProtocol.Hears x A B ∧ s'.Realizes P base B x ∧
      (B.ends x).incoming = some (n, o) ∧ (B.ends x).generation ≤ n := by
  rcases hreal.derives hcarried hderives with ⟨rfl, hnone | hsup⟩ | ⟨o, hstep, hle, hreal'⟩
  · rw [hnone] at hpayload
    cases hpayload
  · cases hin : (A.ends x).incoming with
    | none => simp [carrierSuperseded, hgen, (hreal.incoming_none hin).carrierGen] at hsup
    | some no =>
      obtain ⟨n, o⟩ := no
      simp only [carrierSuperseded, hgen, (hreal.incoming_some n o hin).carrierGen,
        lt_self_iff_false, decide_false, Bool.false_or, Option.any_some, decide_eq_true_eq] at hsup
      exact ⟨A, n, o, .refl x A, hreal, hin, hreal.generation ▸ hsup.le⟩
  · refine ⟨_, nonce.generation, o, .of_step hstep rfl (subset_refl _), hreal', ?_, ?_⟩
    · rw [ends_set_self]
    · rw [ends_set_self]
      exact hreal.generation ▸ hle

variable (ideal : P.Ideal)
include ideal

variable {pt' aad' : Bytes} {s₁ s₂ : DoubleRatchetState K C}

omit hold in
/-- A packet that is opened with a cached key or the current chain, after its proposal was
derived, is of the current generation. -/
theorem Realizes.generation_of_delivery (hlt : s.ratchetGeneration < u32Max)
    (hadmits : s.Admits nonce) (hskip : s.SkipsPrevious nonce)
    (hseal : P.aeadSeal (P.chain.keyAt (A.seed P base x.peer nonce.generation) nonce.seq) nonce
      pt' aad' = some c) (hderives : Derives P s nonce now payload s₁)
    (hdel : CurrentDelivery P s₁ nonce c aad pt s₂) : nonce.generation = s.ratchetGeneration := by
  obtain ⟨A₁, hears, hreal₁⟩ := hreal.exists_derives hcarried hderives
  rw [← seed_congr fun m _ => congrFun hears.winner m] at hseal
  have hsame := hderives.sameKem.generation
  rw [← hsame]
  refine hreal₁.generation_of_current ideal ?_ ?_ hseal hdel
  · rw [hsame]
    exact hlt.ne
  · rw [hsame]
    exact hreal.generation_of_admits hadmits hskip hlt

/-- A message of the current generation that is opened: its proposal is derived and a race is
decided. -/
theorem Realizes.heard_current (hgen : nonce.generation = s.ratchetGeneration)
    (hderives : Derives P s nonce now payload s₁) (hdel : CurrentDelivery P s₁ nonce c aad pt s₂) :
    HeardAs P base A x s (s₂.resolveRekeyRaceAndAck nonce.seq payload.isSome)
      (s.ackGenAfter (s₂.resolveRekeyRaceAndAck nonce.seq payload.isSome)
        (messageOf nonce c payload) true old) := by
  have hkem := (hderives.sameKem.trans hdel.sameKem).trans
    (sameKem_resolve s₂ nonce.seq payload.isSome)
  have hpending : s₂.pendingRekeyAckSeq = s.pendingRekeyAckSeq := by
    rw [hdel.frame, hderives.frame]
  cases payload with
  | none =>
    cases hderives with
    | absent =>
      refine ⟨A, .refl x A, hreal.current ideal hdel, ?_, .inl hkem⟩
      intro hsome
      have hack : s.ackGenAfter s₂ (messageOf nonce c none) true old = old := by
        simp [ackGenAfter, messageOf, hdel.sameKem.generation]
      show s.ackGenAfter s₂ (messageOf nonce c none) true old ∈ (A.ends x).acks
      rw [hack]
      exact hold (hpending ▸ hsome)
  | some q =>
    obtain ⟨A₁, n, o, hears, hreal₁, hin, hn⟩ := hreal.exists_incoming hcarried hgen rfl hderives
    obtain ⟨B, hears', hreal', hack⟩ := (hreal₁.current ideal hdel).resolve hin hn nonce.seq
    refine ⟨B, hears.trans hears', hreal', fun hsome => ?_, .inl hkem⟩
    have hsame := hkem.generation
    rcases hack with ⟨hnone, hmem⟩ | ⟨hstays, hsamePending⟩
    · have hnow : s.ackGenAfter (s₂.resolveRekeyRaceAndAck nonce.seq true)
          (messageOf nonce c (some q)) true old = nonce.generation := by
        simp only [Option.isSome_some] at hsame
        simp [ackGenAfter, messageOf, hsame, hgen, hnone]
      rw [Option.isSome_some, hnow, hgen, ← (hderives.sameKem.trans hdel.sameKem).generation]
      exact hmem
    · have hold' : s.ackGenAfter (s₂.resolveRekeyRaceAndAck nonce.seq true)
          (messageOf nonce c (some q)) true old = old := by
        simp only [Option.isSome_some] at hsame
        simp [ackGenAfter, messageOf, hsame, hstays]
      rw [Option.isSome_some, hold']
      rw [Option.isSome_some, hsamePending, hpending] at hsome
      exact (hears.trans hears').acks (hold hsome)

variable (hsafe : A.Safe) (hbumps : s.BumpsOnCommit)
  (hdistinct : ∀ n o m o', (n, o) ∈ (A.ends x.peer).offers → (m, o') ∈ (A.ends x.peer).offers →
    o.secret = o'.secret → n = m) (hreached : nonce.generation ≤ (A.ends x.peer).generation)
  (hseal : P.aeadSeal (P.chain.keyAt (A.seed P base x.peer nonce.generation) nonce.seq) nonce
    pt' aad' = some c)
include hsafe hbumps hdistinct hreached hseal

/-- A message that moves the session to the next generation. -/
theorem Realizes.heard_pending (hlt : s.ratchetGeneration < u32Max) {key : K}
    (hderives : Derives P s nonce now payload s₁)
    (hdel : PendingDelivery P s₁ nonce c aad pt s' key) :
    HeardAs P base A x s s' (s.ackGenAfter s' (messageOf nonce c payload) true old) := by
  have hsame := hderives.sameKem
  have hpending : s₁.pendingRekeyAckSeq = s.pendingRekeyAckSeq := by rw [hderives.frame]
  obtain ⟨A₁, hears, hreal₁⟩ := hreal.exists_derives hcarried hderives
  have hsafe₁ := hsafe.steps hears.steps
  have hgen₁ : (A₁.ends x).generation = (A.ends x).generation := by
    rw [← hreal₁.generation, ← hreal.generation, hsame.generation]
  rw [← seed_congr fun m _ => congrFun hears.winner m] at hseal
  rw [← hears.peer] at hreached hdistinct
  obtain ⟨o, hin, hahead⟩ :=
    hreal₁.ahead_of_pending ideal hsafe₁ hdistinct hreached hseal hdel
  have hwinner := hsafe₁.winner_of_incoming hin hahead
  obtain ⟨hreal', hgen', hsend, hpair, hxpk, hmpk⟩ := hreal₁.follow ideal
    (hderives.advances.bumps hbumps) (hsame.generation ▸ hlt) hin hwinner hdel
  have hears' := hears.trans (.of_step (.follow hin hahead) rfl (Set.subset_insert _ _))
  refine ⟨_, hears', hreal', ?_, .inr ⟨?_, ?_, ?_, ?_, o, ?_, hxpk, hmpk⟩⟩
  · intro hsome
    have hne : s'.ratchetGeneration ≠ s.ratchetGeneration := by
      rw [hgen', hsame.generation]
      omega
    rw [ackGenAfter, if_pos hne]
    split_ifs with hold'
    · exact hears'.acks (hold hold')
    · -- the carrier of the committed proposal is of the generation that was left
      rw [hderives.carrierGenAfter, (hreal₁.incoming_some _ o hin).carrierGen, Option.getD_some,
        ends_set_self]
      exact Set.mem_insert _ _
  · rw [hgen', hsame.generation]
  · rw [← hears.peer, ← hgen₁]
    exact hahead
  · rw [hsend, hsame.generation, seed_congr fun m _ => congrFun hears.winner m]
  · rw [hpair, hsame.pair]
  · rw [← hears.winner, ← hgen₁]
    exact hwinner

/-- Decrypting a packet of the peer continues the protocol run. -/
theorem Realizes.heard {res : Except KyberError Bytes}
    (hstep : DecryptStep P s nonce c payload now res s') :
    HeardAs P base A x s s' (s.ackGenAfter s' (messageOf nonce c payload) res.isOk old) := by
  have hlt : s.Admits nonce → s.ratchetGeneration < u32Max :=
    fun h => lt_of_le_of_ne hbumps.generation_le h.generation_ne
  cases hstep with
  | refused _ =>
    rw [show (Except.error _ : Except KyberError Bytes).isOk = false from rfl,
      ackGenAfter_of_error s s _ old rfl]
    exact ⟨A, .refl x A, hreal, hold, .inl ⟨rfl, rfl, rfl, rfl⟩⟩
  | failed _ _ _ hderives =>
    rw [show (Except.error _ : Except KyberError Bytes).isOk = false from rfl,
      ackGenAfter_of_error s s' _ old hderives.sameKem.generation]
    exact hreal.failed hcarried hold hderives
  | previous hadmits hdel =>
    have hpending : s'.pendingRekeyAckSeq = s.pendingRekeyAckSeq := by rw [hdel.frame]
    obtain ⟨h, hfit, _⟩ := hreal.keys hadmits.generation_ne
    have hne : nonce.generation ≠ s.ratchetGeneration := by
      cases hdel with
      | cached hgen hck _ _ =>
        obtain ⟨ck, hck⟩ := Option.isSome_iff_exists.1 hck
        exact (hfit.previous ck _ hck hgen).1.ne
      | chain hgen hck _ _ _ _ => exact (hfit.previous _ _ hck hgen).1.ne
    rw [ackGenAfter_of_generation_ne s s' _ _ old hdel.sameKem.generation hne]
    exact ⟨A, .refl x A, hreal.previous ideal hdel, hpending ▸ hold, .inl hdel.sameKem⟩
  | current hadmits hskip hderives hdel =>
    have hgen := hreal.generation_of_delivery hcarried ideal (hlt hadmits) hadmits hskip hseal
      hderives hdel
    exact hreal.heard_current hcarried hold ideal hgen hderives hdel
  | pending hadmits _ hderives hdel =>
    exact hreal.heard_pending hcarried hold ideal hsafe hbumps hdistinct hreached hseal
      (hlt hadmits) hderives hdel

end Decrypt

end Receive

/-! ## Committing our own proposal -/

/-- Committing our standing proposal is a commit of the protocol. -/
theorem Realizes.commit (ideal : P.Ideal) (hreal : s.Realizes P base A x) (hbumps : s.BumpsOnCommit)
    (hlt : s.ratchetGeneration < u32Max) (hout : (A.ends x).outgoing = some o)
    (hin : ∀ n o', (A.ends x).incoming = some (n, o') → n ≤ (A.ends x).generation) :
    s.commitOutgoingRekey.Realizes P base (A.commit x o) x := by
  have hstaged := hreal.outgoing_some o hout
  have hfrom : s.outgoingProposal.IsFrom P s.rootKey o.secret :=
    hstaged ▸ o.isFrom_staged P s.rootKey
  have hpair : s.outgoingProposal.hybridPair = some o.pair := by rw [hstaged]; rfl
  have hwinner := A.winner_commit_self x o
  have hends : (A.commit x o).ends x = { A.ends x with
      generation := (A.ends x).generation + 1, outgoing := none } :=
    ends_set_self ..
  obtain ⟨h, hfit, hseed⟩ := hreal.keys hlt.ne
  have hfit' := hfit.commitOutgoing ideal hbumps hlt hfrom
  have hroot := hreal.root
  rw [commitOutgoingRekey_eq_of_isFrom hfrom hpair, saturatingSucc_of_lt hlt] at hfit' ⊢
  rw [hreal.generation] at hfit' hroot hseed ⊢
  refine ⟨?_, ?_, ?_, fun _ => ⟨rfl, rfl⟩, fun _ => rfl, ?_, ?_, ?_⟩
  · rw [hends]
  · rw [root_succ_of_winner hwinner, root_commit_of_le le_rfl, ← hroot]
  · intro _
    refine ⟨_, hfit', fun n hn => ?_⟩
    rcases Nat.le_succ_iff.1 hn with hle | rfl
    · rw [KeyHistory.install_seed_of_ne _ (by omega), hseed n hle,
        seed_commit_of_le hle]
    · rw [KeyHistory.install_seed_self, seed_succ_of_winner_ne hwinner x.peer_ne.symm,
        root_commit_of_le le_rfl, ← hroot]
  · rw [hends]
    rintro _ ⟨⟩
  · rw [hends]
    exact hreal.incoming_none
  · rw [hends]
    intro n o' ho'
    have hle := hin n o' ho'
    have hholds := hreal.incoming_some n o' ho'
    rw [hreal.generation, min_eq_left hle] at hholds
    rw [min_eq_left (Nat.le_succ_of_le hle), root_commit_of_le hle]
    exact hholds

end DoubleRatchetState

end KyberPipe
