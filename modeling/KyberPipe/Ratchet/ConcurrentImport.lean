import KyberPipe.Lib.Interleaving
import KyberPipe.Ratchet.ReceiveSteps
import KyberPipe.Ratchet.RegistryRuns

/-!
# Imports beside running calls

The critical sections of `registry.rs` on the session of one peer. A call clones the `Arc` of the
session under the lock of the map and works under the lock of the session afterwards. An import
reads the watermark of the live session in the same two sections and inserts the imported session in
a third one. A call that runs between the guard and the insertion, or on a clone of the replaced
`Arc`, is lost. If every insertion finds the guard still satisfied and no clone outstanding,
counters only move forward and no nonce is used twice.
-/

namespace KyberPipe

open Symbolic Session Machine

variable {K C : Type}

/-- An encrypt or a decrypt. -/
inductive Traffic (C : Type) where
  | encrypt (plaintext : Bytes) (rnd : EncryptRandomness) (now : Clock)
  | decrypt (nonce : Nonce) (ciphertext : C)
  | decryptWithRekey (nonce : Nonce) (ciphertext : C)
      (rekeyCiphertext rekeyX25519Pk rekeyMlkemPk : Option Bytes) (now : Clock)

/-- The call to the session. -/
def Traffic.toCall : Traffic C → Call C
  | .encrypt plaintext rnd now => .encrypt plaintext rnd now
  | .decrypt nonce c => .decrypt nonce c
  | .decryptWithRekey nonce c rct rx rm now => .decryptWithRekey nonce c rct rx rm now

/-- The sessions of one peer that threads hold an `Arc` of, and which of them is in the map. -/
structure SharedSessions (K C : Type) where
  arcs : List (DoubleRatchetState K C)
  registered : Option ℕ

/-- The session that is registered for the peer. -/
def SharedSessions.live (σ : SharedSessions K C) : Option (DoubleRatchetState K C) :=
  σ.registered.bind (σ.arcs[·]?)

/-- The program points of the threads. -/
inductive RegistryThread (K C : Type) where
  /-- `with_ratchet_session` before the lookup. -/
  | calling (traffic : Traffic C)
  /-- `with_ratchet_session` with a clone of the `Arc`, before the lock of the session. -/
  | holding (arc : ℕ) (traffic : Traffic C)
  /-- `ratchet_import_session_impl` before the lookup of the guard. -/
  | importing (snap : RatchetSnapshot K) (now : Clock)
  /-- The guard with a clone of the `Arc`, before the lock of the session. -/
  | guarding (arc : ℕ) (snap : RatchetSnapshot K) (now : Clock)
  /-- The guard has let the snapshot pass. -/
  | inserting (snap : RatchetSnapshot K) (now : Clock)
  | finished

/-- The critical sections of a thread, with the message that a section encrypted. -/
def registryProgram (P : Primitives K C) (peer : String) :
    Program (SharedSessions K C) (RegistryThread K C) (Option (RatchetEncryptedMessage C)) where
  step σ
    | .calling traffic =>
      -- a peer without a session is an error
      (none, σ, σ.registered.elim .finished fun arc => .holding arc traffic)
    | .holding arc traffic =>
      match σ.arcs[arc]? with
      | none => (none, σ, .finished)
      | some s =>
        let r := exec P peer ⟨s, {}⟩ traffic.toCall
        (sentMessage traffic.toCall r.1, { σ with arcs := σ.arcs.set arc r.2.ratchet }, .finished)
    | .importing snap now =>
      -- without a live session there is nothing to protect
      (none, σ, σ.registered.elim (.inserting snap now) fun arc => .guarding arc snap now)
    | .guarding arc snap now =>
      (none, σ,
        if RatchetWatermark.refusesImport (σ.arcs[arc]?.map .fromLive) (.fromSnapshot snap) then
          .finished
        else .inserting snap now)
    | .inserting snap now =>
      (none,
        { arcs := σ.arcs ++ [.fromSnapshot snap now], registered := some σ.arcs.length }, .finished)
    | .finished => (none, σ, .finished)

/-! ## Sessions that only move forward -/

namespace DoubleRatchetState

/-- A staged incoming proposal is complete, and every staged proposal moves the session to the
next generation when it is committed. -/
structure WellStaged (s : DoubleRatchetState K C) : Prop extends s.BumpsOnCommit where
  whole : s.incomingProposal.receivingChainKey.isSome →
    s.incomingProposal.rootKey.isSome ∧ s.incomingProposal.sendingChainKey.isSome

instance (s : DoubleRatchetState K C) : Decidable s.WellStaged :=
  decidable_of_iff
    ((s.incomingProposal.rootKey.isSome → s.incomingProposal.generationBump = true) ∧
      (s.outgoingProposal.rootKey.isSome → s.outgoingProposal.hybridPair.isSome) ∧
      s.ratchetGeneration ≤ u32Max ∧ (s.incomingProposal.receivingChainKey.isSome →
        s.incomingProposal.rootKey.isSome ∧ s.incomingProposal.sendingChainKey.isSome))
    ⟨fun ⟨hincoming, houtgoing, hgen, hwhole⟩ => ⟨⟨hincoming, houtgoing, hgen⟩, hwhole⟩,
      fun h => ⟨h.incoming, h.outgoing, h.generation_le, h.whole⟩⟩

/-- The two states are of one pairing epoch, and within a generation neither counter lies
behind. -/
structure Precedes (s s' : DoubleRatchetState K C) : Prop where
  epoch : s'.pairingEpoch = s.pairingEpoch
  forward : s.ratchetGeneration < s'.ratchetGeneration ∨
    s'.ratchetGeneration = s.ratchetGeneration ∧
      s.send.messageCount ≤ s'.send.messageCount ∧ s.recv.messageCount ≤ s'.recv.messageCount

/-- A message numbered below the receive counter is not sealed under the key at the counter.
Senders number their messages by the position of the key. -/
def InOrder (P : Primitives K C) (s : DoubleRatchetState K C) (nonce : Nonce) (c : C)
    (payload : Option RekeyPayload) : Prop :=
  nonce.seq < s.recv.messageCount →
    (decryptChacha20 P (P.chain.keyAt s.recv.key 0) nonce c (payloadAad payload)).isOk = false

variable {P : Primitives K C} {s s' t : DoubleRatchetState K C}
variable {nonce : Nonce} {c : C} {payload : Option RekeyPayload} {now : Clock}

theorem Precedes.refl (s : DoubleRatchetState K C) : s.Precedes s :=
  ⟨rfl, .inr ⟨rfl, le_rfl, le_rfl⟩⟩

theorem Precedes.trans (h : s.Precedes t) (h' : t.Precedes s') : s.Precedes s' := by
  obtain ⟨hepoch, hforward⟩ := h
  obtain ⟨hepoch', hforward'⟩ := h'
  refine ⟨hepoch'.trans hepoch, ?_⟩
  omega

/-- A snapshot that the guard accepts over a live session lies ahead of it. -/
theorem precedes_of_not_refused {snap : RatchetSnapshot K}
    (h : RatchetWatermark.refusesImport (some (.fromLive s)) (.fromSnapshot snap) = false) :
    s.Precedes (fromSnapshot snap now) := by
  obtain ⟨hepoch, hgen, hsend, hrecv⟩ := RatchetWatermark.refusesImport_eq_false.1 h
  simp only [RatchetWatermark.fromLive, RatchetWatermark.fromSnapshot] at hepoch hgen hsend hrecv
  refine ⟨hepoch.symm, ?_⟩
  change s.ratchetGeneration < snap.ratchetGeneration ∨
    snap.ratchetGeneration = s.ratchetGeneration ∧ s.send.messageCount ≤ snap.sendMessageCount ∧
      s.recv.messageCount ≤ snap.recvMessageCount
  omega

/-- Going forward does not move the send position backwards. -/
theorem Precedes.sendPosition_le (h : s.Precedes s') (hle : s'.ratchetGeneration ≤ u32Max) :
    s.sendPosition ≤ s'.sendPosition := by
  rcases h.forward with hgen | ⟨hgen, hsend, _⟩
  · by_cases hmax : s'.ratchetGeneration = u32Max
    · exact (le_top.trans_eq (if_pos hmax).symm)
    · rw [sendPosition_of_ne (by omega), sendPosition_of_ne hmax, WithTop.coe_le_coe,
        Prod.Lex.toLex_le_toLex]
      exact .inl hgen
  · exact sendPosition_le_of_generation_eq hgen hsend

/-! ### Steps -/

theorem Derives.whole (h : Derives P s nonce now payload s')
    (hwhole : s.incomingProposal.receivingChainKey.isSome →
      s.incomingProposal.rootKey.isSome ∧ s.incomingProposal.sendingChainKey.isSome) :
    s'.incomingProposal.receivingChainKey.isSome →
      s'.incomingProposal.rootKey.isSome ∧ s'.incomingProposal.sendingChainKey.isSome := by
  cases h with
  | absent => exact hwhole
  | superseded => exact hwhole
  | staged => exact fun _ => ⟨rfl, rfl⟩

theorem DecryptStep.wellStaged {res : Except KyberError Bytes}
    (h : DecryptStep P s nonce c payload now res s') (hs : s.WellStaged) : s'.WellStaged := by
  refine ⟨h.advances.bumps hs.toBumpsOnCommit, ?_⟩
  cases h with
  | refused => exact hs.whole
  | failed _ _ _ hderives => exact hderives.whole hs.whole
  | previous _ hdel =>
    rw [hdel.frame]
    exact hs.whole
  | @current _ s₁ s₂ _ _ hderives hdel =>
    have hslot : s₂.incomingProposal = s₁.incomingProposal := by rw [hdel.frame]
    rcases resolveRekeyRaceAndAck_incoming s₂ nonce.seq payload.isSome with hkept | hemptied
    · rw [hkept, hslot]
      exact hderives.whole hs.whole
    · rw [hemptied]
      rintro ⟨⟩
  | @pending _ s₁ _ _ _ _ _ hdel =>
    intro h
    rw [hdel.hstate] at h
    exact absurd h (by
      rw [show (deliverCommitted _ _ _ _).incomingProposal.receivingChainKey = none from
        receivingChainKey_commitPendingRekeyWithRaceResolution s₁]
      nofun)

/-- Opening a message of the staged proposal leads to the next generation. -/
theorem PendingDelivery.generation_lt {aad pt : Bytes} {key : K}
    (h : PendingDelivery P t nonce c aad pt s' key) (hs : s.WellStaged) (hadmits : s.Admits nonce)
    (hderives : Derives P s nonce now payload t) : s.ratchetGeneration < s'.ratchetGeneration := by
  have hrecv : t.incomingProposal.receivingChainKey.isSome := by rw [h.hkey]; rfl
  obtain ⟨hroot, hsend⟩ := hderives.whole hs.whole hrecv
  have hbump := (hderives.advances.bumps hs.toBumpsOnCommit).incoming hroot
  have hgen : s'.ratchetGeneration = saturatingSucc t.ratchetGeneration := by
    rw [h.hstate]
    exact ratchetGeneration_commitPendingRekeyWithRaceResolution hroot hsend hrecv hbump
  have hsame : t.ratchetGeneration = s.ratchetGeneration := by rw [hderives.frame]
  have hne := hadmits.generation_ne
  have hle := hs.generation_le
  rw [hgen, hsame, saturatingSucc]
  omega

/-- A decryption in order moves the session forward. -/
theorem DecryptStep.precedes {res : Except KyberError Bytes}
    (h : DecryptStep P s nonce c payload now res s') (hs : s.WellStaged)
    (horder : s.InOrder P nonce c payload) : s.Precedes s' := by
  refine ⟨h.sameEpochAndCache.epoch, ?_⟩
  cases h with
  | refused => exact .inr ⟨rfl, le_rfl, le_rfl⟩
  | failed _ _ _ hderives =>
    rw [hderives.frame]
    exact .inr ⟨rfl, le_rfl, le_rfl⟩
  | previous _ hdel =>
    rw [hdel.frame]
    exact .inr ⟨rfl, le_rfl, le_rfl⟩
  | @current pt s₁ s₂ _ _ hderives hdel =>
    refine .inr ?_
    rw [resolveRekeyRaceAndAck_frame]
    have hframe := hderives.frame
    generalize s₁.incomingProposal = slot at hframe
    subst hframe
    cases hdel with
    | cached => exact ⟨rfl, le_rfl, le_rfl⟩
    | chain hgap hdec =>
      refine ⟨rfl, le_rfl, ?_⟩
      -- a message below the counter would have been opened with the key at the counter
      by_contra hlt
      have hbelow : nonce.seq < s.recv.messageCount := by
        change ¬s.recv.messageCount ≤ nonce.seq + 1 at hlt
        omega
      have hzero : nonce.seq - s.recv.messageCount = 0 := by omega
      have hclosed := horder hbelow
      dsimp only at hdec
      rw [hzero] at hdec
      rw [hdec] at hclosed
      cases hclosed
  | pending hadmits _ hderives hdel => exact .inl (hdel.generation_lt hs hadmits hderives)

variable {res : Except KyberError (RatchetEncryptedMessage C)} {rnd : EncryptRandomness}

theorem EncryptStep.wellStaged {pt : Bytes} (h : EncryptStep P s pt rnd now res s')
    (hs : s.WellStaged) : s'.WellStaged := by
  refine ⟨h.advances.bumps hs.toBumpsOnCommit, ?_⟩
  rw [h.frame]
  exact hs.whole

theorem EncryptStep.precedes {pt : Bytes} (h : EncryptStep P s pt rnd now res s') :
    s.Precedes s' := by
  obtain ⟨hgen, hcount⟩ := h.send_count
  exact ⟨h.sameEpochAndCache.epoch, .inr ⟨hgen, by omega, by rw [h.sameReceive.recv]⟩⟩

end DoubleRatchetState

namespace Traffic

open DoubleRatchetState

/-- A decrypt is of a message in order. -/
def InOrder (P : Primitives K C) (s : DoubleRatchetState K C) : Traffic C → Prop
  | .encrypt _ _ _ => True
  | .decrypt nonce c => s.InOrder P nonce c none
  | .decryptWithRekey nonce c rct rx rm _ => s.InOrder P nonce c (completePayload rct rx rm)

variable {P : Primitives K C} {s : DoubleRatchetState K C}

/-- A call keeps the session well staged and, in order, moves it forward. -/
theorem exec_precedes (peer : String) (traffic : Traffic C) (hs : s.WellStaged)
    (horder : traffic.InOrder P s) :
    (exec P peer ⟨s, {}⟩ traffic.toCall).2.ratchet.WellStaged ∧
      s.Precedes (exec P peer ⟨s, {}⟩ traffic.toCall).2.ratchet := by
  cases traffic with
  | encrypt pt rnd now =>
    have hstep := ratchetEncrypt_step P s pt rnd now
    exact ⟨hstep.wellStaged hs, hstep.precedes⟩
  | decrypt nonce c =>
    have hstep := ratchetDecrypt_step P s nonce c ⟨0, 0⟩
    exact ⟨hstep.wellStaged hs, hstep.precedes hs horder⟩
  | decryptWithRekey nonce c rct rx rm now =>
    have hstep := ratchetDecryptWithRekey_step P s nonce c rct rx rm now
    exact ⟨hstep.wellStaged hs, hstep.precedes hs horder⟩

end Traffic

/-! ## Guarded turns -/

/-- The thread is between its lookup and the lock of the session. -/
def RegistryThread.Holds : RegistryThread K C → Prop
  | .holding _ _ => True
  | _ => False

instance (th : RegistryThread K C) : Decidable th.Holds :=
  match th with
  | .holding _ _ => .isTrue trivial
  | .calling _ | .importing _ _ | .guarding _ _ _ | .inserting _ _ | .finished => .isFalse id

/-- The thread has a clone of no other `Arc` than the registered one. -/
def RegistryThread.HoldsOnlyLive (σ : SharedSessions K C) : RegistryThread K C → Prop
  | .holding arc _ => σ.registered = some arc
  | _ => True

/-- A decrypt is of a message in order. An insertion finds the guard satisfied by the session that
it replaces, no call holds a clone of an `Arc`, and the snapshot is one of a well staged session. -/
def GuardedTurn (P : Primitives K C) (pool : Pool (SharedSessions K C) (RegistryThread K C))
    (i : ℕ) : Prop :=
  match pool.threads[i]? with
  | some (.holding arc traffic) => ∀ s, pool.shared.arcs[arc]? = some s → traffic.InOrder P s
  | some (.inserting snap now) =>
    RatchetWatermark.refusesImport (pool.shared.live.map .fromLive) (.fromSnapshot snap) = false ∧
      (∀ th ∈ pool.threads, ¬th.Holds) ∧
      (DoubleRatchetState.fromSnapshot snap now : DoubleRatchetState K C).WellStaged
  | _ => True

/-- The nonce of the message that a turn encrypted. -/
def sentInTurn (_ : ℕ) (out : Option (Option (RatchetEncryptedMessage C))) : Option Nonce :=
  out.join.map (·.nonce)

/-- The registered session is well staged and lies ahead of every nonce used so far, and a call
holds no other `Arc` than the registered one. -/
structure Steady (pool : Pool (SharedSessions K C) (RegistryThread K C)) (sent : Set Nonce) :
    Prop where
  registered : ∀ arc, pool.shared.registered = some arc →
    ∃ s, pool.shared.arcs[arc]? = some s ∧ s.WellStaged
  ahead : ∀ n ∈ sent, ∃ s, pool.shared.live = some s ∧ n.position < s.sendPosition
  holders : ∀ th ∈ pool.threads, RegistryThread.HoldsOnlyLive pool.shared th

/-- The registered session of one pool is the one of the other or lies behind it. -/
def LivePrecedes (pool pool' : Pool (SharedSessions K C) (RegistryThread K C)) : Prop :=
  ∀ s, pool.shared.live = some s → ∃ s', pool'.shared.live = some s' ∧ s.Precedes s'

section Turns

variable {P : Primitives K C} {peer : String} {sent : Set Nonce} {i : ℕ}
variable {pool : Pool (SharedSessions K C) (RegistryThread K C)}

theorem LivePrecedes.refl (pool : Pool (SharedSessions K C) (RegistryThread K C)) :
    LivePrecedes pool pool :=
  fun s hs => ⟨s, hs, .refl s⟩

theorem LivePrecedes.trans {pool' pool'' : Pool (SharedSessions K C) (RegistryThread K C)}
    (h : LivePrecedes pool pool') (h' : LivePrecedes pool' pool'') :
    LivePrecedes pool pool'' := by
  intro s hs
  obtain ⟨t, ht, hst⟩ := h s hs
  obtain ⟨s', hs', hts'⟩ := h' t ht
  exact ⟨s', hs', hst.trans hts'⟩

variable {σ : SharedSessions K C}

theorem live_set {arc : ℕ} {s s' : DoubleRatchetState K C} (harc : σ.registered = some arc)
    (hs : σ.arcs[arc]? = some s) :
    ({ σ with arcs := σ.arcs.set arc s' } : SharedSessions K C).live = some s' := by
  have hlt : arc < σ.arcs.length := (List.getElem?_eq_some_iff.1 hs).1
  simp [SharedSessions.live, harc, hlt]

variable {s : DoubleRatchetState K C}

theorem live_insert : (⟨σ.arcs ++ [s], some σ.arcs.length⟩ : SharedSessions K C).live = some s := by
  simp [SharedSessions.live]

/-- What a turn does to a steady pool: the registered session moves forward, and a nonce that the
turn used lies above all earlier ones. -/
structure SteadyTurn (pool : Pool (SharedSessions K C) (RegistryThread K C)) (sent : Set Nonce)
    (out : Option (Option (RatchetEncryptedMessage C)))
    (pool' : Pool (SharedSessions K C) (RegistryThread K C)) : Prop where
  forward : LivePrecedes pool pool'
  quiet : out.join = none → Steady pool' sent
  emits : ∀ msg, out.join = some msg →
    (∀ u ∈ sent, u.position < msg.nonce.position) ∧ Steady pool' (insert msg.nonce sent)

theorem SteadyTurn.exists_steady {out : Option (Option (RatchetEncryptedMessage C))}
    {pool' : Pool (SharedSessions K C) (RegistryThread K C)} (h : SteadyTurn pool sent out pool') :
    ∃ sent', Steady pool' sent' := by
  cases hout : out.join with
  | none => exact ⟨sent, h.quiet hout⟩
  | some msg => exact ⟨_, (h.emits msg hout).2⟩

section

variable (h : Steady pool sent)
include h

theorem Steady.set_thread {th : RegistryThread K C}
    (hth : RegistryThread.HoldsOnlyLive pool.shared th) :
    SteadyTurn pool sent (some none) ⟨pool.shared, pool.threads.set i th⟩ where
  forward := .refl pool
  quiet _ := ⟨h.registered, h.ahead,
    Pool.forall_mem_set RegistryThread.HoldsOnlyLive h.holders hth fun _ _ hq => hq⟩
  emits _ hmsg := nomatch hmsg

/-- The section of a call under the lock of its session. -/
theorem Steady.call {arc : ℕ} {traffic : Traffic C} (harc : pool.shared.registered = some arc)
    (hs : pool.shared.arcs[arc]? = some s) (horder : traffic.InOrder P s) :
    SteadyTurn pool sent
      (some (sentMessage traffic.toCall (exec P peer ⟨s, {}⟩ traffic.toCall).1))
      ⟨{ pool.shared with
          arcs := pool.shared.arcs.set arc
            (exec P peer ⟨s, {}⟩ traffic.toCall).2.ratchet },
        pool.threads.set i .finished⟩ := by
  obtain ⟨s', hs', hstaged⟩ := h.registered arc harc
  obtain rfl := Option.some.inj (hs.symm.trans hs')
  obtain ⟨hstaged', hprec⟩ := traffic.exec_precedes peer hstaged horder
  have hlive : pool.shared.live = some s := by rw [SharedSessions.live, harc]; exact hs
  have hle := hprec.sendPosition_le hstaged'.generation_le
  -- the pool stays steady with every set of nonces below the new position
  have hsteady : ∀ sent' : Set Nonce, (∀ n ∈ sent', n.position <
      (exec P peer ⟨s, {}⟩ traffic.toCall).2.ratchet.sendPosition) →
      Steady ⟨{ pool.shared with
          arcs := pool.shared.arcs.set arc
            (exec P peer ⟨s, {}⟩ traffic.toCall).2.ratchet },
        pool.threads.set i .finished⟩ sent' := by
    intro sent' hsent'
    refine ⟨fun arc' harc' => ?_, fun n hn => ⟨_, live_set harc hs, hsent' n hn⟩, ?_⟩
    · obtain rfl := Option.some.inj (harc.symm.trans harc')
      exact ⟨_, List.getElem?_set_self (List.getElem?_eq_some_iff.1 hs).1, hstaged'⟩
    · refine Pool.forall_mem_set RegistryThread.HoldsOnlyLive h.holders trivial ?_
      intro th _ hth
      cases th with
      | holding => exact hth
      | _ => trivial
  have hold : ∀ n ∈ sent, n.position < s.sendPosition := by
    intro n hn
    obtain ⟨u, hu, hlt⟩ := h.ahead n hn
    obtain rfl := Option.some.inj (hlive.symm.trans hu)
    exact hlt
  refine ⟨fun u hu => ?_, fun _ => ?_, fun msg hmsg => ?_⟩
  · obtain rfl := Option.some.inj (hlive.symm.trans hu)
    exact ⟨_, live_set harc hs, hprec⟩
  · exact hsteady sent fun n hn => (hold n hn).trans_le hle
  · have hnonce : sentNonce traffic.toCall (exec P peer ⟨s, {}⟩ traffic.toCall).1 =
        some msg.nonce := by
      rw [sentNonce, show sentMessage _ _ = some msg from hmsg]
      rfl
    have hsends := exec_sends P peer ⟨s, {}⟩ hnonce
    refine ⟨fun u hu => (hold u hu).trans_eq hsends.position_eq, hsteady _ ?_⟩
    rintro n (rfl | hn)
    · exact hsends.position_lt
    · exact (hold n hn).trans_le hle

theorem Steady.insertion {snap : RatchetSnapshot K} {now : Clock}
    (haccepts : RatchetWatermark.refusesImport (pool.shared.live.map .fromLive)
      (.fromSnapshot snap) = false) (hnone : ∀ th ∈ pool.threads, ¬th.Holds)
    (hstaged : (DoubleRatchetState.fromSnapshot snap now : DoubleRatchetState K C).WellStaged) :
    SteadyTurn pool sent (some none)
      ⟨⟨pool.shared.arcs ++ [.fromSnapshot snap now], some pool.shared.arcs.length⟩,
        pool.threads.set i .finished⟩ := by
  have hforward : LivePrecedes pool
      ⟨⟨pool.shared.arcs ++ [.fromSnapshot snap now], some pool.shared.arcs.length⟩,
        pool.threads.set i .finished⟩ := by
    intro s hs
    rw [hs] at haccepts
    exact ⟨_, live_insert, DoubleRatchetState.precedes_of_not_refused haccepts⟩
  refine ⟨hforward, fun _ => ⟨fun arc harc => ?_, fun n hn => ?_, ?_⟩, (by rintro _ ⟨⟩)⟩
  · obtain rfl := Option.some.inj harc
    exact ⟨_, List.getElem?_concat_length, hstaged⟩
  · obtain ⟨s, hs, hlt⟩ := h.ahead n hn
    obtain ⟨s', hs', hprec⟩ := hforward s hs
    obtain rfl := Option.some.inj (live_insert.symm.trans hs')
    exact ⟨_, hs', hlt.trans_le (hprec.sendPosition_le hstaged.generation_le)⟩
  · -- nobody holds a clone, so the replaced session is out of reach
    refine Pool.forall_mem_set RegistryThread.HoldsOnlyLive h.holders trivial fun th hth _ => ?_
    cases th with
    | holding => exact absurd trivial (hnone _ hth)
    | _ => trivial

theorem Steady.turn (hguard : GuardedTurn P pool i) :
    SteadyTurn pool sent ((registryProgram P peer).machine.step pool i).1
      ((registryProgram P peer).machine.step pool i).2 := by
  unfold GuardedTurn at hguard
  cases hi : pool.threads[i]? with
  | none =>
    rw [Program.machine_step_of_none hi]
    exact ⟨.refl pool, fun _ => h, (by rintro msg ⟨⟩)⟩
  | some th =>
    rw [hi] at hguard
    rw [Program.machine_step_of_some hi]
    cases th with
    | calling traffic =>
      refine h.set_thread ?_
      dsimp only [registryProgram]
      cases harc : pool.shared.registered with
      | none => trivial
      | some arc => exact harc
    | holding arc traffic =>
      have harc := h.holders _ (List.mem_of_getElem? hi)
      obtain ⟨s, hs, _⟩ := h.registered arc harc
      simp only [registryProgram, hs]
      exact h.call harc hs (hguard s hs)
    | importing snap now =>
      refine h.set_thread ?_
      dsimp only [registryProgram]
      cases pool.shared.registered with
      | none => trivial
      | some arc => trivial
    | guarding arc snap now =>
      refine h.set_thread ?_
      dsimp only [registryProgram]
      split_ifs
      · trivial
      · trivial
    | inserting snap now => exact h.insertion hguard.1 hguard.2.1 hguard.2.2
    | finished => exact h.set_thread trivial

end

end Turns

/-! ## Interleavings -/

/-- What a thread is started for. -/
inductive RegistryJob (K C : Type) where
  | call (traffic : Traffic C)
  | importSession (snap : RatchetSnapshot K) (now : Clock)

/-- The first program point of a job. -/
def RegistryJob.start : RegistryJob K C → RegistryThread K C
  | .call traffic => .calling traffic
  | .importSession snap now => .importing snap now

/-- The pool before the first turn: at most one session, and every thread at its start. -/
def RegistryJob.pool (session : Option (DoubleRatchetState K C)) (jobs : List (RegistryJob K C)) :
    Pool (SharedSessions K C) (RegistryThread K C) :=
  ⟨⟨session.toList, session.map fun _ => 0⟩, jobs.map RegistryJob.start⟩

theorem steady_pool {session : Option (DoubleRatchetState K C)}
    (hsession : ∀ s, session = some s → s.WellStaged) (jobs : List (RegistryJob K C)) :
    Steady (RegistryJob.pool session jobs) ∅ := by
  refine ⟨fun arc harc => ?_, (by rintro n ⟨⟩), fun th hth => ?_⟩
  · obtain ⟨s, rfl, rfl⟩ := Option.map_eq_some_iff.1 harc
    exact ⟨s, rfl, hsession s rfl⟩
  · obtain ⟨job, _, rfl⟩ := List.mem_map.1 hth
    cases job with
    | call => trivial
    | importSession => trivial

section Runs

variable {P : Primitives K C} {peer : String} {sent : Set Nonce} {schedule : List ℕ}
variable {pool : Pool (SharedSessions K C) (RegistryThread K C)}

/-- In a run of guarded turns the registered session moves forward only. -/
theorem Steady.run_precedes (h : Steady pool sent)
    (hguarded : (registryProgram P peer).machine.Follows (GuardedTurn P) pool schedule) {j k : ℕ}
    (hjk : j ≤ k) :
    LivePrecedes ((registryProgram P peer).machine.run pool (schedule.take j)).2
      ((registryProgram P peer).machine.run pool (schedule.take k)).2 := by
  refine run_take_related (fun pool => ∃ sent, Steady pool sent) LivePrecedes.refl
    (fun _ _ _ => LivePrecedes.trans) ?_ ⟨sent, h⟩ hguarded hjk
  rintro pool i ⟨sent, hsteady⟩ hguard
  have hturn : SteadyTurn pool sent ((registryProgram P peer).machine.step pool i).1 _ :=
    hsteady.turn hguard
  exact ⟨hturn.exists_steady, hturn.forward⟩

theorem Steady.run_pairwise (h : Steady pool sent)
    (hguarded : (registryProgram P peer).machine.Follows (GuardedTurn P) pool schedule) :
    (emitted sentInTurn ((registryProgram P peer).machine.run pool schedule).1).Pairwise
      fun a b => a.position < b.position := by
  refine (emitted_pairwise_of_follows Steady ?_ ?_ h hguarded).2
  · intro pool i sent hguard hsteady hnone
    exact (hsteady.turn hguard).quiet (Option.map_eq_none_iff.1 hnone)
  · intro pool i sent n hguard hsteady hsome
    obtain ⟨msg, hmsg, rfl⟩ := Option.map_eq_some_iff.1 hsome
    exact (hsteady.turn hguard).emits msg hmsg

end Runs

/-- In every interleaving of imports, encrypts and decrypts on one peer whose turns are all guarded,
the counters of the registered session never go backwards within a generation of one pairing epoch,
and no nonce is used twice. -/
theorem import_linearizable_of_guarded (P : Primitives K C) (peer : String)
    {session : Option (DoubleRatchetState K C)} (hsession : ∀ s, session = some s → s.WellStaged)
    (jobs : List (RegistryJob K C)) {schedule : List ℕ}
    (hguarded : (registryProgram P peer).machine.Follows (GuardedTurn P)
      (RegistryJob.pool session jobs) schedule) :
    let run := fun k => (registryProgram P peer).machine.run (RegistryJob.pool session jobs)
      (schedule.take k)
    (∀ j k s s', j ≤ k → (run j).2.shared.live = some s → (run k).2.shared.live = some s' →
      s.pairingEpoch = s'.pairingEpoch → s.ratchetGeneration = s'.ratchetGeneration →
      s.send.messageCount ≤ s'.send.messageCount ∧ s.recv.messageCount ≤ s'.recv.messageCount) ∧
    (emitted sentInTurn (run schedule.length).1).Nodup := by
  intro run
  have hstart := steady_pool hsession jobs
  refine ⟨fun j k s s' hjk hs hs' _ hgen => ?_, ?_⟩
  · obtain ⟨u, hu, -, hforward⟩ := hstart.run_precedes hguarded hjk s hs
    obtain rfl := Option.some.inj (hs'.symm.trans hu)
    omega
  · simp only [run, List.take_length]
    refine (hstart.run_pairwise hguarded).imp fun hlt heq => ?_
    exact absurd (heq ▸ hlt) (lt_irrefl _)

namespace Symbolic

/-- The initiator's session is exported at the start. One thread imports the snapshot, two
threads encrypt. -/
def importJobs : List (RegistryJob Key Ciphertext) :=
  [.importSession initiator.toSnapshot ⟨0, 0⟩, .call (.encrypt [1] (randomness 0) ⟨0, 0⟩),
    .call (.encrypt [2] (randomness 1) ⟨0, 0⟩)]

/-- The turns of these threads. -/
def importRun (schedule : List ℕ) :
    List (ℕ × Option (Option (RatchetEncryptedMessage Ciphertext))) ×
      Pool (SharedSessions Key Ciphertext) (RegistryThread Key Ciphertext) :=
  (registryProgram primitives "phone").machine.run (RegistryJob.pool (some initiator) importJobs)
    schedule

end Symbolic

/-- The import runs first and is followed by the two encrypts. -/
theorem import_linearizable_of_guarded_sequential :
    (emitted sentInTurn (importRun [0, 0, 0, 1, 1, 2, 2]).1).length = 2 ∧
      (emitted sentInTurn (importRun [0, 0, 0, 1, 1, 2, 2]).1).Nodup := by
  refine ⟨by decide +kernel, ?_⟩
  have hstaged : ∀ s, some initiator = some s → s.WellStaged := by
    intro s hs
    obtain rfl := Option.some.inj hs
    decide +kernel
  have hguarded : (registryProgram primitives "phone").machine.Follows
      (GuardedTurn primitives)
      (RegistryJob.pool (some initiator) importJobs) [0, 0, 0, 1, 1, 2, 2] := by
    refine ⟨trivial, trivial, ⟨by decide +kernel, ?_, by decide +kernel⟩, trivial,
      fun _ _ => trivial, trivial, fun _ _ => trivial, trivial⟩
    decide +kernel
  exact (import_linearizable_of_guarded primitives "phone" hstaged importJobs
    hguarded).2

/-- The import reads the watermark, the first encrypt uses nonce `(0, 0)`, and the import puts its
session in place. The send counter falls from 1 to 0, and the second encrypt uses the nonce again,
as does a first encrypt that cloned its `Arc` before the import and runs after it. -/
theorem import_not_linearizable :
    emitted sentInTurn (importRun [0, 0, 1, 1, 0, 2, 2]).1 = [⟨0, 0⟩, ⟨0, 0⟩] ∧
      ((importRun [0, 0, 1, 1]).2.shared.live.map (·.send.messageCount)) = some 1 ∧
      ((importRun [0, 0, 1, 1, 0]).2.shared.live.map (·.send.messageCount)) = some 0 ∧
      emitted sentInTurn (importRun [1, 0, 0, 0, 1, 2, 2]).1 =
        [⟨0, 0⟩, ⟨0, 0⟩] := by
  decide +kernel

end KyberPipe
