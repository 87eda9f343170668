import KyberPipe.Ratchet.ChainAlignment
import KyberPipe.Ratchet.ConfirmQueue

/-!
# Lifetime of proposals

How old the staleness predicates and the re-send decision take a proposal to be. Emptying a slot
leaves its monotonic time behind, and the age of a proposal is the larger of the ages that the two
clocks tell.

The module introduces:

* `PeerProposalStep op p p'` — an operation keeps the slot of the peer's proposal, empties it,
  stages a proposal next to the times that are there, replaces an older one together with its
  times, or restores the slot without its monotonic time.
* `SlotFits p` — a slot without keys has no carrier and no wall-clock time.

Every operation is such a step (`perform_peerProposalStep`). The main results are about a proposal
that was staged into an empty slot (`fresh_for_ttl_iff`, `ageing_follows_monotonic_clock_iff`).
-/

namespace KyberPipe

open Symbolic Machine

variable {K C : Type}

/-- The readings of the operation were made at or before the monotonic time `τ`. -/
def Operation.By (τ : ℕ) (op : Operation C) : Prop :=
  ∀ now, op.clock = some now → now.mono ≤ τ

variable {p : IncomingProposal K}

/-- A proposal with a wall-clock stamp is stale if one of its two stamps is old. -/
theorem IncomingProposal.isStale_iff {u : ℕ} (now : Clock) (hunix : p.attachedAtUnix = some u) :
    p.isStale now = true ↔ u + incomingRekeyTtlSecs ≤ now.unix ∨
      ∃ m, p.attachedAtMono = some m ∧ m + incomingRekeyTtlSecs * nanosPerSec ≤ now.mono := by
  cases hm : p.attachedAtMono with
  | none =>
    simp only [isStale, hunix, hm, Option.elim_some, Option.elim_none, incomingRekeyTtlSecs,
      decide_eq_true_eq, false_and, exists_false, or_false, reduceCtorEq]
    omega
  | some m =>
    simp only [isStale, hunix, hm, Option.elim_some, incomingRekeyTtlSecs, nanosPerSec,
      decide_eq_true_eq, Option.some.injEq, exists_eq_left']
    omega

/-- A carrier is due if one of the stamps of its last attachment is old. -/
theorem RekeyCarrier.isDue_iff (carrier : RekeyCarrier) (now : Clock) :
    carrier.isDue now = true ↔ carrier.attachedAtUnix + rekeyRetryTtlSecs ≤ now.unix ∨
      carrier.attachedAt + rekeyRetryTtlSecs * nanosPerSec ≤ now.mono := by
  rw [isDue, decide_eq_true_iff, effectiveAge]
  simp only [rekeyRetryTtlSecs, nanosPerSec]
  omega

/-- A proposal of our own with one carrier is stale if one of its first stamps is old. -/
theorem outgoingProposalIsStale_singleton_iff (carrier : RekeyCarrier) (now : Clock) :
    outgoingProposalIsStale [carrier] now = true ↔
      carrier.firstAttachedAtUnix + incomingRekeyTtlSecs ≤ now.unix ∨
        carrier.firstAttachedAt + incomingRekeyTtlSecs * nanosPerSec ≤ now.mono := by
  rw [outgoingProposalIsStale, List.isEmpty_cons, Bool.not_false, Bool.true_and, List.all_cons,
    List.all_nil, Bool.and_true, decide_eq_true_iff, RekeyCarrier.firstAttachedEffectiveAge]
  simp only [incomingRekeyTtlSecs, nanosPerSec]
  omega

namespace DoubleRatchetState

/-- What an operation does to the slot of the peer's proposal. -/
inductive PeerProposalStep (op : Operation C) (p p' : IncomingProposal K) : Prop
  | kept (hroot : p'.rootKey = p.rootKey) (hgen : p'.carrierGen = p.carrierGen)
      (hunix : p'.attachedAtUnix = p.attachedAtUnix) (hmono : p'.attachedAtMono = p.attachedAtMono)
  | emptied (hroot : p'.rootKey = none) (hgen : p'.carrierGen = none)
      (hunix : p'.attachedAtUnix = none)
      (hmono : ∀ m, p'.attachedAtMono = some m →
        p.attachedAtMono = some m ∨ ∃ now, op.clock = some now ∧ m = now.mono)
  | staged {now : Clock} {g : ℕ} (hclock : op.clock = some now)
      (hroot : p'.rootKey.isSome = true) (hgen : p'.carrierGen = some g)
      (hunix : p'.attachedAtUnix = p.attachedAtUnix.or (some now.unix))
      (hmono : p'.attachedAtMono = p.attachedAtMono.or (some now.mono))
  | replaced {now : Clock} {g g' : ℕ} (holder : p.carrierGen = some g') (hlt : g' < g)
      (hclock : op.clock = some now) (hroot : p'.rootKey.isSome = true)
      (hgen : p'.carrierGen = some g) (hmono : p'.attachedAtMono = some now.mono)
  | restored {now : Clock} (hrestore : op = .restore now)
      (hslot : p' = { p with attachedAtMono := none })

section Slots

variable {op : Operation C} {p p' q : IncomingProposal K}

theorem PeerProposalStep.refl (op : Operation C) (p : IncomingProposal K) :
    PeerProposalStep op p p :=
  .kept rfl rfl rfl rfl

/-- A monotonic stamp was there before or is the reading of the operation. -/
theorem PeerProposalStep.attachedAtMono (h : PeerProposalStep op p p') {m : ℕ}
    (hm : p'.attachedAtMono = some m) :
    p.attachedAtMono = some m ∨ ∃ now, op.clock = some now ∧ m = now.mono := by
  cases h with
  | kept _ _ _ hmono => exact .inl (hmono.symm.trans hm)
  | emptied _ _ _ hmono => exact hmono m hm
  | @staged now _ hclock _ _ _ hmono =>
    rw [hmono, Option.or_eq_some_iff] at hm
    rcases hm with hm | ⟨_, hm⟩
    · exact .inl hm
    · exact .inr ⟨now, hclock, (Option.some.inj hm).symm⟩
  | @replaced now _ _ _ _ hclock _ _ hmono =>
    rw [hmono] at hm
    exact .inr ⟨now, hclock, (Option.some.inj hm).symm⟩
  | restored _ hslot =>
    rw [hslot] at hm
    cases hm

/-- Emptying the slot afterwards leaves its monotonic stamp. -/
theorem PeerProposalStep.followed_by_empty (h : PeerProposalStep op p q) :
    PeerProposalStep op p { attachedAtMono := q.attachedAtMono } :=
  .emptied rfl rfl rfl fun _ => h.attachedAtMono

/-- A slot without keys has no carrier and no wall-clock stamp. -/
def SlotFits (p : IncomingProposal K) : Prop :=
  p.rootKey = none → p.carrierGen = none ∧ p.attachedAtUnix = none

theorem SlotFits.step (h : SlotFits p) (hstep : PeerProposalStep op p p') : SlotFits p' := by
  intro hempty
  cases hstep with
  | kept hroot hgen hunix _ =>
    rw [hgen, hunix]
    exact h (hroot.symm.trans hempty)
  | emptied _ hgen hunix _ => exact ⟨hgen, hunix⟩
  | staged _ hroot _ _ _ =>
    rw [hempty] at hroot
    cases hroot
  | replaced _ _ _ hroot _ _ =>
    rw [hempty] at hroot
    cases hroot
  | restored _ hslot =>
    rw [hslot] at hempty ⊢
    exact h hempty

/-- Staging into an empty slot sets the wall-clock stamp; a monotonic stamp that is still there
stays. -/
theorem PeerProposalStep.of_empty {t : Clock} (h : PeerProposalStep op p p') (hfits : SlotFits p)
    (hop : op.clock = some t) (hempty : p.rootKey = none) (hfull : p'.rootKey.isSome = true) :
    (∃ g, p'.carrierGen = some g) ∧ p'.attachedAtUnix = some t.unix ∧
      p'.attachedAtMono = p.attachedAtMono.or (some t.mono) := by
  obtain ⟨hnogen, hnounix⟩ := hfits hempty
  cases h with
  | kept hroot _ _ _ =>
    rw [hroot, hempty] at hfull
    cases hfull
  | emptied hroot _ _ _ =>
    rw [hroot] at hfull
    cases hfull
  | @staged now g hclock _ hgen hunix hmono =>
    obtain rfl : now = t := Option.some.inj (hclock.symm.trans hop)
    rw [hnounix] at hunix
    exact ⟨⟨g, hgen⟩, hunix, hmono⟩
  | replaced holder _ _ _ _ _ =>
    rw [hnogen] at holder
    cases holder
  | restored _ hslot =>
    rw [hslot, hempty] at hfull
    cases hfull

/-- While a proposal stays in the slot, its wall-clock stamp stays, and its monotonic stamp stays
too unless the process ends; after that, the time of a re-sent carrier can become one. -/
theorem PeerProposalStep.of_same_carrier {g u : ℕ} (h : PeerProposalStep op p p')
    (hgen : p.carrierGen = some g) (hgen' : p'.carrierGen = some g)
    (hunix : p.attachedAtUnix = some u) :
    p'.attachedAtUnix = some u ∧
      (p'.attachedAtMono = p.attachedAtMono ∨
        p.attachedAtMono = none ∧
          (∃ now, op.clock = some now ∧ p'.attachedAtMono = some now.mono) ∨
        op.inProcess = false ∧ p'.attachedAtMono = none) := by
  cases h with
  | kept _ _ hunix' hmono => exact ⟨hunix'.trans hunix, .inl hmono⟩
  | emptied _ hnone _ _ =>
    rw [hnone] at hgen'
    cases hgen'
  | @staged now _ hclock _ _ hunix' hmono =>
    rw [hunix] at hunix'
    refine ⟨hunix', ?_⟩
    cases hstamp : p.attachedAtMono with
    | none =>
      rw [hstamp] at hmono
      exact .inr (.inl ⟨rfl, now, hclock, hmono⟩)
    | some m =>
      rw [hstamp] at hmono
      exact .inl hmono
  | replaced holder hlt _ _ hnewer _ =>
    rw [hgen] at holder
    rw [hgen'] at hnewer
    obtain rfl := Option.some.inj holder
    obtain rfl := Option.some.inj hnewer
    exact absurd hlt (lt_irrefl _)
  | restored hrestore hslot =>
    rw [hslot]
    refine ⟨hunix, .inr (.inr ⟨?_, rfl⟩)⟩
    rw [hrestore]
    rfl

end Slots

section Steps

variable {P : Primitives K C} {s s' : DoubleRatchetState K C} {op : Operation C}
variable {payload : Option RekeyPayload} {now : Clock}

/-- A carrier of a newer generation takes the slot with its own times; otherwise the first stamps
win. -/
theorem Derives.peerProposalStep {nonce : Nonce} (h : Derives P s nonce now payload s')
    (hclock : payload.isSome = true → op.clock = some now) :
    PeerProposalStep op s.incomingProposal s'.incomingProposal := by
  cases h with
  | absent => exact .refl ..
  | superseded _ => exact .refl ..
  | staged _ _ =>
    by_cases hnewer : s.incomingProposal.carrierGen.any (· < nonce.generation) = true
    · obtain ⟨g, hg, hlt⟩ := (Option.any_eq_true _ _).1 hnewer
      refine .replaced hg (of_decide_eq_true hlt) (hclock rfl) rfl rfl ?_
      simp [stageIncoming, stampIncomingProposalAttachedAt, hnewer]
    · refine .staged (hclock rfl) rfl rfl ?_ ?_
      · simp [stageIncoming, stampIncomingProposalAttachedAt, hnewer]
      · simp [stageIncoming, stampIncomingProposalAttachedAt, hnewer]

/-- A decryption does to the slot what an operation may do. -/
theorem DecryptStep.peerProposalStep {nonce : Nonce} {c : C} {res : Except KyberError Bytes}
    (h : DecryptStep P s nonce c payload now res s')
    (hclock : payload.isSome = true → op.clock = some now) :
    PeerProposalStep op s.incomingProposal s'.incomingProposal := by
  cases h with
  | refused _ => exact .refl ..
  | failed _ _ _ hderives => exact hderives.peerProposalStep hclock
  | previous _ hdel =>
    rw [hdel.frame]
    exact .refl ..
  | @current _ s₁ s₂ _ _ hderives hdel =>
    have hstep := hderives.peerProposalStep hclock
    have hslot : s₂.incomingProposal = s₁.incomingProposal := by rw [hdel.frame]
    rw [← hslot] at hstep
    unfold resolveRekeyRaceAndAck
    split_ifs
    · exact hstep
    · exact hstep
    · -- our own proposal stays and the peer's is dropped
      exact hstep.followed_by_empty
    · exact hstep
  | @pending _ s₁ s₂ _ _ _ hderives hdel =>
    rw [hdel.hstate]
    show PeerProposalStep op _ s₁.commitPendingRekeyWithRaceResolution.incomingProposal
    rw [incomingProposal_commitPendingRekeyWithRaceResolution]
    exact (hderives.peerProposalStep hclock).followed_by_empty

/-- An encryption leaves the slot of the peer's proposal alone. -/
theorem EncryptStep.incomingProposal {pt : Bytes} {rnd : EncryptRandomness}
    {res : Except KyberError (RatchetEncryptedMessage C)} (h : EncryptStep P s pt rnd now res s') :
    s'.incomingProposal = s.incomingProposal := by
  rw [h.frame]

/-- A resynchronisation evicts a stale proposal or leaves the slot alone. -/
theorem peerProposalStep_resyncReceivingChain (P : Primitives K C) (s : DoubleRatchetState K C)
    (targetSeq : ℕ) (now : Clock) :
    PeerProposalStep op s.incomingProposal
      (s.resyncReceivingChain P targetSeq now).2.incomingProposal := by
  obtain ⟨t, hevict, hslot, _, _⟩ := resyncReceivingChain_slots P s targetSeq now
  rw [hslot]
  cases hevict with
  | none => exact .refl ..
  | incoming => exact (PeerProposalStep.refl ..).followed_by_empty
  | outgoing => exact .refl ..
  | both => exact (PeerProposalStep.refl ..).followed_by_empty

/-- What every operation does to the slot of the peer's proposal. -/
theorem perform_peerProposalStep (P : Primitives K C) (s : DoubleRatchetState K C)
    (op : Operation C) :
    PeerProposalStep op s.incomingProposal (s.perform P op).incomingProposal := by
  have hempty := (PeerProposalStep.refl op s.incomingProposal).followed_by_empty
  cases op with
  | encrypt pt rnd now =>
    rw [perform, (ratchetEncrypt_step P s pt rnd now).incomingProposal]
    exact .refl ..
  | decrypt nonce c =>
    exact (ratchetDecrypt_step P s nonce c ⟨0, 0⟩).peerProposalStep (by rintro ⟨⟩)
  | decryptWithRekey nonce c rct rx rm now =>
    exact (ratchetDecryptWithRekey_step P s nonce c rct rx rm now).peerProposalStep fun _ => rfl
  | processRekeyAck seq =>
    rw [perform]
    rcases processRekeyAck_cases s seq with heq | heq
    · rw [heq, incomingProposal_commitOutgoingRekey]
      exact .refl ..
    · rw [heq]
      exact .refl ..
  | takePendingRekeyAckSeq => exact .kept rfl rfl rfl rfl
  | peekRekeyAck rnd now =>
    obtain ⟨cache, hpeek | ⟨seq, hpeek⟩⟩ := peekRekeyAck_state P s rnd now
    · rw [perform, hpeek]
      exact .refl ..
    · rw [perform, hpeek,
        (ratchetEncrypt_step P s (P.toJson (.rekeyAck seq)) rnd now).incomingProposal]
      exact .refl ..
  | consumeRekeyAck => exact .refl ..
  | resync targetSeq now => exact peerProposalStep_resyncReceivingChain P s targetSeq now
  | commitPendingRekey =>
    rw [perform, incomingProposal_commitPendingRekey]
    exact hempty
  | commitOutgoingRekey =>
    rw [perform, incomingProposal_commitOutgoingRekey]
    exact .refl ..
  | cancelOutgoingRekey => exact .refl ..
  | cancelPendingIncomingRekey => exact hempty
  | restore now =>
    refine .restored rfl ?_
    rw [perform, fromSnapshot_toSnapshot]
    rfl

end Steps

/-! ## Clocks that advance together -/

/-- The reading at the monotonic time `τ` of two clocks that advance together. The wall clock is
`offset` nanoseconds ahead and is read in whole seconds. -/
def clockAt (offset τ : ℕ) : Clock := ⟨τ, (τ + offset) / nanosPerSec⟩

/-- The operation reads the clocks at or after `t` and leaves the carrier of generation `g` in the
slot. -/
def KeepsCarrier (P : Primitives K C) (offset t : ℕ) (g : Option ℕ) (s : DoubleRatchetState K C)
    (op : Operation C) : Prop :=
  (∀ now, op.clock = some now → ∃ τ, t ≤ τ ∧ now = clockAt offset τ) ∧
    (s.perform P op).incomingProposal.carrierGen = g

/-- A proposal with a monotonic stamp from before `t`, or with a wall-clock stamp in the middle of a
second, is stale before its lifetime from `t` on has passed. -/
theorem exists_stale_before_ttl {offset t : ℕ}
    (hunix : p.attachedAtUnix = some (clockAt offset t).unix)
    (hold : (∃ m, p.attachedAtMono = some m ∧ m < t) ∨ (t + offset) % nanosPerSec ≠ 0) :
    ∃ τ, t ≤ τ ∧ τ < t + incomingRekeyTtlSecs * nanosPerSec ∧
      p.isStale (clockAt offset τ) = true := by
  rcases hold with ⟨m, hm, hlt⟩ | hpart
  · refine ⟨max t (m + incomingRekeyTtlSecs * nanosPerSec), le_max_left _ _, ?_, ?_⟩
    · simp only [incomingRekeyTtlSecs, nanosPerSec]
      omega
    · exact (IncomingProposal.isStale_iff _ hunix).2 (.inr ⟨m, hm, le_max_right _ _⟩)
  · refine ⟨t + incomingRekeyTtlSecs * nanosPerSec - 1, ?_, ?_, ?_⟩
    · simp only [incomingRekeyTtlSecs, nanosPerSec]
      omega
    · simp only [incomingRekeyTtlSecs, nanosPerSec]
      omega
    · refine (IncomingProposal.isStale_iff _ hunix).2 (.inl ?_)
      simp only [clockAt, incomingRekeyTtlSecs, nanosPerSec] at hpart ⊢
      omega

/-- While the carrier stays, the wall-clock stamp stays, and the monotonic one stays or is made at a
later time. -/
theorem late_stamps_run {P : Primitives K C} {s : DoubleRatchetState K C} {offset t g u : ℕ}
    {later : List (Operation C)} (hgen : s.incomingProposal.carrierGen = some g)
    (hunix : s.incomingProposal.attachedAtUnix = some u)
    (hlate : ∀ m, s.incomingProposal.attachedAtMono = some m → t ≤ m)
    (hfollows : (operated P).Follows (KeepsCarrier P offset t (some g)) s later) :
    ((operated P).run s later).2.incomingProposal.attachedAtUnix = some u ∧
      ∀ m, ((operated P).run s later).2.incomingProposal.attachedAtMono = some m → t ≤ m := by
  refine (run_invariant_of_follows
    (fun v : DoubleRatchetState K C => v.incomingProposal.carrierGen = some g ∧
      v.incomingProposal.attachedAtUnix = some u ∧
      ∀ m, v.incomingProposal.attachedAtMono = some m → t ≤ m) ?_ ⟨hgen, hunix, hlate⟩ hfollows).2
  rintro v o ⟨hgenv, hunixv, hlatev⟩ ⟨hreads, hkeeps⟩
  obtain ⟨hunix', hmono'⟩ := (perform_peerProposalStep P v o).of_same_carrier hgenv hkeeps hunixv
  refine ⟨hkeeps, hunix', fun m hm => ?_⟩
  rcases hmono' with hsame | ⟨_, now, hclock, hnew⟩ | ⟨_, hnone⟩
  · exact hlatev m (hsame.symm.trans hm)
  · -- a carrier that arrives again after a restart is stamped with its own time
    obtain ⟨τ, hτ, rfl⟩ := hreads now hclock
    obtain rfl := Option.some.inj (hnew.symm.trans hm)
    exact hτ
  · rw [operated_step, hnone] at hm
    cases hm

/-- Let a proposal be staged at `t` into an empty slot after any operations. It is fresh at every
time before its lifetime has passed, as long as it stays in the slot, exactly if no earlier
monotonic stamp is left in the slot and `t` is a whole second of the wall clock. -/
theorem fresh_for_ttl_iff (P : Primitives K C) (secret : Bytes) (isInitiator : Bool)
    (pair : HybridKeyPair) (peerX25519Pk peerMlkemPk : Option Bytes)
    (before : List (Operation C)) (op : Operation C) (offset t : ℕ)
    (hop : op.clock = some (clockAt offset t))
    (hempty : ((operated P).run (newWithKeypair P secret isInitiator pair peerX25519Pk peerMlkemPk)
      before).2.incomingProposal.rootKey = none)
    (hstaged : (((operated P).run (newWithKeypair P secret isInitiator pair peerX25519Pk
      peerMlkemPk) before).2.perform P op).incomingProposal.rootKey.isSome = true) :
    let s := ((operated P).run
      (newWithKeypair P secret isInitiator pair peerX25519Pk peerMlkemPk) before).2
    let s' := s.perform P op
    (∀ later τ,
        (operated P).Follows (KeepsCarrier P offset t s'.incomingProposal.carrierGen) s' later →
        t ≤ τ → τ < t + incomingRekeyTtlSecs * nanosPerSec →
        ((operated P).run s' later).2.incomingProposal.isStale (clockAt offset τ) = false) ↔
      (∀ m, s.incomingProposal.attachedAtMono = some m → t ≤ m) ∧
        (t + offset) % nanosPerSec = 0 := by
  intro s s'
  have hfits : SlotFits s.incomingProposal :=
    run_invariant (m := operated P) (fun v => SlotFits v.incomingProposal)
      (fun _ o h => h.step (perform_peerProposalStep P _ o)) (fun _ => ⟨rfl, rfl⟩) before
  obtain ⟨⟨g, hgen⟩, hunix, hmono⟩ :=
    (perform_peerProposalStep P s op).of_empty hfits hop hempty hstaged
  constructor
  · intro hfresh
    by_contra hnot
    have hold : (∃ m, s'.incomingProposal.attachedAtMono = some m ∧ m < t) ∨
        (t + offset) % nanosPerSec ≠ 0 := by
      rcases not_and_or.1 hnot with hleft | hpart
      · push Not at hleft
        obtain ⟨m, hm, hlt⟩ := hleft
        rw [hm, Option.some_or] at hmono
        exact .inl ⟨m, hmono, hlt⟩
      · exact .inr hpart
    obtain ⟨τ, hτ, hτ', hstale⟩ := exists_stale_before_ttl hunix hold
    have hnot := hfresh [] τ trivial hτ hτ'
    rw [run_nil, hstale] at hnot
    cases hnot
  · rintro ⟨hleft, hwhole⟩ later τ hfollows hτ hτ'
    rw [hgen] at hfollows
    have hlate : ∀ m, s'.incomingProposal.attachedAtMono = some m → t ≤ m := by
      intro m hm
      rw [hmono, Option.or_eq_some_iff] at hm
      rcases hm with hm | ⟨_, hm⟩
      · exact hleft m hm
      · exact (Option.some.inj hm).le
    obtain ⟨hunix', hlate'⟩ := late_stamps_run hgen hunix hlate hfollows
    rw [← Bool.not_eq_true, IncomingProposal.isStale_iff _ hunix']
    rintro (hwall | ⟨m, hm, hage⟩)
    · simp only [clockAt, incomingRekeyTtlSecs, nanosPerSec] at *
      omega
    · have := hlate' m hm
      simp only [clockAt, incomingRekeyTtlSecs, nanosPerSec] at *
      omega

end DoubleRatchetState

namespace Symbolic

/-- A proposal of the initiator to the responder, by the seed of its encapsulation. -/
def proposalTo (n : ℕ) : RekeyPayload :=
  ⟨List.replicate 32 5, [9], ((encapsulateHybrid primitives responderPair.x25519Pk
    responderPair.mlkemPk ⟨[], n⟩).toOption.getD ⟨[], []⟩).ciphertextBytes⟩

/-- The first message of the initiator carries a proposal. -/
def firstCarrier (now : Clock) : Operation Ciphertext :=
  arrival (primitives.chain.keyAt initiator.send.key 0) ⟨0, 0⟩ (some (proposalTo 5)) now

/-- A message of the generation that the first proposal leads to. -/
def arrivalAfter (seq : ℕ) (payload : Option RekeyPayload) (now : Clock) :
    Operation Ciphertext :=
  arrival (primitives.chain.keyAt
    (primitives.nextSendChain initiator.rootKey announced.combinedSharedSecret) seq) ⟨1, seq⟩
    payload now

end Symbolic

namespace DoubleRatchetState

/-- The theorem at a fresh session: the first proposal is fresh for all of its lifetime. -/
theorem fresh_for_ttl_of_first_proposal :
    let s' := responder.perform primitives (firstCarrier (clockAt 0 0))
    s'.incomingProposal.rootKey.isSome = true ∧
      ∀ later τ, (operated primitives).Follows
        (KeepsCarrier primitives 0 0 s'.incomingProposal.carrierGen) s' later →
        0 ≤ τ → τ < 0 + incomingRekeyTtlSecs * nanosPerSec →
        ((operated primitives).run s' later).2.incomingProposal.isStale
          (clockAt 0 τ) = false := by
  intro s'
  have hstaged : s'.incomingProposal.rootKey.isSome = true := by decide +kernel
  refine ⟨hstaged, (fresh_for_ttl_iff primitives [7] false responderPair
    (some initiatorPair.x25519Pk) (some initiatorPair.mlkemPk) []
    (firstCarrier (clockAt 0 0)) 0 0 rfl rfl hstaged).2 ⟨?_, rfl⟩⟩
  rintro m ⟨⟩

/-- The proposal after a committed one takes over its monotonic stamp: staged 100 seconds after
the first one, it is stale at once. -/
theorem second_proposal_stale_at_once :
    let s := ((operated primitives).run responder
      [firstCarrier (clockAt 0 0), arrivalAfter 0 none (clockAt 0 0)]).2
    let s' := s.perform primitives (arrivalAfter 1 (some (proposalTo 6))
      (clockAt 0 (100 * nanosPerSec)))
    s.ratchetGeneration = 1 ∧ s.incomingProposal.rootKey = none ∧
      s'.incomingProposal.rootKey.isSome = true ∧ s'.incomingProposal.carrierGen = some 1 ∧
      s'.incomingProposal.isStale (clockAt 0 (100 * nanosPerSec)) = true := by
  decide +kernel

/-! ## Clocks that jump -/

/-- The sessions with which a process starts: a fresh one, or the one that an earlier process has
stored. -/
inductive ProcessStart (P : Primitives K C) : DoubleRatchetState K C → Prop
  | created (secret : Bytes) (isInitiator : Bool) (pair : HybridKeyPair)
      (peerX25519Pk peerMlkemPk : Option Bytes) :
      ProcessStart P (newWithKeypair P secret isInitiator pair peerX25519Pk peerMlkemPk)
  | restored {s : DoubleRatchetState K C} (h : ProcessStart P s) (ops : List (Operation C))
      (now : Clock) : ProcessStart P (((operated P).run s ops).2.perform P (.restore now))

/-- At least `secs` seconds of monotonic time lie between two readings. -/
def Elapsed (secs : ℕ) (t now : Clock) : Prop := t.mono + secs * nanosPerSec ≤ now.mono

instance (secs : ℕ) (t now : Clock) : Decidable (Elapsed secs t now) :=
  inferInstanceAs (Decidable (t.mono + secs * nanosPerSec ≤ now.mono))

section Jumps

variable {P : Primitives K C} {s s' s₀ : DoubleRatchetState K C} {op : Operation C}

/-- A process starts with a fitting slot and a fitting queue, and without a monotonic stamp. -/
theorem ProcessStart.fits (h : ProcessStart P s₀) :
    SlotFits s₀.incomingProposal ∧ s₀.QueueFits ∧ s₀.incomingProposal.attachedAtMono = none := by
  induction h with
  | created => exact ⟨fun _ => ⟨rfl, rfl⟩, .of_empty rfl rfl, rfl⟩
  | @restored s _ ops now ih =>
    obtain ⟨hslot, hqueue⟩ := run_invariant (m := operated P)
      (fun v : DoubleRatchetState K C => SlotFits v.incomingProposal ∧ v.QueueFits)
      (fun v o hv => ⟨hv.1.step (perform_peerProposalStep P v o),
        hv.2.step (perform_ownProposalStep P v o)⟩) ⟨ih.1, ih.2.1⟩ ops
    refine ⟨hslot.step (perform_peerProposalStep P _ (.restore now)),
      hqueue.step (perform_ownProposalStep P _ (.restore now)), ?_⟩
    rw [perform, fromSnapshot_toSnapshot]
    rfl

/-- Within a process, a monotonic stamp is one of its own readings. -/
theorem ProcessStart.run_fits (h : ProcessStart P s₀) {τ : ℕ} {ops : List (Operation C)}
    (hops : ∀ op ∈ ops, op.By τ) :
    let s := ((operated P).run s₀ ops).2
    SlotFits s.incomingProposal ∧ s.QueueFits ∧
      ∀ m, s.incomingProposal.attachedAtMono = some m → m ≤ τ := by
  obtain ⟨hslot, hqueue, hmono⟩ := h.fits
  have hfollows : (operated P).Follows (fun _ op => op.By τ) s₀ ops :=
    follows_of_forall hops
  refine run_invariant_of_follows
    (fun v : DoubleRatchetState K C => SlotFits v.incomingProposal ∧ v.QueueFits ∧
      ∀ m, v.incomingProposal.attachedAtMono = some m → m ≤ τ) ?_ ⟨hslot, hqueue, ?_⟩ hfollows
  · rintro v o ⟨hslot, hqueue, hstamp⟩ hby
    have hstep := perform_peerProposalStep P v o
    refine ⟨hslot.step hstep, hqueue.step (perform_ownProposalStep P v o), fun m hm => ?_⟩
    rcases hstep.attachedAtMono hm with hm | ⟨now, hclock, rfl⟩
    · exact hstamp m hm
    · exact hby now hclock
  · rw [hmono]
    rintro m ⟨⟩

variable {carrier : RekeyCarrier}

/-- An operation of the process on a queue that it does not empty: the only carrier stays, or it
was due and is attached again. -/
theorem OwnProposalStep.of_single (h : OwnProposalStep s op s') (hin : op.inProcess = true)
    (hqueue : s.rekeyPendingConfirmQueue = [carrier]) (hsome : s'.rekeyPendingConfirmQueue ≠ []) :
    s'.rekeyPendingConfirmQueue = [carrier] ∨
      ∃ seq now, op.clock = some now ∧ s'.rekeyPendingConfirmQueue =
        [{ carrier with
          carrierSeq := seq, attachedAt := now.mono, attachedAtUnix := now.unix }] := by
  cases h with
  | kept _ hkept => exact .inl (hkept.trans hqueue)
  | dropped _ hnone => exact absurd hnone hsome
  | @resent now other seq hclock hmem hdue _ hres =>
    rw [hqueue] at hmem hres
    obtain rfl := List.mem_singleton.1 hmem
    have hrest : [other].filter (!·.isDue now) = [] := by simp [hdue]
    rw [hrest, List.nil_append] at hres
    exact .inr ⟨seq, now, hclock, hres⟩
  | staged _ _ hnone _ _ _ =>
    rw [hqueue] at hnone
    cases hnone
  | restored hrestore _ _ =>
    rw [hrestore] at hin
    cases hin

/-- An operation of the process that attaches a payload stamps the carrier with its reading, and
on an empty queue also as the first time. -/
theorem OwnProposalStep.attached {t : Clock} (h : OwnProposalStep s op s') (hfits : s.QueueFits)
    (hop : op.clock = some t) (hin : op.inProcess = true)
    (hnew : s'.rekeyPendingConfirmQueue ≠ s.rekeyPendingConfirmQueue)
    (hsome : s'.rekeyPendingConfirmQueue ≠ []) :
    ∃ carrier, s'.rekeyPendingConfirmQueue = [carrier] ∧ carrier.attachedAt = t.mono ∧
      carrier.attachedAtUnix = t.unix ∧
      (s.rekeyPendingConfirmQueue = [] →
        carrier.firstAttachedAt = t.mono ∧ carrier.firstAttachedAtUnix = t.unix) := by
  rcases hfits.cases with ⟨_, hempty⟩ | ⟨_, carrier, hsingle, _⟩
  · cases h with
    | kept _ hkept => exact absurd hkept hnew
    | dropped _ hnone => exact absurd hnone hsome
    | resent _ _ hmem _ _ _ =>
      rw [hempty] at hmem
      cases hmem
    | @staged now payload seq hclock _ _ _ hqueue =>
      obtain rfl : now = t := Option.some.inj (hclock.symm.trans hop)
      exact ⟨_, hqueue, rfl, rfl, fun _ => ⟨rfl, rfl⟩⟩
    | restored hrestore _ _ =>
      rw [hrestore] at hin
      cases hin
  · rcases h.of_single hin hsingle hsome with hsame | ⟨seq, now, hclock, hqueue⟩
    · exact absurd (hsame.trans hsingle.symm) hnew
    · obtain rfl : now = t := Option.some.inj (hclock.symm.trans hop)
      refine ⟨_, hqueue, rfl, rfl, fun hempty => ?_⟩
      rw [hsingle] at hempty
      cases hempty

variable {later : List (Operation C)}

/-- Within a process, both stamps stay as long as the carrier. -/
theorem stamps_run {g u m : ℕ} (hgen : s.incomingProposal.carrierGen = some g)
    (hunix : s.incomingProposal.attachedAtUnix = some u)
    (hmono : s.incomingProposal.attachedAtMono = some m)
    (hfollows : (operated P).Follows (fun v o => o.inProcess = true ∧
      (v.perform P o).incomingProposal.carrierGen = some g) s later) :
    ((operated P).run s later).2.incomingProposal.attachedAtUnix = some u ∧
      ((operated P).run s later).2.incomingProposal.attachedAtMono = some m := by
  refine (run_invariant_of_follows
    (fun v : DoubleRatchetState K C => v.incomingProposal.carrierGen = some g ∧
      v.incomingProposal.attachedAtUnix = some u ∧ v.incomingProposal.attachedAtMono = some m)
    ?_ ⟨hgen, hunix, hmono⟩ hfollows).2
  rintro v o ⟨hgenv, hunixv, hmonov⟩ ⟨hino, hkeeps⟩
  obtain ⟨hunix', hsame | ⟨hnone, _⟩ | ⟨hout, _⟩⟩ :=
    (perform_peerProposalStep P v o).of_same_carrier hgenv hkeeps hunixv
  · exact ⟨hkeeps, hunix', hsame.trans hmonov⟩
  · rw [hmonov] at hnone
    cases hnone
  · rw [hino] at hout
    cases hout

/-- Within a process, a carrier that is attached again keeps the stamps of its first time. -/
theorem first_stamps_run {t : Clock} (hqueue : s.rekeyPendingConfirmQueue = [carrier])
    (hmono : carrier.firstAttachedAt = t.mono) (hunix : carrier.firstAttachedAtUnix = t.unix)
    (hfollows : (operated P).Follows (fun v o => o.inProcess = true ∧
      (v.perform P o).rekeyPendingConfirmQueue ≠ []) s later) :
    ∃ last, ((operated P).run s later).2.rekeyPendingConfirmQueue = [last] ∧
      last.firstAttachedAt = t.mono ∧ last.firstAttachedAtUnix = t.unix := by
  refine run_invariant_of_follows
    (fun v : DoubleRatchetState K C => ∃ last, v.rekeyPendingConfirmQueue = [last] ∧
      last.firstAttachedAt = t.mono ∧ last.firstAttachedAtUnix = t.unix)
    ?_ ⟨carrier, hqueue, hmono, hunix⟩ hfollows
  rintro v o ⟨last, hv, hmono, hunix⟩ ⟨hino, hkeeps⟩
  rcases (perform_ownProposalStep P v o).of_single hino hv hkeeps with
    hsame | ⟨seq, now, _, hresent⟩
  · exact ⟨last, hsame, hmono, hunix⟩
  · exact ⟨_, hresent, hmono, hunix⟩

end Jumps

/-- Let an operation read `t` and stage a proposal of the peer into the empty slot, or one of our
own next to the empty queue, or attach our payload to a message. The predicate about its age follows
the monotonic clock at a reading `now` exactly if the time has passed, or the wall clock has not
moved by as much (and no old monotonic stamp was left in the slot of the peer's proposal). -/
theorem ageing_follows_monotonic_clock_iff (P : Primitives K C) {s₀ : DoubleRatchetState K C}
    (hstart : ProcessStart P s₀) (before later : List (Operation C)) (op : Operation C)
    (t now : Clock) (hbefore : ∀ o ∈ before, o.By t.mono) (hop : op.clock = some t)
    (hin : op.inProcess = true) :
    let s := ((operated P).run s₀ before).2
    let s' := s.perform P op
    let final := ((operated P).run s' later).2
    (s.incomingProposal.rootKey = none → s'.incomingProposal.rootKey.isSome = true →
      (operated P).Follows (fun v o => o.inProcess = true ∧
        (v.perform P o).incomingProposal.carrierGen = s'.incomingProposal.carrierGen) s' later →
      ((final.incomingProposal.isStale now = true ↔ Elapsed incomingRekeyTtlSecs t now) ↔
        Elapsed incomingRekeyTtlSecs t now ∨ now.unix < t.unix + incomingRekeyTtlSecs ∧
          ∀ m, s.incomingProposal.attachedAtMono = some m →
            now.mono < m + incomingRekeyTtlSecs * nanosPerSec)) ∧
    (s.rekeyPendingConfirmQueue = [] → s'.rekeyPendingConfirmQueue ≠ [] →
      (operated P).Follows (fun v o => o.inProcess = true ∧
        (v.perform P o).rekeyPendingConfirmQueue ≠ []) s' later →
      ((outgoingProposalIsStale final.rekeyPendingConfirmQueue now = true ↔
          Elapsed incomingRekeyTtlSecs t now) ↔
        Elapsed incomingRekeyTtlSecs t now ∨ now.unix < t.unix + incomingRekeyTtlSecs)) ∧
    (s'.rekeyPendingConfirmQueue ≠ s.rekeyPendingConfirmQueue → s'.rekeyPendingConfirmQueue ≠ [] →
      (operated P).Follows (fun v o => (v.perform P o).rekeyPendingConfirmQueue =
        s'.rekeyPendingConfirmQueue) s' later →
      ((final.rekeyPendingConfirmQueue.any (·.isDue now) = true ↔ Elapsed rekeyRetryTtlSecs t now) ↔
        Elapsed rekeyRetryTtlSecs t now ∨ now.unix < t.unix + rekeyRetryTtlSecs)) := by
  intro s s' final
  obtain ⟨hslot, hqueue, hstamp⟩ := hstart.run_fits hbefore
  refine ⟨fun hempty hfull hfollows => ?_, fun hempty hsome hfollows => ?_,
    fun hnew hsome hfollows => ?_⟩
  · obtain ⟨⟨g, hgen⟩, hunix, hmono⟩ :=
      (perform_peerProposalStep P s op).of_empty hslot hop hempty hfull
    rw [hgen] at hfollows
    cases hleft : s.incomingProposal.attachedAtMono with
    | none =>
      rw [hleft, Option.none_or] at hmono
      obtain ⟨hunix', hmono'⟩ := stamps_run hgen hunix hmono hfollows
      rw [IncomingProposal.isStale_iff now hunix', hmono']
      simp only [Option.some.injEq, exists_eq_left', Elapsed, reduceCtorEq, false_implies,
        implies_true, and_true]
      omega
    | some m =>
      -- the stamp that was left is one of an earlier reading
      have hm := hstamp m hleft
      rw [hleft, Option.some_or] at hmono
      obtain ⟨hunix', hmono'⟩ := stamps_run hgen hunix hmono hfollows
      rw [IncomingProposal.isStale_iff now hunix', hmono']
      simp only [Option.some.injEq, exists_eq_left', Elapsed, forall_eq']
      omega
  · have hnew : s'.rekeyPendingConfirmQueue ≠ s.rekeyPendingConfirmQueue := by
      rw [hempty]
      exact hsome
    obtain ⟨carrier, hcarrier, _, _, hfirst⟩ :=
      (perform_ownProposalStep P s op).attached hqueue hop hin hnew hsome
    obtain ⟨hmono, hunix⟩ := hfirst hempty
    obtain ⟨last, hlast, hmono', hunix'⟩ := first_stamps_run hcarrier hmono hunix hfollows
    rw [hlast, outgoingProposalIsStale_singleton_iff, hmono', hunix', Elapsed,
      or_iff_right_iff_imp, imp_iff_or_not, not_le]
  · obtain ⟨carrier, hcarrier, hmono, hunix, _⟩ :=
      (perform_ownProposalStep P s op).attached hqueue hop hin hnew hsome
    have hfinal : final.rekeyPendingConfirmQueue = s'.rekeyPendingConfirmQueue :=
      run_invariant_of_follows
        (fun v : DoubleRatchetState K C =>
          v.rekeyPendingConfirmQueue = s'.rekeyPendingConfirmQueue)
        (fun _ _ _ h => h) rfl hfollows
    rw [hfinal, hcarrier, List.any_cons, List.any_nil, Bool.or_false, RekeyCarrier.isDue_iff,
      hmono, hunix, Elapsed, or_iff_right_iff_imp, imp_iff_or_not, not_le]

/-- A minute after its staging a proposal of the peer is stale, and after 15 seconds one of our own
is due and not stale. -/
theorem ageing_follows_monotonic_clock_of_steady_clocks :
    ((operated primitives).run (responder.perform primitives (firstCarrier ⟨0, 0⟩))
        []).2.incomingProposal.isStale ⟨60 * nanosPerSec, 0⟩ = true ∧
      (let s := (((operated primitives).run initiator (encryptions 100)).2.perform primitives
          (.encrypt [] (randomness 100) ⟨0, 0⟩))
      (((operated primitives).run s []).2.rekeyPendingConfirmQueue.any
          (·.isDue ⟨15 * nanosPerSec, 0⟩) = true) ∧
        ¬outgoingProposalIsStale ((operated primitives).run s
          []).2.rekeyPendingConfirmQueue ⟨15 * nanosPerSec, 0⟩ = true) := by
  have hstart : ProcessStart primitives initiator := .created ..
  have hsteady : ∀ o ∈ encryptions 100, o.By 0 := by
    intro o ho
    obtain ⟨n, _, rfl⟩ := List.mem_map.1 ho
    rintro now ⟨⟩
    exact le_rfl
  have hpeer := (ageing_follows_monotonic_clock_iff primitives
    (.created [7] false responderPair (some initiatorPair.x25519Pk)
      (some initiatorPair.mlkemPk)) [] [] (firstCarrier ⟨0, 0⟩) ⟨0, 0⟩
    ⟨60 * nanosPerSec, 0⟩ (by rintro o ⟨⟩) rfl rfl).1 rfl (by decide +kernel) trivial
  obtain ⟨_, hstale, hdue⟩ := ageing_follows_monotonic_clock_iff primitives hstart
    (encryptions 100) [] (.encrypt [] (randomness 100) ⟨0, 0⟩) ⟨0, 0⟩
    ⟨15 * nanosPerSec, 0⟩ hsteady rfl rfl
  have hempty : ((operated primitives).run initiator
      (encryptions 100)).2.rekeyPendingConfirmQueue = [] := by
    decide +kernel
  have hsome : (((operated primitives).run initiator (encryptions 100)).2.perform primitives
      (.encrypt [] (randomness 100) ⟨0, 0⟩)).rekeyPendingConfirmQueue ≠ [] := by
    decide +kernel
  refine ⟨(hpeer.2 (.inl (by decide))).2 (by decide), ?_, ?_⟩
  · exact ((hdue (by rw [hempty]; exact hsome) hsome trivial).2 (.inl (by decide))).2 (by decide)
  · intro hold
    have helapsed := ((hstale hempty hsome trivial).2 (.inr (by decide))).1 hold
    revert helapsed
    decide

/-- One nanosecond after the staging, a wall clock that has jumped by a minute makes both proposals
stale and the carrier due. -/
theorem ageing_follows_wall_clock_jump :
    let now : Clock := ⟨1, 60⟩
    (responder.perform primitives (firstCarrier ⟨0, 0⟩)).incomingProposal.isStale now = true ∧
      (let s := ((operated primitives).run initiator (encryptions 101)).2
      outgoingProposalIsStale s.rekeyPendingConfirmQueue now = true ∧
        s.rekeyPendingConfirmQueue.any (·.isDue now) = true) := by
  decide +kernel

end DoubleRatchetState

end KyberPipe
