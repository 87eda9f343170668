import KyberPipe.Ratchet.Session

/-!
# Retained key pairs

Phase 1 of the rekey-aware entry searches the current and the retained key pairs for one that
decapsulates the carrier. ML-KEM rejects implicitly: a wrong key pair decapsulates too, to another
secret. The search never gets past the current pair, and a carrier that was encapsulated to a
retained one is staged over the wrong secret.
-/

namespace KyberPipe

open Symbolic

namespace DoubleRatchetState

variable {K C : Type} {P : Primitives K C} {s : DoubleRatchetState K C}

/-- The search ends at the current pair if that pair decapsulates. -/
theorem decapsulateRekey_of_ok {ct ss : Bytes}
    (h : decapsulateHybrid P ct s.ourHybridPair.x25519Sk s.ourHybridPair.mlkemSk = .ok ss) :
    s.decapsulateRekey P ct = some ss := by
  rw [decapsulateRekey, List.findSome?_cons, h]
  rfl

/-- The secret of a staged proposal can be told from its root key. -/
theorem secret_eq_of_stageIncoming_eq (ideal : P.Ideal) {ss ss' xpk mpk : Bytes}
    {nonceGen seq : ℕ} {now : Clock}
    (h : s.stageIncoming P ss xpk mpk nonceGen seq now =
      s.stageIncoming P ss' xpk mpk nonceGen seq now) : ss = ss' := by
  have hroot : P.nextRootKey s.rootKey ss = P.nextRootKey s.rootKey ss' :=
    Option.some.inj (congrArg (·.incomingProposal.rootKey) h)
  exact Ikm.secret.inj (ideal.hkdf_inj hroot).2.1

/-- Let a carrier of the current generation be encapsulated to some key pair, and let every other
pair of the session decapsulate it to another secret. Phase 1 stages the proposal over the
encapsulated secret exactly if the pair is the current one and no carrier of a newer generation is
staged. -/
theorem staged_over_encapsulated_secret_iff (ideal : P.Ideal) (kem : P.KemCorrect)
    {kseed : KeygenSeed} {seed : EncapsulationSeed} {res : HybridKemResult}
    (henc : encapsulateHybrid P (generateHybridKeypair P kseed).x25519Pk
      (generateHybridKeypair P kseed).mlkemPk seed = .ok res)
    (hrejects : ∀ pair ∈ s.ourHybridPair :: s.previousKeypairs,
      pair ≠ generateHybridKeypair P kseed →
        ∃ ss, decapsulateHybrid P res.ciphertextBytes pair.x25519Sk pair.mlkemSk = .ok ss ∧
          ss ≠ res.combinedSharedSecret)
    (xpk mpk : Bytes) (seq : ℕ) (now : Clock) :
    s.deriveIncomingProposal P res.ciphertextBytes xpk mpk s.ratchetGeneration seq now =
        (.ok (), s.stageIncoming P res.combinedSharedSecret xpk mpk s.ratchetGeneration seq now) ↔
      s.ourHybridPair = generateHybridKeypair P kseed ∧
        ∀ g, s.incomingProposal.carrierGen = some g → g ≤ s.ratchetGeneration := by
  have hopens := kem.decapsulateHybrid_of_encapsulateHybrid henc
  have hsuperseded : s.carrierSuperseded s.ratchetGeneration = false ↔
      ∀ g, s.incomingProposal.carrierGen = some g → g ≤ s.ratchetGeneration := by
    rw [carrierSuperseded, Bool.or_eq_false_iff]
    cases s.incomingProposal.carrierGen with
    | none => simp
    | some g => simp
  rw [← hsuperseded]
  unfold deriveIncomingProposal
  cases hold : s.carrierSuperseded s.ratchetGeneration with
  | true =>
    -- a superseded carrier leaves the slot with the newer carrier generation it has
    simp only [if_true, Prod.mk.injEq, true_and, Bool.true_eq_false, and_false, iff_false]
    intro hsame
    have hgen : s.incomingProposal.carrierGen = some s.ratchetGeneration :=
      congrArg (·.incomingProposal.carrierGen) hsame
    have hnot := hsuperseded.2 (by
      intro g hg
      rw [hgen] at hg
      exact (Option.some.inj hg).symm.le)
    rw [hold] at hnot
    cases hnot
  | false =>
    simp only [Bool.false_eq_true, if_false, and_true]
    by_cases hcurrent : s.ourHybridPair = generateHybridKeypair P kseed
    · rw [← hcurrent] at hopens
      rw [decapsulateRekey_of_ok hopens]
      simp [hcurrent]
    · -- the current pair decapsulates as well, and the search stops there
      obtain ⟨ss, hss, hne⟩ := hrejects _ List.mem_cons_self hcurrent
      rw [decapsulateRekey_of_ok hss]
      simp only [Prod.mk.injEq, true_and, hcurrent, iff_false]
      intro hsame
      exact hne (secret_eq_of_stageIncoming_eq ideal hsame)

end DoubleRatchetState

namespace Symbolic

/-- The initiator after its first proposal was acknowledged: it has a new key pair and retains the
one of the pairing. -/
def rotatedInitiator : DoubleRatchetState Key Ciphertext :=
  ((sendAll initiator 0 101).2.processRekeyAck 100).2

/-- The seed of the initiator's new key pair. -/
def rotatedSeed : KeygenSeed := (randomness 100).keygen

/-- The encapsulation of a carrier to the key pair with seed `kseed`. -/
def encapsulatedTo (kseed : KeygenSeed) : HybridKemResult :=
  (encapsulateHybrid primitives (generateHybridKeypair primitives kseed).x25519Pk
    (generateHybridKeypair primitives kseed).mlkemPk ⟨[], 3⟩).toOption.getD ⟨[], []⟩

theorem encapsulatedTo_ok (kseed : KeygenSeed) :
    encapsulateHybrid primitives (generateHybridKeypair primitives kseed).x25519Pk
      (generateHybridKeypair primitives kseed).mlkemPk ⟨[], 3⟩ = .ok (encapsulatedTo kseed) := by
  rw [encapsulatedTo, kemCorrect.encapsulateHybrid_generate]
  rfl

theorem rotatedInitiator_pairs :
    rotatedInitiator.ourHybridPair = generateHybridKeypair primitives rotatedSeed ∧
      rotatedInitiator.previousKeypairs = [initiatorPair] := by
  decide +kernel

end Symbolic

open DoubleRatchetState in
/-- A carrier that was encapsulated to the current pair is staged over its secret. -/
theorem staged_over_encapsulated_secret_of_current :
    let res := encapsulatedTo rotatedSeed
    rotatedInitiator.previousKeypairs = [initiatorPair] ∧
      rotatedInitiator.deriveIncomingProposal primitives res.ciphertextBytes
          [1] [2] rotatedInitiator.ratchetGeneration 7 ⟨0, 0⟩ =
        (.ok (), rotatedInitiator.stageIncoming primitives
          res.combinedSharedSecret [1] [2] rotatedInitiator.ratchetGeneration 7
          ⟨0, 0⟩) := by
  intro res
  obtain ⟨hours, hprevious⟩ := rotatedInitiator_pairs
  refine ⟨hprevious, (staged_over_encapsulated_secret_iff ideal kemCorrect
    (encapsulatedTo_ok rotatedSeed) ?_ [1] [2] 7 ⟨0, 0⟩).2 ⟨hours, ?_⟩⟩
  · intro pair hpair hne
    rw [hours, hprevious, List.mem_cons, List.mem_singleton] at hpair
    obtain rfl := hpair.resolve_left hne
    exact ⟨_, rfl, by decide +kernel⟩
  · have hnone : rotatedInitiator.incomingProposal.carrierGen = none := by
      decide +kernel
    rw [hnone]
    rintro g ⟨⟩

open DoubleRatchetState in
/-- A carrier of the current generation that was encapsulated to a retained key pair is staged over
another secret: the current pair decapsulates it too, and the search stops there. -/
theorem retained_keypair_never_tried :
    let res := encapsulatedTo ⟨[], [1]⟩
    initiatorPair ∈ rotatedInitiator.previousKeypairs ∧
      encapsulateHybrid primitives initiatorPair.x25519Pk
        initiatorPair.mlkemPk ⟨[], 3⟩ = .ok res ∧
      (∃ ss, decapsulateHybrid primitives res.ciphertextBytes
          rotatedInitiator.ourHybridPair.x25519Sk rotatedInitiator.ourHybridPair.mlkemSk = .ok ss ∧
        ss ≠ res.combinedSharedSecret) ∧
      rotatedInitiator.deriveIncomingProposal primitives res.ciphertextBytes
          [1] [2] rotatedInitiator.ratchetGeneration 7 ⟨0, 0⟩ ≠
        (.ok (), rotatedInitiator.stageIncoming primitives
          res.combinedSharedSecret [1] [2] rotatedInitiator.ratchetGeneration 7
          ⟨0, 0⟩) := by
  intro res
  obtain ⟨hours, hprevious⟩ := rotatedInitiator_pairs
  refine ⟨?_, encapsulatedTo_ok _, ?_, ?_⟩
  · rw [hprevious]
    exact List.mem_singleton_self _
  · rw [hours]
    exact ⟨_, rfl, by decide +kernel⟩
  · intro hsame
    have hroot : (rotatedInitiator.deriveIncomingProposal primitives
        res.ciphertextBytes [1] [2] rotatedInitiator.ratchetGeneration 7
          ⟨0, 0⟩).2.incomingProposal.rootKey ≠
        some (primitives.nextRootKey rotatedInitiator.rootKey
          res.combinedSharedSecret) := by
      decide +kernel
    rw [hsame] at hroot
    exact hroot rfl

end KyberPipe
