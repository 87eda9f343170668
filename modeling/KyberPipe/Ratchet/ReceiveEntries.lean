import KyberPipe.Ratchet.NonInterference

/-!
# The two receive entries

`ratchet_decrypt` and `ratchet_decrypt_with_rekey` repeat the same dispatch in separate code.
Without a payload they are one function, and whichever of them fails leaves the active session as
it was: the rekey-aware entry may have staged a proposal before it opened the message, but that
writes nothing outside the incoming slot.
-/

namespace KyberPipe

open Symbolic

namespace DoubleRatchetState

variable {K C : Type} {P : Primitives K C} {s s' : DoubleRatchetState K C}

/-- The active session is the same: its keys, chains and counters, the peer's keys, the cache,
the replay window and the retained previous chain. -/
structure SameActive (s s' : DoubleRatchetState K C) : Prop where
  rootKey : s'.rootKey = s.rootKey
  send : s'.send = s.send
  recv : s'.recv = s.recv
  ratchetGeneration : s'.ratchetGeneration = s.ratchetGeneration
  peerX25519Pk : s'.peerX25519Pk = s.peerX25519Pk
  peerMlkemPk : s'.peerMlkemPk = s.peerMlkemPk
  skipMessageKeys : s'.skipMessageKeys = s.skipMessageKeys
  seen : s'.replayWindow.seen = s.replayWindow.seen
  prevGenHighestDelivered :
    s'.replayWindow.prevGenHighestDelivered = s.replayWindow.prevGenHighestDelivered
  previousRecvChainKey : s'.previousRecvChainKey = s.previousRecvChainKey
  previousRecvAnchor : s'.previousRecvAnchor = s.previousRecvAnchor
  previousRecvGen : s'.previousRecvGen = s.previousRecvGen

theorem SameActive.refl (s : DoubleRatchetState K C) : SameActive s s := by
  constructor <;> rfl

theorem SameActive.of_incoming (h : s' = { s with incomingProposal := s'.incomingProposal }) :
    SameActive s s' := by
  rw [h]
  constructor <;> rfl

theorem DecryptStep.sameActive_of_error {nonce : Nonce} {c : C} {payload : Option RekeyPayload}
    {now : Clock} {e : KyberError} (h : DecryptStep P s nonce c payload now (.error e) s') :
    SameActive s s' := by
  cases h with
  | refused _ => exact .refl s
  | failed _ _ _ hderives => exact .of_incoming hderives.frame

variable (P s) in
/-- A decryption that fails, through either entry and whatever the message, leaves the active
session unchanged. -/
theorem failed_decryption_keeps_active (nonce : Nonce) (c : C) :
    (∀ e, (s.ratchetDecrypt P nonce c).1 = .error e → SameActive s (s.ratchetDecrypt P nonce c).2) ∧
      ∀ rekeyCiphertext rekeyX25519Pk rekeyMlkemPk now e,
        (s.ratchetDecryptWithRekey P nonce c rekeyCiphertext rekeyX25519Pk rekeyMlkemPk now).1 =
            .error e →
          SameActive s (s.ratchetDecryptWithRekey P nonce c rekeyCiphertext rekeyX25519Pk
            rekeyMlkemPk now).2 := by
  constructor
  · intro e he
    have hstep := ratchetDecrypt_step P s nonce c ⟨0, 0⟩
    rw [he] at hstep
    exact hstep.sameActive_of_error
  · intro rct rx rm now e he
    have hstep := ratchetDecryptWithRekey_step P s nonce c rct rx rm now
    rw [he] at hstep
    exact hstep.sameActive_of_error

/-- A forged message with a proposal that anyone can make fails and stages the proposal, and the
active session stays. -/
theorem failed_decryption_keeps_active_of_forgery :
    let m := forgery ⟨0, 0⟩ (some forgedPayload)
    let r := responder.ratchetDecryptWithRekey primitives m.nonce m.ciphertext
      m.rekeyCiphertext m.rekeyX25519Pk m.rekeyMlkemPk m.now
    r.2.incomingProposal.rootKey.isSome = true ∧ SameActive responder r.2 := by
  intro m r
  have hfails : ∃ e, r.1 = .error e := by
    have hbool : r.1.toBool = false := by decide +kernel
    cases hr : r.1 with
    | error e => exact ⟨e, rfl⟩
    | ok pt =>
      rw [hr] at hbool
      cases hbool
  obtain ⟨e, he⟩ := hfails
  exact ⟨by decide +kernel,
    (failed_decryption_keeps_active primitives responder m.nonce m.ciphertext).2 _ _ _ _ e he⟩

/-- Without a payload the two entries return the same result and leave the same session. -/
theorem ratchetDecrypt_eq_ratchetDecryptWithRekey (P : Primitives K C)
    (s : DoubleRatchetState K C) (nonce : Nonce) (c : C) (now : Clock) :
    s.ratchetDecrypt P nonce c = s.ratchetDecryptWithRekey P nonce c none none none now :=
  ratchetDecrypt_eq_decryptPayload P s nonce c now

end DoubleRatchetState

end KyberPipe
