import KyberPipe.Ratchet.Carriers
import KyberPipe.Ratchet.Operations

/-!
# The associated data of a rekey payload

`build_rekey_aad` of `state.rs` separates the parts of a payload by single letters, with no
lengths. It binds the payload nevertheless: the X25519 key and the ciphertext have fixed lengths in
every payload that a session attaches or decapsulates, and the ML-KEM key is what is left between
them.
-/

namespace KyberPipe

open Symbolic

variable {K C : Type}

/-- The parts around the ML-KEM key have their fixed lengths. -/
structure RekeyPayload.FixedLengths (P : Primitives K C) (p : RekeyPayload) : Prop where
  x25519Pk : p.x25519Pk.length = 32
  ciphertext : p.ciphertext.length = 32 + P.mlkemCiphertextBytes

/-- The associated data of a payload that is present. -/
theorem payloadAad_some (p : RekeyPayload) :
    payloadAad (some p) = 114 :: p.x25519Pk ++ 109 :: p.mlkemPk ++ 99 :: p.ciphertext := rfl

/-- Equal associated data of payloads with fixed lengths comes from equal payloads. -/
theorem RekeyPayload.FixedLengths.eq_of_payloadAad_eq {P : Primitives K C} {p q : RekeyPayload}
    (hp : p.FixedLengths P) (hq : q.FixedLengths P)
    (h : payloadAad (some p) = payloadAad (some q)) : p = q := by
  obtain ⟨xpk, mpk, ct⟩ := p
  obtain ⟨xpk', mpk', ct'⟩ := q
  have hx : xpk.length = xpk'.length := hp.x25519Pk.trans hq.x25519Pk.symm
  have hc : ct.length = ct'.length := hp.ciphertext.trans hq.ciphertext.symm
  rw [payloadAad_some, payloadAad_some] at h
  -- cut off the ciphertexts from behind, then the X25519 keys from the front
  obtain ⟨hfront, hct⟩ := List.append_inj' h (by simp [hc])
  obtain ⟨hxpk, hmpk⟩ := List.append_inj hfront (by simp [hx])
  obtain rfl := (List.cons.inj hxpk).2
  obtain rfl := (List.cons.inj hmpk).2
  obtain rfl := (List.cons.inj hct).2
  rfl

/-- A payload is never taken for its absence. -/
theorem payloadAad_some_ne_nil (p : RekeyPayload) : payloadAad (some p) ≠ payloadAad none := by
  rw [payloadAad_some]
  exact List.cons_ne_nil _ _

/-! ## Payloads that occur -/

/-- The parts of a proposed payload have their fixed lengths. -/
theorem Proposed.fixedLengths {P : Primitives K C} (kem : P.KemCorrect) {p : RekeyPayload}
    (h : Proposed P p) : p.FixedLengths P := by
  refine ⟨h.length_x25519Pk kem, ?_⟩
  obtain ⟨kseed, peerXpk, peerMpk, seed, result, hresult, rfl⟩ := h
  unfold encapsulateHybrid at hresult
  dsimp only at hresult
  split_ifs at hresult
  obtain rfl := Except.ok.inj hresult
  rw [List.length_append, kem.x25519Public_length, kem.mlkemEncapsulate_length]

namespace DoubleRatchetState

variable {P : Primitives K C} {s : DoubleRatchetState K C}

/-- A session that is stored and restored keeps its carrier: the payload comes back from the slot
of the outgoing proposal. -/
theorem CarriersFit.reloaded (h : s.CarriersFit P) (now : Clock) :
    (s.reloaded now).CarriersFit P := by
  refine ⟨?_, ?_, h.proposed⟩
  · show (s.rekeyPendingConfirmQueue.getLast?.toList.map _).length ≤ 1
    rw [List.length_map]
    exact Option.length_toList_le
  · intro carrier hmem
    obtain ⟨c, hc, rfl⟩ := List.mem_map.1 hmem
    have hslot := h.payload c (List.mem_of_getLast? (Option.mem_toList.1 hc))
    show s.outgoingProposal.rekeyPayload = some (s.outgoingProposal.rekeyPayload.getD ⟨[], [], []⟩)
    rw [hslot]
    rfl

theorem CarriersFit.perform (h : s.CarriersFit P) (op : Operation C) :
    (s.perform P op).CarriersFit P := by
  cases op with
  | encrypt pt rnd now => exact h.encryptStep (ratchetEncrypt_step P s pt rnd now)
  | decrypt nonce c => exact h.of_keeps (ratchetDecrypt_step P s nonce c ⟨0, 0⟩).keepsProposal
  | decryptWithRekey nonce c rct rx rm now =>
    exact h.of_keeps (ratchetDecryptWithRekey_step P s nonce c rct rx rm now).keepsProposal
  | processRekeyAck seq =>
    show (s.processRekeyAck seq).2.CarriersFit P
    rcases processRekeyAck_cases s seq with heq | heq
    · rw [heq]
      exact h.of_keeps (keepsProposal_commitOutgoingRekey s)
    · rw [heq]
      exact h
  | takePendingRekeyAckSeq => exact h.of_keeps (.of_eq rfl rfl rfl)
  | peekRekeyAck rnd now =>
    show (s.ratchetGenerateRekeyAckPeek P rnd now).2.CarriersFit P
    obtain ⟨cache, hpeek | ⟨seq, hpeek⟩⟩ := peekRekeyAck_state P s rnd now
    · rw [hpeek]
      exact h.of_keeps (.of_eq rfl rfl rfl)
    · rw [hpeek]
      exact (h.encryptStep (ratchetEncrypt_step P s _ rnd now)).of_keeps (.of_eq rfl rfl rfl)
  | consumeRekeyAck => exact h.of_keeps (.of_eq rfl rfl rfl)
  | resync targetSeq now => exact h.of_keeps (keepsProposal_resyncReceivingChain P s targetSeq now)
  | commitPendingRekey =>
    show s.commitPendingRekey.CarriersFit P
    rw [commitPendingRekey_frame]
    exact h.of_keeps (.of_eq rfl rfl rfl)
  | commitOutgoingRekey => exact h.of_keeps (keepsProposal_commitOutgoingRekey s)
  | cancelOutgoingRekey => exact h.of_keeps (keepsProposal_cancelOutgoingRekey s)
  | cancelPendingIncomingRekey => exact h.of_keeps (.of_eq rfl rfl rfl)
  | restore now =>
    show (fromSnapshot s.toSnapshot now).CarriersFit P
    rw [fromSnapshot_toSnapshot]
    exact h.reloaded now

variable (P) in
theorem carriersFit_run (secret : Bytes) (isInitiator : Bool) (pair : HybridKeyPair)
    (peerX25519Pk peerMlkemPk : Option Bytes) (ops : List (Operation C)) :
    ((operated P).run (newWithKeypair P secret isInitiator pair peerX25519Pk peerMlkemPk)
      ops).2.CarriersFit P :=
  Machine.run_invariant (m := operated P) (CarriersFit P) (fun _ op h => h.perform op)
    (carriersFit_newWithKeypair P _ _ _ _ _) ops

/-- A message determines its payload. -/
theorem payload_eq_of_messageOf_eq {nonce nonce' : Nonce} {c c' : C}
    {payload payload' : Option RekeyPayload}
    (h : messageOf nonce c payload = messageOf nonce' c' payload') : payload = payload' := by
  have hxpk : payload.map (·.x25519Pk) = payload'.map (·.x25519Pk) := congrArg (·.rekeyX25519Pk) h
  have hmpk : payload.map (·.mlkemPk) = payload'.map (·.mlkemPk) := congrArg (·.rekeyMlkemPk) h
  have hct : payload.map (·.ciphertext) = payload'.map (·.ciphertext) :=
    congrArg (·.rekeyCiphertext) h
  cases payload with
  | none => exact (Option.map_eq_none_iff.1 hxpk.symm).symm
  | some p =>
    obtain ⟨q, rfl, hx⟩ := Option.map_eq_some_iff.1 hxpk.symm
    obtain ⟨xpk, mpk, ct⟩ := p
    obtain ⟨xpk', mpk', ct'⟩ := q
    obtain rfl : xpk' = xpk := hx
    obtain rfl : mpk = mpk' := Option.some.inj hmpk
    obtain rfl : ct = ct' := Option.some.inj hct
    rfl

end DoubleRatchetState

open DoubleRatchetState

/-- The rekey payloads that occur: those that a session attaches to a message after any operations,
and those that decapsulate under some key pair next to an X25519 key of 32 bytes, as the entry of
the receive path asks for. -/
inductive RekeyPayload.Occurs (P : Primitives K C) (p : RekeyPayload) : Prop
  | attached (secret : Bytes) (isInitiator : Bool) (pair : HybridKeyPair)
      (peerX25519Pk peerMlkemPk : Option Bytes) (ops : List (Operation C)) (plaintext : Bytes)
      (rnd : EncryptRandomness) (now : Clock) {nonce : Nonce} {ciphertext : C}
      (hsent : (((operated P).run (newWithKeypair P secret isInitiator pair peerX25519Pk
        peerMlkemPk) ops).2.ratchetEncrypt P plaintext rnd now).1 =
          .ok (messageOf nonce ciphertext (some p)))
  | decapsulated (hlength : p.x25519Pk.length = 32) {x25519Sk mlkemSk sharedSecret : Bytes}
      (hopens : decapsulateHybrid P p.ciphertext x25519Sk mlkemSk = .ok sharedSecret)

theorem RekeyPayload.Occurs.fixedLengths {P : Primitives K C} (kem : P.KemCorrect)
    {p : RekeyPayload} (h : p.Occurs P) : p.FixedLengths P := by
  cases h with
  | attached secret isInitiator pair peerXpk peerMpk ops plaintext rnd now hsent =>
    have hfit := carriersFit_run P secret isInitiator pair peerXpk peerMpk ops
    have hstep := ratchetEncrypt_step P ((operated P).run
      (newWithKeypair P secret isInitiator pair peerXpk peerMpk) ops).2 plaintext rnd now
    rw [hsent] at hstep
    obtain ⟨nonce, c, payload, hmessage, hproposed⟩ := hstep.carriesProposed hfit
    exact (hproposed p (payload_eq_of_messageOf_eq hmessage).symm).fixedLengths kem
  | decapsulated hlength hopens => exact ⟨hlength, (decapsulateHybrid_ok hopens).1⟩

/-- Among the payloads that occur, the associated data determines the payload, and none has the
associated data of a message without a payload. -/
theorem rekey_aad_binds {P : Primitives K C} (kem : P.KemCorrect) {p q : RekeyPayload}
    (hp : p.Occurs P) (hq : q.Occurs P) :
    (buildRekeyAad (some p.ciphertext) (some p.x25519Pk) (some p.mlkemPk) =
        buildRekeyAad (some q.ciphertext) (some q.x25519Pk) (some q.mlkemPk) → p = q) ∧
      buildRekeyAad (some p.ciphertext) (some p.x25519Pk) (some p.mlkemPk) ≠
        buildRekeyAad none none none := by
  refine ⟨fun h => ?_, fun h => ?_⟩
  · have haad : payloadAad (some p) = payloadAad (some q) := Except.ok.inj h
    exact (hp.fixedLengths kem).eq_of_payloadAad_eq (hq.fixedLengths kem) haad
  · exact payloadAad_some_ne_nil p (Except.ok.inj h)

/-- Two payloads over one ciphertext that decapsulates, with ML-KEM keys of different lengths. -/
theorem rekey_aad_binds_mlkem_keys :
    (buildRekeyAad (some (primitives.x25519Public [] ++ beBytes 32 5))
          (some (List.replicate 32 7)) (some [109]) =
        buildRekeyAad (some (primitives.x25519Public [] ++ beBytes 32 5))
          (some (List.replicate 32 7)) (some [109, 99]) →
      (⟨List.replicate 32 7, [109], primitives.x25519Public [] ++ beBytes 32 5⟩ : RekeyPayload) =
        ⟨List.replicate 32 7, [109, 99], primitives.x25519Public [] ++ beBytes 32 5⟩) ∧
      buildRekeyAad (some (primitives.x25519Public [] ++ beBytes 32 5))
          (some (List.replicate 32 7)) (some [109]) ≠
        buildRekeyAad none none none := by
  have hoccurs : ∀ mlkemPk : Bytes, RekeyPayload.Occurs primitives
      ⟨List.replicate 32 7, mlkemPk, primitives.x25519Public [] ++ beBytes 32 5⟩ := by
    intro mlkemPk
    have hopens : (decapsulateHybrid primitives
        (primitives.x25519Public [] ++ beBytes 32 5) [] []).isOk = true := by
      decide +kernel
    cases hresult : decapsulateHybrid primitives
        (primitives.x25519Public [] ++ beBytes 32 5) [] [] with
    | ok ss => exact .decapsulated rfl hresult
    | error e =>
      rw [hresult] at hopens
      cases hopens
  exact rekey_aad_binds kemCorrect (hoccurs [109]) (hoccurs [109, 99])

end KyberPipe
