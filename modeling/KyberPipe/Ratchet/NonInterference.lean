import KyberPipe.Ratchet.AtMostOnce

/-!
# Rejected messages between genuine ones

The rekey-aware entry stages the proposal of a message before it opens the message, so a
message that fails to open can leave its proposal in the incoming slot. A message that does not
reach this write leaves the whole session as it was, and such messages can be removed from a run
without any other call noticing.
-/

namespace KyberPipe

open Symbolic

variable {K C : Type}

/-- A message given to the rekey-aware entry: a nonce, a ciphertext and rekey parameters, all
of any origin. -/
structure Injection (C : Type) where
  nonce : Nonce
  ciphertext : C
  rekeyCiphertext : Option Bytes
  rekeyX25519Pk : Option Bytes
  rekeyMlkemPk : Option Bytes
  now : Clock

namespace Injection

/-- The call that hands the message to the session. -/
def call (m : Injection C) : Call C :=
  .decryptWithRekey m.nonce m.ciphertext m.rekeyCiphertext m.rekeyX25519Pk m.rekeyMlkemPk m.now

/-- The complete rekey payload of the message, if it has one. -/
def payload (m : Injection C) : Option RekeyPayload :=
  DoubleRatchetState.completePayload m.rekeyCiphertext m.rekeyX25519Pk m.rekeyMlkemPk

end Injection

namespace DoubleRatchetState

/-- A message with this nonce and payload does not reach the write to the incoming slot: it has no
complete payload, its nonce is refused or of the retained generation, its carrier is superseded, or
no key pair of the session decapsulates its payload. -/
def StagesNothing (P : Primitives K C) (s : DoubleRatchetState K C) (nonce : Nonce)
    (payload : Option RekeyPayload) : Prop :=
  ∀ p, payload = some p → s.Admits nonce → s.SkipsPrevious nonce →
    s.carrierSuperseded nonce.generation = false → s.decapsulateRekey P p.ciphertext = none

variable {P : Primitives K C} {s s' : DoubleRatchetState K C}

/-- A failed decryption that stages nothing leaves the session unchanged. -/
theorem DecryptStep.eq_of_error {nonce : Nonce} {c : C} {payload : Option RekeyPayload}
    {now : Clock} {e : KyberError} (hstep : DecryptStep P s nonce c payload now (.error e) s')
    (hnothing : s.StagesNothing P nonce payload) : s' = s := by
  cases hstep with
  | refused _ => rfl
  | failed _ hadmits hskip hderives =>
    cases hderives with
    | absent => rfl
    | superseded _ => rfl
    | staged hcurrent hss =>
      rw [hnothing _ rfl hadmits hskip hcurrent] at hss
      cases hss

end DoubleRatchetState

/-- Sessions that are given calls and injected messages. -/
def interleaved (P : Primitives K C) (peer : String) :
    Machine (Session K C) (Call C ⊕ Injection C) (Response C) where
  step σ input := σ.exec P peer (input.elim id Injection.call)

/-- Whether a decryption was answered with an error. -/
def Response.rejected : Response C → Bool
  | .plaintext (.error _) => true
  | _ => false

/-- Every injected message of a run is answered with an error. -/
def AllRejected (P : Primitives K C) (peer : String) (σ : Session K C)
    (inputs : List (Call C ⊕ Injection C)) : Prop :=
  ∀ k m, inputs[k]? = some (.inr m) →
    ((interleaved P peer).step ((interleaved P peer).run σ (inputs.take k)).2
      (.inr m)).1.rejected = true

/-- The calls of a run with their answers, without the injected messages. -/
def callAnswers (trace : List ((Call C ⊕ Injection C) × Response C)) :
    List (Call C × Response C) :=
  trace.filterMap fun p => p.1.getLeft?.map (·, p.2)

/-- Take any run in which injected messages, all of them rejected, are mixed with other calls, and
let no injected message reach the write to the incoming slot. Without them the other calls get the
same answers, and the session ends in the same state. -/
theorem run_without_injections (P : Primitives K C) (peer : String) (σ : Session K C)
    (inputs : List (Call C ⊕ Injection C)) (hrejected : AllRejected P peer σ inputs)
    (hnothing : ∀ k m, inputs[k]? = some (.inr m) →
      ((interleaved P peer).run σ (inputs.take k)).2.ratchet.StagesNothing P m.nonce m.payload) :
    (Session.machine P peer).run σ (inputs.filterMap Sum.getLeft?) =
      (callAnswers ((interleaved P peer).run σ inputs).1,
        ((interleaved P peer).run σ inputs).2) := by
  refine Machine.run_filterMap Sum.getLeft? ?_ ?_
  · rintro σ (call | m) call' hcall
    · obtain rfl := Option.some.inj hcall
      rfl
    · cases hcall
  · rintro k (call | m) hk hdrop
    · cases hdrop
    · have herr := hrejected k m hk
      have hstage := hnothing k m hk
      generalize ((interleaved P peer).run σ (inputs.take k)).2 = τ at herr hstage ⊢
      have hstep := DoubleRatchetState.ratchetDecryptWithRekey_step P τ.ratchet m.nonce
        m.ciphertext m.rekeyCiphertext m.rekeyX25519Pk m.rekeyMlkemPk m.now
      simp only [interleaved, Sum.elim_inr, Injection.call, Session.exec] at herr ⊢
      generalize τ.ratchet.ratchetDecryptWithRekey P m.nonce m.ciphertext m.rekeyCiphertext
        m.rekeyX25519Pk m.rekeyMlkemPk m.now = r at herr hstep ⊢
      obtain ⟨res, t⟩ := r
      cases res with
      | ok pt => cases herr
      | error e => rw [hstep.eq_of_error hstage]

/-! ## A forged message and a forged proposal -/

namespace Symbolic

/-- A message under no key of the session, at the given nonce and with the given payload. -/
def forgery (nonce : Nonce) (payload : Option RekeyPayload) : Injection Ciphertext :=
  ⟨nonce, ⟨.absent, nonce, [], []⟩, payload.map (·.ciphertext), payload.map (·.x25519Pk),
    payload.map (·.mlkemPk), ⟨0, 0⟩⟩

/-- A payload that anyone can make from the responder's public keys. -/
def forgedPayload : RekeyPayload :=
  ⟨List.replicate 32 9, [99],
    ((encapsulateHybrid primitives responderPair.x25519Pk responderPair.mlkemPk
      ⟨[], 12345⟩).toOption.elim [] (·.ciphertextBytes))⟩

end Symbolic

/-- The theorem at the symbolic responder: a forged message without a payload before the first
message of the initiator. -/
theorem run_without_injections_forgery :
    let first := (sendAll initiator 0 1).1.map receive
    let inputs := .inr (forgery ⟨0, 0⟩ none) :: first.map Sum.inl
    let σ : Session _ _ := ⟨responder, {}⟩
    AllRejected primitives "peer" σ inputs ∧
      (Session.machine primitives "peer").run σ first =
        (callAnswers ((interleaved primitives "peer").run σ inputs).1,
          ((interleaved primitives "peer").run σ inputs).2) := by
  intro first inputs σ
  have hinr : ∀ k m, inputs[k]? = some (.inr m) → k = 0 ∧ m = forgery ⟨0, 0⟩ none := by
    intro k m hk
    cases k with
    | zero => exact ⟨rfl, (Sum.inr.inj (Option.some.inj hk)).symm⟩
    | succ k =>
      have hmem := List.mem_of_getElem? (show (first.map Sum.inl)[k]? = some (.inr m) from hk)
      obtain ⟨call, _, hcall⟩ := List.mem_map.1 hmem
      cases hcall
  have hrejected : AllRejected primitives "peer" σ inputs := by
    intro k m hk
    obtain ⟨rfl, rfl⟩ := hinr k m hk
    decide +kernel
  refine ⟨hrejected, ?_⟩
  have hrun := run_without_injections primitives "peer" σ inputs hrejected ?_
  · have hcalls : inputs.filterMap Sum.getLeft? = first := by
      rw [List.filterMap_cons_none rfl, List.filterMap_map]
      exact List.filterMap_some
    rwa [hcalls] at hrun
  · intro k m hk
    obtain ⟨rfl, rfl⟩ := hinr k m hk
    rintro p ⟨⟩

/-- The responder acknowledges the first carrier, and the initiator commits and sends again. The
responder accepts that message, but not if it rejected a forged message with a well-formed payload
in between. -/
theorem forged_payload_interferes :
    let m := Session.machine primitives "peer"
    let sent := sendAll initiator 0 101
    let toCarrier := (sent.1.drop 100).map receive
    let acked := m.run ⟨responder, {}⟩
      (toCarrier ++ [.generateRekeyAck (randomness 200) ⟨0, 0⟩])
    let committed := (m.run ⟨sent.2, {}⟩ ((Machine.emitted sentMessage acked.1).map
      fun ack => .processRekeyAckBinary ack ⟨0, 0⟩)).2
    let first := (sendAll committed.ratchet 300 1).1.map receive
    let forged := forgery ⟨0, 101⟩ (some forgedPayload)
    let withForgery := (interleaved primitives "peer").run acked.2
      (.inr forged :: first.map Sum.inl)
    ((interleaved primitives "peer").step acked.2 (.inr forged)).1.rejected = true ∧
      (Machine.emitted deliveredMessage (m.run acked.2 first).1).length = 1 ∧
      (m.run acked.2 first).2.ratchet.ratchetGeneration = 1 ∧
      Machine.emitted deliveredMessage (callAnswers withForgery.1) = [] ∧
      withForgery.2.ratchet.ratchetGeneration = 0 := by
  decide +kernel

end KyberPipe
