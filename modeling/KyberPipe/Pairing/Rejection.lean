import KyberPipe.Pairing.Symbolic

/-!
# Requests that meet a pending attempt

A request that arrives while an attempt is pending is refused. The refusal goes through
`fail_pairing`, which empties the slots of the pending attempt, unless the rate limiter has turned
the request away before.
-/

namespace KyberPipe

variable {K C : Type}

/-- Two pairing states with the same attempt in the same phase. -/
structure PairingState.SameAttempt (p q : PairingState) : Prop where
  phase : q.phase = p.phase
  sasCode : q.sasCode = p.sasCode
  pendingSessionKey : q.pendingSessionKey = p.pendingSessionKey
  pendingSharedSecret : q.pendingSharedSecret = p.pendingSharedSecret
  initiatorPk : q.initiatorPk = p.initiatorPk
  initiatorX25519Pk : q.initiatorX25519Pk = p.initiatorX25519Pk
  pendingClientCertHash : q.pendingClientCertHash = p.pendingClientCertHash

/-- An attempt waits for its key exchange or for the users. -/
def PairingState.AttemptPending (p : PairingState) : Prop :=
  p.phase = .pendingKem ∨ p.phase = .sasPending

/-- The rate limiter turns a request away before the handler reads any state. -/
def AppState.RateLimits (s : AppState K C) (call : PairingCall) : Prop :=
  call.peerCertHash ≠ "" ∧ (s.limiter.checkPairingRateLimit call.arrival call.peerIp).1 = false

namespace PairingState

variable {p : PairingState}

theorem AttemptPending.midFlight (h : p.AttemptPending) : p.phase.midFlight = true := by
  rcases h with h | h
  · rw [h]
    rfl
  · rw [h]
    rfl

theorem AttemptPending.not_sameAttempt_failPairing (h : p.AttemptPending) :
    ¬p.SameAttempt p.failPairing := by
  intro hsame
  have hphase : PairingPhase.failed = p.phase := hsame.phase
  rcases h with h | h
  · cases hphase.trans h
  · cases hphase.trans h

end PairingState

/-- The proof outline of a request that meets the pending attempt of `s₀`. -/
def RejectionOutline (s₀ : AppState K C) (call : PairingCall) (s : AppState K C) :
    RequestPoint → Prop
  | .limiter => s = s₀ ∧ call.peerCertHash ≠ ""
  | .settings | .phase => s.pairing = s₀.pairing ∧ ¬s₀.RateLimits call
  | .fail _ => s.pairing = s₀.pairing ∧ ¬s₀.RateLimits call
  | .refused _ =>
    s.pairing = s₀.pairing ∧ s₀.RateLimits call ∨
      s.pairing = s₀.pairing.failPairing ∧ ¬s₀.RateLimits call
  | _ => False

theorem RejectionOutline.initial (s₀ : AppState K C) (call : PairingCall) :
    RejectionOutline s₀ call s₀ call.start := by
  by_cases hcert : call.peerCertHash = ""
  · rw [show call.start = .fail "Client certificate required for pairing" from
      if_pos hcert]
    exact ⟨rfl, fun h => h.1 hcert⟩
  · rw [show call.start = .limiter from if_neg hcert]
    exact ⟨rfl, hcert⟩

theorem RejectionOutline.step (P : PairingPrimitives K C) {s₀ s : AppState K C}
    {call : PairingCall} {point : RequestPoint} (hpending : s₀.pairing.AttemptPending)
    (h : RejectionOutline s₀ call s point) :
    RejectionOutline s₀ call (requestStep P s call point).2.1
      (requestStep P s call point).2.2 := by
  cases point with
  | limiter =>
    obtain ⟨rfl, hcert⟩ := h
    cases hlimit : (s.limiter.checkPairingRateLimit call.arrival call.peerIp).1 with
    | false =>
      simp only [requestStep, hlimit, Bool.false_eq_true, if_false]
      exact .inl ⟨rfl, hcert, hlimit⟩
    | true =>
      simp only [requestStep, hlimit, if_true]
      refine ⟨rfl, fun h => ?_⟩
      cases hlimit.symm.trans h.2
  | settings =>
    cases hpaired : s.settings.isPaired with
    | false =>
      simp only [requestStep, hpaired, Bool.false_eq_true, if_false]
      exact h
    | true =>
      simp only [requestStep, hpaired, if_true]
      exact h
  | phase =>
    -- the pending attempt is what the phase check refuses
    have hmid : s.pairing.phase.midFlight = true := by
      rw [h.1]
      exact hpending.midFlight
    simp only [requestStep, hmid, if_true]
    exact h
  | fail reason => exact .inr ⟨congrArg PairingState.failPairing h.1, h.2⟩
  | refused reason => exact h
  | _ => exact h.elim

/-- A request that is answered with an error leaves a pending attempt alone if and only if it shows
a client certificate and the rate limiter turns it away. -/
theorem refused_request_keeps_attempt_iff (P : PairingPrimitives K C) {s s' : AppState K C}
    {call : PairingCall} {point : RequestPoint} {reason : String} {n : ℕ}
    (hpending : s.pairing.AttemptPending)
    (hrun : (handlePairing P call).alone s call.start n = (s', point))
    (hrefused : point.response = some (.error reason)) :
    s.pairing.SameAttempt s'.pairing ↔
      call.peerCertHash ≠ "" ∧
        (s.limiter.checkPairingRateLimit call.arrival call.peerIp).1 = false := by
  have hend := (handlePairing P call).alone_invariant (RejectionOutline s call)
    (fun _ _ h => h.step P hpending) (.initial s call) n
  rw [hrun] at hend
  cases point with
  | refused =>
    rcases hend with ⟨hsame, hlimited⟩ | ⟨hfailed, hadmitted⟩
    · refine iff_of_true ?_ hlimited
      change s'.pairing = s.pairing at hsame
      rw [hsame]
      exact ⟨rfl, rfl, rfl, rfl, rfl, rfl, rfl⟩
    · refine iff_of_false ?_ hadmitted
      change s'.pairing = s.pairing.failPairing at hfailed
      rw [hfailed]
      exact hpending.not_sameAttempt_failPairing
  | _ => cases hrefused

open Symbolic in
/-- A second request within the 200 ms of the rate limiter does not disturb the first. -/
theorem rate_limited_request_keeps_attempt :
    awaitingUsers.pairing.SameAttempt
      ((handlePairing pairingPrimitives (phoneCall 4 "0a" 5)).alone awaitingUsers
        (phoneCall 4 "0a" 5).start 1).1.pairing :=
  (refused_request_keeps_attempt_iff pairingPrimitives (.inr (by decide +kernel)) rfl
    (show _ = some (PairingResponse.error "Rate limited") by decide +kernel)).2
    (by decide +kernel)

open Symbolic in
/-- A second phone that is refused because an attempt is in progress takes the attempt of the first
phone down. -/
theorem refused_request_fails_pending_attempt :
    awaitingUsers.pairing.phase = .sasPending ∧ awaitingUsers.pairing.sasCode = phoneSas 3 ∧
      let r := (handlePairing pairingPrimitives (phoneCall 4 "0a" 6)).alone awaitingUsers
        (phoneCall 4 "0a" 6).start 5
      r.2.response = some (.error "Pairing already in progress") ∧
        r.1.pairing.phase = .failed ∧ r.1.pairing.sasCode = "" ∧
        ¬awaitingUsers.pairing.SameAttempt r.1.pairing := by
  refine ⟨by decide +kernel, by decide +kernel, by decide +kernel, by decide +kernel,
    by decide +kernel, fun h => ?_⟩
  exact absurd h.phase (by decide +kernel)

end KyberPipe
