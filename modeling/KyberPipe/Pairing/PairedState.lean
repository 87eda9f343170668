import KyberPipe.Pairing.Symbolic

/-!
# Staying paired

After a pairing is complete, pairing requests are refused and confirmations find no code to
compare. Nobody resets the attempt counter then, so the fourth confirmation calls
`clear_all_pairing`, which forgets the certificate of the paired phone although the settings still
say that the desktop is paired.
-/

namespace KyberPipe

open Program

variable {K C : Type}

/-- What can happen to a paired desktop without an unpair: calls that run one after the other. -/
inductive PairedCall where
  | confirm (call : ConfirmCall)
  | request (call : PairingCall)
  /-- The timeout of the request that was the `index`-th to begin an attempt. -/
  | sasTimeout (index : ℕ)

/-- The desktop that runs one call after the other to its end. -/
def pairedDesktop (P : PairingPrimitives K C) : Machine (AppState K C) PairedCall Unit where
  step s
    | .confirm call => ((), ((performSasConfirmation P call).alone s (.count, {}) 30).1)
    | .request call => ((), ((handlePairing P call).alone s call.start 20).1)
    | .sasTimeout index => ((), ((sasTimeout index).alone s .generation 3).1)

/-- The desktop is paired with the phone of a certificate: the settings say so, streams of the
phone are admitted, and they are routed to the ratchet session of the phone. -/
structure AppState.PairedWith (s : AppState K C) (cert peer : String) : Prop where
  isPaired : s.settings.isPaired = true
  authorized : s.pairing.isAuthorizedPeerCert cert = true
  routed : s.pairing.resolvePeerForCertHash cert = peer
  session : peer ∈ s.sessions

/-- A pairing is complete: the phone is paired, no code waits for the users and no confirmation
has been counted. -/
structure AppState.PairingComplete (s : AppState K C) (cert peer : String) : Prop extends
    s.PairedWith cert peer where
  sasCode : s.pairing.sasCode = ""
  attemptCount : s.pairing.attemptCount = 0

/-- Whether a call is a confirmation. -/
def PairedCall.isConfirm : PairedCall → Bool
  | confirm _ => true
  | request _ | sasTimeout _ => false

/-! ### The calls -/

section Calls

variable (P : PairingPrimitives K C) {s : AppState K C}

/-- Without a code to compare, a confirmation is only counted, or forgets everything after three
others. -/
theorem confirm_of_no_sas (hsas : s.pairing.sasCode = "") (call : ConfirmCall) :
    ((performSasConfirmation P call).alone s (.count, {}) 30).1 =
      s.onPairing fun p =>
        if 3 ≤ p.attemptCount then p.clearAllPairing else p.incrementSasAttemptCount := by
  by_cases hcount : 3 ≤ s.pairing.attemptCount
  · have hrun : (performSasConfirmation P call).alone s (.count, {}) 2 =
        (s.onPairing (·.clearAllPairing),
          (.returned (.error "Too many SAS attempts. Re-initiate pairing."), {})) := by
      simp only [alone, performSasConfirmation, confirmStep, if_pos hcount]
    rw [alone_eq_of_stopped (by decide) hrun rfl]
    simp only [AppState.onPairing, if_pos hcount]
  · have hsas' : (s.onPairing (·.incrementSasAttemptCount)).pairing.sasCode = "" := hsas
    have hrun : (performSasConfirmation P call).alone s (.count, {}) 3 =
        (s.onPairing (·.incrementSasAttemptCount),
          (.returned (.error "No pending pairing SAS code found. Initiate pairing first."),
            {})) := by
      simp only [alone, performSasConfirmation, confirmStep, if_neg hcount, hsas',
        ConfirmPoint.afterRead, if_true]
    rw [alone_eq_of_stopped (by decide) hrun rfl]
    simp only [AppState.onPairing, if_neg hcount]

/-- A call that changes nothing but the slots of the pending attempt and the rate limiter. -/
structure DropsPendingAtMost (s s' : AppState K C) : Prop where
  settings : s'.settings = s.settings
  sessions : s'.sessions = s.sessions
  pairing : s'.pairing = s.pairing ∨ ∃ phase, s'.pairing = s.pairing.dropPending phase

theorem request_of_paired (hpaired : s.settings.isPaired = true) (call : PairingCall) :
    DropsPendingAtMost s ((handlePairing P call).alone s call.start 20).1 := by
  by_cases hcert : call.peerCertHash = ""
  · have hrun : (handlePairing P call).alone s call.start 1 =
        (s.onPairing (·.failPairing), .refused "Client certificate required for pairing") := by
      simp only [alone, handlePairing, PairingCall.start, if_pos hcert, requestStep]
    rw [alone_eq_of_stopped (by decide) hrun rfl]
    exact ⟨rfl, rfl, .inr ⟨.failed, rfl⟩⟩
  · have hstart : call.start = .limiter := if_neg hcert
    cases hlimit : (s.limiter.checkPairingRateLimit call.arrival call.peerIp).1 with
    | false =>
      have hrun : (handlePairing P call).alone s call.start 1 =
          ({ s with limiter := (s.limiter.checkPairingRateLimit call.arrival call.peerIp).2 },
            .refused "Rate limited") := by
        simp only [alone, handlePairing, hstart, requestStep, hlimit, Bool.false_eq_true, if_false]
      rw [alone_eq_of_stopped (by decide) hrun rfl]
      exact ⟨rfl, rfl, .inl rfl⟩
    | true =>
      have hrun : (handlePairing P call).alone s call.start 3 =
          (({ s with limiter := (s.limiter.checkPairingRateLimit call.arrival call.peerIp).2 } :
            AppState K C).onPairing (·.failPairing), .refused "Already paired") := by
        simp only [alone, handlePairing, hstart, requestStep, hlimit, hpaired, if_true]
      rw [alone_eq_of_stopped (by decide) hrun rfl]
      exact ⟨rfl, rfl, .inr ⟨.failed, rfl⟩⟩

theorem sasTimeout_dropsPendingAtMost (s : AppState K C) (index : ℕ) :
    DropsPendingAtMost s ((sasTimeout index).alone s .generation 3).1 := by
  have hself : DropsPendingAtMost s s := ⟨rfl, rfl, .inl rfl⟩
  refine ((sasTimeout index).alone_invariant
    (fun t point => (point ≠ .finished → t = s) ∧ DropsPendingAtMost s t) ?_ ⟨fun _ => rfl, hself⟩
    3).2
  rintro t point ⟨hsame, hdrops⟩
  cases point with
  | generation =>
    obtain rfl := hsame (by decide)
    simp only [sasTimeout, timeoutStep]
    split
    · exact ⟨fun _ => rfl, hself⟩
    · exact ⟨fun _ => rfl, hself⟩
  | phase =>
    obtain rfl := hsame (by decide)
    exact ⟨fun _ => rfl, hself⟩
  | timeout =>
    obtain rfl := hsame (by decide)
    refine ⟨fun h => absurd rfl h, rfl, rfl, ?_⟩
    change t.pairing.timeoutPairing = t.pairing ∨
      ∃ phase, t.pairing.timeoutPairing = t.pairing.dropPending phase
    unfold PairingState.timeoutPairing
    split_ifs
    · exact .inr ⟨.timedOut, rfl⟩
    · exact .inl rfl
  | finished => exact ⟨fun h => absurd rfl h, hdrops⟩

end Calls

/-! ### Runs -/

/-- The paired identity does not depend on the slots of the pending attempt. -/
theorem AppState.PairedWith.of_dropsPendingAtMost {s s' : AppState K C} {cert peer : String}
    (h : s.PairedWith cert peer) (hdrops : DropsPendingAtMost s s') :
    s'.PairedWith cert peer := by
  obtain ⟨hsettings, hsessions, hpairing⟩ := hdrops
  refine ⟨hsettings ▸ h.isPaired, ?_, ?_, hsessions ▸ h.session⟩
  · rcases hpairing with hsame | ⟨phase, hdropped⟩
    · exact hsame ▸ h.authorized
    · rw [hdropped]
      exact h.authorized
  · rcases hpairing with hsame | ⟨phase, hdropped⟩
    · exact hsame ▸ h.routed
    · rw [hdropped]
      exact h.routed

/-- A desktop that was paired with a phone, after some confirmations: the first three are counted,
and the fourth forgets the phone for good. -/
structure AfterConfirmations (cert peer : String) (confirmations : ℕ) (s : AppState K C) :
    Prop where
  isPaired : s.settings.isPaired = true
  sasCode : s.pairing.sasCode = ""
  phone : confirmations ≤ 3 ∧ s.pairing.attemptCount = confirmations ∧ s.PairedWith cert peer ∨
    3 < confirmations ∧ s.pairing.pairedClientCertHash = "" ∧ s.pairing.peerByCertHash = ∅

namespace AfterConfirmations

variable {P : PairingPrimitives K C} {s s' : AppState K C} {cert peer : String}
variable {confirmations : ℕ}

section

variable (h : AfterConfirmations cert peer confirmations s)
include h

theorem of_dropsPendingAtMost (hdrops : DropsPendingAtMost s s') :
    AfterConfirmations cert peer confirmations s' := by
  refine ⟨hdrops.settings ▸ h.isPaired, ?_, ?_⟩
  · rcases hdrops.pairing with hsame | ⟨phase, hdropped⟩
    · exact hsame ▸ h.sasCode
    · rw [hdropped]
      rfl
  · rcases h.phone with ⟨hle, hcount, hpaired⟩ | ⟨hlt, hcert, hroutes⟩
    · refine .inl ⟨hle, ?_, hpaired.of_dropsPendingAtMost hdrops⟩
      rcases hdrops.pairing with hsame | ⟨phase, hdropped⟩
      · exact hsame ▸ hcount
      · rw [hdropped]
        exact hcount
    · refine .inr ⟨hlt, ?_⟩
      rcases hdrops.pairing with hsame | ⟨phase, hdropped⟩
      · exact hsame ▸ ⟨hcert, hroutes⟩
      · rw [hdropped]
        exact ⟨hcert, hroutes⟩

theorem confirm (call : ConfirmCall) :
    AfterConfirmations cert peer (confirmations + 1)
      ((performSasConfirmation P call).alone s (.count, {}) 30).1 := by
  rw [confirm_of_no_sas P h.sasCode]
  by_cases hcount : 3 ≤ s.pairing.attemptCount
  · simp only [AppState.onPairing, if_pos hcount]
    refine ⟨h.isPaired, rfl, .inr ⟨?_, rfl, rfl⟩⟩
    rcases h.phone with ⟨_, heq, _⟩ | ⟨hlt, _⟩
    · omega
    · omega
  · simp only [AppState.onPairing, if_neg hcount]
    refine ⟨h.isPaired, h.sasCode, ?_⟩
    rcases h.phone with ⟨_, heq, hpaired⟩ | ⟨hlt, hcert, hroutes⟩
    · refine .inl ⟨by omega, ?_, hpaired.isPaired, hpaired.authorized, hpaired.routed,
        hpaired.session⟩
      change (s.pairing.attemptCount + 1) % 2 ^ 32 = confirmations + 1
      omega
    · exact .inr ⟨by omega, hcert, hroutes⟩

theorem run (calls : List PairedCall) :
    AfterConfirmations cert peer (confirmations + calls.countP (·.isConfirm))
      ((pairedDesktop P).run s calls).2 := by
  induction calls generalizing s confirmations with
  | nil => exact h
  | cons call calls ih =>
    rw [List.countP_cons, Machine.run_cons_snd]
    cases call with
    | confirm call =>
      have hrest := ih (h.confirm (P := P) call)
      rwa [Nat.add_right_comm] at hrest
    | request call => exact ih (h.of_dropsPendingAtMost (request_of_paired P h.isPaired call))
    | sasTimeout index => exact ih (h.of_dropsPendingAtMost (sasTimeout_dropsPendingAtMost s index))

/-- The phone is still paired after at most three confirmations, and not after more. -/
theorem pairedWith_iff : s.PairedWith cert peer ↔ confirmations ≤ 3 := by
  rcases h.phone with ⟨hle, _, hpaired⟩ | ⟨hlt, hcert, hroutes⟩
  · exact iff_of_true hpaired hle
  · refine iff_of_false (fun hpaired => ?_) (by omega)
    have hauth := hpaired.authorized
    simp [PairingState.isAuthorizedPeerCert, hcert, hroutes] at hauth

end

end AfterConfirmations

/-- From a complete pairing, whatever calls arrive, the phone stays paired and reachable exactly as
long as there are at most three confirmation calls. -/
theorem pairing_kept_iff_at_most_three_confirmations (P : PairingPrimitives K C)
    {s : AppState K C} {cert peer : String} (h : s.PairingComplete cert peer)
    (calls : List PairedCall) :
    ((pairedDesktop P).run s calls).2.PairedWith cert peer ↔
      calls.countP (·.isConfirm) ≤ 3 := by
  have hstart : AfterConfirmations cert peer 0 s :=
    ⟨h.isPaired, h.sasCode, .inl ⟨by decide, h.attemptCount, h.toPairedWith⟩⟩
  have hend := hstart.run (P := P) calls
  rw [Nat.zero_add] at hend
  exact hend.pairedWith_iff

open Symbolic in
/-- A wrong code, a request of a second phone and a late timeout leave the phone paired. -/
theorem pairing_kept_after_one_confirmation :
    confirmedDesktop.PairingComplete (phoneCert 3) "03" ∧
      ((pairedDesktop pairingPrimitives).run confirmedDesktop
        [.confirm ⟨"WRONG22", "phone", true⟩, .request (phoneCall 4 "0a" 9),
          .sasTimeout 0]).2.PairedWith (phoneCert 3) "03" := by
  have hstate : confirmedDesktop.settings.isPaired = true ∧
      confirmedDesktop.pairing.isAuthorizedPeerCert (phoneCert 3) = true ∧
      confirmedDesktop.pairing.resolvePeerForCertHash (phoneCert 3) = "03" ∧
      "03" ∈ confirmedDesktop.sessions ∧ confirmedDesktop.pairing.sasCode = "" ∧
      confirmedDesktop.pairing.attemptCount = 0 := by
    decide +kernel
  obtain ⟨hpaired, hauth, hrouted, hsession, hsas, hcount⟩ := hstate
  have hcomplete : confirmedDesktop.PairingComplete (phoneCert 3) "03" :=
    ⟨⟨hpaired, hauth, hrouted, hsession⟩, hsas, hcount⟩
  exact ⟨hcomplete,
    (pairing_kept_iff_at_most_three_confirmations pairingPrimitives hcomplete _).2 (by decide)⟩

open Symbolic in
/-- Four confirmations of an empty code after a complete pairing lock the phone out, while the
settings still call the desktop paired. -/
theorem paired_phone_locked_out_by_four_confirmations :
    let s := ((pairedDesktop pairingPrimitives).run confirmedDesktop
      (List.replicate 4 (.confirm ⟨"", "phone", true⟩))).2
    confirmedDesktop.settings.isPaired = true ∧
      confirmedDesktop.pairing.isAuthorizedPeerCert (phoneCert 3) = true ∧
      s.settings.isPaired = true ∧ s.pairing.isAuthorizedPeerCert (phoneCert 3) = false ∧
      s.pairing.resolvePeerForCertHash (phoneCert 3) = "" := by
  decide +kernel

end KyberPipe
