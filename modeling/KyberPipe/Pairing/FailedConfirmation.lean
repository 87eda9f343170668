import KyberPipe.Pairing.Symbolic

/-!
# Confirmations that fail

`perform_sas_confirmation` installs the session key before it starts the ratchet session and creates
the key handle, and both can fail. An error after the checks of the typed code leaves new key
material behind, and the error after too many attempts takes the paired certificate away.
-/

namespace KyberPipe

variable {K C : Type}

/-- Two desktop states with the same session key, in memory and in the keyring, the same ratchet
sessions and the same paired certificate. -/
structure AppState.SamePromoted (s s' : AppState K C) : Prop where
  sessionKey : s'.sessionKey = s.sessionKey
  keyring : s'.keyring.sessionKey = s.keyring.sessionKey
  sessions : ∀ peer, s'.sessions.lookup peer = s.sessions.lookup peer
  certificate : s'.pairing.pairedClientCertHash = s.pairing.pairedClientCertHash

/-- The typed code is the stored one, and a session key is pending. -/
def PairingState.AcceptsSas (p : PairingState) (verifiedSas : String) : Prop :=
  p.sasCode ≠ "" ∧ p.sasCode = verifiedSas ∧ p.pendingSessionKey ≠ ""

/-- A confirmation gets past its checks. -/
def AppState.PassesChecks (s : AppState K C) (call : ConfirmCall) : Prop :=
  s.pairing.attemptCount < 3 ∧ s.pairing.AcceptsSas call.verifiedSas

/-- What a confirmation starts the ratchet session from. There is nothing to start without a
readable secret and the key of the phone. -/
def PairingState.sessionSeed (p : PairingState) : Option SessionSeed :=
  if p.pendingSharedSecret = "" ∨ p.initiatorPk = "" then none
  else
    (Hex.decode p.pendingSharedSecret).map fun sharedSecret =>
      { peerId := p.initiatorPk
        sharedSecret
        peerMlkem := (Hex.decode p.initiatorPk).getD []
        peerX25519 := (Hex.decode p.initiatorX25519Pk).getD [] }

theorem PairingState.sessionSeed_keys {p : PairingState} {seed : SessionSeed}
    (h : p.sessionSeed = some seed) :
    seed.peerMlkem = (Hex.decode p.initiatorPk).getD [] ∧
      seed.peerX25519 = (Hex.decode p.initiatorX25519Pk).getD [] := by
  unfold sessionSeed at h
  split_ifs at h
  obtain ⟨_, _, rfl⟩ := Option.map_eq_some_iff.1 h
  exact ⟨rfl, rfl⟩

/-- The session of the phone after a confirmation that has got past the checks. The one before is
removed even if no new one can be started. -/
def AppState.sessionsLeft (P : Primitives K C) (s : AppState K C) : RatchetSessionMap K C :=
  match s.pairing.sessionSeed, s.keypair with
  | some seed, some pair =>
    match seed.initSession P pair (s.sessions.erase seed.peerId) with
    | .ok map => map
    | .error _ => s.sessions.erase seed.peerId
  | _, _ => s.sessions

/-- What a confirmation would install is in place already. -/
structure AppState.AlreadyInstalled (P : Primitives K C) (s : AppState K C) : Prop where
  sessionKey : s.sessionKey = s.pairing.pendingSessionKey
  keyring : s.keyring.available = true → s.keyring.sessionKey = some s.pairing.pendingSessionKey
  sessions : ∀ peer, (s.sessionsLeft P).lookup peer = s.sessions.lookup peer

/-- The state after the session key is installed. -/
def AppState.keyInstalled (s : AppState K C) : AppState K C :=
  let key := s.pairing.pendingSessionKey
  { s with
    pairing := { s.pairing.incrementSasAttemptCount with pendingSessionKey := "" }
    sessionKey := key
    keyring := s.keyring.storeSessionKey key }

/-- What has been promoted after a confirmation got past the checks and failed later. -/
structure AppState.PromotedPartly (P : Primitives K C) (s s' : AppState K C) : Prop where
  sessionKey : s'.sessionKey = s.pairing.pendingSessionKey
  keyring : s'.keyring = s.keyring.storeSessionKey s.pairing.pendingSessionKey
  sessions : s'.sessions = s.sessionsLeft P
  certificate : s'.pairing.pairedClientCertHash = s.pairing.pairedClientCertHash

/-- The proof outline of a confirmation that starts in `s₀` and runs alone. -/
def ConfirmationOutline (P : PairingPrimitives K C) (s₀ : AppState K C) (call : ConfirmCall)
    (s : AppState K C) : ConfirmPoint → Prop
  | .count => s = s₀
  | .clear => s = s₀ ∧ 3 ≤ s₀.pairing.attemptCount
  | .increment => s = s₀ ∧ s₀.pairing.attemptCount < 3
  | .read => s = s₀.onPairing (·.incrementSasAttemptCount) ∧ s₀.pairing.attemptCount < 3
  | .takeKey key =>
    s = s₀.onPairing (·.incrementSasAttemptCount) ∧ s₀.PassesChecks call ∧
      key = s₀.pairing.pendingSessionKey
  | .sessionKey key =>
    s = s₀.onPairing ({ ·.incrementSasAttemptCount with pendingSessionKey := "" }) ∧
      s₀.PassesChecks call ∧ key = s₀.pairing.pendingSessionKey
  | .keyring key =>
    s = { s₀.keyInstalled with keyring := s₀.keyring } ∧ s₀.PassesChecks call ∧
      key = s₀.pairing.pendingSessionKey
  | .sharedSecret _ => s = s₀.keyInstalled ∧ s₀.PassesChecks call
  | .peerId _ secretHex =>
    s = s₀.keyInstalled ∧ s₀.PassesChecks call ∧ secretHex = s₀.pairing.pendingSharedSecret ∧
      secretHex ≠ ""
  | .peerMlkem _ seed =>
    s = s₀.keyInstalled ∧ s₀.PassesChecks call ∧ ∃ seed', s₀.pairing.sessionSeed = some seed' ∧
      seed = { peerId := seed'.peerId, sharedSecret := seed'.sharedSecret }
  | .peerX25519 _ seed =>
    s = s₀.keyInstalled ∧ s₀.PassesChecks call ∧ ∃ seed', s₀.pairing.sessionSeed = some seed' ∧
      seed = { seed' with peerX25519 := [] }
  | .keypair _ seed =>
    s = s₀.keyInstalled ∧ s₀.PassesChecks call ∧ s₀.pairing.sessionSeed = some seed
  | .removeSession _ seed pair =>
    s = s₀.keyInstalled ∧ s₀.PassesChecks call ∧ s₀.pairing.sessionSeed = some seed ∧
      s₀.keypair = some pair
  | .initSession _ seed pair =>
    s = s₀.keyInstalled.removeSession seed.peerId ∧ s₀.PassesChecks call ∧
      s₀.pairing.sessionSeed = some seed ∧ s₀.keypair = some pair
  | .createHandle _ => s₀.PromotedPartly P.toPrimitives s ∧ s₀.PassesChecks call
  | .returned (.error _) =>
    s = s₀.onPairing (·.clearAllPairing) ∧ 3 ≤ s₀.pairing.attemptCount ∨
    s = s₀.onPairing (·.incrementSasAttemptCount) ∧ s₀.pairing.attemptCount < 3 ∧
      ¬s₀.pairing.AcceptsSas call.verifiedSas ∨
    s₀.PromotedPartly P.toPrimitives s ∧ s₀.PassesChecks call
  -- no error is possible from here on
  | _ => True

namespace ConfirmationOutline

variable {P : PairingPrimitives K C} {s₀ s : AppState K C} {call : ConfirmCall}
variable {key : String}

/-- Once the session is dealt with, a key handle is created or the certificate is next. -/
theorem afterSession (h : s₀.PromotedPartly P.toPrimitives s) (hpassed : s₀.PassesChecks call) :
    ConfirmationOutline P s₀ call s (.afterSession key) := by
  unfold ConfirmPoint.afterSession
  split
  · exact ⟨h, hpassed⟩
  · trivial

theorem promotedPartly_of_no_seed (h : s₀.pairing.sessionSeed = none) :
    s₀.PromotedPartly P.toPrimitives s₀.keyInstalled := by
  refine ⟨rfl, rfl, ?_, rfl⟩
  simp only [AppState.sessionsLeft, h]
  rfl

theorem afterPeerId (hpassed : s₀.PassesChecks call) (hsecret : s₀.pairing.pendingSharedSecret ≠ "")
    :
    ConfirmationOutline P s₀ call s₀.keyInstalled
      (.afterPeerId key s₀.pairing.pendingSharedSecret s₀.pairing.initiatorPk) := by
  unfold ConfirmPoint.afterPeerId
  split_ifs with hpeer
  · exact afterSession (promotedPartly_of_no_seed (if_pos (.inr hpeer))) hpassed
  · have hseed : s₀.pairing.sessionSeed = (Hex.decode s₀.pairing.pendingSharedSecret).map _ :=
      if_neg (not_or.2 ⟨hsecret, hpeer⟩)
    split
    · next hdecode =>
      rw [hdecode, Option.map_none] at hseed
      exact afterSession (promotedPartly_of_no_seed hseed) hpassed
    · next secret hdecode =>
      rw [hdecode, Option.map_some] at hseed
      exact ⟨rfl, hpassed, _, hseed, rfl⟩

variable {promoted : Promotion}

theorem initSession {seed : SessionSeed} {pair : HybridKeyPair} (hpassed : s₀.PassesChecks call)
    (hseed : s₀.pairing.sessionSeed = some seed) (hpair : s₀.keypair = some pair) :
    let s := s₀.keyInstalled.removeSession seed.peerId
    ConfirmationOutline P s₀ call
      (confirmStep P s call promoted (.initSession key seed pair)).2.1
      (confirmStep P s call promoted (.initSession key seed pair)).2.2.1 := by
  intro s
  have hsessions : s.sessions = s₀.sessions.erase seed.peerId := rfl
  cases hinit : seed.initSession P.toPrimitives pair (s₀.sessions.erase seed.peerId) with
  | error e =>
    simp only [confirmStep, hsessions, hinit]
    refine .inr (.inr ⟨⟨rfl, rfl, ?_, rfl⟩, hpassed⟩)
    simp only [AppState.sessionsLeft, hseed, hpair, hinit, hsessions]
  | ok map =>
    simp only [confirmStep, hsessions, hinit]
    refine afterSession ⟨rfl, rfl, ?_, rfl⟩ hpassed
    simp only [AppState.sessionsLeft, hseed, hpair, hinit]

theorem read (hcount : s₀.pairing.attemptCount < 3) :
    let s := s₀.onPairing (·.incrementSasAttemptCount)
    ConfirmationOutline P s₀ call s (confirmStep P s call promoted .read).2.2.1 := by
  intro s
  change ConfirmationOutline P s₀ call s
    (.afterRead call.verifiedSas s₀.pairing.sasCode s₀.pairing.pendingSessionKey)
  unfold ConfirmPoint.afterRead
  split_ifs with hempty hmismatch hkey
  · exact .inr (.inl ⟨rfl, hcount, fun h => h.1 hempty⟩)
  · exact .inr (.inl ⟨rfl, hcount, fun h => hmismatch h.2.1⟩)
  · exact .inr (.inl ⟨rfl, hcount, fun h => h.2.2 hkey⟩)
  · exact ⟨rfl, ⟨hcount, hempty, not_not.1 hmismatch, hkey⟩, rfl⟩

theorem createHandle {keyBytes : Bytes} (h : s₀.PromotedPartly P.toPrimitives s)
    (hpassed : s₀.PassesChecks call) :
    ConfirmationOutline P s₀ call (confirmStep P s call promoted (.createHandle keyBytes)).2.1
      (confirmStep P s call promoted (.createHandle keyBytes)).2.2.1 := by
  have hkept : s₀.PromotedPartly P.toPrimitives
      (confirmStep P s call promoted (.createHandle keyBytes)).2.1 :=
    ⟨h.sessionKey, h.keyring, h.sessions, h.certificate⟩
  generalize (confirmStep P s call promoted (.createHandle keyBytes)).2.1 = s' at hkept
  simp only [confirmStep]
  split
  · exact .inr (.inr ⟨hkept, hpassed⟩)
  · exact .inr (.inr ⟨hkept, hpassed⟩)
  · trivial

/-- Every section of the confirmation keeps the outline. -/
theorem step {point : ConfirmPoint} (promoted : Promotion)
    (h : ConfirmationOutline P s₀ call s point) :
    ConfirmationOutline P s₀ call (confirmStep P s call promoted point).2.1
      (confirmStep P s call promoted point).2.2.1 := by
  cases point with
  | count =>
    obtain rfl := h
    by_cases hcount : 3 ≤ s.pairing.attemptCount
    · simp only [confirmStep, if_pos hcount]
      exact ⟨rfl, hcount⟩
    · simp only [confirmStep, if_neg hcount]
      exact ⟨rfl, not_le.1 hcount⟩
  | clear => exact .inl ⟨by rw [h.1]; rfl, h.2⟩
  | increment => exact ⟨by rw [h.1]; rfl, h.2⟩
  | read =>
    obtain ⟨rfl, hcount⟩ := h
    exact read hcount
  | takeKey key => exact ⟨by rw [h.1]; rfl, h.2.1, h.2.2⟩
  | sessionKey key =>
    obtain ⟨rfl, hpassed, rfl⟩ := h
    exact ⟨rfl, hpassed, rfl⟩
  | keyring key =>
    obtain ⟨rfl, hpassed, rfl⟩ := h
    exact ⟨rfl, hpassed⟩
  | sharedSecret key =>
    obtain ⟨rfl, hpassed⟩ := h
    by_cases hsecret : s₀.keyInstalled.pairing.pendingSharedSecret = ""
    · simp only [confirmStep, if_pos hsecret]
      trivial
    · simp only [confirmStep, if_neg hsecret]
      exact ⟨rfl, hpassed, rfl, hsecret⟩
  | peerId key secretHex =>
    obtain ⟨rfl, hpassed, rfl, hsecret⟩ := h
    exact afterPeerId hpassed hsecret
  | peerMlkem key seed =>
    obtain ⟨rfl, hpassed, seed', hseed, rfl⟩ := h
    refine ⟨rfl, hpassed, seed', hseed, ?_⟩
    rw [show (Hex.decode s₀.keyInstalled.pairing.initiatorPk).getD [] = seed'.peerMlkem from
      (PairingState.sessionSeed_keys hseed).1.symm]
  | peerX25519 key seed =>
    obtain ⟨rfl, hpassed, seed', hseed, rfl⟩ := h
    refine ⟨rfl, hpassed, ?_⟩
    rw [show (Hex.decode s₀.keyInstalled.pairing.initiatorX25519Pk).getD [] = seed'.peerX25519 from
      (PairingState.sessionSeed_keys hseed).2.symm]
    exact hseed
  | keypair key seed =>
    obtain ⟨rfl, hpassed, hseed⟩ := h
    cases hpair : s₀.keypair with
    | none =>
      have hnone : s₀.keyInstalled.keypair = none := hpair
      simp only [confirmStep, hnone, Option.elim_none]
      refine .inr (.inr ⟨⟨rfl, rfl, ?_, rfl⟩, hpassed⟩)
      simp only [AppState.sessionsLeft, hseed, hpair]
      rfl
    | some pair =>
      have hsome : s₀.keyInstalled.keypair = some pair := hpair
      simp only [confirmStep, hsome, Option.elim_some]
      exact ⟨rfl, hpassed, hseed, hpair⟩
  | removeSession key seed pair => exact ⟨by rw [h.1]; rfl, h.2⟩
  | initSession key seed pair =>
    obtain ⟨rfl, hpassed, hseed, hpair⟩ := h
    exact initSession hpassed hseed hpair
  | createHandle keyBytes => exact createHandle h.1 h.2
  | returned result => exact h
  | certificate =>
    simp only [confirmStep]
    split_ifs <;> trivial
  | routedPeer cert =>
    simp only [confirmStep]
    split_ifs <;> trivial
  | _ => trivial

end ConfirmationOutline

namespace AppState

variable {P : Primitives K C} {s s' : AppState K C}

/-- Forgetting the pairings keeps what was promoted only if no certificate was. -/
theorem samePromoted_clearAllPairing :
    s.SamePromoted (s.onPairing (·.clearAllPairing)) ↔ s.pairing.pairedClientCertHash = "" :=
  ⟨fun h => h.certificate.symm, fun h => ⟨rfl, rfl, fun _ => rfl, h.symm⟩⟩

/-- A confirmation that failed halfway has changed nothing only if all was in place before. -/
theorem PromotedPartly.samePromoted_iff (h : s.PromotedPartly P s') :
    s.SamePromoted s' ↔ s.AlreadyInstalled P := by
  have hkeyring : s'.keyring.sessionKey = s.keyring.sessionKey ↔
      (s.keyring.available = true →
        s.keyring.sessionKey = some s.pairing.pendingSessionKey) := by
    rw [h.keyring, Keyring.storeSessionKey]
    split_ifs with hav
    · simp only [hav, forall_const]
      exact eq_comm
    · simp [hav]
  constructor
  · intro hsame
    refine ⟨hsame.sessionKey.symm.trans h.sessionKey, hkeyring.1 hsame.keyring, fun peer => ?_⟩
    rw [← h.sessions]
    exact hsame.sessions peer
  · intro hin
    refine ⟨h.sessionKey.trans hin.sessionKey.symm, hkeyring.2 hin.keyring, fun peer => ?_,
      h.certificate⟩
    rw [h.sessions]
    exact hin.sessions peer

end AppState

/-- A confirmation that returns an error has promoted nothing if and only if the attempt limit
refused it while no certificate was paired, or the checks of the typed code did, or all that it
installs was in place before. -/
theorem failed_confirmation_promotes_nothing_iff (P : PairingPrimitives K C)
    {s s' : AppState K C} {call : ConfirmCall} {point : ConfirmPoint} {promoted : Promotion}
    {message : String} {n : ℕ}
    (hrun : (performSasConfirmation P call).alone s (.count, {}) n = (s', (point, promoted)))
    (herror : point.result = some (.error message)) :
    s.SamePromoted s' ↔
      3 ≤ s.pairing.attemptCount ∧ s.pairing.pairedClientCertHash = "" ∨
      s.pairing.attemptCount < 3 ∧ ¬s.pairing.AcceptsSas call.verifiedSas ∨
      s.PassesChecks call ∧ s.AlreadyInstalled P.toPrimitives := by
  have hend := (performSasConfirmation P call).alone_invariant
    (fun t p => ConfirmationOutline P s call t p.1) (fun _ p h => h.step p.2) (s := s)
    (p := (.count, {})) rfl n
  rw [hrun] at hend
  cases point with
  | returned result =>
    obtain rfl : result = .error message := Option.some.inj herror
    rcases hend with ⟨heq, hcount⟩ | ⟨heq, hcount, hchecks⟩ | ⟨hpartly, hpassed⟩
    · change s' = _ at heq
      rw [heq, AppState.samePromoted_clearAllPairing]
      constructor
      · exact fun hcert => .inl ⟨hcount, hcert⟩
      · rintro (⟨_, hcert⟩ | ⟨hlt, _⟩ | ⟨⟨hlt, _⟩, _⟩)
        · exact hcert
        · omega
        · omega
    · change s' = _ at heq
      rw [heq]
      exact iff_of_true ⟨rfl, rfl, fun _ => rfl, rfl⟩ (.inr (.inl ⟨hcount, hchecks⟩))
    · rw [AppState.PromotedPartly.samePromoted_iff hpartly]
      constructor
      · exact fun hin => .inr (.inr ⟨hpassed, hin⟩)
      · rintro (⟨hle, _⟩ | ⟨_, hchecks⟩ | ⟨_, hin⟩)
        · exact absurd hpassed.1 (by omega)
        · exact absurd hpassed.2 hchecks
        · exact hin
  | _ => cases herror

open Symbolic in
/-- A mistyped code promotes nothing. -/
theorem wrong_code_promotes_nothing :
    awaitingUsers.SamePromoted
      ((performSasConfirmation pairingPrimitives ⟨"WRONG22", "phone", true⟩).alone awaitingUsers
        (.count, {}) 30).1 := by
  have hcount : awaitingUsers.pairing.attemptCount < 3 := by decide +kernel
  have hchecks : ¬awaitingUsers.pairing.AcceptsSas "WRONG22" :=
    fun h => absurd h.2.1 (by decide +kernel)
  have herror : ((performSasConfirmation pairingPrimitives ⟨"WRONG22", "phone", true⟩).alone
      awaitingUsers (.count, {}) 30).2.1.result =
      some (.error "SAS code mismatch. Pairing rejected.") := by
    decide +kernel
  generalize hrun : (performSasConfirmation pairingPrimitives ⟨"WRONG22", "phone", true⟩).alone
    awaitingUsers (.count, {}) 30 = r at herror ⊢
  obtain ⟨s', point, promoted⟩ := r
  exact (failed_confirmation_promotes_nothing_iff pairingPrimitives hrun herror).2
    (.inr (.inl ⟨hcount, hchecks⟩))

open Symbolic in
/-- A phone has sent an X25519 key of 31 bytes. The confirmation of the right code fails when it
starts the ratchet session, after it has replaced the session key in memory and in the keyring. -/
theorem failed_confirmation_leaves_promotions :
    let fields := { phoneFields 3 "0a" with clientX25519Pk := List.replicate 31 3 }
    let call := { phoneCall 3 "0a" 5 with body := pairingFrame fields }
    let s := ((handlePairing pairingPrimitives call).alone (pairingDesktop "0a") call.start 20).1
    let r := (performSasConfirmation pairingPrimitives rightConfirmation).alone s (.count, {}) 30
    let key := Hex.encode (List.replicate 31 0 ++ [3])
    r.2.1.result = some (.error <| "Failed to initialize ratchet session for peer 03: " ++
          "[INVALID_KEY_LENGTH] expected 32, got 31 — re-pair required") ∧
      s.sessionKey = "" ∧ r.1.sessionKey = key ∧
      s.keyring.sessionKey = none ∧ r.1.keyring.sessionKey = some key := by
  decide +kernel

end KyberPipe
