import KyberPipe.Lib.Interleaving
import KyberPipe.Pairing.AppState

/-!
# Pairing requests

`handle_pairing` as a sequence of critical sections. A program point stands before the lock that
the handler takes next, and it carries the local variables that the rest of the handler reads. What
the handler computes between two locks belongs to the section before.
-/

namespace KyberPipe

variable {K C : Type}

/-- A pairing request as the server receives it. -/
structure PairingCall where
  body : Bytes
  peerIp : Option String
  /-- The hash of the client certificate that TLS has seen, empty without one. -/
  peerCertHash : String
  /-- When the rate limiter is asked. -/
  arrival : ℕ
  deriving DecidableEq

/-- The answer to a pairing request. -/
inductive PairingResponse where
  /-- `{"status":"pairing_pending_sas"}` -/
  | pairingPendingSas
  /-- `{"status":"error"}` with a reason. -/
  | error (reason : String)
  deriving DecidableEq

/-- What a critical section of the pairing code shows to the outside. -/
inductive PairingEvent where
  /-- `begin_pairing_attempt` -/
  | attemptBegun
  /-- `clear_all_pairing` -/
  | pairingCleared
  /-- A typed code was compared with the stored one. -/
  | sasCompared (stored verified : String)
  /-- The code that the window shows. -/
  | sasReady (sasCode : String)
  deriving DecidableEq

/-- The program points of `handle_pairing`. -/
inductive RequestPoint where
  /-- `check_pairing_rate_limit` -/
  | limiter
  /-- The check of `settings.is_paired`. -/
  | settings
  /-- `pairing_phase` -/
  | phase
  /-- `is_pairing_pending` -/
  | pending
  /-- `begin_pairing_attempt` -/
  | start
  /-- `get_pairing_generation`, for the timeout task. -/
  | generation
  /-- `set_pending_client_cert_hash` -/
  | certificate
  /-- `set_paired_peer_ip` -/
  | peerIp (ip : String)
  /-- `get_pending_pairing_nonce` -/
  | nonce
  /-- `get_keypair` -/
  | keypair (fields : PairingFields)
  /-- `set_pending_session_key` -/
  | sessionKey (fields : PairingFields) (kem : KemOutcome)
  /-- `set_pending_shared_secret` -/
  | sharedSecret (fields : PairingFields) (kem : KemOutcome)
  /-- `set_pairing_initiator_pk` -/
  | initiatorPk (fields : PairingFields) (kem : KemOutcome)
  /-- `set_pairing_initiator_x25519_pk` -/
  | initiatorX25519Pk (fields : PairingFields) (kem : KemOutcome)
  /-- `set_sas_code` -/
  | sasCode (kem : KemOutcome) (suppliedNonce : String)
  /-- `promote_to_sas_pending` -/
  | promote (suppliedNonce : String)
  /-- `consume_pairing_nonce`, before it reads the nonce. -/
  | readNonce (suppliedNonce : String)
  /-- `consume_pairing_nonce`, before it empties the slot. -/
  | clearNonce (suppliedNonce : String)
  /-- `get_sas_code`, for the window. -/
  | sasReady (suppliedNonce : String)
  /-- `fail_pairing` before the request is refused. -/
  | fail (reason : String)
  /-- The request with this nonce waits for the users. -/
  | accepted (suppliedNonce : String)
  | refused (reason : String)
  deriving DecidableEq

namespace RequestPoint

/-- The answer at the end of the handler. -/
def response : RequestPoint → Option PairingResponse
  | accepted _ => some .pairingPendingSas
  | refused reason => some (.error reason)
  | _ => none

/-- The request has begun an attempt and still has slots of the attempt to write. -/
def writes : RequestPoint → Bool
  | generation | certificate | peerIp _ | nonce | keypair _ | sessionKey _ _ | sharedSecret _ _
  | initiatorPk _ _ | initiatorX25519Pk _ _ | sasCode _ _ => true
  | _ => false

variable (fields : PairingFields)

/-- The handler after the public keys: without a SAS the request fails. -/
def afterKeys (kem : KemOutcome) : RequestPoint :=
  if fields.clientPk ≠ [] ∧ kem.sas ≠ "" then .sasCode kem fields.suppliedNonce
  else .fail "Decapsulation failed"

/-- The handler after the ML-KEM key of the phone. -/
def afterInitiatorPk (kem : KemOutcome) : RequestPoint :=
  if fields.clientX25519Pk ≠ [] then .initiatorX25519Pk fields kem else afterKeys fields kem

/-- The checks of the echoed SAS and of the claimed certificate, after the pending secrets are in
place. -/
def afterSecrets (peerCertHash : String) (fields : PairingFields) (kem : KemOutcome) :
    RequestPoint :=
  if fields.clientPk ≠ [] ∧ kem.sas ≠ "" ∧
      (fields.suppliedSas = "" ∨ fields.suppliedSas ≠ kem.sas) then .fail "SAS echo mismatch"
  else if fields.certHash ≠ "" ∧ peerCertHash ≠ "" ∧ fields.certHash ≠ peerCertHash then
    .fail "Certificate hash mismatch"
  else if fields.clientPk ≠ [] then .initiatorPk fields kem
  else afterInitiatorPk fields kem

/-- Where the checks after the decapsulation can lead: to a slot that is still to be written with
the data of the request, or to its end. -/
inductive Continues (fields : PairingFields) (kem : KemOutcome) : RequestPoint → Prop
  | initiatorPk : Continues fields kem (.initiatorPk fields kem)
  | initiatorX25519Pk : Continues fields kem (.initiatorX25519Pk fields kem)
  | sasCode : Continues fields kem (.sasCode kem fields.suppliedNonce)
  | fail (reason : String) : Continues fields kem (.fail reason)

theorem continues_afterKeys (kem : KemOutcome) : Continues fields kem (afterKeys fields kem) := by
  unfold afterKeys
  split_ifs
  · exact .sasCode
  · exact .fail _

theorem continues_afterInitiatorPk (kem : KemOutcome) :
    Continues fields kem (afterInitiatorPk fields kem) := by
  unfold afterInitiatorPk
  split_ifs
  · exact .initiatorX25519Pk
  · exact continues_afterKeys fields kem

theorem continues_afterSecrets (cert : String) (fields : PairingFields) (kem : KemOutcome) :
    Continues fields kem (afterSecrets cert fields kem) := by
  unfold afterSecrets
  split_ifs
  · exact .fail _
  · exact .fail _
  · exact .initiatorPk
  · exact continues_afterInitiatorPk fields kem

/-- The parsing of the body and the check of the nonce. -/
def afterNonce (parseJson : Bytes → Option PairingRequest) (body : Bytes)
    (expectedNonce : String) : RequestPoint :=
  if expectedNonce = "" then .fail "No pairing nonce issued"
  else
    match parsePairingBody parseJson body with
    | .error reason => .fail reason
    | .ok fields =>
      if fields.suppliedNonce = "" ∨ fields.suppliedNonce ≠ expectedNonce then
        .fail "Pairing nonce mismatch"
      else if fields.ciphertext = [] then .fail "Decapsulation failed"
      else .keypair fields

end RequestPoint

/-- A running request. -/
structure RequestThread where
  call : PairingCall
  point : RequestPoint
  deriving DecidableEq

/-- The handler refuses a request without a client certificate before it takes any lock. -/
def PairingCall.start (call : PairingCall) : RequestPoint :=
  if call.peerCertHash = "" then .fail "Client certificate required for pairing" else .limiter

/-- A request before its first section. -/
def PairingCall.thread (call : PairingCall) : RequestThread := ⟨call, call.start⟩

/-- One critical section of `handle_pairing`. -/
def requestStep (P : PairingPrimitives K C) (s : AppState K C) (call : PairingCall) :
    RequestPoint → Option PairingEvent × AppState K C × RequestPoint
  | .limiter =>
    let r := s.limiter.checkPairingRateLimit call.arrival call.peerIp
    (none, { s with limiter := r.2 }, if r.1 then .settings else .refused "Rate limited")
  | .settings => (none, s, if s.settings.isPaired then .fail "Already paired" else .phase)
  | .phase =>
    (none, s, if s.pairing.phase.midFlight then .fail "Pairing already in progress" else .pending)
  | .pending =>
    (none, s, if s.pairing.isPairingPending then .fail "Pairing already in progress" else .start)
  | .start => (some .attemptBegun, s.onPairing (·.beginPairingAttempt), .generation)
  | .generation =>
    (none, { s with timeouts := s.timeouts ++ [s.pairing.attemptGeneration] }, .certificate)
  | .certificate =>
    (none, s.onPairing ({ · with pendingClientCertHash := call.peerCertHash }),
      call.peerIp.elim .nonce .peerIp)
  | .peerIp ip => (none, s.onPairing ({ · with pairedPeerIp := ip }), .nonce)
  | .nonce =>
    (none, s, .afterNonce P.parsePairingJson call.body s.pairing.pendingPairingNonce)
  | .keypair fields =>
    (none, s, (kemOutcome P s.keypair fields).elim (.fail "Decapsulation failed")
      (.sessionKey fields))
  | .sessionKey fields kem =>
    (none, s.onPairing ({ · with pendingSessionKey := kem.sessionKey }), .sharedSecret fields kem)
  | .sharedSecret fields kem =>
    (none, s.onPairing ({ · with pendingSharedSecret := kem.sharedSecret }),
      .afterSecrets call.peerCertHash fields kem)
  | .initiatorPk fields kem =>
    (none, s.onPairing ({ · with initiatorPk := Hex.encode fields.clientPk }),
      .afterInitiatorPk fields kem)
  | .initiatorX25519Pk fields kem =>
    (none, s.onPairing ({ · with initiatorX25519Pk := Hex.encode fields.clientX25519Pk }),
      .afterKeys fields kem)
  | .sasCode kem nonce =>
    (none, s.onPairing ({ · with sasCode := kem.sas }), .promote nonce)
  | .promote nonce => (none, s.onPairing (·.promoteToSasPending), .readNonce nonce)
  | .readNonce nonce => (none, s, .clearNonce nonce)
  | .clearNonce nonce => (none, s.onPairing ({ · with pendingPairingNonce := "" }), .sasReady nonce)
  | .sasReady nonce => (some (.sasReady s.pairing.sasCode), s, .accepted nonce)
  | .fail reason => (none, s.onPairing (·.failPairing), .refused reason)
  | .accepted nonce => (none, s, .accepted nonce)
  | .refused reason => (none, s, .refused reason)

/-- `handle_pairing` for one request. -/
def handlePairing (P : PairingPrimitives K C) (call : PairingCall) :
    Program (AppState K C) RequestPoint (Option PairingEvent) where
  step s point := requestStep P s call point

end KyberPipe
