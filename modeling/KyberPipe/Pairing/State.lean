import KyberPipe.Crypto.Primitives

/-!
# The pairing state of the desktop

The slots of `PairingState` and the transitions of `PairingService`. Every function here is one
critical section of the service's mutex. All keys and hashes are kept as hexadecimal text, and
an empty text stands for an empty slot.
-/

namespace KyberPipe

/-- The phases of a pairing attempt. -/
inductive PairingPhase where
  | idle
  | pendingKem
  | sasPending
  | confirmed
  | timedOut
  | failed
  deriving DecidableEq, Repr

/-- A phase in which a new attempt must not start. -/
def PairingPhase.midFlight : PairingPhase → Bool
  | pendingKem | sasPending | confirmed => true
  | idle | timedOut | failed => false

/-- The pairing slots of the desktop. -/
structure PairingState where
  phase : PairingPhase := .idle
  sasCode : String := ""
  pendingSessionKey : String := ""
  pendingSharedSecret : String := ""
  initiatorPk : String := ""
  initiatorX25519Pk : String := ""
  attemptCount : ℕ := 0
  pendingClientCertHash : String := ""
  pendingPairingNonce : String := ""
  pairedClientCertHash : String := ""
  pairedPeerIp : String := ""
  attemptGeneration : ℕ := 0
  /-- The ratchet peer of every paired client certificate. -/
  peerByCertHash : AList (fun _ : String => String) := ∅
  deriving DecidableEq

namespace PairingState

variable (p : PairingState)

/-- Begin an attempt: the slots of the attempt are emptied, the nonce and the paired identity
are kept. -/
def beginPairingAttempt : PairingState :=
  { p with
    phase := .pendingKem
    attemptGeneration := (p.attemptGeneration + 1) % 2 ^ 64
    sasCode := ""
    pendingSessionKey := ""
    pendingSharedSecret := ""
    initiatorPk := ""
    initiatorX25519Pk := ""
    attemptCount := 0
    pendingClientCertHash := "" }

/-- A SAS code was computed for the attempt. -/
def promoteToSasPending : PairingState :=
  if p.phase = .pendingKem then { p with phase := .sasPending } else p

/-- The SAS was verified. -/
def confirmPairing : PairingState :=
  { p with
    phase := .confirmed
    sasCode := ""
    pendingSessionKey := ""
    pendingSharedSecret := ""
    attemptCount := 0
    pendingClientCertHash := "" }

/-- Empty the slots that hold what an attempt has derived. -/
def dropPending (phase : PairingPhase) : PairingState :=
  { p with
    phase := phase
    sasCode := ""
    pendingSessionKey := ""
    pendingSharedSecret := ""
    pendingClientCertHash := "" }

/-- The SAS window expired. -/
def timeoutPairing : PairingState :=
  if p.phase = .sasPending then p.dropPending .timedOut else p

/-- A pairing request was rejected. -/
def failPairing : PairingState := p.dropPending .failed

/-- Forget everything about pairings. The X25519 key of the initiator stays. -/
def clearAllPairing : PairingState :=
  { p with
    phase := .idle
    sasCode := ""
    pendingSessionKey := ""
    pendingSharedSecret := ""
    initiatorPk := ""
    attemptCount := 0
    pendingClientCertHash := ""
    pairedClientCertHash := ""
    pairedPeerIp := ""
    pendingPairingNonce := ""
    peerByCertHash := ∅ }

/-- Whether a SAS code and a session key wait for the user. -/
def isPairingPending : Bool := p.sasCode != "" && p.pendingSessionKey != ""

/-- Count a SAS attempt in the 32-bit counter. -/
def incrementSasAttemptCount : PairingState :=
  { p with attemptCount := (p.attemptCount + 1) % 2 ^ 32 }

/-- Whether a client certificate belongs to a paired device. -/
def isAuthorizedPeerCert (certHash : String) : Bool :=
  certHash != "" && (p.pairedClientCertHash == certHash || decide (certHash ∈ p.peerByCertHash))

/-- Route a client certificate to a ratchet peer. -/
def registerPeerCertMapping (peerId certHash : String) : PairingState :=
  if peerId = "" ∨ certHash = "" then p
  else { p with peerByCertHash := p.peerByCertHash.insert certHash peerId }

/-- Remove the route of a client certificate. -/
def removePeerCertMapping (certHash : String) : PairingState :=
  if certHash = "" then p else { p with peerByCertHash := p.peerByCertHash.erase certHash }

/-- The ratchet peer of a client certificate. Without a route it is the initiator of the last
attempt. -/
def resolvePeerForCertHash (certHash : String) : String :=
  if certHash = "" then p.initiatorPk
  else (p.peerByCertHash.lookup certHash).getD p.initiatorPk

end PairingState

end KyberPipe
