import KyberPipe.Crypto.SessionHandle
import KyberPipe.Pairing.Handshake
import KyberPipe.Pairing.Policy
import KyberPipe.Pairing.Server
import KyberPipe.Pairing.State
import KyberPipe.Ratchet.Registry

/-!
# What pairing reads and writes

The desktop state that the pairing handler and the SAS confirmation work on: the pairing slots,
the settings, the key material, the ratchet sessions, the session key handles and the server. Each
component has a lock of its own.
-/

namespace KyberPipe

variable {K C : Type}

/-- The settings that concern pairing, among them the persisted identity of the paired phone. -/
structure PairingSettings where
  isPaired : Bool := false
  pairedDeviceName : Option String := none
  pairedClientCertHash : String := ""
  pairingInitiatorPk : String := ""
  pairingInitiatorX25519Pk : String := ""
  peerCertRatchetMap : AList (fun _ : String => String) := ∅
  deriving DecidableEq

/-- The session key entry of the operating system's keyring. -/
structure Keyring where
  available : Bool := true
  sessionKey : Option String := none
  deriving DecidableEq

/-- Store the session key. Errors are ignored. -/
def Keyring.storeSessionKey (k : Keyring) (key : String) : Keyring :=
  if k.available then { k with sessionKey := some key } else k

/-- The desktop state of pairing. -/
structure AppState (K C : Type) where
  pairing : PairingState := {}
  settings : PairingSettings := {}
  /-- The pairing key pair of the desktop. -/
  keypair : Option HybridKeyPair := none
  sessionKey : String := ""
  keyring : Keyring := {}
  sessions : RatchetSessionMap K C := ∅
  sessionKeys : SessionRegistry := {}
  /-- `DESKTOP_SESSION_KEY_HANDLE` -/
  sessionKeyHandle : ℕ := 0
  quic : QuicApp := {}
  limiter : RateLimiterState
  /-- The attempt generations that the spawned SAS timeout tasks have captured. -/
  timeouts : List ℕ := []

namespace AppState

/-- Update the pairing slots. -/
def onPairing (s : AppState K C) (f : PairingState → PairingState) : AppState K C :=
  { s with pairing := f s.pairing }

/-- Remove the ratchet session of a peer. -/
def removeSession (s : AppState K C) (peerIdentity : String) : AppState K C :=
  { s with sessions := s.sessions.erase peerIdentity }

end AppState

end KyberPipe
