import Mathlib.Data.Finset.Basic
import KyberPipe.Lib.Hex

/-!
# The TLS side of the desktop server

The client certificates that `quic_app` admits and the verifier of the running endpoint. The
verifier is built from the admitted certificates when the endpoint is bound, and it does not
change until the endpoint is bound again. A certificate is given by its hash in hexadecimal.
-/

namespace KyberPipe

/-- The verifier of an endpoint: the admitted client certificates and whether one is
required. -/
structure PinnedCertVerifier where
  pinnedSha256Hex : Finset String
  required : Bool
  deriving DecidableEq

/-- Whether the verifier accepts a client certificate. Without any admitted certificate it accepts
all, unless one is required. -/
def PinnedCertVerifier.verifyCert (v : PinnedCertVerifier) (certHash : String) : Bool :=
  if v.pinnedSha256Hex = ∅ then !v.required else decide (certHash ∈ v.pinnedSha256Hex)

/-- The verifier that `configure_quic_server` builds for a list of admitted certificates. -/
def configureQuicServer (pinnedClientCertHashes : Finset String) : PinnedCertVerifier where
  pinnedSha256Hex := pinnedClientCertHashes
  required := decide (pinnedClientCertHashes ≠ ∅)

/-- The process-wide state of `quic_app`. -/
structure QuicApp where
  pinnedClientCert : Option String := none
  allowedClientCerts : Finset String := ∅
  /-- The verifier of the running endpoint. -/
  endpoint : Option PinnedCertVerifier := none
  deriving DecidableEq

/-- Whether a text is the hash of a certificate: 64 hexadecimal digits. -/
def isCertHash (hash : String) : Bool :=
  hash != "" && hash.utf8ByteSize == 64 && (Hex.decode hash).isSome

namespace QuicApp

variable (q : QuicApp)

/-- Admit one more client certificate. -/
def registerAllowedClientCert (hash : String) : QuicApp :=
  if isCertHash hash then { q with allowedClientCerts := insert hash q.allowedClientCerts } else q

/-- Record the certificate of the first paired device, without admitting it yet. -/
def recordPinnedClientCert (hash : String) : QuicApp :=
  if isCertHash hash then { q with pinnedClientCert := some hash } else q

/-- Pin and admit the certificate of a paired device. -/
def setPinnedClientCert (hash : String) : QuicApp :=
  (q.recordPinnedClientCert hash).registerAllowedClientCert hash

/-- Bind an endpoint, if the identity of the server and the port are available. -/
def bindServer (available : Bool) : QuicApp :=
  if available then { q with endpoint := some (configureQuicServer q.allowedClientCerts) } else q

/-- Bind the endpoint again with the certificates that are admitted now. The old endpoint is closed
first and not restored on failure. -/
def rebindServer (available : Bool) : QuicApp :=
  if q.allowedClientCerts = ∅ then q else { q with endpoint := none }.bindServer available

end QuicApp

end KyberPipe
