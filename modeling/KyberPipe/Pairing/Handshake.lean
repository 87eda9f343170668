import KyberPipe.Crypto.Symbolic
import KyberPipe.Pairing.Wire

/-!
# The pairing handshake

What the desktop derives from the ciphertext of a pairing request: the shared secret, the session
key and the short authentication string (SAS) that both users compare.
-/

namespace KyberPipe

variable {K C : Type}

/-- The third-party functions of the pairing code, besides those of the ratchet. HKDF-Expand
cannot fail for outputs of these lengths. -/
structure PairingPrimitives (K C : Type) extends Primitives K C where
  /-- HKDF-SHA256 with the salt `"kyberpipe-sync-v1"` and the label
  `"kyberpipe-hybrid-session"`, expanded to 32 bytes. -/
  sessionKeyHkdf : Bytes → Bytes
  /-- HKDF-SHA256 with the salt `"kyberpipe-sas-v2-salt"` and the label
  `"kyberpipe-sas-code-v2"`, expanded to 7 bytes. -/
  sasHkdf : Bytes → Bytes
  /-- The first 16 bytes of SHA-256. -/
  keyFingerprint : Bytes → Bytes
  /-- Decode a JSON pairing request. -/
  parsePairingJson : Bytes → Option PairingRequest

/-- The alphabet of SAS codes. -/
def sasCharset : List Char := "ABCDEFGHJKLMNPQRSTUVWXYZ23456789".toList

/-- The characters for the next windows of five bits, most significant first. The register
`accum` has 64 bits, and its lowest `bits` bits have not been used. Bits after the end of the
stream are zero. -/
def sasWindows : ℕ → ℕ → ℕ → Bytes → List Char
  | 0, _, _, _ => []
  | count + 1, accum, bits, okm =>
    let topUp := bits < 5
    let accum := if topUp then (accum * 256 + (okm.headD 0).toNat) % 2 ^ 64 else accum
    let bits := if topUp then bits + 8 else bits
    let okm := if topUp then okm.tail else okm
    sasCharset.getD (accum / 2 ^ (bits - 5) % 32) 'A' :: sasWindows count accum (bits - 5) okm

variable (P : PairingPrimitives K C)

/-- The seven characters that both users compare. -/
def generateSasCode (hostPk clientPk sharedSecret : Bytes) : String :=
  String.ofList (sasWindows 7 0 0 (P.sasHkdf (hostPk ++ clientPk ++ sharedSecret)))

/-- Decapsulate with the secret halves of the desktop's pairing key pair. -/
def decapsulatePqSecret (ciphertext x25519Sk mlkemSk : Bytes) : Except KyberError Bytes :=
  if x25519Sk.length ≠ 32 then .error (.invalidKeyLength 32 x25519Sk.length)
  else if !P.mlkemSecretKeyValid mlkemSk then .error (.invalidKeyLength 2400 mlkemSk.length)
  else decapsulateHybrid P.toPrimitives ciphertext x25519Sk mlkemSk

/-- The results of the key exchange of a request, as the desktop keeps them. -/
structure KemOutcome where
  /-- The session key in hexadecimal. -/
  sessionKey : String
  /-- The shared secret in hexadecimal. -/
  sharedSecret : String
  sas : String
  deriving DecidableEq

/-- The key exchange of a request. Without the public key of the phone there is no SAS. -/
def kemOutcome (pair : Option HybridKeyPair) (fields : PairingFields) : Option KemOutcome := do
  let pair ← pair
  let sharedSecret ←
    (decapsulatePqSecret P fields.ciphertext pair.x25519Sk pair.mlkemSk).toOption
  some
    { sessionKey := Hex.encode (P.sessionKeyHkdf sharedSecret)
      sharedSecret := Hex.encode sharedSecret
      sas :=
        if fields.clientPk.isEmpty then ""
        else generateSasCode P pair.mlkemPk fields.clientPk sharedSecret }

variable {P}

end KyberPipe
