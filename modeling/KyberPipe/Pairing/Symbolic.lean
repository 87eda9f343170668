import KyberPipe.Pairing.Threads

/-!
# A desktop over the symbolic primitives

Phones that are told apart by the coins of their encapsulation, and a desktop that has shown a QR
code to them.
-/

namespace KyberPipe.Symbolic

/-- The symbolic primitives with a session key and a SAS that depend on the coins of the
encapsulation. -/
def pairingPrimitives : PairingPrimitives Key Ciphertext where
  toPrimitives := primitives
  sessionKeyHkdf secret := (secret.drop 63).take 32
  sasHkdf input := (input.reverse.drop 1).take 7
  keyFingerprint key := key.drop 16
  parsePairingJson _ := none

/-- The pairing key pair of the desktop. -/
def desktopKeypair : HybridKeyPair :=
  generateHybridKeypair primitives ⟨List.replicate 32 1, [5]⟩

/-- A field with its length in front. -/
def lengthPrefixed (bytes : Bytes) : Bytes := beBytes 4 bytes.length ++ bytes

/-- A binary pairing frame. -/
def pairingFrame (fields : PairingFields) : Bytes :=
  [0x4B, 0x50, 0x00] ++ lengthPrefixed fields.ciphertext ++ lengthPrefixed fields.clientPk ++
    lengthPrefixed fields.clientX25519Pk ++ lengthPrefixed fields.certHash.toUTF8.toList ++
    lengthPrefixed fields.suppliedNonce.toUTF8.toList ++
    lengthPrefixed fields.suppliedSas.toUTF8.toList

/-- The encapsulation of the phone with the given coins to the desktop. -/
def phoneSecret (coins : ℕ) : Bytes × Bytes :=
  let mlkem := primitives.mlkemEncapsulate desktopKeypair.mlkemPk (BitVec.ofNat 256 coins)
  (primitives.x25519Public [] ++ mlkem.2,
    combineSecrets (primitives.x25519 [] desktopKeypair.x25519Pk) mlkem.1)

/-- The SAS that the phone shows. -/
def phoneSas (coins : ℕ) : String :=
  generateSasCode pairingPrimitives desktopKeypair.mlkemPk [UInt8.ofNat coins]
    (phoneSecret coins).2

/-- The certificate of the phone. -/
def phoneCert (coins : ℕ) : String := Hex.encode (List.replicate 32 (UInt8.ofNat coins))

/-- The fields of the pairing request of a phone that has read a nonce from the QR code. -/
def phoneFields (coins : ℕ) (nonce : String) : PairingFields where
  ciphertext := (phoneSecret coins).1
  clientPk := [UInt8.ofNat coins]
  clientX25519Pk := List.replicate 32 (UInt8.ofNat coins)
  certHash := ""
  suppliedNonce := nonce
  suppliedSas := phoneSas coins

/-- The pairing request of a phone, which reaches the desktop after the given seconds. -/
def phoneCall (coins : ℕ) (nonce : String) (secs : ℕ) : PairingCall where
  body := pairingFrame (phoneFields coins nonce)
  peerIp := none
  peerCertHash := phoneCert coins
  arrival := secs * nanosPerSec

/-- A desktop with a pairing key pair that waits for a phone with the given nonce. -/
def pairingDesktop (nonce : String) : AppState Key Ciphertext where
  pairing := { pendingPairingNonce := nonce }
  keypair := some desktopKeypair
  quic := ({} : QuicApp).bindServer true
  limiter := { floor := 0, windowStart := 0 }

/-- The desktop after the request of a phone, which waits for the users. -/
def awaitingUsers : AppState Key Ciphertext :=
  ((handlePairing pairingPrimitives (phoneCall 3 "0a" 5)).alone (pairingDesktop "0a")
    (phoneCall 3 "0a" 5).start 20).1

/-- The confirmation that the users of the phone and the desktop agree on. -/
def rightConfirmation : ConfirmCall := { verifiedSas := phoneSas 3, pairedName := "phone" }

/-- The desktop after the users have confirmed the pairing. -/
def confirmedDesktop : AppState Key Ciphertext :=
  ((performSasConfirmation pairingPrimitives rightConfirmation).alone awaitingUsers
    (.count, {}) 30).1

end KyberPipe.Symbolic
