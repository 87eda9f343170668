import KyberPipe.Crypto.Aead
import KyberPipe.Lib.Hex

/-!
# The body of a pairing request

A phone sends the ciphertext of its encapsulation, its public keys, the hash of its certificate,
the nonce of the QR code and the SAS it computed, either as a binary frame of `pairing_wire.rs`
or as JSON.
-/

namespace KyberPipe

/-- What a pairing request carries, whatever its format. -/
structure PairingFields where
  ciphertext : Bytes
  clientPk : Bytes
  clientX25519Pk : Bytes
  certHash : String
  suppliedNonce : String
  suppliedSas : String
  deriving DecidableEq

/-- The JSON form of a pairing request. Absent fields are empty. -/
structure PairingRequest where
  ciphertextHex : String := ""
  clientPkHex : String := ""
  clientX25519PkHex : String := ""
  clientCertHashHex : String := ""
  certHashHexAlias : String := ""
  ciphertextBytes : Bytes := []
  clientPkBytes : Bytes := []
  clientX25519PkBytes : Bytes := []
  pairingNonceHex : String := ""
  sasHex : String := ""

/-- Raw bytes if there are any, and otherwise the bytes of a hexadecimal text. Text that is not
hexadecimal counts as no bytes. -/
def bytesOrHex (bytes : Bytes) (hex : String) : Bytes :=
  if bytes.isEmpty then (Hex.decode hex).getD [] else bytes

/-- The fields of a JSON request. -/
def PairingRequest.fields (req : PairingRequest) : PairingFields where
  ciphertext := bytesOrHex req.ciphertextBytes req.ciphertextHex
  clientPk := bytesOrHex req.clientPkBytes req.clientPkHex
  clientX25519Pk := bytesOrHex req.clientX25519PkBytes req.clientX25519PkHex
  certHash := if req.certHashHexAlias = "" then req.clientCertHashHex else req.certHashHexAlias
  suppliedNonce := req.pairingNonceHex
  suppliedSas := req.sasHex

/-- Split a field with a four-byte length in front off a payload. At least `trailer` bytes have to
follow it. -/
def takeField (payload : Bytes) (trailer : ℕ) : Option (Bytes × Bytes) :=
  if payload.length < 4 then none
  else
    let len := ofBeBytes (payload.take 4)
    let rest := payload.drop 4
    if rest.length < len + trailer then none else some (rest.take len, rest.drop len)

/-- `String::from_utf8`. -/
def fromUtf8 (bytes : Bytes) : Option String := String.fromUTF8? ⟨bytes.toArray⟩

/-- A text field at the end of a frame, empty if the frame ends before it. -/
def takeOptionalText (payload : Bytes) : Option (String × Bytes) :=
  if payload.length < 4 then some ("", payload)
  else do
    let (bytes, rest) ← takeField payload 0
    let text ← fromUtf8 bytes
    some (text, rest)

/-- Decode a binary pairing frame. -/
def decodeBinaryPairingFrame (payload : Bytes) : Option PairingFields := do
  let (ct, payload) ← takeField payload 4
  let (pk, payload) ← takeField payload 4
  let (x25519Pk, payload) ← takeField payload 4
  let (cert, payload) ← takeField payload 0
  let certHash ← fromUtf8 cert
  let (nonceHex, payload) ← takeOptionalText payload
  let (sasHex, _) ← takeOptionalText payload
  some ⟨ct, pk, x25519Pk, certHash, nonceHex, sasHex⟩

/-- Whether a body announces a binary frame. -/
def isBinaryPairingFrame (body : Bytes) : Bool :=
  3 < body.length && body.take 3 == [0x4B, 0x50, 0x00]

/-- Read a body, given the JSON reader, or give the reason for the refusal. -/
def parsePairingBody (parseJson : Bytes → Option PairingRequest) (body : Bytes) :
    Except String PairingFields :=
  if isBinaryPairingFrame body then
    match decodeBinaryPairingFrame (body.drop 3) with
    | none => .error "Invalid binary frame payload"
    | some fields => .ok fields
  else
    match parseJson body with
    | none => .error "Invalid JSON"
    | some req => .ok req.fields

end KyberPipe
