import KyberPipe.Lib.Text
import KyberPipe.Network.Address
import KyberPipe.Ratchet.State

/-!
# Discovery beacons

`beacon.rs`: the datagram that `send_p2p_beacon` builds, its validation by `parse_beacon_payload`
with the cache of seen nonces, and what the listener does with one datagram. Texts are given by
their UTF-8 bytes. Signature verification is a parameter.
-/

namespace KyberPipe

open Text

namespace Beacon

/-- `BEACON_MAGIC` -/
def magic : Bytes := utf8 "KYBERPIPE_P2P_BEACON_V1"

/-- The separator of the fields. -/
def colon : UInt8 := 0x3A

/-- The receive buffer of the listener in bytes. -/
def bufferSize : ℕ := 2048

/-- The largest age of a beacon in seconds. -/
def maxAge : ℕ := 60

/-- `BEACON_NONCE_CACHE_MAX` -/
def nonceCacheMax : ℕ := 1024

/-- `BEACON_NONCE_TTL` in nanoseconds. -/
def nonceTtl : ℕ := 60 * nanosPerSec

/-! ### Sending -/

/-- What a beacon signs. -/
def signedRegion (payload : String) (timestamp : ℕ) (nonce : Bytes) : String :=
  payload ++ ":" ++ toString timestamp ++ ":" ++ Hex.encode nonce

/-- The datagram of `send_p2p_beacon` with a public key and a signature. -/
def sendP2pBeacon (payload : String) (timestamp : ℕ) (nonce pk sig : Bytes) : Bytes :=
  magic ++ utf8 (":" ++ signedRegion payload timestamp nonce ++ ":" ++ Hex.encode pk ++ ":" ++
    Hex.encode sig)

/-! ### Replay cache -/

/-- When the nonces of signing keys were first seen. -/
abbrev SeenBeacons := AList (fun _ : Bytes × Bytes => ℕ)

/-- The entries that are younger than the lifetime of a nonce. -/
def SeenBeacons.prune (seen : SeenBeacons) (now : ℕ) : SeenBeacons :=
  seen.retain fun key => (seen.lookup key).any fun at_ => now - at_ < nonceTtl

/-- `beacon_nonce_is_replay`: whether the nonce was seen within its lifetime; if not, it is noted.
A full cache loses an oldest entry first. -/
def SeenBeacons.beaconNonceIsReplay (seen : SeenBeacons) (now : ℕ) (pk nonce : Bytes) :
    Bool × SeenBeacons :=
  let seen := SeenBeacons.prune seen now
  let seen :=
    if nonceCacheMax ≤ seen.size then seen.eraseMin fun key => (seen.lookup key).getD 0 else seen
  if (pk, nonce) ∈ seen then (true, seen) else (false, seen.insert (pk, nonce) now)

/-! ### Receiving -/

/-- The fields of a signed beacon. -/
structure Fields where
  hostPk : Bytes
  localIp : Bytes
  timestamp : Bytes
  nonceHex : Bytes
  signingPkHex : Bytes
  sigHex : Bytes
  deriving DecidableEq

/-- A discovered host: its key hash, its address and the name that is shown for it. -/
structure Host where
  hostPk : Bytes
  localIp : Bytes
  displayName : String := "Desktop"
  deriving DecidableEq

/-- Split a payload into fields. What follows a seventh colon is ignored. -/
def Fields.ofPayload (payload : Bytes) : Option Fields :=
  match splitN 7 colon payload with
  | hostPk :: localIp :: timestamp :: nonceHex :: signingPkHex :: sigHex :: _ =>
    some ⟨hostPk, localIp, timestamp, nonceHex, signingPkHex, sigHex⟩
  | _ => none

/-- The timestamp reads as a number and is too old. A timestamp that does not is not checked. -/
def Fields.stale (f : Fields) (now : Clock) : Bool :=
  (parseUnsigned (2 ^ 64) f.timestamp).any fun ts => maxAge < now.unix - ts

/-- The signed region as the receiver puts it together. -/
def Fields.region (f : Fields) : Bytes :=
  f.hostPk ++ [colon] ++ f.localIp ++ [colon] ++ f.timestamp ++ [colon] ++ f.nonceHex

variable (verify : Bytes → Bytes → Bytes → Bool)

/-- `verify_mldsa_signature` over the verification of the library. -/
def verifyMldsaSignature (payload sig pk : Bytes) : Bool :=
  !payload.isEmpty && !sig.isEmpty && !pk.isEmpty && verify payload sig pk

/-- The signing key of a beacon whose signature verifies. -/
def Fields.signer (f : Fields) : Option Bytes := do
  let sig ← Hex.decodeDigits f.sigHex
  let pk ← Hex.decodeDigits f.signingPkHex
  if verifyMldsaSignature verify f.region sig pk then some pk else none

/-- The checks of `parse_beacon_payload` before the replay cache: the fields and the signing key of
a beacon that passes them. -/
def authenticate (now : Clock) (payload : Bytes) (source : IpAddr) (expected : Option Bytes) :
    Option (Fields × Bytes) := do
  let f ← Fields.ofPayload payload
  if f.stale now then none
  else if f.localIp ≠ utf8 source.display then none
  else
    let pk ← f.signer verify
    if expected.any (· ≠ pk) then none else some (f, pk)

/-- `parse_beacon_payload`. A nonce that is not hexadecimal does not reach the replay cache. -/
def parseBeaconPayload (seen : SeenBeacons) (now : Clock) (payload : Bytes) (source : IpAddr)
    (expected : Option Bytes) : Option Host × SeenBeacons :=
  match authenticate verify now payload source expected with
  | none => (none, seen)
  | some (f, pk) =>
    match Hex.decodeDigits f.nonceHex with
    | none => (some { hostPk := f.hostPk, localIp := f.localIp }, seen)
    | some nonce =>
      let r := SeenBeacons.beaconNonceIsReplay seen now.mono pk nonce
      (if r.1 then none else some { hostPk := f.hostPk, localIp := f.localIp }, r.2)

/-- What the listener does with a datagram. -/
inductive ListenOutcome where
  | ignored
  | found (host : Host)
  /-- The slice behind the magic is out of range, or the log message cuts the key hash in the middle
  of a character. -/
  | panicked
  deriving DecidableEq

/-- Whether a text can be cut after at most `i` bytes. -/
def cutsAt (text : Bytes) (i : ℕ) : Bool := (text[i]?).all fun b => b &&& 0xC0 != 0x80

/-- One datagram in `listen_for_beacons_with_expected_key`. The buffer cuts off what does not
fit. -/
def receiveDatagram (seen : SeenBeacons) (now : Clock) (datagram : Bytes) (source : IpAddr)
    (expected : Option Bytes) : ListenOutcome × SeenBeacons :=
  let raw := datagram.take bufferSize
  if magic.isPrefixOf raw then
    if raw.length < magic.length + 1 then (.panicked, seen)
    else
      let payload := raw.drop (magic.length + 1)
      if isUtf8 payload then
        let r := parseBeaconPayload verify seen now payload source expected
        (r.1.elim .ignored fun host => if cutsAt host.hostPk 16 then .found host else .panicked,
          r.2)
      else (.ignored, seen)
  else (.ignored, seen)

end Beacon

end KyberPipe
