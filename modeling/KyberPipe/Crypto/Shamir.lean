import KyberPipe.Crypto.Gf256
import KyberPipe.Crypto.Primitives

/-!
# Shamir secret sharing

`shamir.rs`: splitting a secret byte by byte into shares and reconstructing it, with and without
metadata. A share is its x coordinate, the threshold and one value for each byte of the secret. The
random coefficients, the verification key and the timestamp are arguments.
-/

namespace KyberPipe

/-! ### Polynomials -/

/-- `gf256_eval`: Horner's method, from the highest coefficient. -/
def gf256Eval (coeffs : Bytes) (x : UInt8) : UInt8 :=
  coeffs.reverse.foldl (fun result c => Gf256.mul result x ^^^ c) 0

/-- The numerator and the denominator of a Lagrange basis polynomial at `x`, for the point at
position `i` with the coordinate `xi`. -/
def gf256BasisFraction (points : List (UInt8 × UInt8)) (x : UInt8) (i : ℕ) (xi : UInt8) :
    UInt8 × UInt8 :=
  points.zipIdx.foldl
    (fun fraction point =>
      if i ≠ point.2 then
        (Gf256.mul fraction.1 (x ^^^ point.1.1), Gf256.mul fraction.2 (xi ^^^ point.1.1))
      else fraction)
    (1, 1)

/-- `gf256_lagrange_interpolate` -/
def gf256LagrangeInterpolate (points : List (UInt8 × UInt8)) (x : UInt8) : UInt8 :=
  points.zipIdx.foldl
    (fun result point =>
      let fraction := gf256BasisFraction points x point.2 point.1.1
      result ^^^ Gf256.mul point.1.2 (Gf256.mul fraction.1 (Gf256.inv fraction.2)))
    0

/-! ### Shares -/

/-- `split_secret_shamir`. The `j`-th random coefficient that is drawn for the `i`-th byte of the
secret is `random i j`. -/
def splitSecretShamir (secret : Bytes) (k n : ℕ) (random : ℕ → ℕ → UInt8) :
    Except KyberError (List Bytes) :=
  if k = 0 ∨ n = 0 ∨ n < k ∨ 255 < k ∨ 255 < n then
    .error (.cryptoError "Invalid k-of-n threshold parameters (k,n must be 1..=255, k <= n)")
  else
    let shares := (List.range n).map fun idx => [UInt8.ofNat (idx + 1), UInt8.ofNat k]
    .ok (secret.zipIdx.foldl
      (fun shares byte =>
        let coeffs := byte.1 :: (List.range (k - 1)).map (random byte.2)
        shares.mapIdx fun idx share => share ++ [gf256Eval coeffs (UInt8.ofNat (idx + 1))])
      shares)

/-- How a reconstruction ends without a secret. -/
inductive ReconstructFailure where
  | error (e : KyberError)
  | panicked
  deriving DecidableEq

/-- `reconstruct_secret_shamir` in a build without overflow checks: the length of the secret is
computed modulo the word size. With a share of less than two bytes it exceeds every capacity, and a
share without an x coordinate is indexed out of range. -/
def reconstructSecretShamir (shares : List Bytes) (k : ℕ) : Except ReconstructFailure Bytes :=
  match shares with
  | [] => .error (.error (.cryptoError "Insufficient shares to reconstruct secret"))
  | first :: _ =>
    if shares.length < k then
      .error (.error (.cryptoError "Insufficient shares to reconstruct secret"))
    else if first.length = 2 then .error (.error (.cryptoError "Share data too short"))
    else if shares.any (·.length ≠ first.length) then
      .error (.error (.cryptoError "Share length mismatch — shares must be from the same split"))
    else if (shares.take k).any (·.isEmpty) then .error .panicked
    else
      let xCoords := ((shares.take k).map (·.headD 0)).mergeSort
      if (xCoords.zip xCoords.tail).any fun pair => pair.1 = pair.2 then
        .error (.error (.cryptoError "Duplicate x coordinate in shares — share set is invalid"))
      else if first.length < 2 then .error .panicked
      else
        .ok ((List.range (first.length - 2)).map fun byteIdx =>
          gf256LagrangeInterpolate
            ((shares.take k).map fun share => (share.headD 0, share.getD (byteIdx + 2) 0)) 0)

/-! ### Shares with metadata -/

/-- The functions of other crates on which the integrity of shares rests. -/
structure IntegrityPrimitives where
  sha256 : Bytes → Bytes
  /-- HKDF-SHA256 of a salt, keying material and a label, with 32 bytes of output. -/
  hkdfSha256 : Bytes → Bytes → Bytes → Bytes
  /-- HMAC-SHA256 of a key and a message. -/
  hmacSha256 : Bytes → Bytes → Bytes

/-- `ShamirShare` -/
structure ShamirShare where
  index : UInt8
  threshold : UInt8
  total : UInt8
  timestamp : UInt64
  data : Bytes
  mac : Bytes
  verifyKey : Bytes
  secretHash : Bytes
  deriving DecidableEq

/-- `[0u8; 32]` -/
def zeros32 : Bytes := List.replicate 32 0

variable (P : IntegrityPrimitives)

/-- `compute_secret_hash` -/
def computeSecretHash (masterSecret : Bytes) : Bytes := P.sha256 masterSecret

/-- `derive_share_mac_key` -/
def deriveShareMacKey (verifyKey : Bytes) : Bytes :=
  P.hkdfSha256 "kyberpipe-shamir-hmac-v2".toUTF8.toList verifyKey "share-integrity".toUTF8.toList

/-- `mac_input` -/
def macInput (share : ShamirShare) : Bytes :=
  [share.index, share.threshold, share.total] ++
    ((List.range 8).reverse.map fun i => (share.timestamp >>> (8 * i).toUInt64).toUInt8) ++
    share.data

/-- `compute_share_mac` -/
def computeShareMac (verifyKey : Bytes) (share : ShamirShare) : Bytes :=
  P.hmacSha256 (deriveShareMacKey P verifyKey) (macInput share)

/-- `split_secret_shamir_with_meta` with its random verification key and the time. -/
def splitSecretShamirWithMeta (secret : Bytes) (k n : ℕ) (random : ℕ → ℕ → UInt8)
    (verifyKey : Bytes) (timestamp : UInt64) : Except KyberError (List ShamirShare) := do
  let shares ← splitSecretShamir secret k n random
  let secretHash := computeSecretHash P secret
  return shares.mapIdx fun i data =>
    let share : ShamirShare :=
      { index := UInt8.ofNat i, threshold := UInt8.ofNat k, total := UInt8.ofNat n, timestamp, data,
        mac := zeros32, verifyKey, secretHash }
    { share with mac := computeShareMac P verifyKey share }

/-- `verify_share_public` -/
def verifySharePublic (share : ShamirShare) : Bool :=
  -- the x coordinate is the index plus one, with `u8::saturating_add`
  if share.data.headD 0 ≠ UInt8.ofNat (min (share.index.toNat + 1) 255) then false
  else if share.secretHash = zeros32 ∨ share.verifyKey = zeros32 then false
  else computeShareMac P share.verifyKey share = share.mac

/-- The checks of one share against the first one of the subset. -/
def checkShare (first share : ShamirShare) : Except KyberError Unit :=
  if share.secretHash ≠ first.secretHash ∨ share.verifyKey ≠ first.verifyKey then
    .error (.cryptoError
      "Share set is inconsistent — shares come from different splits or were substituted")
  else if share.threshold ≠ first.threshold ∨ share.total ≠ first.total then
    .error (.cryptoError "Share metadata mismatch (threshold/total) — corrupted share")
  else if verifySharePublic P share = false then
    let index := share.index.toNat
    .error (.cryptoError s!"Share {index} failed integrity verification — corrupted or forged")
  else .ok ()

/-- `reconstruct_shamir_with_meta` -/
def reconstructShamirWithMeta (shares : List ShamirShare) (k : ℕ) :
    Except ReconstructFailure Bytes :=
  match shares.take k with
  -- no shares, or the threshold 0
  | [] => .error (.error (.cryptoError "Insufficient shares to reconstruct secret"))
  | first :: rest =>
    if shares.length < k then
      .error (.error (.cryptoError "Insufficient shares to reconstruct secret"))
    else
      match (first :: rest).forM (checkShare P first) with
      | .error e => .error (.error e)
      | .ok () =>
        match reconstructSecretShamir ((first :: rest).map (·.data)) k with
        | .error e => .error e
        | .ok recovered =>
          if computeSecretHash P recovered = first.secretHash then .ok recovered
          else .error (.error (.cryptoError
            "Reconstructed secret failed hash verification — a share was corrupted or substituted"))

end KyberPipe
