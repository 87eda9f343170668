import KyberPipe.Crypto.Primitives

/-!
# Hybrid key encapsulation

The X25519 and ML-KEM-768 hybrid of `kem.rs`. The shared secret concatenates the two component
secrets under fixed tags, the ciphertext is the ephemeral X25519 key followed by the ML-KEM
ciphertext. Randomness is an explicit argument.
-/

namespace KyberPipe

/-- A hybrid key pair. -/
structure HybridKeyPair where
  x25519Pk : Bytes
  x25519Sk : Bytes
  mlkemPk : Bytes
  mlkemSk : Bytes
  deriving DecidableEq

/-- A hybrid encapsulation. -/
structure HybridKemResult where
  ciphertextBytes : Bytes
  combinedSharedSecret : Bytes
  deriving DecidableEq

/-- The randomness of one hybrid key generation. -/
structure KeygenSeed where
  x25519Sk : Bytes
  mlkemSeed : Bytes
  deriving DecidableEq

/-- The randomness of one hybrid encapsulation. -/
structure EncapsulationSeed where
  ephemeralSk : Bytes
  mlkemCoins : BitVec 256
  deriving DecidableEq

/-- `b"KyberPipe-X25519"` -/
def x25519Tag : Bytes :=
  [75, 121, 98, 101, 114, 80, 105, 112, 101, 45, 88, 50, 53, 53, 49, 57]

/-- `b"KyberPipe-MLKEM"` -/
def mlkemTag : Bytes :=
  [75, 121, 98, 101, 114, 80, 105, 112, 101, 45, 77, 76, 75, 69, 77]

/-- The small-order u-coordinates that are refused, in their encodings with a clear sign
bit. -/
def lowOrderPoints : List Bytes :=
  [List.replicate 32 0, 1 :: List.replicate 31 0,
   [0xe0, 0xeb, 0x7a, 0x7c, 0x3b, 0x41, 0xb8, 0xae, 0x16, 0x56, 0xe3, 0xfa, 0xf1, 0x9f,
    0xc4, 0x6a, 0xda, 0x09, 0x8d, 0xeb, 0x9c, 0x32, 0xb1, 0xfd, 0x86, 0x62, 0x05, 0x16,
    0x5f, 0x49, 0xb8, 0x00],
   [0x5f, 0x9c, 0x95, 0xbc, 0xa3, 0x50, 0x8c, 0x24, 0xb1, 0xd0, 0xb1, 0x55, 0x9c, 0x83,
    0xef, 0x5b, 0x04, 0x44, 0x5c, 0xc4, 0x58, 0x1c, 0x8e, 0x86, 0xd8, 0x22, 0x4e, 0xdd,
    0xd0, 0x9f, 0x11, 0x57]]

/-- Whether a public key encodes a small-order point, ignoring the sign bit of its last
byte. -/
def isLowOrderX25519Point (pk : Bytes) : Bool :=
  lowOrderPoints.contains (pk.modify 31 (· &&& 0x7F))

/-- The tagged concatenation of the two component secrets. -/
def combineSecrets (x25519Ss mlkemSs : Bytes) : Bytes :=
  x25519Tag ++ x25519Ss ++ mlkemTag ++ mlkemSs

/-- A Diffie-Hellman output that carries no contribution of the peer. -/
def isAllZero (bytes : Bytes) : Bool := bytes.all (· == 0)

variable {K C : Type} (P : Primitives K C)

/-- Generate a hybrid key pair. -/
def generateHybridKeypair (seed : KeygenSeed) : HybridKeyPair where
  x25519Pk := P.x25519Public seed.x25519Sk
  x25519Sk := seed.x25519Sk
  mlkemPk := (P.mlkemKeypair seed.mlkemSeed).1
  mlkemSk := (P.mlkemKeypair seed.mlkemSeed).2

/-- Encapsulate to a pair of public keys. -/
def encapsulateHybrid (peerX25519Pk peerMlkemPk : Bytes) (seed : EncapsulationSeed) :
    Except KyberError HybridKemResult :=
  let x25519Ss := P.x25519 seed.ephemeralSk peerX25519Pk
  if isLowOrderX25519Point peerX25519Pk || isAllZero x25519Ss then
    .error (.encapsulationFailed
      "Peer X25519 public key is a low-order point — shared secret is all zero")
  else if !P.mlkemPublicKeyValid peerMlkemPk then
    .error (.encapsulationFailed "Invalid ML-KEM-768 public key bytes")
  else
    let mlkem := P.mlkemEncapsulate peerMlkemPk seed.mlkemCoins
    .ok
      { ciphertextBytes := P.x25519Public seed.ephemeralSk ++ mlkem.2
        combinedSharedSecret := combineSecrets x25519Ss mlkem.1 }

/-- Decapsulate with a pair of secret keys. -/
def decapsulateHybrid (combinedCt myX25519Sk myMlkemSk : Bytes) : Except KyberError Bytes :=
  if combinedCt.length ≠ 32 + P.mlkemCiphertextBytes then
    .error (.decapsulationFailed "Ciphertext has unexpected length: expected 32 + ML-KEM-768 ct")
  else if isLowOrderX25519Point (combinedCt.take 32) then
    .error (.decapsulationFailed "Ephemeral X25519 public key is a low-order point")
  else if isAllZero (P.x25519 myX25519Sk (combinedCt.take 32)) then
    .error (.decapsulationFailed
      "Ephemeral X25519 public key is a low-order point — shared secret is all zero")
  else if !P.mlkemSecretKeyValid myMlkemSk then
    .error (.decapsulationFailed "Invalid ML-KEM-768 secret key bytes")
  else
    .ok (combineSecrets (P.x25519 myX25519Sk (combinedCt.take 32))
      (P.mlkemDecapsulate (combinedCt.drop 32) myMlkemSk))

/-- The properties of correct asymmetric primitives: Diffie-Hellman agrees and never
degenerates between generated keys, ML-KEM decapsulates what was encapsulated to its public
key, an ML-KEM secret binds its ciphertext, and fresh coins give a fresh ciphertext. -/
structure Primitives.KemCorrect : Prop where
  x25519_comm : ∀ a b, P.x25519 a (P.x25519Public b) = P.x25519 b (P.x25519Public a)
  x25519Public_length : ∀ a, (P.x25519Public a).length = 32
  x25519Public_not_lowOrder : ∀ a, isLowOrderX25519Point (P.x25519Public a) = false
  x25519_length : ∀ a pk, (P.x25519 a pk).length = 32
  x25519_not_allZero : ∀ a b, isAllZero (P.x25519 a (P.x25519Public b)) = false
  mlkemPublicKeyValid_keypair : ∀ seed, P.mlkemPublicKeyValid (P.mlkemKeypair seed).1 = true
  mlkemSecretKeyValid_keypair : ∀ seed, P.mlkemSecretKeyValid (P.mlkemKeypair seed).2 = true
  mlkemEncapsulate_length : ∀ pk coins,
    (P.mlkemEncapsulate pk coins).2.length = P.mlkemCiphertextBytes
  mlkemDecapsulate_encapsulate : ∀ seed coins,
    P.mlkemDecapsulate (P.mlkemEncapsulate (P.mlkemKeypair seed).1 coins).2
      (P.mlkemKeypair seed).2 = (P.mlkemEncapsulate (P.mlkemKeypair seed).1 coins).1
  mlkemDecapsulate_binds : ∀ {ct ct' sk sk'}, ct.length = P.mlkemCiphertextBytes →
    ct'.length = P.mlkemCiphertextBytes →
    P.mlkemDecapsulate ct sk = P.mlkemDecapsulate ct' sk' → ct = ct'
  mlkemEncapsulate_fresh : ∀ {pk pk' coins coins'},
    (P.mlkemEncapsulate pk coins).2 = (P.mlkemEncapsulate pk' coins').2 → coins = coins'

variable {P}

variable (P) in
/-- The ciphertext is the output of some encapsulation. -/
def Encapsulated (ct : Bytes) : Prop :=
  ∃ xpk mpk seed kem, encapsulateHybrid P xpk mpk seed = .ok kem ∧ kem.ciphertextBytes = ct

/-- A successful decapsulation combines the secrets of the two parts of the ciphertext. -/
theorem decapsulateHybrid_ok {ct xsk msk ss : Bytes} (h : decapsulateHybrid P ct xsk msk = .ok ss) :
    ct.length = 32 + P.mlkemCiphertextBytes ∧
      ss = combineSecrets (P.x25519 xsk (ct.take 32))
        (P.mlkemDecapsulate (ct.drop 32) msk) := by
  unfold decapsulateHybrid at h
  split_ifs at h with hlen
  exact ⟨not_not.1 hlen, (Except.ok.inj h).symm⟩

namespace Primitives.KemCorrect

variable (kem : P.KemCorrect)
include kem

theorem encapsulateHybrid_generate (kseed : KeygenSeed) (seed : EncapsulationSeed) :
    encapsulateHybrid P (generateHybridKeypair P kseed).x25519Pk
        (generateHybridKeypair P kseed).mlkemPk seed =
      .ok
        { ciphertextBytes := P.x25519Public seed.ephemeralSk ++
            (P.mlkemEncapsulate (P.mlkemKeypair kseed.mlkemSeed).1 seed.mlkemCoins).2
          combinedSharedSecret :=
            combineSecrets (P.x25519 seed.ephemeralSk (P.x25519Public kseed.x25519Sk))
              (P.mlkemEncapsulate (P.mlkemKeypair kseed.mlkemSeed).1 seed.mlkemCoins).1 } := by
  simp [encapsulateHybrid, generateHybridKeypair, kem.x25519Public_not_lowOrder,
    kem.x25519_not_allZero, kem.mlkemPublicKeyValid_keypair]

/-- What was encapsulated to a generated key pair decapsulates to the same secret. -/
theorem decapsulateHybrid_of_encapsulateHybrid {kseed : KeygenSeed} {seed : EncapsulationSeed}
    {res : HybridKemResult}
    (h : encapsulateHybrid P (generateHybridKeypair P kseed).x25519Pk
      (generateHybridKeypair P kseed).mlkemPk seed = .ok res) :
    decapsulateHybrid P res.ciphertextBytes (generateHybridKeypair P kseed).x25519Sk
      (generateHybridKeypair P kseed).mlkemSk = .ok res.combinedSharedSecret := by
  rw [kem.encapsulateHybrid_generate] at h
  obtain rfl := Except.ok.inj h
  have htake : ∀ ct : Bytes,
      (P.x25519Public seed.ephemeralSk ++ ct).take 32 = P.x25519Public seed.ephemeralSk := by
    intro ct
    exact List.take_left' (kem.x25519Public_length _)
  have hdrop : ∀ ct : Bytes, (P.x25519Public seed.ephemeralSk ++ ct).drop 32 = ct := by
    intro ct
    exact List.drop_left' (kem.x25519Public_length _)
  simp [decapsulateHybrid, generateHybridKeypair, htake, hdrop, kem.x25519Public_length,
    kem.mlkemEncapsulate_length, kem.x25519Public_not_lowOrder, kem.x25519_not_allZero,
    kem.mlkemSecretKeyValid_keypair, kem.mlkemDecapsulate_encapsulate,
    kem.x25519_comm kseed.x25519Sk]

/-- What was encapsulated to any public keys decapsulates under every generated key pair,
though not always to the same secret. -/
theorem exists_decapsulateHybrid {ct : Bytes} (h : Encapsulated P ct) (kseed : KeygenSeed) :
    ∃ ss, decapsulateHybrid P ct (generateHybridKeypair P kseed).x25519Sk
      (generateHybridKeypair P kseed).mlkemSk = .ok ss := by
  obtain ⟨xpk, mpk, seed, kem', hkem, rfl⟩ := h
  unfold encapsulateHybrid at hkem
  dsimp only at hkem
  split_ifs at hkem
  obtain rfl := Except.ok.inj hkem
  have htake : (P.x25519Public seed.ephemeralSk ++
      (P.mlkemEncapsulate mpk seed.mlkemCoins).2).take 32 = P.x25519Public seed.ephemeralSk :=
    List.take_left' (kem.x25519Public_length _)
  simp [decapsulateHybrid, generateHybridKeypair, htake, kem.x25519Public_length,
    kem.mlkemEncapsulate_length, kem.x25519Public_not_lowOrder, kem.x25519_not_allZero,
    kem.mlkemSecretKeyValid_keypair]

/-- A hybrid secret binds the ML-KEM part of the ciphertext it was decapsulated from. -/
theorem drop_eq_of_decapsulateHybrid {ct ct' xsk xsk' msk msk' ss : Bytes}
    (h : decapsulateHybrid P ct xsk msk = .ok ss)
    (h' : decapsulateHybrid P ct' xsk' msk' = .ok ss) : ct.drop 32 = ct'.drop 32 := by
  obtain ⟨hct, hss⟩ := decapsulateHybrid_ok h
  obtain ⟨hct', hss'⟩ := decapsulateHybrid_ok h'
  rw [hss, combineSecrets, combineSecrets] at hss'
  have hlen : (x25519Tag ++ P.x25519 xsk (ct.take 32) ++ mlkemTag).length =
      (x25519Tag ++ P.x25519 xsk' (ct'.take 32) ++ mlkemTag).length := by
    simp [kem.x25519_length]
  refine kem.mlkemDecapsulate_binds ?_ ?_ (List.append_inj hss' hlen).2
  · rw [List.length_drop, hct, Nat.add_sub_cancel_left]
  · rw [List.length_drop, hct', Nat.add_sub_cancel_left]

end Primitives.KemCorrect

end KyberPipe
