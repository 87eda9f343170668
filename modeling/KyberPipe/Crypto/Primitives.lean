import Mathlib.Algebra.Group.Nat.Defs
import Mathlib.Data.List.Basic
import KyberPipe.Lib.KeyChain

/-!
# Cryptographic primitives

The primitives that the core crate takes from other crates (HKDF-SHA256, ChaCha20-Poly1305,
X25519, ML-KEM-768, JSON encoding) are parameters of the model. `Primitives` collects them and
`Primitives.Ideal` collects the properties that an ideal implementation has.
-/

namespace KyberPipe

/-- Byte strings. -/
abbrev Bytes := List UInt8

/-- The error type of the core crate. -/
inductive KyberError where
  | cryptoError (message : String)
  | encapsulationFailed (message : String)
  | decapsulationFailed (message : String)
  | encryptionFailed (message : String)
  | decryptionFailed (message : String)
  | serializationError (message : String)
  | sessionDesynchronized (message : String)
  | crossGenerationResyncRequired (message : String)
  | invalidKeyLength (expected got : ℕ)
  deriving DecidableEq, Repr

/-- The displayed text of an error: its code and its message. -/
def KyberError.display : KyberError → String
  | cryptoError message => s!"[CRYPTO_ERROR] {message}"
  | encapsulationFailed message => s!"[ENCAPSULATION_FAILED] {message}"
  | decapsulationFailed message => s!"[DECAPSULATION_FAILED] {message}"
  | encryptionFailed message => s!"[ENCRYPTION_FAILED] {message}"
  | decryptionFailed message => s!"[DECRYPTION_FAILED] {message}"
  | serializationError message => s!"[SERIALIZATION_ERROR] {message}"
  | sessionDesynchronized message => s!"[SESSION_DESYNC] {message}"
  | crossGenerationResyncRequired message => s!"[CROSS_GENERATION_RESYNC_REQUIRED] {message}"
  | invalidKeyLength expected got => s!"[INVALID_KEY_LENGTH] expected {expected}, got {got}"

/-- The 12-byte AEAD nonce, by the two numbers it encodes. -/
structure Nonce where
  /-- Bytes 0 to 3: the ratchet generation. -/
  generation : ℕ
  /-- Bytes 4 to 11: the position in the sending chain. -/
  seq : ℕ
  deriving DecidableEq, Repr

/-- `u32::MAX`, the generation at which a session refuses to work. -/
def u32Max : ℕ := 2 ^ 32 - 1

/-- `u32::saturating_add(1)`. -/
def saturatingSucc (generation : ℕ) : ℕ := min (generation + 1) u32Max

/-- The salts passed to HKDF-Extract. -/
inductive Salt (K : Type) where
  /-- No salt. -/
  | none
  /-- `"kyberpipe-pq-salt-"` followed by the session salt. -/
  | pqSalt (sessionSalt : K)
  /-- `"kyberpipe-root-"` followed by the session salt. -/
  | rootSalt (sessionSalt : K)
  /-- `"kyberpipe-chain-salt"`. -/
  | chainSalt
  /-- A root key or a chain key. -/
  | key (k : K)
  deriving DecidableEq

/-- The input keying material passed to HKDF-Extract. -/
inductive Ikm (K : Type) where
  /-- A shared secret. -/
  | secret (bytes : Bytes)
  /-- A derived key. -/
  | key (k : K)
  /-- `"step"`. -/
  | step
  deriving DecidableEq

/-- The labels passed to HKDF-Expand. -/
inductive Info where
  /-- `"kyberpipe-session-salt"` -/
  | sessionSalt
  /-- `"kyberpipe-master-seed"` -/
  | masterSeed
  /-- `"kyberpipe-root-key"` -/
  | rootKey
  /-- `"kyberpipe-send-chain"` -/
  | sendChain
  /-- `"kyberpipe-recv-chain"` -/
  | recvChain
  /-- `"kyberpipe-msg-key"` -/
  | msgKey
  /-- `"kyberpipe-next-chain"` -/
  | nextChain
  /-- `"kyberpipe-next-root-key"` -/
  | nextRootKey
  /-- `"kyberpipe-next-send-chain-from-rekey"` -/
  | nextSendChainFromRekey
  /-- `"kyberpipe-next-recv-chain-from-rekey"` -/
  | nextRecvChainFromRekey
  deriving DecidableEq

/-- The packets that the ratchet layer itself produces and reads. Application packets are
kept as their encoded bytes. -/
inductive KyberMessage where
  | rekeyAck (seq : ℕ)
  | synchronize (sendCount : ℕ)
  | application (payload : Bytes)
  deriving DecidableEq

/-- The third-party primitives, over a type `K` of 32-byte keys and a type `C` of AEAD
ciphertexts. HKDF-Expand cannot fail for outputs of this length, so `hkdf` is total. -/
structure Primitives (K C : Type) where
  /-- HKDF-SHA256: extract with a salt and input keying material, expand with a label. -/
  hkdf : Salt K → Ikm K → Info → K
  /-- ChaCha20-Poly1305 encryption of a plaintext under associated data. -/
  aeadSeal : K → Nonce → Bytes → Bytes → Option C
  /-- ChaCha20-Poly1305 decryption under associated data. -/
  aeadOpen : K → Nonce → C → Bytes → Option Bytes
  /-- The length of a ciphertext with its tag. -/
  ciphertextLength : C → ℕ
  /-- The X25519 public key of a secret scalar. -/
  x25519Public : Bytes → Bytes
  /-- X25519 Diffie-Hellman: own secret scalar, peer public key. -/
  x25519 : Bytes → Bytes → Bytes
  /-- An ML-KEM-768 key pair, public key first, from key generation randomness. -/
  mlkemKeypair : Bytes → Bytes × Bytes
  /-- ML-KEM-768 encapsulation to a public key: the shared secret and the ciphertext. -/
  mlkemEncapsulate : Bytes → BitVec 256 → Bytes × Bytes
  /-- ML-KEM-768 decapsulation of a ciphertext with a secret key. -/
  mlkemDecapsulate : Bytes → Bytes → Bytes
  /-- Whether a byte string has the length of an ML-KEM-768 public key. -/
  mlkemPublicKeyValid : Bytes → Bool
  /-- Whether a byte string has the length of an ML-KEM-768 secret key. -/
  mlkemSecretKeyValid : Bytes → Bool
  /-- The length of an ML-KEM-768 ciphertext. -/
  mlkemCiphertextBytes : ℕ
  /-- Packet encoding. -/
  toJson : KyberMessage → Bytes
  /-- Packet decoding. -/
  fromJson : Bytes → Option KyberMessage

namespace Primitives

variable {K C : Type} (P : Primitives K C)

/-- The symmetric chain of the ratchet: every position is expanded once to the next chain key
and once to the message key of the position. -/
def chain : KeyChain K where
  step ck := P.hkdf (.key ck) .step .nextChain
  out ck := P.hkdf (.key ck) .step .msgKey

/-- The root key that a rekey derives from the current root and a shared secret. -/
def nextRootKey (root : K) (ss : Bytes) : K := P.hkdf (.key root) (.secret ss) .nextRootKey

/-- The proposer's sending chain after a rekey. -/
def nextSendChain (root : K) (ss : Bytes) : K :=
  P.hkdf (.key root) (.secret ss) .nextSendChainFromRekey

/-- The proposer's receiving chain after a rekey. -/
def nextRecvChain (root : K) (ss : Bytes) : K :=
  P.hkdf (.key root) (.secret ss) .nextRecvChainFromRekey

/-- The properties of ideal symmetric primitives. HKDF has no collisions and its outputs
never lead back to a key they were derived from. The AEAD opens exactly what was sealed, and
a ciphertext commits to its key, nonce, plaintext and associated data. -/
structure Ideal : Prop where
  /-- HKDF is injective in the salt, the keying material and the label. -/
  hkdf_inj : ∀ {s i l s' i' l'}, P.hkdf s i l = P.hkdf s' i' l' → s = s' ∧ i = i' ∧ l = l'
  /-- Keys are ranked so that a key derived from a salted key ranks above it. -/
  exists_rank : ∃ rank : K → ℕ, ∀ k i l, rank k < rank (P.hkdf (.key k) i l)
  /-- A sealed message opens to its plaintext. -/
  open_of_seal : ∀ {k n pt aad c}, P.aeadSeal k n pt aad = some c →
    P.aeadOpen k n c aad = some pt
  /-- Only a sealed message opens. -/
  seal_of_open : ∀ {k n pt aad c}, P.aeadOpen k n c aad = some pt →
    P.aeadSeal k n pt aad = some c
  /-- A ciphertext commits to everything it was sealed from. -/
  seal_inj : ∀ {k n pt aad k' n' pt' aad' c}, P.aeadSeal k n pt aad = some c →
    P.aeadSeal k' n' pt' aad' = some c → k = k' ∧ n = n' ∧ pt = pt' ∧ aad = aad'
  /-- A ciphertext is at least as long as its tag. -/
  le_ciphertextLength : ∀ {k n pt aad c}, P.aeadSeal k n pt aad = some c →
    16 ≤ P.ciphertextLength c
  /-- Encoded packets decode to themselves. -/
  fromJson_toJson : ∀ p, P.fromJson (P.toJson p) = some p

variable {P}

namespace Ideal

variable (ideal : P.Ideal)
include ideal

theorem step_injective : Function.Injective P.chain.step := by
  intro a b h
  have hsalt := (ideal.hkdf_inj h).1
  exact Salt.key.inj hsalt

theorem out_injective : Function.Injective P.chain.out := by
  intro a b h
  have hsalt := (ideal.hkdf_inj h).1
  exact Salt.key.inj hsalt

/-- A key derived under another label than the chain's own is a seed. -/
theorem isSeed_of_info_ne {s : Salt K} {i : Ikm K} {l : Info} (hl : l ≠ .nextChain) :
    P.chain.IsSeed (P.hkdf s i l) := by
  intro k h
  exact hl (ideal.hkdf_inj h).2.2.symm

theorem isSeed_nextSendChain (root : K) (ss : Bytes) :
    P.chain.IsSeed (P.nextSendChain root ss) :=
  ideal.isSeed_of_info_ne (by decide)

theorem isSeed_nextRecvChain (root : K) (ss : Bytes) :
    P.chain.IsSeed (P.nextRecvChain root ss) :=
  ideal.isSeed_of_info_ne (by decide)

/-- A message key determines the seed and the position of its chain. -/
theorem keyAt_inj {a b : K} (ha : P.chain.IsSeed a) (hb : P.chain.IsSeed b) {m n : ℕ}
    (h : P.chain.keyAt a m = P.chain.keyAt b n) : a = b ∧ m = n :=
  KeyChain.keyAt_inj ideal.step_injective ideal.out_injective ha hb h

/-- A ciphertext opens under at most one key. -/
theorem key_eq_of_open {k k' : K} {n n' : Nonce} {aad aad' pt pt' : Bytes} {c : C}
    (h : P.aeadOpen k n c aad = some pt) (h' : P.aeadOpen k' n' c aad' = some pt') :
    k = k' :=
  (ideal.seal_inj (ideal.seal_of_open h) (ideal.seal_of_open h')).1

end Ideal

end Primitives

end KyberPipe
