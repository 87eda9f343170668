import Mathlib.Tactic.Ring
import KyberPipe.Crypto.Primitives

/-!
# Authenticated encryption and nonces

The ChaCha20-Poly1305 wrappers and the nonce layout of `aead.rs`.
-/

namespace KyberPipe

/-! ## Nonce layout -/

/-- The `width` low-order bytes of a number, most significant first. -/
def beBytes : ℕ → ℕ → Bytes
  | 0, _ => []
  | width + 1, n => UInt8.ofNat (n / 256 ^ width) :: beBytes width n

/-- The number that a byte string encodes, most significant byte first. -/
def ofBeBytes (bytes : Bytes) : ℕ := bytes.foldl (fun acc b => acc * 256 + b.toNat) 0

@[simp]
theorem length_beBytes (width n : ℕ) : (beBytes width n).length = width := by
  induction width with
  | zero => rfl
  | succ width ih => rw [beBytes, List.length_cons, ih]

theorem foldl_beBytes (acc width n : ℕ) :
    (beBytes width n).foldl (fun acc b => acc * 256 + b.toNat) acc =
      acc * 256 ^ width + n % 256 ^ width := by
  induction width generalizing acc with
  | zero => simp [beBytes, Nat.mod_one]
  | succ width ih =>
    have hbyte : (UInt8.ofNat (n / 256 ^ width)).toNat = n / 256 ^ width % 256 := by simp
    rw [beBytes, List.foldl_cons, ih, hbyte, Nat.mod_pow_succ]
    ring

/-- Decoding returns the number up to the width of the encoding. -/
@[simp]
theorem ofBeBytes_beBytes (width n : ℕ) : ofBeBytes (beBytes width n) = n % 256 ^ width := by
  rw [ofBeBytes, foldl_beBytes, Nat.zero_mul, Nat.zero_add]

theorem foldl_ofBeBytes (acc : ℕ) (bytes : Bytes) :
    bytes.foldl (fun acc b => acc * 256 + b.toNat) acc =
      acc * 256 ^ bytes.length + ofBeBytes bytes := by
  induction bytes generalizing acc with
  | nil => simp [ofBeBytes]
  | cons b bytes ih =>
    rw [ofBeBytes, List.foldl_cons, List.foldl_cons, ih, ih, List.length_cons, pow_succ]
    ring

/-- The first byte of an encoding is its most significant digit. -/
theorem ofBeBytes_cons (b : UInt8) (bytes : Bytes) :
    ofBeBytes (b :: bytes) = b.toNat * 256 ^ bytes.length + ofBeBytes bytes := by
  rw [ofBeBytes, List.foldl_cons, foldl_ofBeBytes, Nat.zero_mul, Nat.zero_add]

theorem ofBeBytes_lt (bytes : Bytes) : ofBeBytes bytes < 256 ^ bytes.length := by
  induction bytes with
  | nil => exact Nat.one_pos
  | cons b bytes ih =>
    have hbyte : b.toNat + 1 ≤ 256 := b.toNat_lt
    calc ofBeBytes (b :: bytes) < b.toNat * 256 ^ bytes.length + 256 ^ bytes.length := by
          rw [ofBeBytes_cons]
          omega
      _ = (b.toNat + 1) * 256 ^ bytes.length := by ring
      _ ≤ 256 * 256 ^ bytes.length := Nat.mul_le_mul_right _ hbyte
      _ = 256 ^ (b :: bytes).length := by rw [List.length_cons, pow_succ, Nat.mul_comm]

/-- Digits above the width do not enter an encoding. -/
theorem beBytes_add_mul (width k n : ℕ) :
    beBytes width (k * 256 ^ width + n) = beBytes width n := by
  induction width generalizing k with
  | zero => rfl
  | succ width ih =>
    have hsplit : k * 256 ^ (width + 1) + n = k * 256 * 256 ^ width + n := by ring
    have hpos : 0 < 256 ^ width := Nat.pow_pos (by decide)
    have hdigit : (k * 256 * 256 ^ width + n) / 256 ^ width = n / 256 ^ width + k * 256 := by
      rw [Nat.add_comm, Nat.add_mul_div_right _ _ hpos]
    have hbyte : UInt8.ofNat (n / 256 ^ width + k * 256) = UInt8.ofNat (n / 256 ^ width) := by
      apply UInt8.toNat_inj.1
      simp
    rw [beBytes, beBytes, hsplit, hdigit, hbyte, ih]

/-- Encoding returns the bytes that a number was decoded from. -/
theorem beBytes_ofBeBytes (bytes : Bytes) : beBytes bytes.length (ofBeBytes bytes) = bytes := by
  induction bytes with
  | nil => rfl
  | cons b bytes ih =>
    have hpos : 0 < 256 ^ bytes.length := Nat.pow_pos (by decide)
    have hdigit : (b.toNat * 256 ^ bytes.length + ofBeBytes bytes) / 256 ^ bytes.length =
        b.toNat := by
      rw [Nat.add_comm, Nat.add_mul_div_right _ _ hpos, Nat.div_eq_of_lt (ofBeBytes_lt bytes),
        Nat.zero_add]
    rw [List.length_cons, beBytes, ofBeBytes_cons, hdigit, beBytes_add_mul, ih]
    simp

/-- The nonce of a position in a generation. -/
def generateNonceFromSeq (seq generation : ℕ) : Nonce := ⟨generation, seq⟩

/-- The 12 bytes of a nonce: the generation as a big-endian `u32`, the position as a
big-endian `u64`. -/
def Nonce.toBytes (nonce : Nonce) : Bytes := beBytes 4 nonce.generation ++ beBytes 8 nonce.seq

/-- The generation and position that the receiver parses from the 12 bytes of a nonce. -/
def Nonce.ofBytes (bytes : Bytes) : Nonce :=
  ⟨ofBeBytes (bytes.take 4), ofBeBytes ((bytes.drop 4).take 8)⟩

variable {nonce : Nonce}

/-- A nonce within the ranges of its two fields survives its encoding. -/
theorem Nonce.ofBytes_toBytes (hgen : nonce.generation < 2 ^ 32) (hseq : nonce.seq < 2 ^ 64) :
    Nonce.ofBytes nonce.toBytes = nonce := by
  obtain ⟨generation, seq⟩ := nonce
  have htake : (beBytes 4 generation ++ beBytes 8 seq).take 4 = beBytes 4 generation :=
    List.take_left' (length_beBytes 4 generation)
  have hdrop : (beBytes 4 generation ++ beBytes 8 seq).drop 4 = beBytes 8 seq :=
    List.drop_left' (length_beBytes 4 generation)
  have hrest : (beBytes 8 seq).take 8 = beBytes 8 seq :=
    List.take_of_length_le (by simp)
  simp only [Nonce.ofBytes, Nonce.toBytes, htake, hdrop, hrest, ofBeBytes_beBytes]
  rw [Nat.mod_eq_of_lt (by simpa using hgen), Nat.mod_eq_of_lt (by simpa using hseq)]

/-! ## Encryption and decryption -/

variable {K C : Type} (P : Primitives K C)

/-- Encrypt with ChaCha20-Poly1305. -/
def encryptChacha20 (key : K) (nonce : Nonce) (plaintext aad : Bytes) : Except KyberError C :=
  match P.aeadSeal key nonce plaintext aad with
  | some c => .ok c
  | none => .error (.encryptionFailed "ChaCha20Poly1305 encrypt error: aead::Error")

/-- Decrypt with ChaCha20-Poly1305. Only the path with associated data checks the length of
the ciphertext itself. -/
def decryptChacha20 (key : K) (nonce : Nonce) (ciphertext : C) (aad : Bytes) :
    Except KyberError Bytes :=
  if !aad.isEmpty && decide (P.ciphertextLength ciphertext < 16) then
    .error (.decryptionFailed "Ciphertext too short")
  else
    match P.aeadOpen key nonce ciphertext aad with
    | some pt => .ok pt
    | none => .error (.decryptionFailed "ChaCha20Poly1305 decrypt error: aead::Error")

variable {P}

theorem aeadOpen_of_decryptChacha20 {key : K} {ct : C} {aad pt : Bytes}
    (h : decryptChacha20 P key nonce ct aad = .ok pt) : P.aeadOpen key nonce ct aad = some pt := by
  unfold decryptChacha20 at h
  split_ifs at h
  split at h
  · rename_i hopen
    rw [hopen, Except.ok.inj h]
  · exact absurd h (by simp)

section Ideal

variable (ideal : P.Ideal)
include ideal

theorem decryptChacha20_of_seal {key : K} {ct : C} {aad pt : Bytes}
    (h : P.aeadSeal key nonce pt aad = some ct) : decryptChacha20 P key nonce ct aad = .ok pt := by
  have hlen : ¬ P.ciphertextLength ct < 16 := Nat.not_lt.2 (ideal.le_ciphertextLength h)
  simp [decryptChacha20, hlen, ideal.open_of_seal h]

/-- A sealed message decrypts only under the key it was sealed with. -/
theorem key_eq_of_decryptChacha20 {key key' : K} {nonce nonce' : Nonce} {ct : C}
    {aad aad' pt pt' : Bytes} (h : P.aeadSeal key nonce pt aad = some ct)
    (h' : decryptChacha20 P key' nonce' ct aad' = .ok pt') : key' = key :=
  ideal.key_eq_of_open (aeadOpen_of_decryptChacha20 h') (ideal.open_of_seal h)

end Ideal

end KyberPipe
