import Mathlib.Data.Nat.Bitwise
import KyberPipe.Crypto.Primitives

/-!
# Base32

`base32_encode` of `tor.rs` shifts bytes into a 32-bit register that it never masks and takes five
bits at a time from it. The register is read as the last bits of the input: the bits that were
already taken stay above the ones that are still to come, and are shifted out at the top.
-/

namespace KyberPipe.Tor

/-- `ALPHABET` -/
def alphabet : List Char := "abcdefghijklmnopqrstuvwxyz234567".toList

/-- The letter for the low five bits. -/
def digit (x : ℕ) : Char := alphabet.getD (x &&& 0x1f) 'a'

/-- The local variables of `base32_encode`. -/
structure Register where
  out : List Char := []
  buffer : ℕ := 0
  bits : ℕ := 0

namespace Register

/-- The inner loop: take five bits while there are as many. -/
def drain (r : Register) : Register :=
  if 5 ≤ r.bits then
    drain ⟨r.out ++ [digit (r.buffer >>> (r.bits - 5))], r.buffer, r.bits - 5⟩
  else r
termination_by r.bits

/-- One byte of the input. The shift drops what leaves the register. -/
def shiftIn (r : Register) (byte : UInt8) : Register :=
  drain ⟨r.out, (r.buffer <<< 8 ||| byte.toNat) % 2 ^ 32, r.bits + 8⟩

/-- The last letter takes the bits that are left, padded with zeros. -/
def finish (r : Register) : List Char :=
  if 0 < r.bits then r.out ++ [digit (r.buffer <<< (5 - r.bits) % 2 ^ 32)] else r.out

end Register

/-- `base32_encode` -/
def base32Encode (input : Bytes) : String :=
  String.ofList (input.foldl Register.shiftIn {}).finish

/-! ## The bits of the input -/

/-- Bit `p` of the input, the most significant bit of the first byte first, and zeros behind. -/
def bitAt (input : Bytes) (p : ℕ) : Bool := (input.getD (p / 8) 0).toNat.testBit (7 - p % 8)

/-- The letter stands for the `i`-th group of five bits. -/
def IsGroup (input : Bytes) (i : ℕ) (c : Char) : Prop :=
  ∃ idx < 32, alphabet[idx]? = some c ∧ ∀ j < 5, idx.testBit (4 - j) = bitAt input (5 * i + j)

variable {input : Bytes} {r : Register} {i : ℕ}

theorem bitAt_append {b : UInt8} {p : ℕ} (hp : p < 8 * input.length) :
    bitAt (input ++ [b]) p = bitAt input p := by
  have hdiv : p / 8 < input.length := by omega
  simp [bitAt, List.getElem?_append_left hdiv]

theorem bitAt_last (b : UInt8) {m : ℕ} (hm : m < 8) :
    bitAt (input ++ [b]) (8 * input.length + 7 - m) = b.toNat.testBit m := by
  have hdiv : (8 * input.length + 7 - m) / 8 = input.length := by omega
  have hmod : 7 - (8 * input.length + 7 - m) % 8 = m := by omega
  simp [bitAt, hdiv, hmod]

theorem bitAt_of_le {p : ℕ} (hp : 8 * input.length ≤ p) : bitAt input p = false := by
  have hdiv : input.length ≤ p / 8 := by omega
  simp [bitAt, List.getElem?_eq_none hdiv]

theorem isGroup_digit {x : ℕ} (h : ∀ m < 5, x.testBit m = bitAt input (5 * i + (4 - m))) :
    IsGroup input i (digit x) := by
  have hlt : x &&& 0x1f < 32 := (Nat.and_le_right).trans_lt (by decide)
  have hlen : x &&& 0x1f < alphabet.length := hlt
  refine ⟨x &&& 0x1f, hlt, by simp [digit, List.getElem?_eq_getElem hlen], fun j hj => ?_⟩
  have hmask : ∀ j < 5, (0x1f : ℕ).testBit (4 - j) = true := by decide
  rw [Nat.testBit_and, hmask j hj, Bool.and_true, h _ (by omega)]
  congr 1
  omega

theorem IsGroup.append {c : Char} (h : IsGroup input i c) (hi : 5 * (i + 1) ≤ 8 * input.length)
    (b : UInt8) : IsGroup (input ++ [b]) i c := by
  obtain ⟨idx, hidx, hc, hbits⟩ := h
  exact ⟨idx, hidx, hc, fun j hj => (hbits j hj).trans (bitAt_append (by omega)).symm⟩

/-! ## The loops -/

/-- What the variables say about the bytes read so far. The low bits of the register are the last
bits of the input; of these `r.bits` are still to be taken. -/
structure Register.Reads (input : Bytes) (r : Register) : Prop where
  count : 5 * r.out.length + r.bits = 8 * input.length
  buffer : ∀ m < 32, m < 8 * input.length →
    r.buffer.testBit m = bitAt input (8 * input.length - 1 - m)
  out : ∀ i c, r.out[i]? = some c → IsGroup input i c

namespace Register.Reads

section

variable (h : r.Reads input)
include h

/-- A letter that is pushed for the next group. -/
theorem isGroup_push {x : ℕ} (hx : ∀ m < 5, x.testBit m = bitAt input (5 * r.out.length + (4 - m)))
    {c : Char} (hc : (r.out ++ [digit x])[i]? = some c) : IsGroup input i c := by
  rcases Nat.lt_or_ge i r.out.length with hi | hi
  · rw [List.getElem?_append_left hi] at hc
    exact h.out i c hc
  · rw [List.getElem?_append_right hi] at hc
    obtain ⟨hzero, rfl⟩ : i - r.out.length = 0 ∧ digit x = c := by
      rw [List.getElem?_singleton] at hc
      split_ifs at hc with hzero
      exact ⟨hzero, Option.some.inj hc⟩
    obtain rfl : i = r.out.length := by omega
    exact isGroup_digit hx

theorem drain (hbits : r.bits ≤ 32) : r.drain.Reads input ∧ r.drain.bits < 5 := by
  induction r using Register.drain.induct with
  | case1 r hle ih =>
    rw [Register.drain, if_pos hle]
    have hcount := h.count
    refine ih ⟨?_, h.buffer, fun i c hc => h.isGroup_push (fun m hm => ?_) hc⟩ ?_
    · simp only [List.length_append, List.length_singleton]
      omega
    · -- the bits above the five are those already taken, and are masked off
      rw [Nat.testBit_shiftRight, h.buffer _ (by omega) (by omega)]
      congr 1
      omega
    · dsimp only
      omega
  | case2 r hle =>
    rw [Register.drain, if_neg hle]
    exact ⟨h, Nat.lt_of_not_le hle⟩

theorem shiftIn (hbits : r.bits < 5) (b : UInt8) :
    (r.shiftIn b).Reads (input ++ [b]) ∧ (r.shiftIn b).bits < 5 := by
  have hcount := h.count
  refine drain ⟨?_, fun m hm hlt => ?_, fun i c hc => ?_⟩ (by dsimp only; omega)
  · simp only [List.length_append, List.length_singleton]
    omega
  · have hlen : 8 * (input ++ [b]).length - 1 - m = 8 * input.length + 7 - m := by
      simp only [List.length_append, List.length_singleton]
      omega
    rw [Nat.testBit_mod_two_pow, Nat.testBit_or, Nat.testBit_shiftLeft, hlen]
    rcases Nat.lt_or_ge m 8 with hm8 | hm8
    · simp [hm, Nat.not_le.2 hm8, bitAt_last b hm8]
    · have hbyte : b.toNat.testBit m = false :=
        Nat.testBit_lt_two_pow (b.toNat_lt.trans_le (Nat.pow_le_pow_right (by decide) hm8))
      have hold := h.buffer (m - 8) (by omega) (by simp at hlt; omega)
      have hindex : 8 * input.length - 1 - (m - 8) = 8 * input.length + 7 - m := by omega
      rw [hindex] at hold
      simp only [List.length_append, List.length_singleton] at hlt
      rw [bitAt_append (by omega)]
      simp [hm, hm8, hbyte, hold]
  · have hi : i < r.out.length := (List.getElem?_eq_some_iff.1 hc).1
    exact (h.out i c hc).append (by omega) b

theorem foldl (hbits : r.bits < 5) (rest : Bytes) :
    (rest.foldl Register.shiftIn r).Reads (input ++ rest) ∧
      (rest.foldl Register.shiftIn r).bits < 5 := by
  induction rest generalizing input r with
  | nil => simpa using ⟨h, hbits⟩
  | cons b rest ih =>
    obtain ⟨hnext, hnextBits⟩ := h.shiftIn hbits b
    simpa using ih hnext hnextBits

/-- The letters of a whole input. -/
theorem finish (hbits : r.bits < 5) :
    r.finish.length = (8 * input.length + 4) / 5 ∧
      ∀ i c, r.finish[i]? = some c → IsGroup input i c := by
  have hcount := h.count
  unfold Register.finish
  split_ifs with hpos
  · refine ⟨by simp only [List.length_append, List.length_singleton]; omega, fun i c hc => ?_⟩
    refine h.isGroup_push (fun m hm => ?_) hc
    rw [Nat.testBit_mod_two_pow, Nat.testBit_shiftLeft]
    rcases Nat.lt_or_ge m (5 - r.bits) with hlow | hhigh
    · rw [bitAt_of_le (by omega)]
      simp [Nat.not_le.2 hlow]
    · rw [h.buffer _ (by omega) (by omega)]
      have hindex : 8 * input.length - 1 - (m - (5 - r.bits)) = 5 * r.out.length + (4 - m) := by
        omega
      simp [hindex, hhigh, show m < 32 by omega]
  · exact ⟨by omega, h.out⟩

end

end Register.Reads

theorem reads_foldl (input : Bytes) :
    (input.foldl Register.shiftIn {}).Reads input ∧ (input.foldl Register.shiftIn {}).bits < 5 := by
  have hempty : ({} : Register).Reads [] := ⟨rfl, by simp, by simp⟩
  simpa using hempty.foldl (by decide) input

/-- Two inputs with a letter in common agree on the bits of its group. -/
theorem IsGroup.bitAt_eq {input' : Bytes} {c : Char} (h : IsGroup input i c)
    (h' : IsGroup input' i c) {j : ℕ} (hj : j < 5) :
    bitAt input (5 * i + j) = bitAt input' (5 * i + j) := by
  obtain ⟨idx, hidx, hc, hbits⟩ := h
  obtain ⟨idx', hidx', hc', hbits'⟩ := h'
  have hnodup : alphabet.Nodup := by decide
  obtain rfl : idx = idx' := (List.getElem?_inj hidx hnodup).1 (hc.trans hc'.symm)
  rw [← hbits j hj, ← hbits' j hj]

theorem eq_of_bitAt_eq {input' : Bytes} (hlen : input.length = input'.length)
    (h : ∀ p < 8 * input.length, bitAt input p = bitAt input' p) : input = input' := by
  refine List.ext_getElem hlen fun k hk hk' => ?_
  apply UInt8.toNat_inj.1
  refine Nat.eq_of_testBit_eq fun m => ?_
  rcases Nat.lt_or_ge m 8 with hm | hm
  · have hbit := h (8 * k + (7 - m)) (by omega)
    have hdiv : (8 * k + (7 - m)) / 8 = k := by omega
    have hmod : 7 - (7 - m) % 8 = m := by omega
    simpa [bitAt, hdiv, hmod, hk, hk'] using hbit
  · have hsmall (b : UInt8) : b.toNat < 2 ^ m :=
      b.toNat_lt.trans_le (Nat.pow_le_pow_right (by decide) hm)
    rw [Nat.testBit_lt_two_pow (hsmall _), Nat.testBit_lt_two_pow (hsmall _)]

/-- The encoding has one letter for each started group of five bits, its `i`-th letter is the one
for the `i`-th group of the input padded with zeros, and inputs of one length are told apart. -/
theorem base32_encode_correct (input : Bytes) :
    (base32Encode input).length = (8 * input.length + 4) / 5 ∧
      (∀ i c, (base32Encode input).toList[i]? = some c → IsGroup input i c) ∧
      ∀ input', input'.length = input.length → base32Encode input' = base32Encode input →
        input' = input := by
  have hspec (input : Bytes) : (base32Encode input).toList.length = (8 * input.length + 4) / 5 ∧
      ∀ i c, (base32Encode input).toList[i]? = some c → IsGroup input i c := by
    rw [base32Encode, String.toList_ofList]
    exact (reads_foldl input).1.finish (reads_foldl input).2
  obtain ⟨hlen, hgroups⟩ := hspec input
  refine ⟨by rw [← String.length_toList, hlen], hgroups, fun input' hlen' heq => ?_⟩
  refine eq_of_bitAt_eq hlen' fun p hp => ?_
  -- the group of bit `p` has a letter, since the letters cover all bits
  have hi : p / 5 < (base32Encode input).toList.length := by omega
  have hc := List.getElem?_eq_getElem hi
  have hbit := ((hspec input').2 _ _ (by rw [heq]; exact hc)).bitAt_eq (hgroups _ _ hc)
    (Nat.mod_lt p (by decide : 0 < 5))
  rwa [Nat.div_add_mod] at hbit

end KyberPipe.Tor
