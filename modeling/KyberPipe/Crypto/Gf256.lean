import Mathlib.Algebra.GroupWithZero.Units.Basic
import KyberPipe.Lib.LogTables

/-!
# The field of bytes

`shamir.rs`: bytes are multiplied through tables of logarithms to the base 3 and added with
exclusive or. The tables are those of a field with 256 elements.
-/

namespace KyberPipe

/-- `GF256_LOG` -/
def gf256Log : List UInt8 := [
  0x00, 0x00, 0x19, 0x01, 0x32, 0x02, 0x1a, 0xc6, 0x4b, 0xc7, 0x1b, 0x68, 0x33, 0xee, 0xdf, 0x03,
  0x64, 0x04, 0xe0, 0x0e, 0x34, 0x8d, 0x81, 0xef, 0x4c, 0x71, 0x08, 0xc8, 0xf8, 0x69, 0x1c, 0xc1,
  0x7d, 0xc2, 0x1d, 0xb5, 0xf9, 0xb9, 0x27, 0x6a, 0x4d, 0xe4, 0xa6, 0x72, 0x9a, 0xc9, 0x09, 0x78,
  0x65, 0x2f, 0x8a, 0x05, 0x21, 0x0f, 0xe1, 0x24, 0x12, 0xf0, 0x82, 0x45, 0x35, 0x93, 0xda, 0x8e,
  0x96, 0x8f, 0xdb, 0xbd, 0x36, 0xd0, 0xce, 0x94, 0x13, 0x5c, 0xd2, 0xf1, 0x40, 0x46, 0x83, 0x38,
  0x66, 0xdd, 0xfd, 0x30, 0xbf, 0x06, 0x8b, 0x62, 0xb3, 0x25, 0xe2, 0x98, 0x22, 0x88, 0x91, 0x10,
  0x7e, 0x6e, 0x48, 0xc3, 0xa3, 0xb6, 0x1e, 0x42, 0x3a, 0x6b, 0x28, 0x54, 0xfa, 0x85, 0x3d, 0xba,
  0x2b, 0x79, 0x0a, 0x15, 0x9b, 0x9f, 0x5e, 0xca, 0x4e, 0xd4, 0xac, 0xe5, 0xf3, 0x73, 0xa7, 0x57,
  0xaf, 0x58, 0xa8, 0x50, 0xf4, 0xea, 0xd6, 0x74, 0x4f, 0xae, 0xe9, 0xd5, 0xe7, 0xe6, 0xad, 0xe8,
  0x2c, 0xd7, 0x75, 0x7a, 0xeb, 0x16, 0x0b, 0xf5, 0x59, 0xcb, 0x5f, 0xb0, 0x9c, 0xa9, 0x51, 0xa0,
  0x7f, 0x0c, 0xf6, 0x6f, 0x17, 0xc4, 0x49, 0xec, 0xd8, 0x43, 0x1f, 0x2d, 0xa4, 0x76, 0x7b, 0xb7,
  0xcc, 0xbb, 0x3e, 0x5a, 0xfb, 0x60, 0xb1, 0x86, 0x3b, 0x52, 0xa1, 0x6c, 0xaa, 0x55, 0x29, 0x9d,
  0x97, 0xb2, 0x87, 0x90, 0x61, 0xbe, 0xdc, 0xfc, 0xbc, 0x95, 0xcf, 0xcd, 0x37, 0x3f, 0x5b, 0xd1,
  0x53, 0x39, 0x84, 0x3c, 0x41, 0xa2, 0x6d, 0x47, 0x14, 0x2a, 0x9e, 0x5d, 0x56, 0xf2, 0xd3, 0xab,
  0x44, 0x11, 0x92, 0xd9, 0x23, 0x20, 0x2e, 0x89, 0xb4, 0x7c, 0xb8, 0x26, 0x77, 0x99, 0xe3, 0xa5,
  0x67, 0x4a, 0xed, 0xde, 0xc5, 0x31, 0xfe, 0x18, 0x0d, 0x63, 0x8c, 0x80, 0xc0, 0xf7, 0x70, 0x07]

/-- `GF256_EXP` -/
def gf256Exp : List UInt8 := [
  0x01, 0x03, 0x05, 0x0f, 0x11, 0x33, 0x55, 0xff, 0x1a, 0x2e, 0x72, 0x96, 0xa1, 0xf8, 0x13, 0x35,
  0x5f, 0xe1, 0x38, 0x48, 0xd8, 0x73, 0x95, 0xa4, 0xf7, 0x02, 0x06, 0x0a, 0x1e, 0x22, 0x66, 0xaa,
  0xe5, 0x34, 0x5c, 0xe4, 0x37, 0x59, 0xeb, 0x26, 0x6a, 0xbe, 0xd9, 0x70, 0x90, 0xab, 0xe6, 0x31,
  0x53, 0xf5, 0x04, 0x0c, 0x14, 0x3c, 0x44, 0xcc, 0x4f, 0xd1, 0x68, 0xb8, 0xd3, 0x6e, 0xb2, 0xcd,
  0x4c, 0xd4, 0x67, 0xa9, 0xe0, 0x3b, 0x4d, 0xd7, 0x62, 0xa6, 0xf1, 0x08, 0x18, 0x28, 0x78, 0x88,
  0x83, 0x9e, 0xb9, 0xd0, 0x6b, 0xbd, 0xdc, 0x7f, 0x81, 0x98, 0xb3, 0xce, 0x49, 0xdb, 0x76, 0x9a,
  0xb5, 0xc4, 0x57, 0xf9, 0x10, 0x30, 0x50, 0xf0, 0x0b, 0x1d, 0x27, 0x69, 0xbb, 0xd6, 0x61, 0xa3,
  0xfe, 0x19, 0x2b, 0x7d, 0x87, 0x92, 0xad, 0xec, 0x2f, 0x71, 0x93, 0xae, 0xe9, 0x20, 0x60, 0xa0,
  0xfb, 0x16, 0x3a, 0x4e, 0xd2, 0x6d, 0xb7, 0xc2, 0x5d, 0xe7, 0x32, 0x56, 0xfa, 0x15, 0x3f, 0x41,
  0xc3, 0x5e, 0xe2, 0x3d, 0x47, 0xc9, 0x40, 0xc0, 0x5b, 0xed, 0x2c, 0x74, 0x9c, 0xbf, 0xda, 0x75,
  0x9f, 0xba, 0xd5, 0x64, 0xac, 0xef, 0x2a, 0x7e, 0x82, 0x9d, 0xbc, 0xdf, 0x7a, 0x8e, 0x89, 0x80,
  0x9b, 0xb6, 0xc1, 0x58, 0xe8, 0x23, 0x65, 0xaf, 0xea, 0x25, 0x6f, 0xb1, 0xc8, 0x43, 0xc5, 0x54,
  0xfc, 0x1f, 0x21, 0x63, 0xa5, 0xf4, 0x07, 0x09, 0x1b, 0x2d, 0x77, 0x99, 0xb0, 0xcb, 0x46, 0xca,
  0x45, 0xcf, 0x4a, 0xde, 0x79, 0x8b, 0x86, 0x91, 0xa8, 0xe3, 0x3e, 0x42, 0xc6, 0x51, 0xf3, 0x0e,
  0x12, 0x36, 0x5a, 0xee, 0x29, 0x7b, 0x8d, 0x8c, 0x8f, 0x8a, 0x85, 0x94, 0xa7, 0xf2, 0x0d, 0x17,
  0x39, 0x4b, 0xdd, 0x7c, 0x84, 0x97, 0xa2, 0xfd, 0x1c, 0x24, 0x6c, 0xb4, 0xc7, 0x52, 0xf6, 0x01]

/-- A byte as an element of the field. -/
@[ext]
structure Gf256 where
  byte : UInt8
  deriving DecidableEq

namespace Gf256

/-- `Gf256::mul` -/
def mul (a b : UInt8) : UInt8 :=
  if a = 0 ∨ b = 0 then 0
  else
    let sum := (gf256Log.getD a.toNat 0).toNat + (gf256Log.getD b.toNat 0).toNat
    gf256Exp.getD (if 255 ≤ sum then sum - 255 else sum) 0

/-- `Gf256::inv`. Zero has itself as its inverse. -/
def inv (a : UInt8) : UInt8 :=
  if a = 0 then 0 else gf256Exp.getD (255 - (gf256Log.getD a.toNat 0).toNat) 0

/-! ### Addition -/

instance : Zero Gf256 := ⟨⟨0⟩⟩

instance : Add Gf256 := ⟨fun a b => ⟨a.byte ^^^ b.byte⟩⟩

instance : Neg Gf256 := ⟨id⟩

theorem mk_xor (a b : UInt8) : (⟨a ^^^ b⟩ : Gf256) = ⟨a⟩ + ⟨b⟩ := rfl

instance : AddCommGroup Gf256 where
  add_assoc a b c := Gf256.ext (UInt8.xor_assoc a.byte b.byte c.byte)
  zero_add a := Gf256.ext UInt8.zero_xor
  add_zero a := Gf256.ext UInt8.xor_zero
  add_comm a b := Gf256.ext (UInt8.xor_comm a.byte b.byte)
  neg_add_cancel a := Gf256.ext UInt8.xor_self
  nsmul := nsmulRec
  zsmul := zsmulRec

/-! ### The tables -/

/-- Multiplication by 3: the byte and its double, which is reduced by `0x1b` if the top bit is
lost. -/
def triple (a : UInt8) : UInt8 :=
  let top := a >>> 7
  a ^^^ a <<< 1 ^^^ (top ^^^ top <<< 1 ^^^ top <<< 3 ^^^ top <<< 4)

theorem triple_xor (a b : UInt8) : triple (a ^^^ b) = triple a ^^^ triple b := by
  simp only [triple, UInt8.shiftLeft_xor, UInt8.shiftRight_xor]
  ac_rfl

theorem length_gf256Log : gf256Log.length = 256 := by
  decide +kernel

theorem length_gf256Exp : gf256Exp.length = 256 := by
  decide +kernel

variable {l : List UInt8}

theorem getElem?_eq_getD {i : ℕ} (hi : i < l.length) : l[i]? = some (l.getD i 0) := by
  rw [List.getD_eq_getElem?_getD, List.getElem?_eq_getElem hi]
  rfl

theorem getD_mem_zip_tail {i : ℕ} (hi : i + 1 < l.length) :
    (l.getD i 0, l.getD (i + 1) 0) ∈ l.zip l.tail := by
  have hfirst := getElem?_eq_getD (Nat.lt_of_succ_lt hi)
  have hsecond := getElem?_eq_getD hi
  rw [← List.getElem?_tail] at hsecond
  exact List.mem_of_getElem? (List.getElem?_zip_eq_some.2 ⟨hfirst, hsecond⟩)

/-- What holds of every entry of a table and its index holds at every index. -/
theorem getD_of_forall_zipIdx {p : UInt8 → ℕ → Prop} (h : ∀ e ∈ l.zipIdx, p e.1 e.2) {i : ℕ}
    (hi : i < l.length) : p (l.getD i 0) i :=
  h (l.getD i 0, i) (List.mk_mem_zipIdx_iff_getElem?.2 (getElem?_eq_getD hi))

theorem log_exp (i : ℕ) (hi : i < 255) :
    (gf256Log.getD (gf256Exp.getD i 0).toNat 0).toNat = i := by
  have hall : ∀ e ∈ gf256Exp.zipIdx, e.2 < 255 → (gf256Log.getD e.1.toNat 0).toNat = e.2 := by
    decide +kernel
  have hlength : i < gf256Exp.length := by
    rw [length_gf256Exp]
    omega
  exact getD_of_forall_zipIdx (p := fun a i => i < 255 → (gf256Log.getD a.toNat 0).toNat = i) hall
    hlength hi

theorem exp_log (a : UInt8) (ha : a ≠ 0) :
    gf256Exp.getD (gf256Log.getD a.toNat 0).toNat 0 = a := by
  have hall : ∀ e ∈ gf256Log.zipIdx, e.2 ≠ 0 → (gf256Exp.getD e.1.toNat 0).toNat = e.2 := by
    decide +kernel
  have hlength : a.toNat < gf256Log.length := by
    rw [length_gf256Log]
    exact a.toNat_lt
  have hentry := getD_of_forall_zipIdx
    (p := fun a i => i ≠ 0 → (gf256Exp.getD a.toNat 0).toNat = i) hall hlength
  apply UInt8.toNat_inj.1
  exact hentry fun h => ha (UInt8.toNat_inj.1 h)

/-- Each power is three times the one before, and the last one is the first one again. -/
theorem triple_exp (i : ℕ) (hi : i < 255) :
    triple (gf256Exp.getD i 0) = gf256Exp.getD ((i + 1) % 255) 0 := by
  have hall : (gf256Exp.zip gf256Exp.tail).all (fun e => triple e.1 == e.2) = true := by
    decide +kernel
  have hpair := getD_mem_zip_tail (l := gf256Exp) (i := i) (by rw [length_gf256Exp]; omega)
  have htriple : triple (gf256Exp.getD i 0) = gf256Exp.getD (i + 1) 0 :=
    eq_of_beq (List.all_eq_true.1 hall _ hpair)
  rw [htriple]
  rcases Nat.lt_or_ge (i + 1) 255 with hlt | hge
  · rw [Nat.mod_eq_of_lt hlt]
  · obtain rfl : i = 254 := by omega
    decide

theorem exp_ne_zero (i : ℕ) (hi : i < 255) : gf256Exp.getD i 0 ≠ 0 := by
  intro h
  have hlog := log_exp i hi
  -- the entry of zero in the table of logarithms is 0, and the power 0 is 1
  have hentry : (gf256Log.getD (0 : UInt8).toNat 0).toNat = 0 := by decide +kernel
  rw [h, hentry] at hlog
  rw [← hlog] at h
  exact absurd h (by decide)

theorem log_lt (a : UInt8) (ha : a ≠ 0) : (gf256Log.getD a.toNat 0).toNat < 255 := by
  by_contra hge
  have htop : (gf256Log.getD a.toNat 0).toNat = 255 := by
    have hbyte := (gf256Log.getD a.toNat 0).toNat_lt
    omega
  -- the power 255 is 1, and 1 has the logarithm 0
  have hexp := exp_log a ha
  rw [htop] at hexp
  rw [← hexp] at htop
  exact absurd htop (by decide)

/-- The tables of the source. -/
def tables : LogTables Gf256 255 where
  exp i := ⟨gf256Exp.getD i 0⟩
  log a := (gf256Log.getD a.byte.toNat 0).toNat
  next := {
    toFun a := ⟨triple a.byte⟩
    map_zero' := rfl
    map_add' a b := Gf256.ext (triple_xor a.byte b.byte) }
  pos := by decide
  exp_ne_zero i hi h := exp_ne_zero i hi (congrArg byte h)
  log_lt a ha := log_lt a.byte fun h => ha (Gf256.ext h)
  exp_log a ha := Gf256.ext (exp_log a.byte fun h => ha (Gf256.ext h))
  log_exp := log_exp
  next_exp i hi := Gf256.ext (triple_exp i hi)

instance : Field Gf256 := tables.field

/-! ### Multiplication -/

theorem mk_eq_zero {a : UInt8} : (⟨a⟩ : Gf256) = 0 ↔ a = 0 :=
  ⟨congrArg byte, congrArg mk⟩

/-- `Gf256::mul` is the multiplication of the field. -/
theorem mk_mul (a b : UInt8) : (⟨mul a b⟩ : Gf256) = ⟨a⟩ * ⟨b⟩ := by
  change _ = tables.mul ⟨a⟩ ⟨b⟩
  by_cases h : a = 0 ∨ b = 0
  · rw [mul, if_pos h, LogTables.mul, if_pos (h.imp mk_eq_zero.2 mk_eq_zero.2)]
    rfl
  · obtain ⟨ha, hb⟩ := not_or.1 h
    have hloga := log_lt a ha
    have hlogb := log_lt b hb
    rw [mul, if_neg h, tables.mul_of_ne (mt mk_eq_zero.1 ha) (mt mk_eq_zero.1 hb)]
    -- the sum of two exponents exceeds 255 at most once
    have hsum : ∀ sum < 510, (if 255 ≤ sum then sum - 255 else sum) = sum % 255 := by
      intro sum hlt
      split_ifs with hge
      · rw [Nat.mod_eq_sub_mod hge, Nat.mod_eq_of_lt (by omega)]
      · rw [Nat.mod_eq_of_lt (by omega)]
    have hlogs := hsum ((gf256Log.getD a.toNat 0).toNat + (gf256Log.getD b.toNat 0).toNat)
      (by omega)
    exact congrArg (fun i => (⟨gf256Exp.getD i 0⟩ : Gf256)) hlogs

/-- `Gf256::inv` is the inversion of the field. -/
theorem mk_inv (a : UInt8) : (⟨inv a⟩ : Gf256) = (⟨a⟩ : Gf256)⁻¹ := by
  change _ = tables.inv ⟨a⟩
  by_cases ha : a = 0
  · rw [inv, if_pos ha, LogTables.inv, if_pos (mk_eq_zero.2 ha)]
    rfl
  · have hlog := log_lt a ha
    rw [inv, if_neg ha, LogTables.inv, if_neg (mt mk_eq_zero.1 ha)]
    dsimp only [tables]
    -- the table has the power 255 beside the power 0
    rcases Nat.eq_zero_or_pos (gf256Log.getD a.toNat 0).toNat with hzero | hpos
    · rw [hzero]
      rfl
    · rw [Nat.mod_eq_of_lt (by omega)]

end Gf256

end KyberPipe
