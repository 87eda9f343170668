import KyberPipe.Lib.Hex
import Mathlib.Data.Nat.Digits.Defs

/-!
# Text as bytes

A text is handled through its UTF-8 bytes. Numbers are written in decimal, and fields are joined
and split at a separator byte.
-/

namespace Text

/-- The UTF-8 bytes of a text. -/
def utf8 (s : String) : List UInt8 := s.toByteArray.data.toList

/-- Whether bytes are the UTF-8 bytes of a text. -/
def isUtf8 (bytes : List UInt8) : Bool := (String.fromUTF8? ⟨bytes.toArray⟩).isSome

@[simp]
theorem isUtf8_utf8 (s : String) : isUtf8 (utf8 s) = true := by
  have hbytes : (⟨(utf8 s).toArray⟩ : ByteArray) = s.toByteArray := by
    simp [utf8]
  rw [isUtf8, hbytes, String.fromUTF8?, dif_pos s.isValidUTF8]
  rfl

@[simp]
theorem utf8_append (s t : String) : utf8 (s ++ t) = utf8 s ++ utf8 t := by
  simp [utf8]

theorem utf8_ofList (l : List Char) :
    utf8 (String.ofList l) = l.flatMap String.utf8EncodeChar := by
  simp [utf8, List.utf8Encode]

variable {c : Char}

/-- An ASCII character is one byte of text. -/
theorem utf8EncodeChar_of_lt (h : c.toNat < 128) : String.utf8EncodeChar c = [c.toUInt8] := by
  have hval : c.val.toNat ≤ 127 := by
    have : c.val.toNat = c.toNat := rfl
    omega
  simp only [String.utf8EncodeChar, hval, if_true]
  rfl

/-- A text of ASCII characters has one byte for each of them. -/
theorem utf8_of_ascii {l : List Char} (h : ∀ c ∈ l, c.toNat < 128) :
    utf8 (String.ofList l) = l.map Char.toUInt8 := by
  rw [utf8_ofList]
  induction l with
  | nil => rfl
  | cons c l ih =>
    rw [List.forall_mem_cons] at h
    rw [List.flatMap_cons, utf8EncodeChar_of_lt h.1, ih h.2]
    rfl

/-! ### Numbers -/

/-- The number that decimal digits stand for, after the digits of `acc`. -/
def decimalValue (acc : ℕ) : List UInt8 → Option ℕ
  | [] => some acc
  | b :: rest =>
    if 48 ≤ b.toNat ∧ b.toNat ≤ 57 then decimalValue (10 * acc + (b.toNat - 48)) rest else none

/-- `str::parse` for an unsigned number below a bound: digits after an optional plus sign. -/
def parseUnsigned (bound : ℕ) (text : List UInt8) : Option ℕ :=
  let digits := if text.head? = some 43 then text.tail else text
  if digits = [] then none else (decimalValue 0 digits).filter (· < bound)

theorem toNat_toUInt8 (h : c.toNat < 128) : c.toUInt8.toNat = c.toNat := by
  have hval : c.val.toNat = c.toNat := rfl
  simp only [Char.toUInt8, UInt32.toNat_toUInt8, hval]
  omega

theorem toNat_of_isDigit (h : c.isDigit = true) : 48 ≤ c.toNat ∧ c.toNat ≤ 57 := by
  simp only [Char.isDigit, Bool.and_eq_true, decide_eq_true_eq] at h
  exact ⟨UInt32.le_iff_toNat_le.1 h.1, UInt32.le_iff_toNat_le.1 h.2⟩

theorem decimalValue_map {l : List Char} (h : ∀ c ∈ l, c.isDigit = true) (acc : ℕ) :
    decimalValue acc (l.map Char.toUInt8) = some (Nat.ofDigitChars 10 l acc) := by
  induction l generalizing acc with
  | nil => rfl
  | cons c l ih =>
    rw [List.forall_mem_cons] at h
    have hdigit := toNat_of_isDigit h.1
    have hbyte := toNat_toUInt8 (show c.toNat < 128 by omega)
    rw [List.map_cons, decimalValue, hbyte, if_pos hdigit, ih h.2]
    rfl

/-- The decimal text of a number as bytes. -/
theorem utf8_toString (n : ℕ) : utf8 (toString n) = (Nat.toDigits 10 n).map Char.toUInt8 := by
  rw [Nat.toString_eq_ofList_toDigits]
  refine utf8_of_ascii fun c hc => ?_
  have hdigit := toNat_of_isDigit (Nat.isDigit_of_mem_toDigits (by decide) (by decide) hc)
  omega

/-- The bytes of a decimal text are digits. -/
theorem digit_of_mem_utf8_toString {n : ℕ} {b : UInt8} (h : b ∈ utf8 (toString n)) :
    48 ≤ b.toNat ∧ b.toNat ≤ 57 := by
  rw [utf8_toString, List.mem_map] at h
  obtain ⟨c, hc, rfl⟩ := h
  have hdigit := toNat_of_isDigit (Nat.isDigit_of_mem_toDigits (by decide) (by decide) hc)
  rwa [toNat_toUInt8 (by omega)]

/-- A number is read back from its decimal text. -/
theorem parseUnsigned_toString {n bound : ℕ} (h : n < bound) :
    parseUnsigned bound (utf8 (toString n)) = some n := by
  have hdigits : ∀ c ∈ Nat.toDigits 10 n, c.isDigit = true :=
    fun c hc => Nat.isDigit_of_mem_toDigits (by decide) (by decide) hc
  have hsign : (utf8 (toString n)).head? ≠ some 43 := by
    intro hhead
    have hdigit := digit_of_mem_utf8_toString (List.mem_of_mem_head? hhead)
    exact absurd hdigit.1 (by decide)
  have hne : utf8 (toString n) ≠ [] := by
    rw [utf8_toString]
    exact fun h => Nat.toDigits_ne_nil (List.map_eq_nil_iff.1 h)
  simp only [parseUnsigned, if_neg hsign, if_neg hne]
  rw [utf8_toString, decimalValue_map hdigits, Nat.ofDigitChars_ten_toDigits]
  simp [h]

/-! ### Fields -/

variable {α : Type*} [DecidableEq α]

/-- `str::splitn`: split at a separator into at most `n` fields, the last of which is the rest. -/
def splitN (n : ℕ) (sep : α) (text : List α) : List (List α) :=
  let fields := text.splitOn sep
  if fields.length ≤ n then fields
  else fields.take (n - 1) ++ [[sep].intercalate (fields.drop (n - 1))]

variable {sep : α}

/-- Fields without the separator are read back from the joined text. -/
theorem splitN_intercalate {n : ℕ} {fields : List (List α)} (hsep : ∀ field ∈ fields, sep ∉ field)
    (hne : fields ≠ []) (hn : fields.length ≤ n) :
    splitN n sep ([sep].intercalate fields) = fields := by
  simp only [splitN, List.splitOn_intercalate sep hsep hne, if_pos hn]

/-- Splitting cuts at every separator. -/
theorem splitOn_spec (sep : α) (text : List α) :
    (∀ field ∈ text.splitOn sep, sep ∉ field) ∧
      (text.splitOn sep).length = text.count sep + 1 := by
  induction text with
  | nil => simp
  | cons a text ih =>
    obtain ⟨hfields, hlength⟩ := ih
    rw [List.splitOn_cons_eq_if_modifyHead]
    by_cases ha : a = sep
    · simp only [ha, beq_self_eq_true, if_true, List.count_cons_self, List.length_cons, hlength,
        List.forall_mem_cons]
      exact ⟨⟨List.not_mem_nil, hfields⟩, trivial⟩
    · have hbeq : (a == sep) = false := by simpa using ha
      simp only [hbeq, Bool.false_eq_true, if_false, List.length_modifyHead, hlength,
        List.count_cons_of_ne ha]
      refine ⟨?_, trivial⟩
      -- the byte joins the first field
      cases hsplit : text.splitOn sep with
      | nil => exact absurd hsplit (List.splitOn_ne_nil sep text)
      | cons first rest =>
        rw [hsplit, List.forall_mem_cons] at hfields
        rw [List.modifyHead_cons, List.forall_mem_cons]
        exact ⟨List.not_mem_cons_of_ne_of_not_mem (Ne.symm ha) hfields.1, hfields.2⟩

/-- A text with fewer separators has fewer fields. -/
theorem length_splitN_le (n : ℕ) (sep : α) (text : List α) :
    (splitN n sep text).length ≤ text.count sep + 1 := by
  have hlength := (splitOn_spec sep text).2
  simp only [splitN]
  split_ifs with hn
  · omega
  · simp only [List.length_append, List.length_take, List.length_singleton]
    omega

variable {text field : List α}

/-- No field is longer than the text. -/
theorem length_le_of_mem_splitOn (h : field ∈ text.splitOn sep) : field.length ≤ text.length := by
  induction text generalizing field with
  | nil => simp_all
  | cons a text ih =>
    rw [List.splitOn_cons_eq_if_modifyHead] at h
    rw [List.length_cons]
    split_ifs at h
    · rcases List.mem_cons.1 h with rfl | h
      · exact Nat.zero_le _
      · exact (ih h).trans (Nat.le_succ _)
    · cases hsplit : text.splitOn sep with
      | nil => exact absurd hsplit (List.splitOn_ne_nil sep text)
      | cons first rest =>
        rw [hsplit] at h ih
        rw [List.modifyHead_cons, List.mem_cons] at h
        rcases h with rfl | h
        · exact Nat.succ_le_succ (ih List.mem_cons_self)
        · exact (ih (List.mem_cons_of_mem first h)).trans (Nat.le_succ _)

/-- All fields but the last one are fields of the whole text. -/
theorem mem_splitOn_of_splitN {n i : ℕ} (h : (splitN n sep text)[i]? = some field)
    (hi : i + 1 < n) : field ∈ text.splitOn sep := by
  simp only [splitN] at h
  split_ifs at h with hn
  · exact List.mem_of_getElem? h
  · rw [List.getElem?_append_left (by rw [List.length_take]; omega)] at h
    exact List.mem_of_mem_take (List.mem_of_getElem? h)

/-- No field but the last one contains the separator. -/
theorem notMem_splitN {n i : ℕ} (h : (splitN n sep text)[i]? = some field) (hi : i + 1 < n) :
    sep ∉ field :=
  (splitOn_spec sep text).1 field (mem_splitOn_of_splitN h hi)

/-! ### Scanning -/

/-- `str::strip_prefix` -/
def stripPrefix (pre text : List α) : Option (List α) :=
  if pre.isPrefixOf text then some (text.drop pre.length) else none

theorem stripPrefix_eq_some {pre text rest : List α} :
    stripPrefix pre text = some rest ↔ text = pre ++ rest := by
  unfold stripPrefix
  constructor
  · intro h
    split_ifs at h with hpre
    obtain ⟨tail, rfl⟩ := List.isPrefixOf_iff_prefix.1 hpre
    rw [List.drop_left, Option.some_inj] at h
    rw [h]
  · rintro rfl
    rw [if_pos (List.isPrefixOf_iff_prefix.2 (List.prefix_append _ _)), List.drop_left]

/-- The part of a text before the first occurrence of a separator, or all of it. -/
def before (sep : List α) : List α → List α
  | [] => []
  | a :: text => if sep.isPrefixOf (a :: text) then [] else a :: before sep text

/-- A separator does not start at an element that it does not start with. -/
theorem before_cons_of_head_ne {sep text : List α} {a : α} (h : sep ≠ [])
    (ha : sep.head? ≠ some a) : before sep (a :: text) = a :: before sep text := by
  cases sep with
  | nil => exact absurd rfl h
  | cons b sep =>
    have hne : (b == a) = false := by simpa using ha
    rw [before, List.isPrefixOf_cons_cons, hne, Bool.false_and, if_neg Bool.false_ne_true]

theorem before_append_of_head_notMem {sep text text' : List α} (h : sep ≠ [])
    (hhead : ∀ a ∈ text, sep.head? ≠ some a) :
    before sep (text ++ text') = text ++ before sep text' := by
  induction text with
  | nil => rfl
  | cons a text ih =>
    rw [List.forall_mem_cons] at hhead
    rw [List.cons_append, before_cons_of_head_ne h hhead.1, ih hhead.2, List.cons_append]

/-- `str::trim_start_matches` for a pattern that is not empty. Every removal shortens the text, so
its length bounds their number. -/
def trimStartMatches (pre text : List α) : List α :=
  (fun rest => (stripPrefix pre rest).getD rest)^[text.length] text

/-- `str::rsplit_once`: the parts before and after the last occurrence of an element. -/
def rsplitOnce (sep : α) (text : List α) : Option (List α × List α) :=
  if sep ∈ text then
    let after := (text.reverse.takeWhile (· ≠ sep)).reverse
    some (text.take (text.length - after.length - 1), after)
  else none

/-! ### Characters -/

/-- `char::is_whitespace`: the Unicode property White_Space. -/
def isWhitespace (c : Char) : Bool :=
  let n := c.toNat
  (9 ≤ n ∧ n ≤ 13) ∨ n = 0x20 ∨ n = 0x85 ∨ n = 0xA0 ∨ n = 0x1680 ∨ (0x2000 ≤ n ∧ n ≤ 0x200A) ∨
    n = 0x2028 ∨ n = 0x2029 ∨ n = 0x202F ∨ n = 0x205F ∨ n = 0x3000

/-- `char::is_control`: the Unicode category Cc. -/
def isControl (c : Char) : Bool := c.toNat < 0x20 ∨ (0x7F ≤ c.toNat ∧ c.toNat < 0xA0)

/-- `str::trim` -/
def trim (text : List Char) : List Char :=
  ((text.dropWhile isWhitespace).reverse.dropWhile isWhitespace).reverse

/-- The tables behind `str::to_lowercase`: the lower case of each character, and whether a capital
sigma between two texts is a final one. On ASCII they are the ASCII lower case. -/
structure CaseMapping where
  lower : Char → List Char
  finalSigma : List Char → List Char → Bool
  lower_ascii : ∀ c : Char, c.toNat < 128 → lower c = [c.toLower]

namespace CaseMapping

variable (m : CaseMapping)

/-- The lower case of a text that stands behind `seen`. -/
def lowerFrom (seen : List Char) : List Char → List Char
  | [] => []
  | c :: text =>
    (if c = 'Σ' then [if m.finalSigma seen text then 'ς' else 'σ'] else m.lower c) ++
      lowerFrom (seen ++ [c]) text

/-- `str::to_lowercase` -/
def toLowercase (text : List Char) : List Char := m.lowerFrom [] text

theorem lowerFrom_append_of_ascii {ascii : List Char} (h : ∀ c ∈ ascii, c.toNat < 128)
    (seen text : List Char) :
    m.lowerFrom seen (ascii ++ text) =
      ascii.map Char.toLower ++ m.lowerFrom (seen ++ ascii) text := by
  induction ascii generalizing seen with
  | nil => simp
  | cons c ascii ih =>
    rw [List.forall_mem_cons] at h
    have hsigma : c ≠ 'Σ' := by
      rintro rfl
      exact absurd h.1 (by decide)
    rw [List.cons_append, lowerFrom, if_neg hsigma, m.lower_ascii c h.1, ih h.2]
    simp

theorem toLowercase_append_of_ascii {ascii : List Char} (h : ∀ c ∈ ascii, c.toNat < 128)
    (text : List Char) :
    m.toLowercase (ascii ++ text) = ascii.map Char.toLower ++ m.lowerFrom ascii text :=
  m.lowerFrom_append_of_ascii h [] text

end CaseMapping

end Text
