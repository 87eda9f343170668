import KyberPipe.Lib.Cursor
import KyberPipe.Ratchet.Tlv

/-!
# Decoding ratchet messages in place

`from_binary` of `tlv.rs` as it walks over its input: a cursor in a machine word, and ranges of the
slice. It has no fault on any slice and computes what the decoder on lists computes. What either
accepts is an encoding with bytes behind it, so no proper prefix of an encoding is accepted.
-/

namespace KyberPipe

open Cursor

/-- Take the next `n` bytes behind the cursor. -/
def takeAt (data : Bytes) (n : ℕ) (what : String) (cursor : ℕ) :
    Checked KyberError (Bytes × ℕ) := do
  let stop ← Cursor.add cursor n
  if data.length < stop then throw (.refused (tlvTruncated what))
  return (← Cursor.range data cursor stop, stop)

/-- Read the next field behind the cursor: its length and then its bytes. -/
def readBytesAt (data : Bytes) (what : String) (cursor : ℕ) :
    Checked KyberError (Bytes × ℕ) := do
  let (length, cursor) ← takeAt data 4 what cursor
  let length ← Cursor.exactly 4 length
  takeAt data (ofBeBytes length) what cursor

/-- Decode a message in place. -/
def WireMessage.fromBinaryAt (data : Bytes) : Checked KyberError WireMessage := do
  let (version, cursor) ← takeAt data 1 "version" 0
  let version ← Cursor.index version 0
  if version ≠ 1 then
    throw (.refused (.serializationError s!"Unsupported ratchet TLV version {version.toNat}"))
  let (hasRekey, cursor) ← takeAt data 1 "has_rekey" cursor
  let hasRekey ← Cursor.index hasRekey 0
  let (nonce, cursor) ← readBytesAt data "nonce" cursor
  let (ciphertext, cursor) ← readBytesAt data "ciphertext" cursor
  if hasRekey ≠ 0 then
    let (xpk, cursor) ← readBytesAt data "rekey_x" cursor
    let (mpk, cursor) ← readBytesAt data "rekey_m" cursor
    let (ct, _) ← readBytesAt data "rekey_ct" cursor
    if xpk.isEmpty || mpk.isEmpty || ct.isEmpty then
      throw (.refused (.serializationError "Ratchet TLV rekey payload contains empty field(s)"))
    return ⟨nonce, ciphertext, some xpk, some mpk, some ct⟩
  else return ⟨nonce, ciphertext, none, none, none⟩

/-! ## No faults -/

section Faults

variable (data : Slice UInt8)

theorem takeAt_reads {n : ℕ} (hn : n < 2 ^ 32) (what : String) :
    Reads data.toList 0 (fun bytes => bytes.length = n) 0 (takeAt data.toList n what)
      (takeBytes n what) := by
  intro cursor hcursor
  have hlength := data.length_lt
  have hadd : (Cursor.add cursor n : Checked KyberError ℕ) = .ok (cursor + n) :=
    add_of_lt (by omega)
  by_cases hshort : data.toList.length < cursor + n
  · refine ⟨.error (tlvTruncated what), ?_, ?_⟩
    · simp [takeAt, hadd, hshort, Bind.bind, Except.bind]
      rfl
    · rw [takeBytes, if_pos (by rw [List.length_drop]; omega)]
      rfl
  · have hrange : (Cursor.range data.toList cursor (cursor + n) : Checked KyberError Bytes) =
        .ok ((data.toList.drop cursor).take n) := range_add (by omega)
    have hbytes : ((data.toList.drop cursor).take n).length = n := by
      rw [List.length_take, List.length_drop]
      omega
    refine ⟨.ok ⟨(_, cursor + n), hbytes, by omega⟩, ?_, ?_⟩
    · simp [takeAt, hadd, hshort, hrange, Bind.bind, Except.bind]
      rfl
    · rw [takeBytes, if_neg (by rw [List.length_drop]; omega), List.drop_drop]
      rfl

/-- Reading a field has no fault: four bytes of length ask for less than 4 GiB. -/
theorem readBytesAt_reads (what : String) :
    Reads data.toList 0 (fun _ => True) 0 (readBytesAt data.toList what) (readBytes what) := by
  unfold readBytesAt readBytes
  refine (takeAt_reads data (by decide : 4 < 2 ^ 32) what).bind fun length hlength => ?_
  have hfield : ofBeBytes length < 2 ^ 32 := by
    have hlt := ofBeBytes_lt length
    rw [hlength] at hlt
    exact hlt
  intro cursor hcursor
  obtain ⟨r, hp, hq⟩ := takeAt_reads data hfield what cursor hcursor
  refine ⟨(fun x => ⟨x.1, trivial, x.2.2⟩) <$> r, ?_, ?_⟩
  · show (exactly 4 length >>= fun length => takeAt data.toList (ofBeBytes length) what cursor) = _
    rw [exactly_of_length hlength, ok_bind, hp, ← comp_map]
    rfl
  · show takeBytes (ofBeBytes length) what (data.toList.drop cursor) = _
    rw [hq, ← comp_map]
    rfl

/-- The decoder in place has no fault, and computes what the decoder on lists computes. -/
theorem WireMessage.fromBinaryAt_eq :
    fromBinaryAt data.toList = liftM (fromBinary data.toList) := by
  unfold fromBinaryAt fromBinary
  refine (takeAt_reads data (by decide : 1 < 2 ^ 32) "version").ends_bind
    (fun version hversion => ?_) 0 (Nat.zero_le _)
  obtain ⟨version, rfl⟩ := List.length_eq_one_iff.1 hversion
  refine Ends.ite (c := version ≠ 1) (fun _ cursor _ => rfl) fun _ => ?_
  refine (takeAt_reads data (by decide : 1 < 2 ^ 32) "has_rekey").ends_bind fun hasRekey hflag => ?_
  obtain ⟨flag, rfl⟩ := List.length_eq_one_iff.1 hflag
  refine (readBytesAt_reads data "nonce").ends_bind fun nonce _ => ?_
  refine (readBytesAt_reads data "ciphertext").ends_bind fun ciphertext _ => ?_
  refine Ends.ite (c := flag ≠ 0) (fun _ => ?_) fun _ cursor _ => rfl
  refine (readBytesAt_reads data "rekey_x").ends_bind fun xpk _ => ?_
  refine (readBytesAt_reads data "rekey_m").ends_bind fun mpk _ => ?_
  refine (readBytesAt_reads data "rekey_ct").ends_bind fun ct _ => ?_
  exact Ends.ite (c := (xpk.isEmpty || mpk.isEmpty || ct.isEmpty) = true) (fun _ cursor _ => rfl)
    fun _ cursor _ => rfl

end Faults

/-! ## Accepted inputs -/

/-- Bytes that were taken off are the front of the input. -/
theorem takeBytes_ok {n : ℕ} {what : String} {data bytes rest : Bytes}
    (h : takeBytes n what data = .ok (bytes, rest)) : bytes.length = n ∧ data = bytes ++ rest := by
  unfold takeBytes at h
  split_ifs at h with hshort
  obtain ⟨rfl, rfl⟩ := Prod.mk.inj (Except.ok.inj h)
  exact ⟨List.length_take_of_le (Nat.le_of_not_lt hshort), (List.take_append_drop n data).symm⟩

/-- A field that was read stands behind its length at the front of the input. -/
theorem readBytes_ok {what : String} {data bytes rest : Bytes}
    (h : readBytes what data = .ok (bytes, rest)) :
    bytes.length < 2 ^ 32 ∧ data = lengthPrefixed bytes ++ rest := by
  obtain ⟨⟨length, behind⟩, hlength, hbytes⟩ := Except.exists_of_bind_eq_ok h
  obtain ⟨hfour, rfl⟩ := takeBytes_ok hlength
  obtain ⟨hcount, rfl⟩ := takeBytes_ok hbytes
  have hlt := ofBeBytes_lt length
  have hback := beBytes_ofBeBytes length
  rw [hfour] at hlt hback
  rw [hcount, lengthPrefixed, hcount, hback, List.append_assoc]
  exact ⟨hlt, rfl⟩

namespace WireMessage

variable {m : WireMessage}

/-- What the decoder accepts is the encoding of the message it returns, with bytes behind it. Only
the flag may differ: the decoder takes every flag but zero for the announcement of a payload. -/
theorem fromBinary_ok {data : Bytes} (h : fromBinary data = .ok m) :
    m.Framable ∧ ∃ flag flag' fields trailing, m.toBinary = .ok (1 :: flag :: fields) ∧
      data = 1 :: flag' :: fields ++ trailing ∧ (flag' = flag ∨ flag' ≠ 0 ∧ flag = 1) := by
  unfold fromBinary at h
  obtain ⟨⟨version, rest₀⟩, hversion, hrest₀⟩ := Except.exists_of_bind_eq_ok h
  obtain ⟨hsingle, rfl⟩ := takeBytes_ok hversion
  obtain ⟨version, rfl⟩ := List.length_eq_one_iff.1 hsingle
  obtain ⟨_, ⟨⟩⟩ | ⟨hone, hrest₀⟩ := ite_eq_iff.1 hrest₀
  obtain rfl : version = 1 := not_not.1 hone
  obtain ⟨⟨hasRekey, rest₁⟩, hflag, hrest₁⟩ := Except.exists_of_bind_eq_ok hrest₀
  obtain ⟨hsingle, rfl⟩ := takeBytes_ok hflag
  obtain ⟨flag, rfl⟩ := List.length_eq_one_iff.1 hsingle
  obtain ⟨⟨nonce, rest₂⟩, hnonce, hrest₂⟩ := Except.exists_of_bind_eq_ok hrest₁
  obtain ⟨hnonceLen, rfl⟩ := readBytes_ok hnonce
  obtain ⟨⟨ciphertext, rest₃⟩, hciphertext, hrest₃⟩ := Except.exists_of_bind_eq_ok hrest₂
  obtain ⟨hciphertextLen, rfl⟩ := readBytes_ok hciphertext
  obtain ⟨hrekey, hrest₃⟩ | ⟨hrekey, hrest₃⟩ := ite_eq_iff.1 hrest₃
  · obtain ⟨⟨xpk, rest₄⟩, hxpk, hrest₄⟩ := Except.exists_of_bind_eq_ok hrest₃
    obtain ⟨hxpkLen, rfl⟩ := readBytes_ok hxpk
    obtain ⟨⟨mpk, rest₅⟩, hmpk, hrest₅⟩ := Except.exists_of_bind_eq_ok hrest₄
    obtain ⟨hmpkLen, rfl⟩ := readBytes_ok hmpk
    obtain ⟨⟨ct, trailing⟩, hct, hmsg⟩ := Except.exists_of_bind_eq_ok hrest₅
    obtain ⟨hctLen, rfl⟩ := readBytes_ok hct
    obtain ⟨_, ⟨⟩⟩ | ⟨hempty, hmsg⟩ := ite_eq_iff.1 hmsg
    obtain rfl := Except.ok.inj hmsg
    simp only [Bool.or_eq_true, List.isEmpty_iff, not_or] at hempty
    refine ⟨⟨hnonceLen, hciphertextLen, ?_, ?_, ?_⟩, 1, flag,
      lengthPrefixed nonce ++ lengthPrefixed ciphertext ++
        (lengthPrefixed xpk ++ lengthPrefixed mpk ++ lengthPrefixed ct), trailing, rfl, by simp,
      .inr ⟨hrekey, rfl⟩⟩
    · rintro _ ⟨⟩
      exact ⟨hempty.1.1, hxpkLen⟩
    · rintro _ ⟨⟩
      exact ⟨hempty.1.2, hmpkLen⟩
    · rintro _ ⟨⟩
      exact ⟨hempty.2, hctLen⟩
  · obtain rfl := Except.ok.inj hrest₃
    exact ⟨⟨hnonceLen, hciphertextLen, by rintro _ ⟨⟩, by rintro _ ⟨⟩, by rintro _ ⟨⟩⟩, 0, flag,
      lengthPrefixed nonce ++ lengthPrefixed ciphertext, rest₃, rfl, by simp,
      .inl (not_not.1 hrekey)⟩

/-- The rekey fields are all absent or all present. -/
def AllOrNothing (m : WireMessage) : Prop :=
  m.rekeyX25519Pk.isSome = m.rekeyMlkemPk.isSome ∧
    m.rekeyMlkemPk.isSome = m.rekeyCiphertext.isSome

instance (m : WireMessage) : Decidable m.AllOrNothing :=
  inferInstanceAs (Decidable (_ ∧ _))

theorem AllOrNothing.toBinary (h : m.AllOrNothing) : ∃ bytes, m.toBinary = .ok bytes := by
  obtain ⟨nonce, ciphertext, xpk, mpk, ct⟩ := m
  obtain ⟨hxpk, hmpk⟩ := h
  unfold WireMessage.toBinary
  dsimp only at hxpk hmpk ⊢
  split
  · exact ⟨_, rfl⟩
  · exact ⟨_, rfl⟩
  · rename_i hwhole habsent
    cases xpk with
    | none =>
      have hmnone : mpk = none := by simpa using hxpk.symm
      have hcnone : ct = none := by simpa [hmnone] using hmpk.symm
      exact absurd hcnone (habsent rfl hmnone)
    | some x =>
      obtain ⟨m, rfl⟩ := Option.isSome_iff_exists.1 hxpk.symm
      obtain ⟨c, rfl⟩ := Option.isSome_iff_exists.1 hmpk.symm
      exact absurd rfl (hwhole x m c rfl rfl)

theorem Framable.length_toBinary_lt (h : m.Framable) {bytes : Bytes}
    (hbytes : m.toBinary = .ok bytes) : bytes.length < 2 ^ 63 := by
  obtain ⟨nonce, ciphertext, xpk, mpk, ct⟩ := m
  have hnonce := h.nonce
  have hciphertext := h.ciphertext
  unfold WireMessage.toBinary at hbytes
  dsimp only at hbytes hnonce hciphertext
  split at hbytes
  · rename_i xpk mpk ct
    have hxpk := (h.rekeyX25519Pk xpk rfl).2
    have hmpk := (h.rekeyMlkemPk mpk rfl).2
    have hct := (h.rekeyCiphertext ct rfl).2
    obtain rfl := Except.ok.inj hbytes
    simp only [lengthPrefixed, List.length_append, List.length_cons, length_beBytes]
    omega
  · obtain rfl := Except.ok.inj hbytes
    simp only [lengthPrefixed, List.length_append, List.length_cons, length_beBytes]
    omega
  · cases hbytes

theorem flag_toBinary {version flag : UInt8} {fields : Bytes}
    (h : m.toBinary = .ok (version :: flag :: fields)) : flag = 0 ∨ flag = 1 := by
  unfold WireMessage.toBinary at h
  split at h
  · exact .inr (List.cons.inj (List.cons.inj (Except.ok.inj h)).2).1.symm
  · exact .inl (List.cons.inj (List.cons.inj (Except.ok.inj h)).2).1.symm
  · cases h

/-- What is accepted of the front of an encoding is all of it. -/
theorem eq_of_isPrefix_toBinary {m m' : WireMessage} (h : m.Framable) {bytes front : Bytes}
    (hbytes : m.toBinary = .ok bytes) (hfront : front <+: bytes)
    (haccept : fromBinary front = .ok m') : front = bytes := by
  obtain ⟨trailing', rfl⟩ := hfront
  obtain ⟨hframable, flag, flag', fields, trailing, hencode, rfl, hflag⟩ := fromBinary_ok haccept
  obtain rfl : flag' = flag := by
    rcases hflag with hsame | ⟨hnonzero, rfl⟩
    · exact hsame
    · exact (flag_toBinary hbytes).resolve_left hnonzero
  -- both messages are what the whole encoding decodes to
  have hm := fromBinary_toBinary_append h hbytes []
  have hm' := fromBinary_toBinary_append hframable hencode (trailing ++ trailing')
  rw [List.append_nil, List.append_assoc, hm'] at hm
  obtain rfl := Except.ok.inj hm
  have hsame := Except.ok.inj (hencode.symm.trans hbytes)
  rw [List.append_assoc, List.self_eq_append_right] at hsame
  rw [List.append_assoc, hsame, (List.append_eq_nil_iff.1 hsame).1]

end WireMessage

open WireMessage in
/-- A message with fields of less than 4 GiB, its rekey fields all absent or all present and not
empty, is decoded from its encoding, and no proper prefix of that is accepted. The decoder has no
fault on any slice. -/
theorem ratchet_tlv_codec {m : WireMessage} (hwhole : m.AllOrNothing) (hfits : m.Framable) :
    (∃ bytes, m.toBinary = .ok bytes ∧ fromBinaryAt bytes = .ok m ∧
        ∀ front, front <+: bytes → front ≠ bytes → ∃ e, fromBinaryAt front = .error (.refused e)) ∧
      ∀ (data : Slice UInt8) (f : Fault), fromBinaryAt data.toList ≠ .error (.fault f) := by
  refine ⟨?_, ?_⟩
  · obtain ⟨bytes, hbytes⟩ := hwhole.toBinary
    have hlength := hfits.length_toBinary_lt hbytes
    have hround := fromBinary_toBinary_append hfits hbytes []
    rw [List.append_nil] at hround
    refine ⟨bytes, hbytes, ?_, ?_⟩
    · rw [fromBinaryAt_eq ⟨bytes, hlength⟩, hround]
      rfl
    · intro front hfront hne
      have hshort : front.length < 2 ^ 63 := hfront.length_le.trans_lt hlength
      rw [fromBinaryAt_eq ⟨front, hshort⟩]
      cases haccept : fromBinary front with
      | ok m' => exact absurd (eq_of_isPrefix_toBinary hfits hbytes hfront haccept) hne
      | error e => exact ⟨e, rfl⟩
  · intro data f hfault
    rw [fromBinaryAt_eq data] at hfault
    cases hresult : fromBinary data.toList with
    | ok m' =>
      rw [hresult] at hfault
      cases hfault
    | error e =>
      rw [hresult] at hfault
      cases hfault

/-- A message with a payload of one byte in each field. -/
theorem ratchet_tlv_codec_payload :
    (∃ bytes, (⟨[1], [2, 3], some [4], some [5], some [6]⟩ : WireMessage).toBinary = .ok bytes ∧
        WireMessage.fromBinaryAt bytes = .ok ⟨[1], [2, 3], some [4], some [5], some [6]⟩ ∧
        ∀ front, front <+: bytes → front ≠ bytes →
          ∃ e, WireMessage.fromBinaryAt front = .error (.refused e)) ∧
      ∀ (data : Slice UInt8) (f : Fault),
        WireMessage.fromBinaryAt data.toList ≠ .error (.fault f) := by
  refine ratchet_tlv_codec ⟨rfl, rfl⟩ ⟨by decide, by decide, ?_, ?_, ?_⟩
  · rintro _ ⟨⟩
    decide
  · rintro _ ⟨⟩
    decide
  · rintro _ ⟨⟩
    decide

namespace WireMessage

/-- The decoder reads no more of the flag than whether it is zero. -/
theorem fromBinary_flag {flag flag' : UInt8} (h : flag' = 0 ↔ flag = 0) (rest : Bytes) :
    fromBinary (1 :: flag' :: rest) = fromBinary (1 :: flag :: rest) := by
  simp [fromBinary, takeBytes_one, h, Bind.bind, Except.bind]

end WireMessage

open WireMessage in
/-- The decoder accepts an input as a message just if it starts with the encoding of the message,
whose fields then fit their lengths and whose payload is complete or absent. It ignores what follows
and which nonzero flag it is. -/
theorem ratchet_tlv_accepts_iff (data : Slice UInt8) (m : WireMessage) :
    fromBinaryAt data.toList = .ok m ↔
      m.Framable ∧ ∃ flag flag' fields trailing, m.toBinary = .ok (1 :: flag :: fields) ∧
        data.toList = 1 :: flag' :: fields ++ trailing ∧ (flag' = 0 ↔ flag = 0) := by
  have hlift : fromBinaryAt data.toList = .ok m ↔ fromBinary data.toList = .ok m := by
    rw [fromBinaryAt_eq data]
    cases fromBinary data.toList with
    | ok m' => exact ⟨fun h => congrArg _ (Except.ok.inj h), fun h => congrArg _ (Except.ok.inj h)⟩
    | error e => exact ⟨nofun, nofun⟩
  rw [hlift]
  constructor
  · intro h
    obtain ⟨hfits, flag, flag', fields, trailing, hbytes, hdata, hflag⟩ := fromBinary_ok h
    refine ⟨hfits, flag, flag', fields, trailing, hbytes, hdata, ?_⟩
    rcases hflag with rfl | ⟨hne, rfl⟩
    · rfl
    · simp [hne]
  · rintro ⟨hfits, flag, flag', fields, trailing, hbytes, hdata, hflag⟩
    rw [hdata, List.cons_append, List.cons_append, fromBinary_flag hflag]
    exact fromBinary_toBinary_append hfits hbytes trailing

end KyberPipe
