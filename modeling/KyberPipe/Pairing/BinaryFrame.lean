import KyberPipe.Lib.Cursor
import KyberPipe.Lib.Text
import KyberPipe.Pairing.Wire
import KyberPipe.Ratchet.Tlv

/-!
# The binary pairing frame

`decode_binary_pairing_frame` of `pairing_wire.rs` as it walks over its input. Every field stands
behind its length as a big-endian `u32`. The first three fields also need room for the length of
the next one, the nonce and the SAS may be missing.
-/

namespace KyberPipe

open Cursor Text

/-- Read the field behind the cursor: its length and then its bytes, after which `trailer` more
bytes have to follow. The caller has made sure that there is room for the length. -/
def fieldAt (payload : Bytes) (trailer cursor : ℕ) : Checked Unit (Bytes × ℕ) := do
  let start ← Cursor.add cursor 4
  let length ← Cursor.range payload cursor start
  -- the conversion into an array of four bytes refuses, it does not fault
  if length.length ≠ 4 then throw (.refused ())
  let stop ← Cursor.add start (ofBeBytes length)
  let needed ← Cursor.add stop trailer
  if payload.length < needed then throw (.refused ())
  return (← Cursor.range payload start stop, stop)

/-- Read a text field. -/
def textAt (payload : Bytes) (cursor : ℕ) : Checked Unit (String × ℕ) := do
  let (bytes, cursor) ← fieldAt payload 0 cursor
  let text ← fromUtf8 bytes
  return (text, cursor)

/-- Read a text field if there is room for its length. -/
def optionalTextAt (payload : Bytes) (cursor : ℕ) : Checked Unit (String × ℕ) := do
  if (← Cursor.add cursor 4) ≤ payload.length then textAt payload cursor
  else return ("", cursor)

/-- Decode a binary pairing frame in place. -/
def decodeBinaryPairingFrameAt (payload : Bytes) : Checked Unit PairingFields := do
  if payload.length < 4 then throw (.refused ())
  let (ct, cursor) ← fieldAt payload 4 0
  let (pk, cursor) ← fieldAt payload 4 cursor
  let (x25519Pk, cursor) ← fieldAt payload 4 cursor
  let (cert, cursor) ← fieldAt payload 0 cursor
  let certHash ← fromUtf8 cert
  let (nonceHex, cursor) ← optionalTextAt payload cursor
  let (sasHex, _) ← optionalTextAt payload cursor
  return ⟨ct, pk, x25519Pk, certHash, nonceHex, sasHex⟩

/-! ## No faults -/

section Faults

variable (payload : Slice UInt8)

/-- With room for a length, reading a field has no fault. -/
theorem fieldAt_reads {trailer : ℕ} (htrailer : trailer < 2 ^ 32) :
    Reads payload.toList 4 (fun _ => True) trailer (fieldAt payload.toList trailer)
      (takeField · trailer) := by
  intro cursor hcursor
  have hmemory := payload.length_lt
  set length := (payload.toList.drop cursor).take 4 with hlengthDef
  have hfour : length.length = 4 := by
    rw [hlengthDef, List.length_take, List.length_drop]
    omega
  have hlt : ofBeBytes length < 2 ^ 32 := by
    have h := ofBeBytes_lt length
    rw [hfour] at h
    exact h
  have hstart : (Cursor.add cursor 4 : Checked Unit ℕ) = .ok (cursor + 4) := add_of_lt (by omega)
  have hrange : (Cursor.range payload.toList cursor (cursor + 4) : Checked Unit Bytes) =
      .ok length := range_add hcursor
  have hstop : (Cursor.add (cursor + 4) (ofBeBytes length) : Checked Unit ℕ) =
      .ok (cursor + 4 + ofBeBytes length) := add_of_lt (by omega)
  have hneeded : (Cursor.add (cursor + 4 + ofBeBytes length) trailer : Checked Unit ℕ) =
      .ok (cursor + 4 + ofBeBytes length + trailer) := add_of_lt (by omega)
  have hfield : fieldAt payload.toList trailer cursor =
      if payload.toList.length < cursor + 4 + ofBeBytes length + trailer then .error (.refused ())
      else (Cursor.range payload.toList (cursor + 4) (cursor + 4 + ofBeBytes length) >>=
        fun bytes => pure (bytes, cursor + 4 + ofBeBytes length)) := by
    simp [fieldAt, hstart, hrange, hfour, hstop, hneeded]
    rfl
  have hroom : (payload.toList.drop cursor).length = payload.toList.length - cursor :=
    List.length_drop
  have htake : takeField (payload.toList.drop cursor) trailer =
      if payload.toList.length < cursor + 4 + ofBeBytes length + trailer then none
      else some ((payload.toList.drop (cursor + 4)).take (ofBeBytes length),
        payload.toList.drop (cursor + 4 + ofBeBytes length)) := by
    rw [takeField, if_neg (by omega)]
    simp only [List.drop_drop, List.length_drop, ← hlengthDef]
    congr 1
    exact propext (by omega)
  by_cases hshort : payload.toList.length < cursor + 4 + ofBeBytes length + trailer
  · refine ⟨none, ?_, ?_⟩
    · rw [hfield, if_pos hshort]
      rfl
    · dsimp only
      rw [htake, if_pos hshort]
      rfl
  · have hbytes : (Cursor.range payload.toList (cursor + 4) (cursor + 4 + ofBeBytes length) :
        Checked Unit Bytes) = .ok ((payload.toList.drop (cursor + 4)).take (ofBeBytes length)) :=
      range_add (by omega)
    refine ⟨some ⟨((payload.toList.drop (cursor + 4)).take (ofBeBytes length),
      cursor + 4 + ofBeBytes length), trivial, by omega⟩, ?_, ?_⟩
    · rw [hfield, if_neg hshort, hbytes]
      rfl
    · dsimp only
      rw [htake, if_neg hshort]
      rfl

/-- With room for a length, reading a text has no fault. -/
theorem textAt_reads :
    Reads payload.toList 4 (fun _ => True) 0 (textAt payload.toList)
      (fun rest => takeField rest 0 >>= fun field =>
        fromUtf8 field.1 >>= fun text => some (text, field.2)) := by
  refine (fieldAt_reads payload (by decide : 0 < 2 ^ 32)).bind fun bytes _ => ?_
  exact Reads.lift (fromUtf8 bytes) fun _ => trivial

/-- Reading a text that may be missing has no fault. -/
theorem optionalTextAt_reads :
    Reads payload.toList 0 (fun _ => True) 0 (optionalTextAt payload.toList)
      takeOptionalText := by
  intro cursor hcursor
  have hmemory := payload.length_lt
  have hstart : (Cursor.add cursor 4 : Checked Unit ℕ) = .ok (cursor + 4) := add_of_lt (by omega)
  have hroom : (payload.toList.drop cursor).length = payload.toList.length - cursor :=
    List.length_drop
  by_cases hpresent : cursor + 4 ≤ payload.toList.length
  · obtain ⟨r, hp, hq⟩ := textAt_reads payload cursor hpresent
    refine ⟨r, ?_, ?_⟩
    · rw [← hp]
      simp [optionalTextAt, hstart, hpresent]
    · rw [← hq, takeOptionalText, if_neg (by omega)]
  · refine ⟨some ⟨("", cursor), trivial, by omega⟩, ?_, ?_⟩
    · simp [optionalTextAt, hstart, hpresent]
      rfl
    · rw [takeOptionalText, if_pos (by omega)]
      rfl

/-- The decoder in place has no fault, and computes what the decoder on lists computes. -/
theorem decodeBinaryPairingFrameAt_eq :
    decodeBinaryPairingFrameAt payload.toList =
      liftM (decodeBinaryPairingFrame payload.toList) := by
  by_cases hshort : payload.toList.length < 4
  · simp [decodeBinaryPairingFrameAt, decodeBinaryPairingFrame, takeField, hshort]
    rfl
  · unfold decodeBinaryPairingFrameAt decodeBinaryPairingFrame
    rw [if_neg hshort]
    refine (fieldAt_reads payload (by decide : 4 < 2 ^ 32)).ends_bind (fun ct _ => ?_) 0 (by omega)
    refine (fieldAt_reads payload (by decide : 4 < 2 ^ 32)).ends_bind fun pk _ => ?_
    refine (fieldAt_reads payload (by decide : 4 < 2 ^ 32)).ends_bind fun x25519Pk _ => ?_
    refine (fieldAt_reads payload (by decide : 0 < 2 ^ 32)).ends_bind fun cert _ => ?_
    refine Ends.lift_bind (fromUtf8 cert) fun certHash => ?_
    refine (optionalTextAt_reads payload).ends_bind fun nonceHex _ => ?_
    exact (optionalTextAt_reads payload).ends_bind fun sasHex _ cursor _ => rfl

end Faults

/-! ## Round trip -/

/-- Fields behind their lengths, one after the other. -/
def framed (fields : List Bytes) : Bytes := fields.flatMap lengthPrefixed

theorem framed_cons (field : Bytes) (fields : List Bytes) :
    framed (field :: fields) = lengthPrefixed field ++ framed fields :=
  List.flatMap_cons

/-- A field whose length fits into 32 bits is read back, if enough follows it. -/
theorem takeField_lengthPrefixed {bytes : Bytes} (h : bytes.length < 2 ^ 32) {trailer : ℕ}
    {rest : Bytes} (hrest : trailer ≤ rest.length) :
    takeField (lengthPrefixed bytes ++ rest) trailer = some (bytes, rest) := by
  have hlength : (lengthPrefixed bytes ++ rest).length = 4 + bytes.length + rest.length := by
    simp [lengthPrefixed, Nat.add_assoc]
  have htake : (lengthPrefixed bytes ++ rest).take 4 = beBytes 4 bytes.length := by
    rw [lengthPrefixed, List.append_assoc]
    exact List.take_left' (length_beBytes 4 _)
  have hdrop : (lengthPrefixed bytes ++ rest).drop 4 = bytes ++ rest := by
    rw [lengthPrefixed, List.append_assoc]
    exact List.drop_left' (length_beBytes 4 _)
  have hvalue : ofBeBytes (beBytes 4 bytes.length) = bytes.length := by
    rw [ofBeBytes_beBytes]
    exact Nat.mod_eq_of_lt h
  rw [takeField, if_neg (by omega), htake, hdrop, hvalue]
  simp [hrest]

theorem fromUtf8_utf8 (text : String) : fromUtf8 (utf8 text) = some text := by
  have hbytes : (⟨(utf8 text).toArray⟩ : ByteArray) = text.toByteArray := by
    simp [utf8]
  rw [fromUtf8, hbytes, String.fromUTF8?, dif_pos text.isValidUTF8]
  rfl

theorem takeOptionalText_lengthPrefixed {text : String} (h : (utf8 text).length < 2 ^ 32)
    (rest : Bytes) :
    takeOptionalText (lengthPrefixed (utf8 text) ++ rest) = some (text, rest) := by
  have hlength : ¬(lengthPrefixed (utf8 text) ++ rest).length < 4 := by
    simp [lengthPrefixed]
  rw [takeOptionalText, if_neg hlength, takeField_lengthPrefixed h (Nat.zero_le _)]
  simp [fromUtf8_utf8]

/-- The mandatory fields of a frame are read back, and the rest is left to the optional ones. -/
theorem decodeBinaryPairingFrame_framed {ct pk x25519Pk : Bytes} {certHash : String}
    (hct : ct.length < 2 ^ 32) (hpk : pk.length < 2 ^ 32) (hx25519 : x25519Pk.length < 2 ^ 32)
    (hcert : (utf8 certHash).length < 2 ^ 32) (tail : Bytes) :
    decodeBinaryPairingFrame (framed [ct, pk, x25519Pk, utf8 certHash] ++ tail) = (do
      let (nonceHex, tail) ← takeOptionalText tail
      let (sasHex, _) ← takeOptionalText tail
      some ⟨ct, pk, x25519Pk, certHash, nonceHex, sasHex⟩) := by
  have hfour : ∀ bytes rest, 4 ≤ (lengthPrefixed bytes ++ rest).length := by
    intro bytes rest
    simp [lengthPrefixed]
  have hsplit : framed [ct, pk, x25519Pk, utf8 certHash] ++ tail =
      lengthPrefixed ct ++ (lengthPrefixed pk ++ (lengthPrefixed x25519Pk ++
        (lengthPrefixed (utf8 certHash) ++ tail))) := by
    simp [framed]
  rw [hsplit, decodeBinaryPairingFrame, takeField_lengthPrefixed hct (hfour _ _)]
  dsimp only [Option.bind_eq_bind, Option.bind_some]
  rw [takeField_lengthPrefixed hpk (hfour _ _)]
  dsimp only [Option.bind_eq_bind, Option.bind_some]
  rw [takeField_lengthPrefixed hx25519 (hfour _ _)]
  dsimp only [Option.bind_eq_bind, Option.bind_some]
  rw [takeField_lengthPrefixed hcert (Nat.zero_le _)]
  dsimp only [Option.bind_eq_bind, Option.bind_some]
  rw [fromUtf8_utf8]
  rfl

theorem length_framed_lt {fields : List Bytes} (hcount : fields.length ≤ 6)
    (hfields : ∀ field ∈ fields, field.length < 2 ^ 32) : (framed fields).length < 2 ^ 63 := by
  have hsum : (framed fields).length ≤ fields.length * (4 + 2 ^ 32) := by
    clear hcount
    induction fields with
    | nil => exact Nat.zero_le _
    | cons field fields ih =>
      rw [List.forall_mem_cons] at hfields
      have hrest := ih hfields.2
      rw [framed_cons, List.length_append, List.length_cons, lengthPrefixed, List.length_append,
        length_beBytes]
      have hfield := hfields.1
      omega
  omega

/-- The decoder in place on a frame of at most six fields. -/
theorem decodeBinaryPairingFrameAt_framed {fields : List Bytes} {frame : PairingFields}
    (hcount : fields.length ≤ 6) (hfields : ∀ field ∈ fields, field.length < 2 ^ 32)
    (hdecode : decodeBinaryPairingFrame (framed fields) = some frame) :
    decodeBinaryPairingFrameAt (framed fields) = .ok frame := by
  rw [decodeBinaryPairingFrameAt_eq ⟨framed fields, length_framed_lt hcount hfields⟩, hdecode]
  rfl

/-- The six fields of a pairing frame are read back from it; a missing SAS, or a missing nonce and
SAS, are read as empty. The decoder has no fault on any slice. -/
theorem pairing_frame_codec {ct pk x25519Pk : Bytes} {certHash nonceHex sasHex : String}
    (hct : ct.length < 2 ^ 32) (hpk : pk.length < 2 ^ 32) (hx25519 : x25519Pk.length < 2 ^ 32)
    (hcert : (utf8 certHash).length < 2 ^ 32) (hnonce : (utf8 nonceHex).length < 2 ^ 32)
    (hsas : (utf8 sasHex).length < 2 ^ 32) :
    decodeBinaryPairingFrameAt (framed [ct, pk, x25519Pk, utf8 certHash,
        utf8 nonceHex, utf8 sasHex]) =
      .ok ⟨ct, pk, x25519Pk, certHash, nonceHex, sasHex⟩ ∧
    decodeBinaryPairingFrameAt (framed [ct, pk, x25519Pk, utf8 certHash,
        utf8 nonceHex]) = .ok ⟨ct, pk, x25519Pk, certHash, nonceHex, ""⟩ ∧
    decodeBinaryPairingFrameAt (framed [ct, pk, x25519Pk, utf8 certHash]) =
      .ok ⟨ct, pk, x25519Pk, certHash, "", ""⟩ ∧
    ∀ (payload : Slice UInt8) (f : Fault),
      decodeBinaryPairingFrameAt payload.toList ≠ .error (.fault f) := by
  have hmandatory := decodeBinaryPairingFrame_framed hct hpk hx25519 hcert
  have hempty : takeOptionalText [] = some ("", []) := rfl
  have hfields : ∀ field ∈ [ct, pk, x25519Pk, utf8 certHash, utf8 nonceHex,
      utf8 sasHex], field.length < 2 ^ 32 := by
    simp only [List.forall_mem_cons]
    exact ⟨hct, hpk, hx25519, hcert, hnonce, hsas, by rintro _ ⟨⟩⟩
  refine ⟨?_, ?_, ?_, ?_⟩
  · refine decodeBinaryPairingFrameAt_framed le_rfl hfields ?_
    have hsplit : framed [ct, pk, x25519Pk, utf8 certHash, utf8 nonceHex,
        utf8 sasHex] = framed [ct, pk, x25519Pk, utf8 certHash] ++
          (lengthPrefixed (utf8 nonceHex) ++ (lengthPrefixed (utf8 sasHex) ++ [])) := by
      simp [framed]
    rw [hsplit, hmandatory, takeOptionalText_lengthPrefixed hnonce]
    dsimp only [Option.bind_eq_bind, Option.bind_some]
    rw [takeOptionalText_lengthPrefixed hsas]
    rfl
  · refine decodeBinaryPairingFrameAt_framed (by simp)
      (fun field hmem => hfields field (List.mem_of_mem_take (i := 5) hmem)) ?_
    have hsplit : framed [ct, pk, x25519Pk, utf8 certHash, utf8 nonceHex] =
        framed [ct, pk, x25519Pk, utf8 certHash] ++
          (lengthPrefixed (utf8 nonceHex) ++ []) := by
      simp [framed]
    rw [hsplit, hmandatory, takeOptionalText_lengthPrefixed hnonce]
    dsimp only [Option.bind_eq_bind, Option.bind_some]
    rw [hempty]
    rfl
  · refine decodeBinaryPairingFrameAt_framed (by simp)
      (fun field hmem => hfields field (List.mem_of_mem_take (i := 4) hmem)) ?_
    rw [← List.append_nil (framed _), hmandatory, hempty]
    rfl
  · intro payload f hfault
    rw [decodeBinaryPairingFrameAt_eq payload] at hfault
    cases hresult : decodeBinaryPairingFrame payload.toList with
    | some frame =>
      rw [hresult] at hfault
      cases hfault
    | none =>
      rw [hresult] at hfault
      cases hfault

/-- A frame of six short fields. -/
theorem pairing_frame_codec_short :
    decodeBinaryPairingFrameAt (framed [[1, 2], [3], [4], utf8 "ab", utf8 "cd",
        utf8 "ef"]) = .ok ⟨[1, 2], [3], [4], "ab", "cd", "ef"⟩ ∧
    decodeBinaryPairingFrameAt (framed [[1, 2], [3], [4], utf8 "ab", utf8 "cd"]) =
      .ok ⟨[1, 2], [3], [4], "ab", "cd", ""⟩ ∧
    decodeBinaryPairingFrameAt (framed [[1, 2], [3], [4], utf8 "ab"]) =
      .ok ⟨[1, 2], [3], [4], "ab", "", ""⟩ ∧
    ∀ (payload : Slice UInt8) (f : Fault),
      decodeBinaryPairingFrameAt payload.toList ≠ .error (.fault f) :=
  pairing_frame_codec (by decide) (by decide) (by decide) (by decide +kernel) (by decide +kernel)
    (by decide +kernel)

end KyberPipe
