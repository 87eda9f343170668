import KyberPipe.Network.StunSelection

/-!
# The fingerprint of a STUN response

A server that follows RFC 5389 puts a FINGERPRINT attribute at the end of its response: the checksum
of the message before the attribute, with a constant added. The code takes the checksum over four
bytes of the attribute and four zero bytes more. The two agree only for messages with one fixed
checksum.
-/

namespace KyberPipe

namespace Stun

/-- An attribute as a server writes it. -/
structure WireAttribute where
  attrType : ℕ
  value : Bytes
  padding : Bytes
  type_lt : attrType < 2 ^ 16
  length_lt : value.length < 2 ^ 16
  /-- The value is padded to a multiple of four bytes. -/
  padded : value.length + padding.length = (value.length + 3) / 4 * 4

namespace WireAttribute

/-- The bytes of an attribute. -/
def encode (a : WireAttribute) : Bytes :=
  beBytes 2 a.attrType ++ (beBytes 2 a.value.length ++ (a.value ++ a.padding))

/-- What the loop makes of the attribute at a position. -/
def read (a : WireAttribute) (pos : ℕ) : Attribute := ⟨a.attrType, a.value, pos + a.encode.length⟩

/-- The address in an attribute that the loop takes. -/
def address (a : WireAttribute) : Option SocketAddr := (a.read 0).address

theorem length_encode (a : WireAttribute) :
    a.encode.length = 4 + (a.value.length + 3) / 4 * 4 := by
  simp only [encode, List.length_append, length_beBytes]
  rw [a.padded]
  omega

/-- The FINGERPRINT attribute of RFC 5389 behind a message. -/
def fingerprint (msg : Bytes) : WireAttribute where
  attrType := 0x8028
  value := beBytes 4 (Crc.crc32 msg ^^^ 0x5354554E).toNat
  padding := []
  type_lt := by decide
  length_lt := by rw [length_beBytes]; decide
  padded := by rw [length_beBytes]; rfl

theorem encode_fingerprint (msg : Bytes) :
    (fingerprint msg).encode = [0x80, 0x28, 0, 4] ++ (fingerprint msg).value := by
  have hlength : (fingerprint msg).value.length = 4 := length_beBytes 4 _
  have htype : beBytes 2 (fingerprint msg).attrType = [0x80, 0x28] := by
    show beBytes 2 0x8028 = [0x80, 0x28]
    decide
  have hfield : beBytes 2 4 = [0, 4] := by decide
  have hpadding : (fingerprint msg).padding = [] := rfl
  rw [encode, hlength, htype, hfield, hpadding, List.append_nil]
  rfl

theorem length_encode_fingerprint (msg : Bytes) : (fingerprint msg).encode.length = 8 := by
  rw [encode_fingerprint, List.length_append]
  exact congrArg (4 + ·) (length_beBytes 4 _)

end WireAttribute

/-- A message up to its fingerprint, which covers it. -/
def covered (header : Bytes) (atts : List WireAttribute) : Bytes :=
  header ++ atts.flatMap WireAttribute.encode

/-- A message with its fingerprint as the last attribute. -/
def fingerprinted (header : Bytes) (atts : List WireAttribute) : Bytes :=
  covered header atts ++ (WireAttribute.fingerprint (covered header atts)).encode

/-! ### The loop on encoded attributes -/

section Encoded

variable {limit : ℕ}

theorem u16At_append (front rest : Bytes) {n : ℕ} (h : n < 2 ^ 16) :
    u16At (front ++ (beBytes 2 n ++ rest)) front.length = n := by
  rw [u16At, List.drop_left, List.take_append_of_le_length (by rw [length_beBytes]),
    List.take_of_length_le (by rw [length_beBytes]), ofBeBytes_beBytes]
  exact Nat.mod_eq_of_lt h

theorem nextAttribute_encode (front rest : Bytes) (a : WireAttribute)
    (hlimit : a.value.length ≤ limit) :
    nextAttribute limit (front ++ (a.encode ++ rest)) front.length =
      some (a.read front.length, front.length + a.encode.length) := by
  have htype : u16At (front ++ (a.encode ++ rest)) front.length = a.attrType := by
    rw [WireAttribute.encode, List.append_assoc]
    exact u16At_append front _ a.type_lt
  -- the length field and the value, each behind what stands before it
  have hlen : u16At (front ++ (a.encode ++ rest)) (front.length + 2) = a.value.length := by
    have hfront : front.length + 2 = (front ++ beBytes 2 a.attrType).length := by
      rw [List.length_append, length_beBytes]
    rw [hfront, WireAttribute.encode, List.append_assoc, List.append_assoc, ← List.append_assoc]
    exact u16At_append _ _ a.length_lt
  have hvalue : ((front ++ (a.encode ++ rest)).drop (front.length + 4)).take a.value.length =
      a.value := by
    have hfront : front.length + 4 =
        (front ++ beBytes 2 a.attrType ++ beBytes 2 a.value.length).length := by
      simp only [List.length_append, length_beBytes]
    have hsplit : front ++ (a.encode ++ rest) =
        front ++ beBytes 2 a.attrType ++ beBytes 2 a.value.length ++
          (a.value ++ (a.padding ++ rest)) := by
      simp only [WireAttribute.encode, List.append_assoc]
    rw [hsplit, hfront, List.drop_left, List.take_left]
  have hsize := a.length_encode
  refine nextAttribute_eq_some.2 ?_
  rw [hlen, htype, hvalue]
  refine ⟨?_, hlimit, by omega, rfl⟩
  rw [List.length_append, List.length_append]
  omega

/-- What the loop reads of encoded attributes from a position on. -/
def readFrom : ℕ → List WireAttribute → List Attribute
  | _, [] => []
  | pos, a :: atts => a.read pos :: readFrom (pos + a.encode.length) atts

theorem readFrom_append (pos : ℕ) (atts atts' : List WireAttribute) :
    readFrom pos (atts ++ atts') =
      readFrom pos atts ++ readFrom (pos + (atts.flatMap WireAttribute.encode).length) atts' := by
  induction atts generalizing pos with
  | nil => rfl
  | cons a atts ih =>
    rw [List.cons_append, readFrom, readFrom, ih, List.flatMap_cons, List.length_append,
      Nat.add_assoc, List.cons_append]

theorem filterMap_address_readFrom (pos : ℕ) (atts : List WireAttribute) :
    (readFrom pos atts).filterMap (·.address) = atts.filterMap WireAttribute.address := by
  induction atts generalizing pos with
  | nil => rfl
  | cons a atts ih =>
    rw [readFrom, List.filterMap_cons, List.filterMap_cons, ih]
    rfl

/-- The loop reads back what the server has written. -/
theorem attributesFrom_encode (front : Bytes) (atts : List WireAttribute) {rounds : ℕ}
    (hrounds : (atts.flatMap WireAttribute.encode).length ≤ rounds)
    (hlimit : ∀ a ∈ atts, a.value.length ≤ limit) :
    attributesFrom limit (front ++ atts.flatMap WireAttribute.encode) rounds front.length =
      readFrom front.length atts := by
  induction atts generalizing front rounds with
  | nil =>
    have hnone : nextAttribute limit (front ++ []) front.length = none :=
      if_pos (by rw [List.append_nil])
    cases rounds with
    | zero => rfl
    | succ rounds =>
      rw [List.flatMap_nil]
      simp only [attributesFrom, hnone, readFrom]
  | cons a atts ih =>
    rw [List.flatMap_cons, List.length_append] at hrounds
    have hsize := a.length_encode
    obtain ⟨rounds, rfl⟩ := Nat.exists_eq_succ_of_ne_zero (n := rounds) (by omega)
    rw [List.flatMap_cons, attributesFrom,
      nextAttribute_encode front _ a (hlimit a List.mem_cons_self), readFrom]
    have hleft : (atts.flatMap WireAttribute.encode).length ≤ rounds := by omega
    have hrest := ih (front ++ a.encode) hleft fun b hb => hlimit b (List.mem_cons_of_mem _ hb)
    rw [List.append_assoc, List.length_append] at hrest
    exact congrArg _ hrest

end Encoded

/-! ### The verdict -/

/-- The checksum that the eight bytes leave as it is. -/
def fixedChecksum : BitVec 32 := 0x4E55D3E8

/-- The checksum of the code is that of RFC 5389 for one checksum only. -/
theorem crc32_append_fingerprint_iff (msg : Bytes) :
    Crc.crc32 (msg ++ [0x80, 0x28, 0, 4, 0, 0, 0, 0]) = Crc.crc32 msg ↔
      Crc.crc32 msg = fixedChecksum :=
  Crc.crc32_append_eq_iff (k := 6) rfl (by decide +kernel) msg

/-- The verdict of the code on the fingerprint of RFC 5389. -/
theorem fingerprint_read (msg : Bytes) :
    ((WireAttribute.fingerprint msg).read msg.length).fingerprint
        (msg ++ (WireAttribute.fingerprint msg).encode) =
      some (decide (Crc.crc32 msg = fixedChecksum)) := by
  have hvalue : ((WireAttribute.fingerprint msg).read msg.length).value.length = 4 :=
    length_beBytes 4 _
  have hstop : ((WireAttribute.fingerprint msg).read msg.length).stop - 4 = msg.length + 4 := by
    show msg.length + (WireAttribute.fingerprint msg).encode.length - 4 = msg.length + 4
    rw [WireAttribute.length_encode_fingerprint]
    omega
  have htake : (msg ++ (WireAttribute.fingerprint msg).encode).take (msg.length + 4) =
      msg ++ [0x80, 0x28, 0, 4] := by
    rw [List.take_length_add_append, WireAttribute.encode_fingerprint]
    rfl
  have hclaimed : BitVec.ofNat 32
      (ofBeBytes ((WireAttribute.fingerprint msg).read msg.length).value) =
        Crc.crc32 msg ^^^ 0x5354554E := by
    show BitVec.ofNat 32 (ofBeBytes (beBytes 4 (Crc.crc32 msg ^^^ 0x5354554E).toNat)) = _
    rw [ofBeBytes_beBytes, Nat.mod_eq_of_lt (show _ < 256 ^ 4 from BitVec.isLt _),
      BitVec.ofNat_toNat, BitVec.setWidth_eq]
  unfold Attribute.fingerprint
  rw [if_pos ⟨rfl, hvalue⟩]
  dsimp only
  rw [hvalue, hstop, htake, hclaimed, List.append_assoc]
  refine congrArg some ?_
  rw [Bool.eq_iff_iff, beq_iff_eq, decide_eq_true_iff, BitVec.xor_left_inj]
  exact crc32_append_fingerprint_iff msg

section Response

variable {txId header : Bytes} {atts : List WireAttribute}

/-- What the loop reads of a message with its fingerprint. -/
theorem attributes_fingerprinted (hheader : header.length = headerSize)
    (hfits : (fingerprinted header atts).length ≤ bufferSize) :
    attributes maxAttributeLength (fingerprinted header atts) =
      readFrom headerSize atts ++
        [(WireAttribute.fingerprint (covered header atts)).read (covered header atts).length] := by
  set fp := WireAttribute.fingerprint (covered header atts)
  have hbytes : fingerprinted header atts =
      header ++ (atts ++ [fp]).flatMap WireAttribute.encode := by
    rw [fingerprinted, covered, List.append_assoc, List.flatMap_append, List.flatMap_singleton]
    rfl
  -- an attribute of a message that fits the buffer is not too long for the loop
  have hlimit : ∀ a ∈ atts ++ [fp], a.value.length ≤ maxAttributeLength := by
    intro a ha
    have hsub := (List.sublist_flatten_of_mem
      (List.mem_map_of_mem (f := WireAttribute.encode) ha)).length_le
    have hsize := a.length_encode
    rw [hbytes, List.length_append, List.flatMap_def] at hfits
    simp only [bufferSize, maxAttributeLength] at hfits ⊢
    omega
  have hrounds : ((atts ++ [fp]).flatMap WireAttribute.encode).length ≤
      (fingerprinted header atts).length := by
    rw [hbytes, List.length_append]
    exact Nat.le_add_left _ _
  have hread := attributesFrom_encode header (atts ++ [fp]) hrounds hlimit
  rw [← hbytes, hheader, readFrom_append] at hread
  rw [attributes, hread, covered, List.length_append, hheader]
  rfl

/-- The result of the loop for a message with its fingerprint. -/
theorem scanned_fingerprinted (hheader : header.length = headerSize)
    (hfits : (fingerprinted header atts).length ≤ bufferSize) :
    scanned (fingerprinted header atts)
        (attributes maxAttributeLength (fingerprinted header atts)) =
      ⟨(atts.filterMap WireAttribute.address).getLast?,
        some (decide (Crc.crc32 (covered header atts) = fixedChecksum))⟩ := by
  have hverdict := fingerprint_read (covered header atts)
  rw [attributes_fingerprinted hheader hfits, scanned, List.filterMap_append,
    List.filterMap_append, filterMap_address_readFrom]
  rw [show covered header atts ++ (WireAttribute.fingerprint (covered header atts)).encode =
    fingerprinted header atts from rfl] at hverdict
  rw [List.filterMap_cons_some hverdict, List.filterMap_nil, List.getLast?_concat,
    List.filterMap_cons_none rfl, List.filterMap_nil, List.append_nil]

end Response

/-- A success response with the fingerprint of RFC 5389 at its end is accepted exactly if it fits
the buffer, its checksum is the one that the code's checksum leaves alone, and it has an IPv4
address. -/
theorem stun_fingerprint_accepted_iff {net : StunNetwork} {stunHost : String} {txId header : Bytes}
    {atts : List WireAttribute} (hnet : Answers net stunHost txId (fingerprinted header atts))
    (hheader : header.length = headerSize) (hsuccess : IsSuccess txId (fingerprinted header atts))
    (hlength : headerSize + u16At (fingerprinted header atts) 2 =
      (fingerprinted header atts).length) :
    (∃ addr, queryStunServer net stunHost txId = .ok addr) ↔
      (fingerprinted header atts).length ≤ bufferSize ∧
        Crc.crc32 (covered header atts) = fixedChecksum ∧ ∃ a ∈ atts, a.address.isSome := by
  have hmessage : (message (fingerprinted header atts)).length =
      (fingerprinted header atts).length := by
    rw [hsuccess.length_message, hlength]
  rw [hnet.queryStunServer, hsuccess.readResponse, hmessage]
  split_ifs with hlong
  · exact iff_of_false (fun h => nomatch h.choose_spec) fun h => absurd h.1 (not_le.2 hlong)
  · have hfits := not_lt.1 hlong
    rw [List.take_of_length_le hfits, scanned_fingerprinted hheader hfits]
    simp only [Scan.result_eq_ok, exists_and_left, ← Option.isSome_iff_exists,
      List.getLast?_isSome, ne_eq, Option.some.injEq, decide_eq_false_iff_not, not_not]
    rw [and_iff_right hfits]
    refine and_congr_right fun _ => ?_
    constructor
    · intro hne
      obtain ⟨addr, haddr⟩ := List.exists_mem_of_ne_nil _ hne
      obtain ⟨a, ha, haddr⟩ := List.mem_filterMap.1 haddr
      exact ⟨a, ha, Option.isSome_of_eq_some haddr⟩
    · rintro ⟨a, ha, haddr⟩
      obtain ⟨addr, haddr⟩ := Option.isSome_iff_exists.1 haddr
      exact List.ne_nil_of_mem (List.mem_filterMap.2 ⟨a, ha, haddr⟩)

/-- A XOR-MAPPED-ADDRESS attribute. -/
def xorMappedExample : WireAttribute where
  attrType := 0x0020
  value := [0, 1, 0x2E, 0xB2, 0xEA, 0x12, 0xD5, 0x45]
  padding := []
  type_lt := by decide
  length_lt := by decide
  padded := rfl

/-- A transaction id for which the checksum of the message is the one that is left alone. -/
theorem stun_fingerprint_accepted_iff_fixed :
    let txId : Bytes := [7, 7, 7, 7, 7, 7, 7, 7, 17, 29, 147, 210]
    let header : Bytes := [1, 1, 0, 20, 0x21, 0x12, 0xA4, 0x42] ++ txId
    ∃ addr, queryStunServer (answering (fingerprinted header [xorMappedExample])) "stun" txId =
      .ok addr :=
  (stun_fingerprint_accepted_iff (answers_answering "stun" _ _) rfl
    ⟨by decide +kernel, by decide +kernel, by decide +kernel⟩ (by decide +kernel)).2
    ⟨by decide +kernel, by decide +kernel, xorMappedExample, List.mem_singleton.2 rfl,
      by decide +kernel⟩

/-- A response of RFC 5389 with a XOR-MAPPED-ADDRESS and a FINGERPRINT is rejected. -/
theorem conforming_fingerprint_rejected :
    let txId : Bytes := List.replicate 12 7
    let header : Bytes := [1, 1, 0, 20, 0x21, 0x12, 0xA4, 0x42] ++ txId
    let response := fingerprinted header [xorMappedExample]
    IsSuccess txId response ∧ xorMappedExample.address = some ⟨.v4 ![203, 0, 113, 7], 4000⟩ ∧
      response = header ++ xorMappedExample.encode ++
        [0x80, 0x28, 0, 4, 0xC3, 0x78, 0xCE, 0x65] ∧
      queryStunServer (answering response) "stun" txId =
        .error ⟨"STUN FINGERPRINT validation failed — rejecting response"⟩ := by
  dsimp only
  refine ⟨⟨?_, ?_, ?_⟩, ?_, ?_, ?_⟩
  all_goals decide +kernel

end Stun

end KyberPipe
