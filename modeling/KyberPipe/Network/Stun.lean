import KyberPipe.Lib.Crc
import KyberPipe.Network.Address
import KyberPipe.Network.QuicFrame

/-!
# STUN queries

`query_stun_server` of `stun.rs`: a binding request is sent to the first address of the server, and
the mapped address is taken from the attributes of the response. Name resolution, the socket and the
transaction id are parameters.

The loop over the attributes runs over all bytes received. It keeps the last mapped address and the
verdict on the last fingerprint that it has seen.
-/

namespace KyberPipe

namespace Stun

/-- The receive buffer in bytes. -/
def bufferSize : ℕ := 512

/-- The header of a message in bytes. -/
def headerSize : ℕ := 20

/-- The largest attribute that the loop reads. -/
def maxAttributeLength : ℕ := 512

/-- The magic cookie of RFC 5389. -/
def magicCookie : ℕ := 0x2112A442

/-- The binding request with a transaction id. -/
def bindingRequest (txId : Bytes) : Bytes :=
  beBytes 2 0x0001 ++ beBytes 2 0x0000 ++ beBytes 4 magicCookie ++ txId

/-- `u16::from_be_bytes` at a position. -/
def u16At (buf : Bytes) (pos : ℕ) : ℕ := ofBeBytes ((buf.drop pos).take 2)

/-! ### Attributes -/

/-- An attribute of a message. -/
structure Attribute where
  attrType : ℕ
  value : Bytes
  /-- The position behind the padding. -/
  stop : ℕ
  deriving DecidableEq

/-- The address of a MAPPED-ADDRESS value of the IPv4 family. -/
def mappedAddress (value : Bytes) : Option SocketAddr :=
  if 8 ≤ value.length ∧ value.getD 1 0 = 1 then
    some ⟨.v4 ![value.getD 4 0, value.getD 5 0, value.getD 6 0, value.getD 7 0], u16At value 2⟩
  else none

/-- The address of a XOR-MAPPED-ADDRESS value of the IPv4 family. -/
def xorMappedAddress (value : Bytes) : Option SocketAddr :=
  if 8 ≤ value.length ∧ value.getD 1 0 = 1 then
    some ⟨.v4 ![value.getD 4 0 ^^^ 0x21, value.getD 5 0 ^^^ 0x12, value.getD 6 0 ^^^ 0xA4,
      value.getD 7 0 ^^^ 0x42], u16At value 2 ^^^ 0x2112⟩
  else none

namespace Attribute

/-- The address that an attribute puts into the slot. -/
def address (a : Attribute) : Option SocketAddr :=
  if a.attrType = 0x0001 then mappedAddress a.value
  else if a.attrType = 0x0020 then xorMappedAddress a.value
  else none

/-- The verdict on a FINGERPRINT attribute. The checksum is taken over the message up to the value,
with four zero bytes in its place. -/
def fingerprint (buf : Bytes) (a : Attribute) : Option Bool :=
  if a.attrType = 0x8028 ∧ a.value.length = 4 then
    let fpValueStart := a.stop - a.value.length
    let crcInput := buf.take fpValueStart ++ [0, 0, 0, 0]
    some (Crc.crc32 crcInput ^^^ 0x5354554E == BitVec.ofNat 32 (ofBeBytes a.value))
  else none

end Attribute

/-- The variables of the loop. -/
structure Scan where
  mappedAddr : Option SocketAddr := none
  fingerprintOk : Option Bool := none

/-- One attribute in the loop: an address or a verdict replaces the one before. -/
def Scan.read (buf : Bytes) (s : Scan) (a : Attribute) : Scan where
  mappedAddr := a.address.or s.mappedAddr
  fingerprintOk := (a.fingerprint buf).or s.fingerprintOk

/-- The head of the loop: the attribute at a position and the position of the next one, unless the
loop ends or breaks there. -/
def nextAttribute (limit : ℕ) (buf : Bytes) (pos : ℕ) : Option (Attribute × ℕ) :=
  if buf.length ≤ pos then none
  else if buf.length < pos + 4 then none
  else
    let attrType := u16At buf pos
    let attrLen := u16At buf (pos + 2)
    let start := pos + 4
    if limit < attrLen ∨ buf.length < start + attrLen then none
    else
      -- attributes are padded to a multiple of four bytes
      let stop := start + (attrLen + 3) / 4 * 4
      some (⟨attrType, (buf.drop start).take attrLen, stop⟩, stop)

/-- The loop, for a number of rounds. -/
def loop (buf : Bytes) : ℕ → ℕ → Scan → Scan
  | 0, _, s => s
  | rounds + 1, pos, s =>
    match nextAttribute maxAttributeLength buf pos with
    | none => s
    | some (a, pos) => loop buf rounds pos (s.read buf a)

/-! ### The response -/

/-- A number in hexadecimal with at least four digits. -/
def hex4 (n : ℕ) : String :=
  let digits := Nat.toDigits 16 n
  String.ofList (List.replicate (4 - digits.length) '0' ++ digits)

/-- The result of the loop. -/
def Scan.result (s : Scan) : Except NetworkError SocketAddr :=
  if s.fingerprintOk = some false then
    .error ⟨"STUN FINGERPRINT validation failed — rejecting response"⟩
  else
    match s.mappedAddr with
    | some addr => .ok addr
    | none => .error ⟨"No valid mapped address found in STUN response"⟩

/-- The checks of a response and the loop over its attributes. A round moves on by at least four
bytes, so as many rounds as there are bytes are enough. -/
def readResponse (txId buf : Bytes) : Except NetworkError SocketAddr :=
  let len := buf.length
  let total := u16At buf 2 + 20
  let msgType := hex4 (u16At buf 0)
  if len < headerSize then .error ⟨"STUN response too short"⟩
  else if len < total then
    .error ⟨s!"STUN message length field ({total}) exceeds actual payload ({len})"⟩
  else if u16At buf 0 ≠ 0x0101 then .error ⟨s!"STUN response was not success: {msgType}"⟩
  else if txId ≠ (buf.drop 8).take 12 then .error ⟨"STUN transaction ID mismatch"⟩
  else (loop buf len headerSize {}).result

end Stun

/-- What the network answers in a query. -/
structure StunNetwork where
  lookupHost : String → Except String (List SocketAddr)
  bind : Except String Unit
  sendTo : SocketAddr → Bytes → Except String Unit
  /-- The first datagram and its source, or nothing within three seconds. -/
  recvFrom : Option (Except String (Bytes × SocketAddr))

namespace Stun

/-- `query_stun_server` with its random transaction id. -/
def queryStunServer (net : StunNetwork) (stunHost : String) (txId : Bytes) :
    Except NetworkError SocketAddr :=
  match net.lookupHost stunHost with
  | .error e => .error ⟨s!"STUN host lookup failed for {stunHost}: {e}"⟩
  | .ok [] => .error ⟨s!"No IP address found for STUN host {stunHost}"⟩
  | .ok (stunAddr :: _) =>
    match net.bind with
    | .error e => .error ⟨s!"Failed to bind UDP socket for STUN: {e}"⟩
    | .ok () =>
      match net.sendTo stunAddr (bindingRequest txId) with
      | .error e => .error ⟨s!"Failed to send STUN request: {e}"⟩
      | .ok () =>
        match net.recvFrom with
        | none => .error ⟨"STUN response timeout"⟩
        | some (.error e) => .error ⟨s!"Failed to receive STUN response: {e}"⟩
        | some (.ok (datagram, srcAddr)) =>
          let got := srcAddr.display
          let expected := stunAddr.display
          if srcAddr ≠ stunAddr then
            .error ⟨s!"STUN response source mismatch: got {got}, expected {expected} — " ++
              "rejecting spoofed response"⟩
          -- the buffer cuts off what does not fit
          else readResponse txId (datagram.take bufferSize)

/-- The server answers the query with a datagram. -/
structure Answers (net : StunNetwork) (stunHost : String) (txId datagram : Bytes) : Prop where
  answered : ∃ stunAddr rest, net.lookupHost stunHost = .ok (stunAddr :: rest) ∧
    net.bind = .ok () ∧ net.sendTo stunAddr (bindingRequest txId) = .ok () ∧
    net.recvFrom = some (.ok (datagram, stunAddr))

theorem Answers.queryStunServer {net : StunNetwork} {stunHost : String} {txId datagram : Bytes}
    (h : Answers net stunHost txId datagram) :
    Stun.queryStunServer net stunHost txId = readResponse txId (datagram.take bufferSize) := by
  obtain ⟨stunAddr, rest, hlookup, hbind, hsend, hrecv⟩ := h.answered
  simp only [Stun.queryStunServer, hlookup, hbind, hsend, hrecv]
  rw [if_neg (not_not.2 rfl)]

/-- A network in which the server answers every query with one datagram. -/
def answering (datagram : Bytes) : StunNetwork :=
  let stunAddr : SocketAddr := ⟨.v4 ![198, 51, 100, 1], 3478⟩
  { lookupHost := fun _ => .ok [stunAddr]
    bind := .ok ()
    sendTo := fun _ _ => .ok ()
    recvFrom := some (.ok (datagram, stunAddr)) }

theorem answers_answering (stunHost : String) (txId datagram : Bytes) :
    Answers (answering datagram) stunHost txId datagram :=
  ⟨_, [], rfl, rfl, rfl, rfl⟩

/-! ### What the loop reads -/

/-- The attributes at a position and behind, for a number of rounds. -/
def attributesFrom (limit : ℕ) (buf : Bytes) : ℕ → ℕ → List Attribute
  | 0, _ => []
  | rounds + 1, pos =>
    match nextAttribute limit buf pos with
    | none => []
    | some (a, pos) => a :: attributesFrom limit buf rounds pos

/-- The attributes of a message. -/
def attributes (limit : ℕ) (buf : Bytes) : List Attribute :=
  attributesFrom limit buf buf.length headerSize

/-- The last address and the last verdict of a list of attributes. -/
def scanned (buf : Bytes) (atts : List Attribute) : Scan where
  mappedAddr := (atts.filterMap (·.address)).getLast?
  fingerprintOk := (atts.filterMap (·.fingerprint buf)).getLast?

section Loop

variable {limit : ℕ} {buf : Bytes} {pos : ℕ}

theorem getLast?_filterMap_cons {α β : Type*} (f : α → Option β) (a : α) (l : List α)
    (start : Option β) :
    (((a :: l).filterMap f).getLast?).or start =
      ((l.filterMap f).getLast?).or ((f a).or start) := by
  cases hfa : f a with
  | none => rw [List.filterMap_cons_none hfa, Option.none_or]
  | some b =>
    rw [List.filterMap_cons_some hfa, List.getLast?_cons]
    cases (l.filterMap f).getLast? <;> rfl

/-- The loop keeps the last address and the last verdict. -/
theorem loop_eq (rounds pos : ℕ) (s : Scan) :
    loop buf rounds pos s =
      { mappedAddr := (((attributesFrom maxAttributeLength buf rounds pos).filterMap
          (·.address)).getLast?).or s.mappedAddr
        fingerprintOk := (((attributesFrom maxAttributeLength buf rounds pos).filterMap
          (·.fingerprint buf)).getLast?).or s.fingerprintOk } := by
  induction rounds generalizing pos s with
  | zero => rfl
  | succ rounds ih =>
    rw [loop, attributesFrom]
    cases nextAttribute maxAttributeLength buf pos with
    | none => rfl
    | some next =>
      obtain ⟨a, pos⟩ := next
      dsimp only
      rw [ih, getLast?_filterMap_cons, getLast?_filterMap_cons]
      rfl

theorem loop_start : loop buf buf.length headerSize {} =
    scanned buf (attributes maxAttributeLength buf) := by
  rw [loop_eq]
  simp only [Option.or_none]
  rfl

/-- Inversion of the head of the loop. -/
theorem nextAttribute_eq_some {a : Attribute} {next : ℕ} :
    nextAttribute limit buf pos = some (a, next) ↔
      pos + 4 + u16At buf (pos + 2) ≤ buf.length ∧ u16At buf (pos + 2) ≤ limit ∧
        next = pos + 4 + (u16At buf (pos + 2) + 3) / 4 * 4 ∧
        a = ⟨u16At buf pos, (buf.drop (pos + 4)).take (u16At buf (pos + 2)), next⟩ := by
  unfold nextAttribute
  constructor
  · intro h
    dsimp only at h
    split_ifs at h with hend hshort hlong
    obtain ⟨rfl, rfl⟩ := Prod.mk.inj (Option.some.inj h)
    exact ⟨by omega, by omega, rfl, rfl⟩
  · rintro ⟨hfits, hlimit, rfl, rfl⟩
    rw [if_neg (by omega), if_neg (by omega)]
    dsimp only
    rw [if_neg (by omega)]

end Loop

end Stun

end KyberPipe
