import KyberPipe.Crypto.Aead
import KyberPipe.Lib.Chunks

/-!
# QUIC frames

The frame codec of `quic_app/frame.rs`: one byte of stream type, the length of the body as a
big-endian `u32`, and the body, which has at most one MiB. A frame is decoded from a buffer, or read
from a stream in two steps, so that the server can refuse a stream after its header.
-/

namespace KyberPipe

/-- The `NetworkError` of the error type of the crate. -/
structure NetworkError where
  message : String
  deriving DecidableEq

/-- The largest body, `MAX_MESSAGE_SIZE`. -/
def maxMessageSize : ℕ := 1024 * 1024

/-- A frame of the application protocol. -/
structure QuicFrame where
  streamType : UInt8
  body : Bytes
  deriving DecidableEq

/-- The refusal of a body that is longer than the limit. -/
def bodyTooLarge (bodyLen : ℕ) : NetworkError :=
  ⟨s!"Frame body too large: {bodyLen} > {maxMessageSize}"⟩

namespace QuicFrame

/-- Encode a frame. The length is cut to 32 bits. -/
def encode (frame : QuicFrame) : Bytes :=
  frame.streamType :: (beBytes 4 frame.body.length ++ frame.body)

/-- Decode a frame from the front of a buffer. -/
def decode (data : Bytes) : Except NetworkError QuicFrame :=
  if data.length < 5 then .error ⟨"Frame too short"⟩
  else
    let bodyLen := ofBeBytes ((data.drop 1).take 4)
    if maxMessageSize < bodyLen then .error (bodyTooLarge bodyLen)
    else if data.length < 5 + bodyLen then .error ⟨"Frame truncated"⟩
    else .ok ⟨data.headD 0, (data.drop 5).take bodyLen⟩

end QuicFrame

/-! ## Reading from a stream -/

/-- Read the header of a frame. `read_exact` asks for the bytes that are missing, and reports how
many it had when the stream ended. -/
def recvFrameHeader (recv : Chunks UInt8) : Except NetworkError (UInt8 × ℕ) × Chunks UInt8 :=
  let (header, recv) := recv.gather (fun _ => 5) 5
  if header.length < 5 then
    let count := header.length
    (.error ⟨s!"Read frame header failed: stream finished early ({count} bytes read)"⟩, recv)
  else
    let bodyLen := ofBeBytes ((header.drop 1).take 4)
    if maxMessageSize < bodyLen then (.error (bodyTooLarge bodyLen), recv)
    else (.ok (header.headD 0, bodyLen), recv)

/-- Read the body of a frame. `read_to_end` offers whatever room its growing buffer has, of which
the limit of `take` leaves at most what is missing. -/
def recvFrameBody (room : ℕ → ℕ) (bodyLen : ℕ) (recv : Chunks UInt8) :
    Except NetworkError Bytes × Chunks UInt8 :=
  if maxMessageSize < bodyLen then (.error (bodyTooLarge bodyLen), recv)
  else if bodyLen = 0 then (.ok [], recv)
  else
    let (body, recv) := recv.gather room bodyLen
    if body.length ≠ bodyLen then
      let count := body.length
      (.error ⟨s!"Frame body truncated: expected {bodyLen} bytes, got {count}"⟩, recv)
    else (.ok body, recv)

/-- Read a frame: the header, and then the body. -/
def recvFrame (room : ℕ → ℕ) (recv : Chunks UInt8) :
    Except NetworkError QuicFrame × Chunks UInt8 :=
  match recvFrameHeader recv with
  | (.error e, recv) => (.error e, recv)
  | (.ok (streamType, bodyLen), recv) =>
    match recvFrameBody room bodyLen recv with
    | (.error e, recv) => (.error e, recv)
    | (.ok body, recv) => (.ok ⟨streamType, body⟩, recv)

/-! ## The codec -/

namespace QuicFrame

variable {frame : QuicFrame}

/-- What the decoder accepts: a header that announces a body within the limit, and at least that
many bytes behind it. -/
theorem decode_eq_ok_iff {data : Bytes} :
    decode data = .ok frame ↔
      5 ≤ data.length ∧ ofBeBytes ((data.drop 1).take 4) ≤ maxMessageSize ∧
        5 + ofBeBytes ((data.drop 1).take 4) ≤ data.length ∧
        frame = ⟨data.headD 0, (data.drop 5).take (ofBeBytes ((data.drop 1).take 4))⟩ := by
  unfold decode
  dsimp only
  split_ifs with hshort hlarge htruncated
  · exact iff_of_false (by rintro ⟨⟩) fun h => absurd h.1 (Nat.not_le.2 hshort)
  · exact iff_of_false (by rintro ⟨⟩) fun h => absurd h.2.1 (Nat.not_le.2 hlarge)
  · exact iff_of_false (by rintro ⟨⟩) fun h => absurd h.2.2.1 (Nat.not_le.2 htruncated)
  · constructor
    · intro h
      exact ⟨Nat.le_of_not_lt hshort, Nat.le_of_not_lt hlarge, Nat.le_of_not_lt htruncated,
        (Except.ok.inj h).symm⟩
    · rintro ⟨_, _, _, rfl⟩
      rfl

/-- The length of a body within the limit is read back. -/
theorem ofBeBytes_header (h : frame.body.length ≤ maxMessageSize) :
    ofBeBytes ((frame.encode.drop 1).take 4) = frame.body.length := by
  have htake : (frame.encode.drop 1).take 4 = beBytes 4 frame.body.length :=
    List.take_left' (length_beBytes 4 _)
  have hlt : frame.body.length < 256 ^ 4 := h.trans_lt (by decide)
  rw [htake, ofBeBytes_beBytes, Nat.mod_eq_of_lt hlt]

/-- A frame within the limit is decoded from its encoding. -/
theorem decode_encode (h : frame.body.length ≤ maxMessageSize) :
    decode frame.encode = .ok frame := by
  have hlength : frame.encode.length = 5 + frame.body.length := by
    simp [encode]
    omega
  have hbody : frame.encode.drop 5 = frame.body := by
    show (beBytes 4 frame.body.length ++ frame.body).drop 4 = frame.body
    exact List.drop_left' (length_beBytes 4 _)
  refine decode_eq_ok_iff.2 ⟨by omega, ?_, ?_, ?_⟩
  · rw [ofBeBytes_header h]
    exact h
  · rw [ofBeBytes_header h, hlength]
  · rw [ofBeBytes_header h, hbody, List.take_length]
    rfl

end QuicFrame

/-- The header is read if the stream has one that announces a body within the limit. -/
theorem recvFrameHeader_cases (recv : Chunks UInt8) :
    (5 ≤ recv.contents.length ∧ ofBeBytes ((recv.contents.drop 1).take 4) ≤ maxMessageSize ∧
        ∃ rest, recvFrameHeader recv =
            (.ok (recv.contents.headD 0, ofBeBytes ((recv.contents.drop 1).take 4)), rest) ∧
          rest.contents = recv.contents.drop 5) ∨
      ¬(5 ≤ recv.contents.length ∧ ofBeBytes ((recv.contents.drop 1).take 4) ≤ maxMessageSize) ∧
        ∃ e rest, recvFrameHeader recv = (.error e, rest) := by
  obtain ⟨hheader, hrest⟩ := recv.gather_eq (fun _ => 5) 5
  unfold recvFrameHeader
  generalize recv.gather (fun _ => 5) 5 = r at hheader hrest
  obtain ⟨header, rest⟩ := r
  dsimp only at hheader hrest ⊢
  have hlength : header.length = min 5 recv.contents.length := by
    rw [hheader, List.length_take]
  have hlen : (header.drop 1).take 4 = (recv.contents.drop 1).take 4 := by
    rw [hheader, List.drop_take, List.take_take]
    rfl
  split_ifs with hshort hlarge
  · exact .inr ⟨fun h => by omega, _, rest, rfl⟩
  · rw [hlen] at hlarge
    exact .inr ⟨fun h => by omega, _, rest, rfl⟩
  · rw [hlen] at hlarge ⊢
    have hhead : header.headD 0 = recv.contents.headD 0 := by
      rw [hheader, List.headD_eq_head?_getD, List.headD_eq_head?_getD, List.head?_take]
      rfl
    rw [hhead]
    exact .inl ⟨by omega, by omega, rest, rfl, hrest⟩

/-- A body within the limit is read if the stream has it. -/
theorem recvFrameBody_cases (room : ℕ → ℕ) {bodyLen : ℕ} (hlimit : bodyLen ≤ maxMessageSize)
    (recv : Chunks UInt8) :
    (bodyLen ≤ recv.contents.length ∧
        ∃ rest, recvFrameBody room bodyLen recv = (.ok (recv.contents.take bodyLen), rest) ∧
          rest.contents = recv.contents.drop bodyLen) ∨
      recv.contents.length < bodyLen ∧
        ∃ e rest, recvFrameBody room bodyLen recv = (.error e, rest) := by
  obtain ⟨hbody, hrest⟩ := recv.gather_eq room bodyLen
  unfold recvFrameBody
  rw [if_neg (Nat.not_lt.2 hlimit)]
  generalize recv.gather room bodyLen = r at hbody hrest
  obtain ⟨body, rest⟩ := r
  dsimp only at hbody hrest ⊢
  have hlength : body.length = min bodyLen recv.contents.length := by
    rw [hbody, List.length_take]
  split_ifs with hzero hshort
  · rw [hzero]
    exact .inl ⟨Nat.zero_le _, recv, rfl, rfl⟩
  · exact .inr ⟨by omega, _, rest, rfl⟩
  · rw [hbody]
    exact .inl ⟨by omega, rest, rfl, hrest⟩

/-- Reading a frame from a stream is decoding the bytes of the stream, whatever its chunks and
the room in the buffer, and what is left of the stream begins behind the frame. -/
theorem recvFrame_ok_iff (room : ℕ → ℕ) (recv : Chunks UInt8) (frame : QuicFrame) :
    ((recvFrame room recv).1 = .ok frame ↔ QuicFrame.decode recv.contents = .ok frame) ∧
      ((recvFrame room recv).1 = .ok frame →
        (recvFrame room recv).2.contents = recv.contents.drop (5 + frame.body.length)) := by
  rw [QuicFrame.decode_eq_ok_iff]
  unfold recvFrame
  rcases recvFrameHeader_cases recv with ⟨hfive, hlimit, afterHeader, hheader, hbehind⟩ |
    ⟨hrefused, e, afterHeader, hheader⟩
  · rw [hheader]
    dsimp only
    have hroom : afterHeader.contents.length = recv.contents.length - 5 := by
      rw [hbehind, List.length_drop]
    rcases recvFrameBody_cases room hlimit afterHeader with ⟨henough, rest, hbody, hrest⟩ |
      ⟨htruncated, e, rest, hbody⟩
    · rw [hbody]
      rw [hbehind] at hrest ⊢
      refine ⟨⟨fun h => ?_, fun h => ?_⟩, fun h => ?_⟩
      · exact ⟨hfive, hlimit, by omega, (Except.ok.inj h).symm⟩
      · rw [h.2.2.2]
      · obtain rfl := Except.ok.inj h
        rw [hrest, List.drop_drop, List.length_take_of_le (by rw [← hbehind]; exact henough)]
    · rw [hbody]
      refine ⟨iff_of_false (by rintro ⟨⟩) fun h => ?_, by rintro ⟨⟩⟩
      omega
  · rw [hheader]
    exact ⟨iff_of_false (by rintro ⟨⟩) fun h => hrefused ⟨h.1, h.2.1⟩, by rintro ⟨⟩⟩

/-- A frame with a body of at most one MiB is decoded from its encoding. From any stream, however it
is cut into chunks, a frame is read exactly if it is decoded from the bytes, and reading takes only
its header and its body off the stream. -/
theorem quic_frame_codec :
    (∀ frame : QuicFrame, frame.body.length ≤ maxMessageSize →
        QuicFrame.decode frame.encode = .ok frame) ∧
      ∀ (bytes : Bytes) (recv : Chunks UInt8) (room : ℕ → ℕ), recv.contents = bytes →
        ∀ frame : QuicFrame,
          ((recvFrame room recv).1 = .ok frame ↔ QuicFrame.decode bytes = .ok frame) ∧
            ((recvFrame room recv).1 = .ok frame → ∃ consumed,
              consumed.length = 5 + frame.body.length ∧
                bytes = consumed ++ (recvFrame room recv).2.contents) := by
  refine ⟨fun frame h => QuicFrame.decode_encode h, ?_⟩
  rintro bytes recv room rfl frame
  obtain ⟨hiff, hrest⟩ := recvFrame_ok_iff room recv frame
  refine ⟨hiff, fun h => ⟨recv.contents.take (5 + frame.body.length), ?_, ?_⟩⟩
  · obtain ⟨_, _, henough, rfl⟩ := QuicFrame.decode_eq_ok_iff.1 (hiff.1 h)
    rw [List.length_take, List.length_take_of_le (by rw [List.length_drop]; omega)]
    omega
  · rw [hrest h, List.take_append_drop]

/-- A frame that is cut inside of its header, with one more byte behind it. -/
theorem quic_frame_codec_two_chunks :
    (∀ frame : QuicFrame, frame.body.length ≤ maxMessageSize →
        QuicFrame.decode frame.encode = .ok frame) ∧
      QuicFrame.decode [2, 0, 0, 0, 2, 7, 8, 9] = .ok ⟨2, [7, 8]⟩ ∧
        (recvFrame (fun _ => 0) ⟨[[2, 0], [0, 0, 2, 7, 8, 9]], by decide⟩).1 =
          .ok ⟨2, [7, 8]⟩ := by
  have hdecode : QuicFrame.decode [2, 0, 0, 0, 2, 7, 8, 9] = .ok ⟨2, [7, 8]⟩ := by decide +kernel
  obtain ⟨hround, hstream⟩ := quic_frame_codec
  exact ⟨hround, hdecode, (hstream _ _ (fun _ => 0) rfl _).1.2 hdecode⟩


end KyberPipe
