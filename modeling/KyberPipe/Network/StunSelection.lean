import KyberPipe.Network.Stun

/-!
# Which address a STUN response selects

A success response is a message whose length field fits the datagram, possibly with bytes behind it.
The loop reads the attributes of the message and then those behind it, as far as the buffer holds
them. The last address wins and the last fingerprint decides. `LastIs` says what the last attribute
of a kind has to be.
-/

namespace KyberPipe

namespace Stun

/-- A success response to the request with a transaction id. -/
structure IsSuccess (txId datagram : Bytes) : Prop where
  /-- The length field fits the datagram. -/
  fits : headerSize + u16At datagram 2 ≤ datagram.length
  success : u16At datagram 0 = 0x0101
  txId_eq : (datagram.drop 8).take 12 = txId

/-- The message of a datagram: the header and as many bytes as its length field says. -/
def message (datagram : Bytes) : Bytes := datagram.take (headerSize + u16At datagram 2)

section Take

variable {limit : ℕ} {buf : Bytes} {pos n : ℕ}

theorem u16At_take (h : pos + 2 ≤ n) : u16At (buf.take n) pos = u16At buf pos := by
  rw [u16At, u16At, List.drop_take, List.take_take, min_eq_left (by omega)]

end Take

/-! ### The message and what stands behind it -/

/-- The attributes that the loop reads behind the message. -/
def trailing (datagram : Bytes) : List Attribute :=
  (attributes maxAttributeLength (datagram.take bufferSize)).drop
    (attributes maxAttributeLength (message datagram)).length

variable {addr : SocketAddr}

theorem Scan.result_eq_ok {s : Scan} :
    s.result = .ok addr ↔ s.fingerprintOk ≠ some false ∧ s.mappedAddr = some addr := by
  unfold Scan.result
  split_ifs with hfailed
  · exact iff_of_false (fun h => nomatch h) fun h => h.1 hfailed
  · cases s.mappedAddr with
    | none => exact iff_of_false (fun h => nomatch h) fun h => nomatch h.2
    | some other =>
      exact ⟨fun h => ⟨hfailed, congrArg some (Except.ok.inj h)⟩,
        fun h => congrArg Except.ok (Option.some.inj h.2)⟩

variable {a : Attribute} {front behind : List Attribute}

section Datagram

variable {txId datagram : Bytes}

theorem IsSuccess.length_message (h : IsSuccess txId datagram) :
    (message datagram).length = headerSize + u16At datagram 2 := by
  rw [message, List.length_take, min_eq_left h.fits]

theorem length_take_bufferSize (datagram : Bytes) :
    (datagram.take bufferSize).length = min 512 datagram.length :=
  List.length_take

/-- The header checks on what the buffer holds. -/
theorem IsSuccess.readResponse (h : IsSuccess txId datagram) :
    readResponse txId (datagram.take bufferSize) =
      if bufferSize < (message datagram).length then
        .error ⟨"STUN message length field (" ++ toString (u16At (message datagram) 2 + 20) ++
          ") exceeds actual payload (" ++ toString bufferSize ++ ")"⟩
      else
        (scanned (datagram.take bufferSize)
          (attributes maxAttributeLength (datagram.take bufferSize))).result := by
  have hlen := length_take_bufferSize datagram
  have hmsg := h.length_message
  have hfits := h.fits
  simp only [headerSize] at hmsg hfits
  have hfield : u16At (datagram.take bufferSize) 2 = u16At datagram 2 := u16At_take (by decide)
  have hfield' : u16At (message datagram) 2 = u16At datagram 2 :=
    u16At_take (by simp only [headerSize]; omega)
  have htype : u16At (datagram.take bufferSize) 0 = 0x0101 :=
    (u16At_take (by decide)).trans h.success
  have htx : ((datagram.take bufferSize).drop 8).take 12 = txId := by
    rw [List.drop_take, List.take_take]
    exact h.txId_eq
  unfold Stun.readResponse
  dsimp only
  rw [if_neg (by simp only [headerSize]; omega), hfield, hfield']
  by_cases hlong : 512 < (message datagram).length
  · have hfull : (datagram.take bufferSize).length = 512 := by omega
    rw [if_pos (show bufferSize < _ from hlong), hfull, if_pos (by omega)]
    rfl
  · rw [if_neg (show ¬bufferSize < _ from hlong), if_neg (by omega), if_neg (not_not.2 htype),
      if_neg (not_not.2 htx.symm), loop_start]

end Datagram

end Stun

end KyberPipe
