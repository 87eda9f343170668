import KyberPipe.Ratchet.State

/-!
# The wire form of ratchet messages

The binary framing of `tlv.rs`: a version byte, a flag for the rekey payload, and then every
field behind its length as a big-endian `u32`. Decoding ignores what follows the last field.
-/

namespace KyberPipe

/-- A ratchet message as it is framed, with the nonce and the ciphertext as raw bytes. -/
structure WireMessage where
  nonce : Bytes
  ciphertext : Bytes
  rekeyX25519Pk : Option Bytes := none
  rekeyMlkemPk : Option Bytes := none
  rekeyCiphertext : Option Bytes := none
  deriving DecidableEq

/-- The error for an input that ends inside the field `what`. -/
def tlvTruncated (what : String) : KyberError :=
  .serializationError s!"Ratchet TLV truncated at {what}"

/-- Split off the next `n` bytes. -/
def takeBytes (n : ℕ) (what : String) (data : Bytes) : Except KyberError (Bytes × Bytes) :=
  if data.length < n then .error (tlvTruncated what) else .ok (data.take n, data.drop n)

/-- Split off the next field: its length and then its bytes. -/
def readBytes (what : String) (data : Bytes) : Except KyberError (Bytes × Bytes) := do
  let (length, rest) ← takeBytes 4 what data
  takeBytes (ofBeBytes length) what rest

/-- A field behind its length, which is cut to 32 bits. -/
def lengthPrefixed (bytes : Bytes) : Bytes := beBytes 4 bytes.length ++ bytes

namespace WireMessage

/-- Encode a message. A rekey payload is complete or absent. -/
def toBinary (m : WireMessage) : Except KyberError Bytes :=
  let body := lengthPrefixed m.nonce ++ lengthPrefixed m.ciphertext
  match m.rekeyX25519Pk, m.rekeyMlkemPk, m.rekeyCiphertext with
  | some xpk, some mpk, some ct =>
    .ok (1 :: 1 :: body ++ (lengthPrefixed xpk ++ lengthPrefixed mpk ++ lengthPrefixed ct))
  | none, none, none => .ok (1 :: 0 :: body)
  | _, _, _ =>
    .error (.serializationError "Ratchet TLV rekey payload must be all-or-nothing (partial set)")

/-- Decode a message. Any flag but zero announces a rekey payload, whose fields must not be
empty. -/
def fromBinary (data : Bytes) : Except KyberError WireMessage := do
  let (version, rest) ← takeBytes 1 "version" data
  let version := version.headD 0
  if version ≠ 1 then
    throw (.serializationError s!"Unsupported ratchet TLV version {version.toNat}")
  let (hasRekey, rest) ← takeBytes 1 "has_rekey" rest
  let (nonce, rest) ← readBytes "nonce" rest
  let (ciphertext, rest) ← readBytes "ciphertext" rest
  if hasRekey.headD 0 ≠ 0 then
    let (xpk, rest) ← readBytes "rekey_x" rest
    let (mpk, rest) ← readBytes "rekey_m" rest
    let (ct, _) ← readBytes "rekey_ct" rest
    if xpk.isEmpty || mpk.isEmpty || ct.isEmpty then
      throw (.serializationError "Ratchet TLV rekey payload contains empty field(s)")
    return ⟨nonce, ciphertext, some xpk, some mpk, some ct⟩
  else return ⟨nonce, ciphertext, none, none, none⟩

/-- The message that the session works on. `ofBytes` is how the AEAD reads the bytes of a
ciphertext. -/
def decode {C : Type} (ofBytes : Bytes → C) (m : WireMessage) : RatchetEncryptedMessage C :=
  ⟨Nonce.ofBytes m.nonce, ofBytes m.ciphertext, m.rekeyX25519Pk, m.rekeyMlkemPk, m.rekeyCiphertext⟩

end WireMessage

/-! ## Round trip -/

theorem takeBytes_append {n : ℕ} {bytes : Bytes} (h : bytes.length = n) (what : String)
    (rest : Bytes) : takeBytes n what (bytes ++ rest) = .ok (bytes, rest) := by
  have hlong : ¬(bytes ++ rest).length < n := by
    rw [List.length_append]
    omega
  rw [takeBytes, if_neg hlong, List.take_left' h, List.drop_left' h]

theorem takeBytes_one (b : UInt8) (what : String) (rest : Bytes) :
    takeBytes 1 what (b :: rest) = .ok ([b], rest) :=
  takeBytes_append (List.length_singleton : [b].length = 1) what rest

/-- A field whose length fits into 32 bits is read back, and reading stops behind it. -/
theorem readBytes_lengthPrefixed {bytes : Bytes} (h : bytes.length < 2 ^ 32) (what : String)
    (rest : Bytes) : readBytes what (lengthPrefixed bytes ++ rest) = .ok (bytes, rest) := by
  have hlength : ofBeBytes (beBytes 4 bytes.length) = bytes.length := by
    rw [ofBeBytes_beBytes]
    exact Nat.mod_eq_of_lt h
  rw [readBytes, lengthPrefixed, List.append_assoc, takeBytes_append (length_beBytes 4 _)]
  show takeBytes (ofBeBytes (beBytes 4 bytes.length)) what (bytes ++ rest) = _
  exact takeBytes_append hlength.symm what rest

namespace WireMessage

/-- The lengths of all fields fit into their prefixes, and no rekey field is empty. -/
structure Framable (m : WireMessage) : Prop where
  nonce : m.nonce.length < 2 ^ 32
  ciphertext : m.ciphertext.length < 2 ^ 32
  rekeyX25519Pk : ∀ f, m.rekeyX25519Pk = some f → f ≠ [] ∧ f.length < 2 ^ 32
  rekeyMlkemPk : ∀ f, m.rekeyMlkemPk = some f → f ≠ [] ∧ f.length < 2 ^ 32
  rekeyCiphertext : ∀ f, m.rekeyCiphertext = some f → f ≠ [] ∧ f.length < 2 ^ 32

/-- An encoded message decodes to itself, whatever follows it. -/
theorem fromBinary_toBinary_append {m : WireMessage} (h : m.Framable) {bytes : Bytes}
    (hbytes : m.toBinary = .ok bytes) (trailing : Bytes) :
    fromBinary (bytes ++ trailing) = .ok m := by
  obtain ⟨nonce, ciphertext, xpk, mpk, ct⟩ := m
  unfold toBinary at hbytes
  dsimp only at hbytes
  split at hbytes
  · rename_i xpk mpk ct
    obtain rfl := Except.ok.inj hbytes
    obtain ⟨hxpk, hxpkLen⟩ := h.rekeyX25519Pk xpk rfl
    obtain ⟨hmpk, hmpkLen⟩ := h.rekeyMlkemPk mpk rfl
    obtain ⟨hct, hctLen⟩ := h.rekeyCiphertext ct rfl
    simp [fromBinary, takeBytes_one, readBytes_lengthPrefixed h.nonce,
      readBytes_lengthPrefixed h.ciphertext, readBytes_lengthPrefixed hxpkLen,
      readBytes_lengthPrefixed hmpkLen, readBytes_lengthPrefixed hctLen, hxpk, hmpk, hct,
      Bind.bind, Except.bind, Pure.pure, Except.pure]
  · obtain rfl := Except.ok.inj hbytes
    simp [fromBinary, takeBytes_one, readBytes_lengthPrefixed h.nonce,
      readBytes_lengthPrefixed h.ciphertext, Bind.bind, Except.bind, Pure.pure, Except.pure]
  · cases hbytes

end WireMessage

end KyberPipe
