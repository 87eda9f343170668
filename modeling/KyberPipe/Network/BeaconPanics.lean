import KyberPipe.Network.BeaconDelivery

/-!
# Panics of the beacon listener

The listener cuts texts at three places. It drops the magic and a separator from a datagram, which
fails for the magic alone. It shortens the signing key, which never fails, since a key that verifies
is hexadecimal. It shortens the key hash of an accepted beacon, which fails for a character across
the sixteenth byte.

No key of ML-DSA-65 fits the receive buffer, so for these signatures only the bare magic is left.
-/

namespace KyberPipe

open Text

namespace Beacon

section Listener

variable {verify : Bytes → Bytes → Bytes → Bool} {seen : SeenBeacons} {now : Clock}
variable {source : IpAddr} {expected : Option Bytes} {datagram : Bytes}

/-- The datagram is a beacon that passes all checks, and announces the host. -/
def Accepts (verify : Bytes → Bytes → Bytes → Bool) (seen : SeenBeacons) (now : Clock)
    (datagram : Bytes) (source : IpAddr) (expected : Option Bytes) (host : Host) : Prop :=
  ∃ separator payload, datagram.take bufferSize = magic ++ separator :: payload ∧
    isUtf8 payload = true ∧
    (parseBeaconPayload verify seen now payload source expected).1 = some host

/-- The log message of the discovery phase can be cut. -/
def DiscoveryLogCuts (verify : Bytes → Bytes → Bytes → Bool) (now : Clock) (datagram : Bytes)
    (source : IpAddr) (expected : Option Bytes) : Prop :=
  ∀ f pk, authenticate verify now ((datagram.take bufferSize).drop (magic.length + 1)) source
    expected = some (f, pk) → cutsAt f.signingPkHex 16 = true

/-- A key that verifies is hexadecimal. -/
theorem discoveryLogCuts : DiscoveryLogCuts verify now datagram source expected := by
  intro f pk hauth
  obtain ⟨-, -, -, hsigner, -⟩ := authenticate_eq_some.1 hauth
  obtain ⟨sig, -, hpk, -⟩ := signer_eq_some.1 hsigner
  exact cutsAt_of_decodeDigits hpk 16

/-- What starts with the magic is the magic, or has a separator and a payload behind it. -/
theorem eq_magic_or_of_isPrefixOf {raw : Bytes} (h : magic.isPrefixOf raw = true) :
    raw = magic ∨ ∃ separator payload, raw = magic ++ separator :: payload := by
  obtain ⟨rest, rfl⟩ := List.isPrefixOf_iff_prefix.1 h
  cases rest with
  | nil => exact .inl (List.append_nil magic)
  | cons separator payload => exact .inr ⟨separator, payload, rfl⟩

theorem take_bufferSize_eq_magic : datagram.take bufferSize = magic ↔ datagram = magic := by
  have hmagic : magic.length < bufferSize := by decide
  constructor
  · intro h
    have hlength := congrArg List.length h
    rw [List.length_take] at hlength
    rw [← h, List.take_of_length_le (by omega)]
  · rintro rfl
    exact List.take_of_length_le hmagic.le

theorem accepts_iff {separator : UInt8} {payload : Bytes} {host : Host}
    (hraw : datagram.take bufferSize = magic ++ separator :: payload) :
    Accepts verify seen now datagram source expected host ↔
      isUtf8 payload = true ∧
        (parseBeaconPayload verify seen now payload source expected).1 = some host := by
  constructor
  · rintro ⟨separator', payload', hraw', haccepted⟩
    obtain ⟨-, rfl⟩ := List.cons.inj (List.append_cancel_left (hraw.symm.trans hraw'))
    exact haccepted
  · intro haccepted
    exact ⟨separator, payload, hraw, haccepted⟩

/-- When the listener panics. -/
theorem panicked_iff :
    (receiveDatagram verify seen now datagram source expected).1 = .panicked ↔
      datagram = magic ∨
        ∃ host, Accepts verify seen now datagram source expected host ∧
          cutsAt host.hostPk 16 = false := by
  unfold receiveDatagram
  dsimp only
  by_cases hmagic : magic.isPrefixOf (datagram.take bufferSize) = true
  · rw [if_pos hmagic]
    rcases eq_magic_or_of_isPrefixOf hmagic with hraw | ⟨separator, payload, hraw⟩
    · rw [hraw, if_pos (Nat.lt_succ_self _)]
      exact iff_of_true rfl (.inl (take_bufferSize_eq_magic.1 hraw))
    · have hlong : ¬(magic ++ separator :: payload).length < magic.length + 1 := by
        rw [List.length_append, List.length_cons]
        omega
      have hdrop : (magic ++ separator :: payload).drop (magic.length + 1) = payload := by
        rw [List.drop_length_add_append, List.drop_succ_cons, List.drop_zero]
      have hbare : datagram ≠ magic := by
        rw [Ne, ← take_bufferSize_eq_magic, hraw]
        simp
      simp only [accepts_iff hraw]
      rw [hraw, if_neg hlong, hdrop, or_iff_right hbare]
      by_cases hutf8 : isUtf8 payload = true
      · rw [if_pos hutf8]
        simp only [hutf8, true_and]
        cases (parseBeaconPayload verify seen now payload source expected).1 with
        | none => exact iff_of_false (fun h => nomatch h) fun ⟨_, h, _⟩ => nomatch h
        | some host =>
          simp only [Option.elim_some, Option.some.injEq, exists_eq_left']
          cases cutsAt host.hostPk 16 <;> simp
      · rw [if_neg hutf8]
        exact iff_of_false (fun h => nomatch h) fun ⟨_, h, _⟩ => hutf8 h.1
  · rw [if_neg hmagic]
    -- neither the magic nor an accepted beacon
    refine iff_of_false (fun h => nomatch h) ?_
    rintro (rfl | ⟨host, ⟨separator, payload, hraw, -⟩, -⟩)
    · exact hmagic (by decide)
    · rw [hraw, List.isPrefixOf_iff_prefix] at hmagic
      exact hmagic (List.prefix_append _ _)

/-- The key of an accepted beacon fits the buffer in hexadecimal. -/
theorem exists_key_of_accepts {host : Host}
    (h : Accepts verify seen now datagram source expected host) :
    ∃ payload sig pk, verify payload sig pk = true ∧ 2 * pk.length < bufferSize := by
  obtain ⟨separator, payload, hraw, -, hparse⟩ := h
  obtain ⟨f, pk, hauth, -⟩ := exists_of_parseBeaconPayload hparse
  obtain ⟨hfields, -, -, hsigner, -⟩ := authenticate_eq_some.1 hauth
  obtain ⟨sig, -, hpk, hverify⟩ := signer_eq_some.1 hsigner
  have hfield : (splitN 7 colon payload)[4]? = some f.signingPkHex := by
    unfold Fields.ofPayload at hfields
    split at hfields
    · next hsplit =>
      rw [hsplit, ← Option.some.inj hfields]
      rfl
    · cases hfields
  have hshort := length_le_of_mem_splitOn (mem_splitOn_of_splitN hfield (by decide))
  have hbuffer := congrArg List.length hraw
  rw [List.length_take, List.length_append, List.length_cons] at hbuffer
  rw [verifyMldsaSignature, Bool.and_eq_true_iff] at hverify
  refine ⟨f.region, sig, pk, hverify.2, ?_⟩
  have hhex := Hex.length_of_decodeDigits hpk
  omega

end Listener

/-- The listener completes without a panic, logging included, just if the datagram is not the bare
magic and no accepted beacon has a character across the sixteenth byte of its key hash. With the
1952-byte keys of ML-DSA-65 only the bare magic counts. -/
theorem beacon_listener_panics (verify : Bytes → Bytes → Bytes → Bool) (seen : SeenBeacons)
    (now : Clock) (datagram : Bytes) (source : IpAddr) (expected : Option Bytes) :
    ((receiveDatagram verify seen now datagram source expected).1 ≠ .panicked ∧
        DiscoveryLogCuts verify now datagram source expected ↔
      datagram ≠ magic ∧ ∀ host, Accepts verify seen now datagram source expected host →
        cutsAt host.hostPk 16 = true) ∧
    ((∀ payload sig pk, verify payload sig pk = true → pk.length = 1952) →
      ((receiveDatagram verify seen now datagram source expected).1 ≠ .panicked ∧
        DiscoveryLogCuts verify now datagram source expected ↔ datagram ≠ magic)) := by
  have hiff : (receiveDatagram verify seen now datagram source expected).1 ≠ .panicked ∧
        DiscoveryLogCuts verify now datagram source expected ↔
      datagram ≠ magic ∧ ∀ host, Accepts verify seen now datagram source expected host →
        cutsAt host.hostPk 16 = true := by
    rw [and_iff_left discoveryLogCuts, Ne, panicked_iff, not_or, not_exists]
    refine and_congr_right fun _ => forall_congr' fun host => ?_
    rw [not_and, Bool.not_eq_false]
  refine ⟨hiff, fun hkeys => hiff.trans (and_iff_left fun host haccepts => ?_)⟩
  obtain ⟨payload, sig, pk, hverify, hfits⟩ := exists_key_of_accepts haccepts
  rw [hkeys payload sig pk hverify] at hfits
  exact absurd hfits (by decide)

/-- A beacon with a key of 1952 bytes in hexadecimal. -/
def longBeacon : Bytes :=
  magic ++ utf8 ":07:10.0.0.2:1000:0102:" ++ List.replicate 3904 0x61 ++ utf8 ":04"

/-- A scheme that accepts every key of 1952 bytes, and a beacon with such a key. -/
theorem beacon_listener_panics_not_magic :
    (receiveDatagram (fun _ _ pk => pk.length == 1952) ∅ ⟨0, 1000⟩ longBeacon
        (.v4 ![10, 0, 0, 2]) none).1 ≠ .panicked ∧
      DiscoveryLogCuts (fun _ _ pk => pk.length == 1952) ⟨0, 1000⟩ longBeacon
        (.v4 ![10, 0, 0, 2]) none :=
  ((beacon_listener_panics (fun _ _ pk => pk.length == 1952) ∅ ⟨0, 1000⟩ longBeacon
    (.v4 ![10, 0, 0, 2]) none).2 fun _ _ _ h => beq_iff_eq.1 h).2 (by decide +kernel)

/-- The magic alone panics. -/
theorem bare_magic_panics :
    (receiveDatagram (fun _ _ _ => false) ∅ ⟨0, 1000⟩ magic (.v4 ![10, 0, 0, 2]) none).1 =
      .panicked := by
  decide

end Beacon

end KyberPipe
