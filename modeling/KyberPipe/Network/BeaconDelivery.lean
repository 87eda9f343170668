import KyberPipe.Network.Beacon

/-!
# Delivery of beacons

A beacon that arrives as it was sent is found by the listener only if it fits the receive buffer
and declares an IPv4 address: the text of an IPv6 address contains the separator of the fields. The
key and the signature alone take more than ten thousand bytes in hexadecimal, and the buffer has
2048.
-/

namespace KyberPipe

open Text Beacon

/-! ### Fields without separators -/

theorem decodeDigits_utf8_hex (bytes : Bytes) :
    Hex.decodeDigits (utf8 (Hex.encode bytes)) = some bytes :=
  Hex.decode_encode bytes

theorem colon_notMem_hex (bytes : Bytes) : colon ∉ utf8 (Hex.encode bytes) := by
  intro hmem
  exact absurd (Hex.digitValue_of_decodeDigits (decodeDigits_utf8_hex bytes) colon hmem) (by decide)

theorem length_utf8_hex (bytes : Bytes) : (utf8 (Hex.encode bytes)).length = 2 * bytes.length :=
  Hex.length_of_decodeDigits (decodeDigits_utf8_hex bytes)

theorem colon_notMem_repr (n : ℕ) : colon ∉ utf8 n.repr := by
  intro hmem
  exact absurd (digit_of_mem_utf8_toString hmem).2 (by decide)

theorem utf8_colon : utf8 ":" = [colon] := by decide

namespace IpAddr

theorem colon_notMem_octetsText (a b c d : ℕ) : colon ∉ utf8 (octetsText a b c d) := by
  have hdot : utf8 "." = [0x2E] := by decide
  simp only [octetsText, utf8_append, List.mem_append, not_or, hdot, List.mem_singleton]
  exact ⟨⟨⟨⟨⟨⟨colon_notMem_repr a, by decide⟩, colon_notMem_repr b⟩, by decide⟩,
    colon_notMem_repr c⟩, by decide⟩, colon_notMem_repr d⟩

theorem colon_mem_segmentsText {s t : UInt16} {rest : List UInt16} :
    colon ∈ utf8 (segmentsText (s :: t :: rest)) := by
  rw [segmentsText, List.map_cons, List.map_cons, String.intercalate_cons_cons, utf8_append,
    utf8_append, utf8_colon]
  exact List.mem_append_left _ (List.mem_append_right _ (List.mem_singleton_self colon))

/-- The text of an address contains a colon exactly if it is not an IPv4 address. -/
theorem colon_mem_display (ip : IpAddr) : colon ∈ utf8 ip.display ↔ ip.isIpv4 = false := by
  cases ip with
  | v4 o =>
    have hnone : colon ∉ utf8 (v4 o).display := colon_notMem_octetsText _ _ _ _
    simp [isIpv4, hnone]
  | v6 s =>
    have hcolon : colon ∈ utf8 "::ffff:" := by decide
    have htwo : colon ∈ utf8 "::" := by decide
    simp only [display, isIpv4, iff_true]
    split_ifs
    · rw [utf8_append]
      exact List.mem_append_left _ hcolon
    · rw [utf8_append, utf8_append]
      exact List.mem_append_left _ (List.mem_append_right _ htwo)
    · rw [List.ofFn_succ, List.ofFn_succ]
      exact colon_mem_segmentsText

end IpAddr

namespace Beacon

/-- The fields of the beacon of a host as the sender writes them. -/
def sentFields (hash : Bytes) (ip : IpAddr) (ts : ℕ) (nonce pk sig : Bytes) : Fields where
  hostPk := utf8 (Hex.encode hash)
  localIp := utf8 ip.display
  timestamp := utf8 (toString ts)
  nonceHex := utf8 (Hex.encode nonce)
  signingPkHex := utf8 (Hex.encode pk)
  sigHex := utf8 (Hex.encode sig)

/-- The payload of a host is its key hash and its address. -/
def hostPayload (hash : Bytes) (ip : IpAddr) : String := Hex.encode hash ++ ":" ++ ip.display

/-- The fields of a payload up to the signature, each with the separator behind it. -/
def Fields.head (f : Fields) : Bytes :=
  f.region ++ [colon] ++ f.signingPkHex ++ [colon]

section Sent

variable {hash nonce pk sig : Bytes} {ip : IpAddr} {ts : ℕ}

theorem region_sentFields :
    (sentFields hash ip ts nonce pk sig).region =
      utf8 (signedRegion (hostPayload hash ip) ts nonce) := by
  simp [Fields.region, sentFields, signedRegion, hostPayload, utf8_colon]

/-- The datagram is the magic, a separator and the fields. -/
theorem sendP2pBeacon_eq :
    sendP2pBeacon (hostPayload hash ip) ts nonce pk sig =
      magic ++ colon :: ((sentFields hash ip ts nonce pk sig).head ++ utf8 (Hex.encode sig)) := by
  rw [Fields.head, region_sentFields]
  simp [sendP2pBeacon, sentFields, utf8_colon]

theorem isUtf8_sent :
    isUtf8 ((sentFields hash ip ts nonce pk sig).head ++ utf8 (Hex.encode sig)) = true := by
  have htext : (sentFields hash ip ts nonce pk sig).head ++ utf8 (Hex.encode sig) =
      utf8 (signedRegion (hostPayload hash ip) ts nonce ++ ":" ++ Hex.encode pk ++ ":" ++
        Hex.encode sig) := by
    rw [Fields.head, region_sentFields]
    simp [sentFields, utf8_colon]
  rw [htext]
  exact isUtf8_utf8 _

/-- The fields of a beacon of an IPv4 host, also if its signature was cut off, are read back. -/
theorem ofPayload_sent (hip : ip.isIpv4 = true) {sigHex : Bytes} (hsig : colon ∉ sigHex) :
    Fields.ofPayload ((sentFields hash ip ts nonce pk sig).head ++ sigHex) =
      some { sentFields hash ip ts nonce pk sig with sigHex := sigHex } := by
  have hno : colon ∉ utf8 ip.display := by
    rw [IpAddr.colon_mem_display, hip]
    decide
  let fields := [utf8 (Hex.encode hash), utf8 ip.display, utf8 (toString ts),
    utf8 (Hex.encode nonce), utf8 (Hex.encode pk), sigHex]
  have hsplit : splitN 7 colon ([colon].intercalate fields) = fields := by
    refine splitN_intercalate ?_ nofun (by simp [fields])
    simp [fields, colon_notMem_hex, hno, colon_notMem_repr, hsig]
  have hjoin : (sentFields hash ip ts nonce pk sig).head ++ sigHex =
      [colon].intercalate fields := by
    simp [fields, Fields.head, Fields.region, sentFields, List.intercalate]
  rw [Fields.ofPayload, hjoin, hsplit]
  rfl

/-- All separators of a beacon of an IPv4 host stand before its signature. -/
theorem count_head (hip : ip.isIpv4 = true) :
    (sentFields hash ip ts nonce pk sig).head.count colon = 5 := by
  have hno : colon ∉ utf8 ip.display := by
    rw [IpAddr.colon_mem_display, hip]
    decide
  simp [Fields.head, Fields.region, sentFields, List.count_eq_zero_of_not_mem, colon_notMem_hex,
    colon_notMem_repr, hno]

end Sent

/-! ### The listener -/

section Listener

variable {verify : Bytes → Bytes → Bytes → Bool} {seen : SeenBeacons} {now : Clock}
variable {source : IpAddr} {expected : Option Bytes}

theorem length_splitN_of_ofPayload {payload : Bytes} {f : Fields}
    (h : Fields.ofPayload payload = some f) : 6 ≤ (splitN 7 colon payload).length := by
  unfold Fields.ofPayload at h
  split at h
  · next hsplit =>
    rw [hsplit]
    simp
  · cases h

/-- Inversion of the signature check. -/
theorem signer_eq_some {f : Fields} {pk : Bytes} :
    f.signer verify = some pk ↔
      ∃ sig, Hex.decodeDigits f.sigHex = some sig ∧ Hex.decodeDigits f.signingPkHex = some pk ∧
        verifyMldsaSignature verify f.region sig pk = true := by
  simp only [Fields.signer, Option.bind_eq_bind, Option.bind_eq_some_iff]
  constructor
  · rintro ⟨sig, hsig, pk', hpk, h⟩
    split_ifs at h with hverify
    obtain rfl := Option.some.inj h
    exact ⟨sig, hsig, hpk, hverify⟩
  · rintro ⟨sig, hsig, hpk, hverify⟩
    exact ⟨sig, hsig, pk, hpk, if_pos hverify⟩

/-- Inversion of the checks before the replay cache. -/
theorem authenticate_eq_some {payload pk : Bytes} {f : Fields} :
    authenticate verify now payload source expected = some (f, pk) ↔
      Fields.ofPayload payload = some f ∧ f.stale now = false ∧ f.localIp = utf8 source.display ∧
        f.signer verify = some pk ∧ expected.any (· ≠ pk) = false := by
  unfold authenticate
  cases hfields : Fields.ofPayload payload with
  | none => simp
  | some f' =>
    simp only [Option.bind_eq_bind, Option.bind_some, Option.some.injEq]
    split_ifs with hstale hip
    · constructor
      · nofun
      · rintro ⟨rfl, hfresh, -⟩
        exact absurd (hstale.symm.trans hfresh) nofun
    · constructor
      · nofun
      · rintro ⟨rfl, -, hsame, -⟩
        exact absurd hsame hip
    · constructor
      · intro h
        obtain ⟨pk', hpk, h⟩ := Option.bind_eq_some_iff.1 h
        split_ifs at h with hexpected
        obtain ⟨rfl, rfl⟩ := Prod.mk.inj (Option.some.inj h)
        exact ⟨rfl, by simpa using hstale, not_not.1 hip, hpk, by simpa using hexpected⟩
      · rintro ⟨rfl, -, -, hpk, hexpected⟩
        rw [hpk, Option.bind_some, hexpected]
        rfl

/-- The listener finds a host only in a datagram whose payload passes the checks. -/
theorem found_iff {datagram : Bytes} {host : Host} :
    (receiveDatagram verify seen now (magic ++ colon :: datagram) source expected).1 =
        .found host ↔
      isUtf8 (datagram.take (bufferSize - (magic.length + 1))) = true ∧
        (parseBeaconPayload verify seen now (datagram.take (bufferSize - (magic.length + 1)))
          source expected).1 = some host ∧ cutsAt host.hostPk 16 = true := by
  have hraw : (magic ++ colon :: datagram).take bufferSize =
      magic ++ colon :: datagram.take (bufferSize - (magic.length + 1)) := by
    have hsize : bufferSize = magic.length + (bufferSize - (magic.length + 1) + 1) := by decide
    rw [hsize, List.take_length_add_append, List.take_succ_cons]
    rfl
  have hdrop : (magic ++ colon :: datagram.take (bufferSize - (magic.length + 1))).drop
      (magic.length + 1) = datagram.take (bufferSize - (magic.length + 1)) := by
    rw [List.drop_length_add_append, List.drop_succ_cons, List.drop_zero]
  have hmagic : magic.isPrefixOf
      (magic ++ colon :: datagram.take (bufferSize - (magic.length + 1))) = true := by
    rw [List.isPrefixOf_iff_prefix]
    exact List.prefix_append _ _
  have hlong : ¬ (magic ++ colon :: datagram.take (bufferSize - (magic.length + 1))).length <
      magic.length + 1 := by
    simp only [List.length_append, List.length_cons]
    omega
  simp only [receiveDatagram, hraw, hmagic, if_true, if_neg hlong, hdrop]
  split_ifs with hutf8
  · cases hhost : (parseBeaconPayload verify seen now
        (datagram.take (bufferSize - (magic.length + 1))) source expected).1 with
    | none => simp [hutf8]
    | some host' =>
      simp only [Option.elim_some, hutf8, true_and, Option.some.injEq]
      split_ifs with hcut
      · simp only [ListenOutcome.found.injEq]
        exact ⟨fun h => ⟨h, h ▸ hcut⟩, fun h => h.1⟩
      · constructor
        · nofun
        · rintro ⟨rfl, h⟩
          exact absurd h hcut
  · simp [hutf8]

theorem exists_of_parseBeaconPayload {payload : Bytes} {host : Host}
    (h : (parseBeaconPayload verify seen now payload source expected).1 = some host) :
    ∃ f pk, authenticate verify now payload source expected = some (f, pk) ∧
      host = { hostPk := f.hostPk, localIp := f.localIp } := by
  unfold parseBeaconPayload at h
  split at h
  · cases h
  · next f pk hauth =>
    refine ⟨f, pk, hauth, ?_⟩
    split at h
    · exact (Option.some.inj h).symm
    · dsimp only at h
      split_ifs at h
      exact (Option.some.inj h).symm

/-- A nonce that is not in the cache is not a replay. -/
theorem beaconNonceIsReplay_of_notMem {pk nonce : Bytes} (h : (pk, nonce) ∉ seen) (at_ : ℕ) :
    (SeenBeacons.beaconNonceIsReplay seen at_ pk nonce).1 = false := by
  have hprune : (SeenBeacons.prune seen at_).lookup (pk, nonce) = none := by
    rw [SeenBeacons.prune, AList.lookup_retain, AList.lookup_eq_none.2 h]
    simp
  simp only [SeenBeacons.beaconNonceIsReplay]
  rw [if_neg]
  intro hmem
  obtain ⟨v, hv⟩ := Option.isSome_iff_exists.1 (AList.lookup_isSome.2 hmem)
  split_ifs at hv
  · rw [AList.lookup_of_lookup_eraseMin _ hv] at hprune
    cases hprune
  · rw [hv] at hprune
    cases hprune

end Listener

/-! ### From the sender to the listener -/

section Delivery

variable {verify : Bytes → Bytes → Bytes → Bool} {hash nonce pk sig : Bytes} {ip : IpAddr} {ts : ℕ}
variable {now : Clock} {seen : SeenBeacons} {expected : Option Bytes}

/-- The host that a beacon announces. -/
def sentHost (hash : Bytes) (ip : IpAddr) : Host where
  hostPk := utf8 (Hex.encode hash)
  localIp := utf8 ip.display

/-- A text of hexadecimal digits can be cut anywhere. -/
theorem cutsAt_of_decodeDigits {text bytes : Bytes} (h : Hex.decodeDigits text = some bytes)
    (i : ℕ) : cutsAt text i = true := by
  have hall : ∀ b ∈ text, (b &&& 0xC0 != 0x80) = true := by
    intro b hb
    have hdigit := Hex.digitValue_of_decodeDigits h b hb
    have hbytes : ∀ n : Fin 256, (Hex.digitValue (UInt8.ofNat n)).isSome = true →
        (UInt8.ofNat n &&& 0xC0 != 0x80) = true := by
      decide +kernel
    have hb := hbytes ⟨b.toNat, b.toNat_lt⟩
    rw [UInt8.ofNat_toNat] at hb
    exact hb hdigit
  unfold cutsAt
  cases hbyte : text[i]? with
  | none => rfl
  | some b => exact hall b (List.mem_of_getElem? hbyte)

theorem cutsAt_hex (bytes : Bytes) (i : ℕ) : cutsAt (utf8 (Hex.encode bytes)) i = true :=
  cutsAt_of_decodeDigits (decodeDigits_utf8_hex bytes) i

theorem isIpv4_of_found {datagram : Bytes}
    (h : (receiveDatagram verify seen now (magic ++ colon :: datagram) ip expected).1 =
      .found (sentHost hash ip)) : ip.isIpv4 = true := by
  obtain ⟨-, hparse, -⟩ := found_iff.1 h
  obtain ⟨f, _, hauth, hhost⟩ := exists_of_parseBeaconPayload hparse
  have hip : f.localIp = utf8 ip.display := (congrArg Host.localIp hhost).symm
  -- the second field of a payload has no separator
  have hno : colon ∉ f.localIp := by
    have hfields := (authenticate_eq_some.1 hauth).1
    unfold Fields.ofPayload at hfields
    split at hfields
    · next hsplit =>
      obtain rfl := Option.some.inj hfields
      exact notMem_splitN (i := 1) (n := 7) (by rw [hsplit]; rfl) (by decide)
    · cases hfields
  rw [hip, IpAddr.colon_mem_display] at hno
  simpa using hno

/-- A signature field that verifies is not cut off, if signatures have a fixed length. -/
theorem length_of_signer_sent {sigHex pk' : Bytes}
    (hfixed : ∀ sig', verify (utf8 (signedRegion (hostPayload hash ip) ts nonce)) sig' pk = true →
      sig'.length = sig.length)
    (h : ({ sentFields hash ip ts nonce pk sig with sigHex := sigHex } : Fields).signer verify =
      some pk') : sigHex.length = 2 * sig.length := by
  obtain ⟨sig', hsig', hpk', hverify⟩ := signer_eq_some.1 h
  have hpk : some pk = some pk' := (decodeDigits_utf8_hex pk).symm.trans hpk'
  obtain rfl := Option.some.inj hpk
  have hregion : ({ sentFields hash ip ts nonce pk sig with sigHex := sigHex } : Fields).region =
      (sentFields hash ip ts nonce pk sig).region := rfl
  rw [verifyMldsaSignature, hregion, region_sentFields, Bool.and_eq_true_iff] at hverify
  rw [Hex.length_of_decodeDigits hsig', hfixed sig' hverify.2]

/-- A beacon that is found has not been cut off, if signatures have a fixed length. -/
theorem length_le_of_found
    (hfixed : ∀ sig', verify (utf8 (signedRegion (hostPayload hash ip) ts nonce)) sig' pk = true →
      sig'.length = sig.length)
    (h : (receiveDatagram verify seen now (sendP2pBeacon (hostPayload hash ip) ts nonce pk sig) ip
      expected).1 = .found (sentHost hash ip)) :
    (sendP2pBeacon (hostPayload hash ip) ts nonce pk sig).length ≤ bufferSize := by
  rw [sendP2pBeacon_eq] at h ⊢
  have hip := isIpv4_of_found h
  obtain ⟨-, hparse, -⟩ := found_iff.1 h
  obtain ⟨f, pk', hauth, hhost⟩ := exists_of_parseBeaconPayload hparse
  obtain ⟨hfields, -, -, hsigner, -⟩ := authenticate_eq_some.1 hauth
  have hcount : (sentFields hash ip ts nonce pk sig).head.count colon = 5 := count_head hip
  by_contra hlong
  rw [not_le, List.length_append, List.length_cons, List.length_append] at hlong
  generalize hroom : bufferSize - (magic.length + 1) = room at hfields
  have hmagic : magic.length + 1 ≤ bufferSize := by decide
  have hshort : room < (sentFields hash ip ts nonce pk sig).head.length +
      (utf8 (Hex.encode sig)).length := by
    omega
  rcases Nat.lt_or_ge room (sentFields hash ip ts nonce pk sig).head.length with hhead | hhead
  · -- the signature and the separator before it are cut off
    have hlast : (sentFields hash ip ts nonce pk sig).head.take room ++
        (sentFields hash ip ts nonce pk sig).head.drop room =
          (sentFields hash ip ts nonce pk sig).head := List.take_append_drop _ _
    have hdropped : 0 < ((sentFields hash ip ts nonce pk sig).head.drop room).count colon := by
      rw [List.count_pos_iff]
      have hne : (sentFields hash ip ts nonce pk sig).head.drop room ≠ [] := by
        rw [Ne, List.drop_eq_nil_iff]
        omega
      have hend : ((sentFields hash ip ts nonce pk sig).head.drop room).getLast hne = colon := by
        rw [List.getLast_drop hne]
        exact List.getLast_append_singleton _
      exact hend ▸ List.getLast_mem hne
    have hsplit := congrArg (List.count colon) hlast
    rw [List.count_append, hcount] at hsplit
    rw [List.take_append_of_le_length hhead.le] at hfields
    have hfew := length_splitN_le 7 colon ((sentFields hash ip ts nonce pk sig).head.take room)
    have hmany := length_splitN_of_ofPayload hfields
    omega
  · -- a part of the signature is cut off
    rw [List.take_append, List.take_of_length_le hhead] at hfields
    have hpart : colon ∉ (utf8 (Hex.encode sig)).take
        (room - (sentFields hash ip ts nonce pk sig).head.length) :=
      fun hmem => colon_notMem_hex sig (List.mem_of_mem_take hmem)
    rw [ofPayload_sent hip hpart] at hfields
    obtain rfl := Option.some.inj hfields
    have hwhole := length_utf8_hex sig
    have hlength := length_of_signer_sent hfixed hsigner
    rw [List.length_take] at hlength
    omega

/-- A signature of 3309 bytes does not fit the buffer: such a beacon is never found. -/
theorem not_found_of_length_sig
    (hfixed : ∀ sig', verify (utf8 (signedRegion (hostPayload hash ip) ts nonce)) sig' pk = true →
      sig'.length = sig.length)
    (hlength : sig.length = 3309) :
    (receiveDatagram verify seen now (sendP2pBeacon (hostPayload hash ip) ts nonce pk sig) ip
      expected).1 ≠ .found (sentHost hash ip) := by
  intro h
  have hfits := length_le_of_found hfixed h
  rw [sendP2pBeacon_eq, List.length_append, List.length_cons, List.length_append, length_utf8_hex,
    hlength, bufferSize] at hfits
  omega

/-- A beacon that fits and declares an IPv4 address is found. -/
theorem found_of_fits (hts : ts < 2 ^ 64) (hfresh : now.unix - ts ≤ maxAge)
    (hfirst : (pk, nonce) ∉ seen) (hexpected : expected = none ∨ expected = some pk)
    (hsig : verifyMldsaSignature verify (utf8 (signedRegion (hostPayload hash ip) ts nonce)) sig
      pk = true)
    (hip : ip.isIpv4 = true)
    (hfits : (sendP2pBeacon (hostPayload hash ip) ts nonce pk sig).length ≤ bufferSize) :
    (receiveDatagram verify seen now (sendP2pBeacon (hostPayload hash ip) ts nonce pk sig) ip
      expected).1 = .found (sentHost hash ip) := by
  rw [sendP2pBeacon_eq] at hfits ⊢
  have hwhole : ((sentFields hash ip ts nonce pk sig).head ++ utf8 (Hex.encode sig)).take
      (bufferSize - (magic.length + 1)) =
        (sentFields hash ip ts nonce pk sig).head ++ utf8 (Hex.encode sig) := by
    rw [List.length_append, List.length_cons] at hfits
    exact List.take_of_length_le (by omega)
  refine found_iff.2 ⟨?_, ?_, cutsAt_hex hash 16⟩
  · rw [hwhole]
    exact isUtf8_sent
  · rw [hwhole]
    have hauth : authenticate verify now
        ((sentFields hash ip ts nonce pk sig).head ++ utf8 (Hex.encode sig)) ip expected =
          some (sentFields hash ip ts nonce pk sig, pk) := by
      refine authenticate_eq_some.2 ⟨ofPayload_sent hip (colon_notMem_hex sig), ?_, rfl, ?_, ?_⟩
      · have hparse : parseUnsigned (2 ^ 64) (sentFields hash ip ts nonce pk sig).timestamp =
            some ts := parseUnsigned_toString hts
        simp only [Fields.stale, hparse, Option.any_some, decide_eq_false_iff_not, not_lt]
        exact hfresh
      · refine signer_eq_some.2 ⟨sig, decodeDigits_utf8_hex sig, decodeDigits_utf8_hex pk, ?_⟩
        rw [region_sentFields]
        exact hsig
      · rcases hexpected with rfl | rfl <;> simp
    have hnonce : Hex.decodeDigits (sentFields hash ip ts nonce pk sig).nonceHex = some nonce :=
      decodeDigits_utf8_hex nonce
    simp only [parseBeaconPayload, hauth, hnonce, beaconNonceIsReplay_of_notMem hfirst]
    rfl

/-- Let a beacon of a host arrive unmodified and for the first time within a minute, at a listener
without an expected key or with the key of the sender, and let only signatures of one length verify.
The host is found exactly if its address is an IPv4 address and the datagram fits the buffer. -/
theorem beacon_found_iff (verify : Bytes → Bytes → Bytes → Bool) {hash nonce pk sig : Bytes}
    {ip : IpAddr} {ts : ℕ} {now : Clock} {seen : SeenBeacons} {expected : Option Bytes}
    (hts : ts < 2 ^ 64) (hfresh : now.unix - ts ≤ maxAge) (hfirst : (pk, nonce) ∉ seen)
    (hexpected : expected = none ∨ expected = some pk)
    (hsig : verifyMldsaSignature verify (utf8 (signedRegion (hostPayload hash ip) ts nonce)) sig
      pk = true)
    (hfixed : ∀ sig', verify (utf8 (signedRegion (hostPayload hash ip) ts nonce)) sig' pk = true →
      sig'.length = sig.length) :
    (receiveDatagram verify seen now (sendP2pBeacon (hostPayload hash ip) ts nonce pk sig) ip
        expected).1 = .found (sentHost hash ip) ↔
      ip.isIpv4 = true ∧
        (sendP2pBeacon (hostPayload hash ip) ts nonce pk sig).length ≤ bufferSize := by
  constructor
  · intro h
    refine ⟨?_, length_le_of_found hfixed h⟩
    rw [sendP2pBeacon_eq] at h
    exact isIpv4_of_found h
  · rintro ⟨hip, hfits⟩
    exact found_of_fits hts hfresh hfirst hexpected hsig hip hfits

/-- A scheme with signatures of one byte, and a key of one byte. -/
theorem beacon_found_iff_of_short_signature :
    (receiveDatagram (fun _ sig _ => sig.length == 1) ∅ ⟨0, 1000⟩
        (sendP2pBeacon (hostPayload [7] (.v4 ![10, 0, 0, 2])) 990 [1, 2] [3] [4])
        (.v4 ![10, 0, 0, 2]) (some [3])).1 = .found (sentHost [7] (.v4 ![10, 0, 0, 2])) := by
  refine (beacon_found_iff (fun _ sig _ => sig.length == 1) (by decide) (by decide) ?_ (.inr rfl)
    (by decide +kernel) ?_).2 ⟨rfl, by decide +kernel⟩
  · exact AList.notMem_empty _
  · intro sig' h
    exact beq_iff_eq.1 h

/-- A host at an IPv4 address with an ML-DSA-65 key and signature is not found. -/
theorem mldsa_beacon_not_found :
    verifyMldsaSignature (fun _ sig _ => sig.length == 3309)
        (utf8 (signedRegion (hostPayload (.replicate 16 7) (.v4 ![10, 0, 0, 2])) 1000
          (.replicate 8 1)))
        (.replicate 3309 4) (.replicate 1952 3) = true ∧
      (receiveDatagram (fun _ sig _ => sig.length == 3309) ∅ ⟨0, 1000⟩
        (sendP2pBeacon (hostPayload (.replicate 16 7) (.v4 ![10, 0, 0, 2])) 1000 (.replicate 8 1)
          (.replicate 1952 3) (.replicate 3309 4)) (.v4 ![10, 0, 0, 2]) none).1 ≠
        .found (sentHost (.replicate 16 7) (.v4 ![10, 0, 0, 2])) := by
  constructor
  · have hpayload : (utf8 (signedRegion (hostPayload (.replicate 16 7) (.v4 ![10, 0, 0, 2])) 1000
        (.replicate 8 1))).isEmpty = false := by
      decide +kernel
    rw [verifyMldsaSignature, hpayload, List.isEmpty_replicate, List.isEmpty_replicate,
      List.length_replicate]
    decide
  · refine not_found_of_length_sig ?_ List.length_replicate
    intro sig' h
    rw [List.length_replicate]
    exact beq_iff_eq.1 h

end Delivery

end Beacon

end KyberPipe
