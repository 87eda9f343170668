import KyberPipe.Lib.AddressBlock
import KyberPipe.Lib.Cursor
import KyberPipe.Lib.Text
import KyberPipe.Network.Address
import Mathlib.Tactic.FinCases

/-!
# The guard of feed addresses

`resolve_feed_endpoint` of `automation.rs` resolves the host of a feed URL and refuses addresses
inside the network of the user. For IPv4 it refuses all the address blocks it is for. For IPv6 it
misses the unspecified address, half of the unique local block, and every address that carries an
IPv4 address. Address parsing and name resolution are parameters.
-/

namespace KyberPipe

/-- The segments of `Ipv6Addr::LOCALHOST`. -/
def localhostSegments : Fin 8 → UInt16 := ![0, 0, 0, 0, 0, 0, 0, 1]

/-- Octets and segments are numbered from 0. -/
local instance neZeroFour : NeZero 4 := ⟨by decide⟩

local instance neZeroEight : NeZero 8 := ⟨by decide⟩

/-- Whether the guard refuses an address. -/
def isPrivateOrRestricted : IpAddr → Bool
  | .v4 octets =>
    octets 0 == 10 || (octets 0 == 172 && octets 1 &&& 0xF0 == 16) ||
      (octets 0 == 192 && octets 1 == 168) || octets 0 == 127 ||
      (octets 0 == 169 && octets 1 == 254) || (octets 0 == 100 && octets 1 &&& 0xC0 == 64) ||
      octets 0 == 0
  | .v6 segments =>
    segments == localhostSegments || segments 0 &&& 0xFFC0 == 0xFE80 ||
      segments 0 &&& 0xFF00 == 0xFD00

/-! ## Resolving a feed URL -/

/-- The parts of the standard library that a feed URL goes through. -/
structure Resolver where
  parseSocketAddr : String → Option SocketAddr
  /-- `to_socket_addrs`: the answer of name resolution. -/
  toSocketAddrs : String → Except String (List SocketAddr)

/-- Host, port and path of a feed URL. -/
def feedAuthority (url : String) : Except String (String × ℕ × String) := do
  let urlStr := Text.trim url.toList
  let https := "https://".toList.isPrefixOf urlStr
  let http := "http://".toList.isPrefixOf urlStr
  if !http && !https then
    throw "Only HTTP(S) URLs allowed for feed source"
  let withoutProto :=
    Text.trimStartMatches "http://".toList (Text.trimStartMatches "https://".toList urlStr)
  let authority := withoutProto.takeWhile (· ≠ '/')
  let path := if withoutProto.contains '/' then withoutProto.dropWhile (· ≠ '/') else ['/']
  if authority.isEmpty then
    throw "Feed URL has no host"
  let portless := (authority, if https then 443 else 80)
  let (host, port) ←
    match Text.rsplitOnce ':' authority with
    | some (h, p) =>
      if !h.isEmpty && p.all Char.isDigit then
        match Text.parseUnsigned (2 ^ 16) (Text.utf8 (String.ofList p)) with
        | some port => pure (h, port)
        | none => throw "Invalid feed port"
      else pure portless
    | none => pure portless
  pure (String.ofList host, port, String.ofList path)

/-- The first of the resolved addresses, if none of them is refused. -/
def firstAllowed (addrs : List SocketAddr) : Except String SocketAddr :=
  match addrs.find? (isPrivateOrRestricted ·.ip) with
  | some addr =>
    .error ("SSRF blocked: connection to private/internal address " ++ addr.ip.display ++
      " is not allowed")
  | none =>
    match addrs with
    | [] => .error "No address resolved"
    | first :: _ =>
      if isPrivateOrRestricted first.ip then
        .error ("SSRF guard: refusing connect to " ++ first.ip.display ++
          " (private/link-local/loopback)")
      else .ok first

namespace Resolver

variable (R : Resolver)

/-- The addresses of a host and port: a literal address, or what name resolution answers. -/
def addresses (addr : String) : Except String (List SocketAddr) :=
  match R.parseSocketAddr addr with
  | some literal => .ok [literal]
  | none => (R.toSocketAddrs addr).mapError ("DNS resolution failed: " ++ ·)

/-- Host, port, path and address of a feed URL. -/
def resolveFeedEndpoint (url : String) : Except String (String × ℕ × String × SocketAddr) := do
  let (host, port, path) ← feedAuthority url
  let addrs ← R.addresses s!"{host}:{port}"
  let first ← firstAllowed addrs
  pure (host, port, path, first)

end Resolver

/-! ## What the guard is for -/

/-- The number of an IPv4 address. -/
def ipv4Number (octets : Fin 4 → UInt8) : ℕ :=
  (((octets 0).toNat * 0x100 + (octets 1).toNat) * 0x100 + (octets 2).toNat) * 0x100 +
    (octets 3).toNat

/-- The number of an IPv6 address. -/
def ipv6Number (segments : Fin 8 → UInt16) : ℕ :=
  (((((((segments 0).toNat * 0x10000 + (segments 1).toNat) * 0x10000 + (segments 2).toNat) *
    0x10000 + (segments 3).toNat) * 0x10000 + (segments 4).toNat) * 0x10000 +
    (segments 5).toNat) * 0x10000 + (segments 6).toNat) * 0x10000 + (segments 7).toNat

/-- The number of the IPv4 address that an IPv6 address of the block `::ffff:0:0/96` carries. -/
def ipv4MappedNumber (segments : Fin 8 → UInt16) : Option ℕ :=
  if segments 0 = 0 ∧ segments 1 = 0 ∧ segments 2 = 0 ∧ segments 3 = 0 ∧ segments 4 = 0 ∧
      segments 5 = 0xFFFF then
    some ((segments 6).toNat * 0x10000 + (segments 7).toNat)
  else none

/-- The IPv4 blocks that a feed must not reach. -/
def internalIpv4Blocks : List AddressBlock :=
  [ ⟨ipv4Number ![127, 0, 0, 0], 8⟩, -- loopback
    ⟨ipv4Number ![0, 0, 0, 0], 32⟩, -- unspecified
    ⟨ipv4Number ![10, 0, 0, 0], 8⟩, -- private, with the next two
    ⟨ipv4Number ![172, 16, 0, 0], 12⟩,
    ⟨ipv4Number ![192, 168, 0, 0], 16⟩,
    ⟨ipv4Number ![169, 254, 0, 0], 16⟩, -- link-local
    ⟨ipv4Number ![100, 64, 0, 0], 10⟩ ] -- carrier-grade NAT

/-- The IPv6 blocks that a feed must not reach. -/
def internalIpv6Blocks : List AddressBlock :=
  [ ⟨ipv6Number ![0, 0, 0, 0, 0, 0, 0, 1], 128⟩, -- loopback
    ⟨ipv6Number ![0, 0, 0, 0, 0, 0, 0, 0], 128⟩, -- unspecified
    ⟨ipv6Number ![0xFE80, 0, 0, 0, 0, 0, 0, 0], 10⟩, -- link-local
    ⟨ipv6Number ![0xFC00, 0, 0, 0, 0, 0, 0, 0], 7⟩ ] -- unique local

/-- The half of the unique local block that the guard does not know. -/
def missedBlock : AddressBlock := ⟨ipv6Number ![0xFC00, 0, 0, 0, 0, 0, 0, 0], 8⟩

/-- The address denotes a host inside the network of the user. -/
def IpAddr.isInternal : IpAddr → Bool
  | .v4 octets => AddressBlock.anyContains internalIpv4Blocks 32 (ipv4Number octets)
  | .v6 segments =>
    match ipv4MappedNumber segments with
    | some carried => AddressBlock.anyContains internalIpv4Blocks 32 carried
    | none => AddressBlock.anyContains internalIpv6Blocks 128 (ipv6Number segments)

/-- The addresses that the guard lets through although they are internal: those that carry an
internal IPv4 address, the unspecified IPv6 address and those of `fc00::/8`. -/
def IpAddr.isMissed : IpAddr → Bool
  | .v4 _ => false
  | .v6 segments =>
    match ipv4MappedNumber segments with
    | some carried => AddressBlock.anyContains internalIpv4Blocks 32 carried
    | none =>
      ipv6Number segments == 0 || missedBlock.contains 128 (ipv6Number segments)

/-! ## The guard in numbers -/

section Numbers

theorem UInt8.and_eq_iff {x mask y : UInt8} {k : ℕ}
    (hmask : mask.toBitVec = BitVec.allOnes 8 <<< k) :
    x &&& mask = y ↔ x.toNat / 2 ^ k * 2 ^ k = y.toNat := by
  rw [← UInt8.toBitVec_inj, UInt8.toBitVec_and, hmask]
  exact BitVec.and_allOnes_shiftLeft_eq _ _ k

theorem UInt16.and_eq_iff {x mask y : UInt16} {k : ℕ}
    (hmask : mask.toBitVec = BitVec.allOnes 16 <<< k) :
    x &&& mask = y ↔ x.toNat / 2 ^ k * 2 ^ k = y.toNat := by
  rw [← UInt16.toBitVec_inj, UInt16.toBitVec_and, hmask]
  exact BitVec.and_allOnes_shiftLeft_eq _ _ k

theorem internalIpv4_iff {address : ℕ} :
    AddressBlock.anyContains internalIpv4Blocks 32 address = true ↔
      address / 0x1000000 = 127 ∨ address = 0 ∨ address / 0x1000000 = 10 ∨
        address / 0x100000 = 172 * 16 + 1 ∨ address / 0x10000 = 192 * 256 + 168 ∨
        address / 0x10000 = 169 * 256 + 254 ∨ address / 0x400000 = 100 * 4 + 1 := by
  simp only [AddressBlock.anyContains, internalIpv4Blocks, List.any_cons, List.any_nil,
    Bool.or_eq_true, Bool.or_false]
  refine or_congr (AddressBlock.contains_iff rfl rfl) <|
    or_congr (AddressBlock.contains_iff_eq rfl rfl) <|
    or_congr (AddressBlock.contains_iff rfl rfl) <|
    or_congr (AddressBlock.contains_iff rfl rfl) <|
    or_congr (AddressBlock.contains_iff rfl rfl) <|
    or_congr (AddressBlock.contains_iff rfl rfl) (AddressBlock.contains_iff rfl rfl)

theorem internalIpv6_iff {address : ℕ} :
    AddressBlock.anyContains internalIpv6Blocks 128 address = true ↔
      address = 1 ∨ address = 0 ∨
        address / 0x10000000000000000000000000000 / 64 = 0xFE80 / 64 ∨
        address / 0x10000000000000000000000000000 / 512 = 0xFC00 / 512 := by
  simp only [AddressBlock.anyContains, internalIpv6Blocks, List.any_cons, List.any_nil,
    Bool.or_eq_true, Bool.or_false, Nat.div_div_eq_div_mul]
  refine or_congr (AddressBlock.contains_iff_eq rfl rfl) <|
    or_congr (AddressBlock.contains_iff_eq rfl rfl) <|
    or_congr (AddressBlock.contains_iff rfl rfl) (AddressBlock.contains_iff rfl rfl)

theorem missedBlock_iff {address : ℕ} :
    missedBlock.contains 128 address = true ↔
      address / 0x10000000000000000000000000000 / 256 = 0xFC := by
  rw [Nat.div_div_eq_div_mul]
  exact AddressBlock.contains_iff rfl rfl

variable (octets : Fin 4 → UInt8) (segments : Fin 8 → UInt16)

theorem isPrivateOrRestricted_v4 :
    isPrivateOrRestricted (.v4 octets) = true ↔
      (octets 0).toNat = 10 ∨ ((octets 0).toNat = 172 ∧ (octets 1).toNat / 16 = 1) ∨
        ((octets 0).toNat = 192 ∧ (octets 1).toNat = 168) ∨ (octets 0).toNat = 127 ∨
        ((octets 0).toNat = 169 ∧ (octets 1).toNat = 254) ∨
        ((octets 0).toNat = 100 ∧ (octets 1).toNat / 64 = 1) ∨ (octets 0).toNat = 0 := by
  have hfour : octets 1 &&& 0xF0 = 16 ↔ (octets 1).toNat / 16 = 1 := by
    refine (UInt8.and_eq_iff (k := 4) rfl).trans ?_
    show (octets 1).toNat / 16 * 16 = 16 ↔ _
    omega
  have hsix : octets 1 &&& 0xC0 = 64 ↔ (octets 1).toNat / 64 = 1 := by
    refine (UInt8.and_eq_iff (k := 6) rfl).trans ?_
    show (octets 1).toNat / 64 * 64 = 64 ↔ _
    omega
  simp only [isPrivateOrRestricted, Bool.or_eq_true, Bool.and_eq_true, beq_iff_eq, hfour, hsix,
    or_assoc]
  simp only [← UInt8.toNat_inj]
  rfl

theorem eq_localhostSegments_iff : segments = localhostSegments ↔ ipv6Number segments = 1 := by
  constructor
  · rintro rfl
    rfl
  · intro h
    have hsegments : ∀ i, segments i = localhostSegments i := by
      intro i
      rw [← UInt16.toNat_inj]
      unfold ipv6Number at h
      fin_cases i <;> simp [localhostSegments] <;> omega
    exact funext hsegments

theorem isPrivateOrRestricted_v6 :
    isPrivateOrRestricted (.v6 segments) = true ↔
      ipv6Number segments = 1 ∨ (segments 0).toNat / 64 = 0xFE80 / 64 ∨
        (segments 0).toNat / 256 = 0xFD := by
  have hsix : segments 0 &&& 0xFFC0 = 0xFE80 ↔ (segments 0).toNat / 64 = 0xFE80 / 64 := by
    refine (UInt16.and_eq_iff (k := 6) rfl).trans ?_
    show (segments 0).toNat / 64 * 64 = 0xFE80 ↔ _
    omega
  have height : segments 0 &&& 0xFF00 = 0xFD00 ↔ (segments 0).toNat / 256 = 0xFD := by
    refine (UInt16.and_eq_iff (k := 8) rfl).trans ?_
    show (segments 0).toNat / 256 * 256 = 0xFD00 ↔ _
    omega
  simp only [isPrivateOrRestricted, Bool.or_eq_true, beq_iff_eq, hsix, height,
    eq_localhostSegments_iff, or_assoc]

/-- The leading bits of an IPv6 address, by its first segment. -/
theorem ipv6Number_div {k : ℕ} :
    ipv6Number segments / 0x10000000000000000000000000000 / k = (segments 0).toNat / k := by
  have hlow : ipv6Number segments / 0x10000000000000000000000000000 = (segments 0).toNat := by
    have h1 := (segments 1).toNat_lt
    have h2 := (segments 2).toNat_lt
    have h3 := (segments 3).toNat_lt
    have h4 := (segments 4).toNat_lt
    have h5 := (segments 5).toNat_lt
    have h6 := (segments 6).toNat_lt
    have h7 := (segments 7).toNat_lt
    unfold ipv6Number
    omega
  rw [hlow]

/-- For IPv4, all internal addresses are refused. -/
theorem restricted_of_internal_v4 (h : IpAddr.isInternal (.v4 octets) = true) :
    isPrivateOrRestricted (.v4 octets) = true := by
  have hsecond := (octets 1).toNat_lt
  have hhigh : ipv4Number octets / 0x10000 = (octets 0).toNat * 256 + (octets 1).toNat := by
    have hthird := (octets 2).toNat_lt
    have hfourth := (octets 3).toNat_lt
    unfold ipv4Number
    omega
  rw [isPrivateOrRestricted_v4]
  rw [IpAddr.isInternal, internalIpv4_iff] at h
  generalize ipv4Number octets = address at h hhigh
  -- the blocks in the order in which the specification lists them
  rcases h with hloop | hunspec | hten | htwelve | hsixteen | hlink | hnat
  · exact .inr (.inr (.inr (.inl (by omega))))
  · exact .inr (.inr (.inr (.inr (.inr (.inr (by omega))))))
  · exact .inl (by omega)
  · exact .inr (.inl (by omega))
  · exact .inr (.inr (.inl (by omega)))
  · exact .inr (.inr (.inr (.inr (.inl (by omega)))))
  · exact .inr (.inr (.inr (.inr (.inr (.inl (by omega))))))

/-- Of the addresses that are not refused, the internal ones are those that the guard misses. -/
theorem isInternal_iff_isMissed {ip : IpAddr} (h : isPrivateOrRestricted ip = false) :
    ip.isInternal = true ↔ ip.isMissed = true := by
  cases ip with
  | v4 octets =>
    refine iff_of_false (fun hinternal => ?_) Bool.false_ne_true
    rw [restricted_of_internal_v4 octets hinternal] at h
    cases h
  | v6 segments =>
    have hallowed := mt (isPrivateOrRestricted_v6 segments).2
      (by rw [h]; exact Bool.false_ne_true)
    simp only [IpAddr.isInternal, IpAddr.isMissed]
    cases ipv4MappedNumber segments with
    | some carried => exact Iff.rfl
    | none =>
      dsimp only
      rw [internalIpv6_iff, Bool.or_eq_true, beq_iff_eq, missedBlock_iff, ipv6Number_div,
        ipv6Number_div, ipv6Number_div]
      omega

end Numbers

/-! ## The endpoint -/

section Endpoint

variable {R : Resolver} {url : String}

/-- The guard passes the first address if it refuses none. -/
theorem firstAllowed_eq_ok {addrs : List SocketAddr} {addr : SocketAddr} :
    firstAllowed addrs = .ok addr ↔
      (∀ a ∈ addrs, isPrivateOrRestricted a.ip = false) ∧ addrs.head? = some addr := by
  unfold firstAllowed
  cases hfind : addrs.find? (isPrivateOrRestricted ·.ip) with
  | some found =>
    refine iff_of_false (by rintro ⟨⟩) fun h => ?_
    have hfound := List.find?_some hfind
    rw [h.1 found (List.mem_of_find?_eq_some hfind)] at hfound
    cases hfound
  | none =>
    have hnone : ∀ a ∈ addrs, isPrivateOrRestricted a.ip = false := fun a ha => by
      simpa using List.find?_eq_none.1 hfind a ha
    cases addrs with
    | nil => exact iff_of_false (by rintro ⟨⟩) (by rintro ⟨-, ⟨⟩⟩)
    | cons first rest =>
      dsimp only
      rw [hnone first List.mem_cons_self, if_neg Bool.false_ne_true, List.head?_cons,
        Option.some_inj, and_iff_right hnone]
      exact ⟨Except.ok.inj, fun h => h ▸ rfl⟩

theorem Resolver.resolveFeedEndpoint_eq_ok {host path : String} {port : ℕ} {addr : SocketAddr} :
    R.resolveFeedEndpoint url = .ok (host, port, path, addr) ↔
      feedAuthority url = .ok (host, port, path) ∧
        ∃ rest, R.addresses s!"{host}:{port}" = .ok (addr :: rest) ∧
          ∀ a ∈ addr :: rest, isPrivateOrRestricted a.ip = false := by
  constructor
  · intro h
    unfold Resolver.resolveFeedEndpoint at h
    obtain ⟨⟨host', port', path'⟩, hauthority, h⟩ := Except.exists_of_bind_eq_ok h
    obtain ⟨addrs, haddrs, h⟩ := Except.exists_of_bind_eq_ok h
    obtain ⟨first, hfirst, h⟩ := Except.exists_of_bind_eq_ok h
    obtain ⟨rfl, rfl, rfl, rfl⟩ :
        host' = host ∧ port' = port ∧ path' = path ∧ first = addr := by
      simpa [pure, Except.pure] using h
    obtain ⟨hallowed, hhead⟩ := firstAllowed_eq_ok.1 hfirst
    cases addrs with
    | nil => cases hhead
    | cons a rest =>
      obtain rfl := Option.some.inj hhead
      exact ⟨hauthority, rest, haddrs, hallowed⟩
  · rintro ⟨hauthority, rest, haddrs, hallowed⟩
    have hfirst := firstAllowed_eq_ok.2 ⟨hallowed, rfl⟩
    simp only [Resolver.resolveFeedEndpoint, hauthority, bind, Except.bind, haddrs, hfirst]
    rfl

end Endpoint

/-- No address that the guard is for is returned, for any answer of name resolution, just if the
first address is none of those that the guard misses. -/
theorem feed_guard_blocks_internal (R : Resolver) (url : String) :
    (∀ host port path addr, R.resolveFeedEndpoint url = .ok (host, port, path, addr) →
        addr.ip.isInternal = false) ↔
      ¬∃ host port path first rest, feedAuthority url = .ok (host, port, path) ∧
        R.addresses s!"{host}:{port}" = .ok (first :: rest) ∧
        (∀ a ∈ first :: rest, isPrivateOrRestricted a.ip = false) ∧
        first.ip.isMissed = true := by
  constructor
  · rintro hblocks ⟨host, port, path, first, rest, hauthority, haddresses, hallowed, hmissed⟩
    have hok := Resolver.resolveFeedEndpoint_eq_ok.2 ⟨hauthority, rest, haddresses, hallowed⟩
    have hinternal := (isInternal_iff_isMissed (hallowed first List.mem_cons_self)).2 hmissed
    rw [hblocks host port path first hok] at hinternal
    cases hinternal
  · intro hnone host port path addr hok
    obtain ⟨hauthority, rest, haddresses, hallowed⟩ := Resolver.resolveFeedEndpoint_eq_ok.1 hok
    rw [← Bool.not_eq_true]
    intro hinternal
    have hmissed := (isInternal_iff_isMissed (hallowed addr List.mem_cons_self)).1 hinternal
    exact hnone ⟨host, port, path, addr, rest, hauthority, haddresses, hallowed, hmissed⟩

/-- A name that resolves to an address of `fc00::/8`. -/
def uniqueLocalResolver : Resolver where
  parseSocketAddr _ := none
  toSocketAddrs _ := .ok [⟨.v6 ![0xFC00, 0, 0, 0, 0, 0, 0, 1], 80⟩]

/-- The endpoint of a feed may be a unique local address. -/
theorem unique_local_feed_resolved :
    uniqueLocalResolver.resolveFeedEndpoint "http://feed.example/rss" =
        .ok ("feed.example", 80, "/rss", ⟨.v6 ![0xFC00, 0, 0, 0, 0, 0, 0, 1], 80⟩) ∧
      IpAddr.isInternal (.v6 ![0xFC00, 0, 0, 0, 0, 0, 0, 1]) = true := by
  have hauthority : feedAuthority "http://feed.example/rss" = .ok ("feed.example", 80, "/rss") := by
    decide +kernel
  refine ⟨Resolver.resolveFeedEndpoint_eq_ok.2 ⟨hauthority, [], rfl, ?_⟩, by decide +kernel⟩
  decide +kernel

end KyberPipe
