import Mathlib.Data.Fin.VecNotation
import Mathlib.Data.Fintype.Basic
import Mathlib.Data.List.OfFn
import Mathlib.Data.Nat.Digits.Defs

/-!
# IP addresses

The addresses of `std::net` with their text, and with the socket addresses made of them.
-/

namespace KyberPipe

/-- An IP address. -/
inductive IpAddr where
  | v4 (octets : Fin 4 → UInt8)
  | v6 (segments : Fin 8 → UInt16)
  deriving DecidableEq

namespace IpAddr

/-- The longest run of zero segments as its start and its length, the first one of several. -/
def longestZeros (segments : List UInt16) : ℕ × ℕ :=
  let step (state : (ℕ × ℕ) × (ℕ × ℕ)) (entry : UInt16 × ℕ) : (ℕ × ℕ) × (ℕ × ℕ) :=
    if entry.1 = 0 then
      let current := (if state.2.2 = 0 then entry.2 else state.2.1, state.2.2 + 1)
      (if state.1.2 < current.2 then current else state.1, current)
    else (state.1, (0, 0))
  (segments.zipIdx.foldl step ((0, 0), (0, 0))).1

/-- Segments in lower-case hexadecimal without leading zeros. -/
def segmentsText (segments : List UInt16) : String :=
  String.intercalate ":" (segments.map fun s => String.ofList (Nat.toDigits 16 s.toNat))

/-- Octets in decimal. -/
def octetsText (a b c d : ℕ) : String :=
  toString a ++ "." ++ toString b ++ "." ++ toString c ++ "." ++ toString d

/-- `IpAddr::to_string`. An IPv4-mapped address ends in octets, and the longest run of at least two
zero segments is left out. -/
def display : IpAddr → String
  | v4 o => octetsText (o 0).toNat (o 1).toNat (o 2).toNat (o 3).toNat
  | v6 s =>
    if s 0 = 0 ∧ s 1 = 0 ∧ s 2 = 0 ∧ s 3 = 0 ∧ s 4 = 0 ∧ s 5 = 0xffff then
      "::ffff:" ++ octetsText ((s 6).toNat / 256) ((s 6).toNat % 256) ((s 7).toNat / 256)
        ((s 7).toNat % 256)
    else
      let segments := List.ofFn s
      let zeros := longestZeros segments
      if 1 < zeros.2 then
        segmentsText (segments.take zeros.1) ++ "::" ++
          segmentsText (segments.drop (zeros.1 + zeros.2))
      else segmentsText segments

/-- The address is an IPv4 address. -/
def isIpv4 : IpAddr → Bool
  | v4 _ => true
  | v6 _ => false

end IpAddr

/-- An address and a port. -/
structure SocketAddr where
  ip : IpAddr
  port : ℕ
  deriving DecidableEq

/-- `SocketAddr::to_string`. An IPv6 address stands in brackets. -/
def SocketAddr.display (addr : SocketAddr) : String :=
  let ip := addr.ip.display
  let port := addr.port
  if addr.ip.isIpv4 then s!"{ip}:{port}" else s!"[{ip}]:{port}"

end KyberPipe
