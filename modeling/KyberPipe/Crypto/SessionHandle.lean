import KyberPipe.Crypto.Primitives

/-!
# Session key handles

The registry of `session_handle.rs`: callers outside the core crate hold a number instead of the
key. At most 256 keys are live. When the registry is full, the least recently used key that is
not pinned makes room.
-/

namespace KyberPipe

/-- The most session keys that are live at a time. -/
def maxSessionKeys : ℕ := 256

/-- The live session keys by handle, with their fingerprints, the order of their last use and
the handles that are never evicted. -/
structure SessionRegistry where
  keys : AList (fun _ : ℕ => Bytes) := ∅
  fingerprints : AList (fun _ : ℕ => Bytes) := ∅
  /-- Least recently used first. -/
  lru : List ℕ := []
  pinned : List ℕ := []
  /-- `NEXT_HANDLE`, a 64-bit counter. -/
  nextHandle : ℕ := 1

namespace SessionRegistry

variable (reg : SessionRegistry)

/-- Evict the least recently used key that is not pinned. Pinned handles in front of it leave
the order. -/
def evictLru : SessionRegistry :=
  match reg.lru.dropWhile (reg.pinned.contains ·) with
  | [] => { reg with lru := [] }
  | oldest :: rest =>
    { reg with
      keys := reg.keys.erase oldest
      fingerprints := reg.fingerprints.erase oldest
      lru := rest }

/-- Create a handle for a key, given its fingerprint function. -/
def sessionKeyCreate (keyFingerprint : Bytes → Bytes) (keyBytes : Bytes) :
    Except KyberError ℕ × SessionRegistry :=
  if keyBytes.length ≠ 32 then (.error (.invalidKeyLength 32 keyBytes.length), reg)
  else if maxSessionKeys ≤ reg.keys.size ∧ reg.lru.all (reg.pinned.contains ·) then
    (.error (.cryptoError <| "Session key registry full and every handle is pinned — " ++
        "destroy an unused handle first (audit finding #23)"), reg)
  else
    let reg := if maxSessionKeys ≤ reg.keys.size then reg.evictLru else reg
    -- identical key bytes among live handles would be two users of one key
    if reg.fingerprints.entries.any (·.2 == keyFingerprint keyBytes) then
      (.error (.cryptoError "A session key handle for identical key bytes already exists"), reg)
    else
      (.ok reg.nextHandle,
        { reg with
          keys := reg.keys.insert reg.nextHandle keyBytes
          fingerprints := reg.fingerprints.insert reg.nextHandle (keyFingerprint keyBytes)
          lru := reg.lru ++ [reg.nextHandle]
          nextHandle := (reg.nextHandle + 1) % 2 ^ 64 })

/-- Make a handle the most recently used one. -/
def touch (handle : ℕ) : SessionRegistry :=
  if handle ∈ reg.lru then { reg with lru := reg.lru.erase handle ++ [handle] } else reg

/-- The key behind a handle. Looking it up counts as a use. -/
def sessionKeyGet (handle : ℕ) : Option Bytes × SessionRegistry :=
  let result := reg.keys.lookup handle
  (result, if result.isSome then reg.touch handle else reg)

/-- Protect a live handle from eviction. -/
def sessionKeyPin (handle : ℕ) : SessionRegistry :=
  if handle ∈ reg.keys then { reg with pinned := reg.pinned.insert handle } else reg

/-- Return a handle to those that may be evicted. -/
def sessionKeyUnpin (handle : ℕ) : SessionRegistry :=
  { reg with pinned := reg.pinned.erase handle }

/-- Destroy a handle. -/
def sessionKeyDestroy (handle : ℕ) : SessionRegistry :=
  { reg with
    keys := reg.keys.erase handle
    fingerprints := reg.fingerprints.erase handle
    pinned := reg.pinned.erase handle
    lru := reg.lru.erase handle }

/-- Destroy all handles. -/
def sessionKeyDestroyAll : SessionRegistry :=
  { reg with keys := ∅, fingerprints := ∅, lru := [], pinned := [] }

end SessionRegistry

end KyberPipe
