import KyberPipe.Ratchet.State

/-!
# The rate limit of pairing requests

`check_pairing_rate_limit`: one request per 200 ms in the process, 200 per window of 60 s, and
per address one per 2 s and 10 per window. Times are readings of the monotonic clock in
nanoseconds, and a difference to a later reading is zero.
-/

namespace KyberPipe

/-- The requests an address may make in a window. -/
def pairingPerIpMax : ℕ := 10

/-- The length of a window in seconds. -/
def pairingWindowSecs : ℕ := 60

/-- The requests all addresses together may make in a window. -/
def pairingGlobalMax : ℕ := 200

/-- The recent requests of one address. -/
structure RateEntry where
  lastAttempt : ℕ
  attempts : ℕ
  windowStart : ℕ
  deriving DecidableEq

/-- The state of the rate limiter. -/
structure RateLimiterState where
  /-- The last request of any address. -/
  floor : ℕ
  perIp : AList (fun _ : String => RateEntry) := ∅
  globalAttempts : ℕ := 0
  windowStart : ℕ
  deriving DecidableEq

namespace RateLimiterState

/-- Whole seconds from one reading to another. -/
def secsSince (now earlier : ℕ) : ℕ := (now - earlier) / nanosPerSec

/-- Open a new window for all addresses once the current one is over. -/
def renewWindow (g : RateLimiterState) (now : ℕ) : RateLimiterState :=
  if pairingWindowSecs ≤ secsSince now g.windowStart then
    { g with globalAttempts := 0, windowStart := now, perIp := ∅ }
  else g

/-- Admit or refuse a request of a known address. -/
def checkPerIp (g : RateLimiterState) (now : ℕ) (ip : String) : Bool × RateLimiterState :=
  -- a crowded table forgets the addresses that have been quiet for a window
  let perIp :=
    if 1000 < g.perIp.size then
      g.perIp.retain fun k =>
        (g.perIp.lookup k).any fun e => secsSince now e.lastAttempt < pairingWindowSecs
    else g.perIp
  let isNew := decide (ip ∉ perIp)
  let entry := (perIp.lookup ip).getD ⟨now, 0, now⟩
  let entry :=
    if pairingWindowSecs ≤ secsSince now entry.windowStart then
      { entry with attempts := 0, windowStart := now }
    else entry
  if !isNew && secsSince now entry.lastAttempt < 2 then
    (false, { g with perIp := perIp.insert ip entry })
  else if pairingPerIpMax ≤ entry.attempts then
    (false, { g with perIp := perIp.insert ip entry })
  else
    (true,
      { g with
        perIp :=
          perIp.insert ip { entry with lastAttempt := now, attempts := entry.attempts + 1 } })

/-- Admit or refuse a pairing request. -/
def checkPairingRateLimit (g : RateLimiterState) (now : ℕ) (peerIp : Option String) :
    Bool × RateLimiterState :=
  if (now - g.floor) / 1000000 < 200 then (false, g)
  else
    let g := renewWindow { g with floor := now } now
    if pairingGlobalMax ≤ g.globalAttempts then (false, g)
    else
      let g := { g with globalAttempts := g.globalAttempts + 1 }
      match peerIp with
      | none => (true, g)
      | some ip => g.checkPerIp now ip

end RateLimiterState

end KyberPipe
