import KyberPipe.Lib.Machine
import KyberPipe.Network.BeaconDelivery

/-!
# Replayed beacons

What keeps an accepted beacon from being accepted again is the cache of its nonce for a minute and
its timestamp afterwards. The two meet only if the timestamp lies before the second in which the
beacon was accepted: the check lets an age of sixty seconds pass, and the cache drops an entry of
that age. A beacon whose timestamp is not a number or whose nonce is not hexadecimal is not covered
by one of them, and a full cache drops entries early.
-/

namespace KyberPipe

namespace Beacon

open Text

/-! ### The cache -/

section Cache

variable {seen : SeenBeacons} {now : ℕ} {pk nonce : Bytes}
variable {key : Bytes × Bytes} {at_ : ℕ}

theorem lookup_prune (h : seen.lookup key = some at_) (hyoung : now - at_ < nonceTtl) :
    (SeenBeacons.prune seen now).lookup key = some at_ := by
  rw [SeenBeacons.prune, AList.lookup_retain_of_pos, h]
  simpa [h] using hyoung

/-- A young entry of a cache that is not full makes its nonce a replay. -/
theorem beaconNonceIsReplay_of_young (h : seen.lookup (pk, nonce) = some at_)
    (hyoung : now - at_ < nonceTtl) (hroom : (SeenBeacons.prune seen now).size < nonceCacheMax) :
    (SeenBeacons.beaconNonceIsReplay seen now pk nonce).1 = true := by
  have hmem : (pk, nonce) ∈ SeenBeacons.prune seen now := by
    rw [← AList.lookup_isSome, lookup_prune h hyoung]
    rfl
  simp only [SeenBeacons.beaconNonceIsReplay]
  rw [if_neg (Nat.not_le.2 hroom), if_pos hmem]

theorem lookup_of_not_replay (h : (SeenBeacons.beaconNonceIsReplay seen now pk nonce).1 = false) :
    (SeenBeacons.beaconNonceIsReplay seen now pk nonce).2.lookup (pk, nonce) = some now := by
  simp only [SeenBeacons.beaconNonceIsReplay] at h ⊢
  split_ifs at h ⊢
  · exact AList.lookup_insert _
  · exact AList.lookup_insert _

/-- A cache that is not full keeps its young entries. -/
theorem lookup_beaconNonceIsReplay (h : seen.lookup key = some at_) (hyoung : now - at_ < nonceTtl)
    (hroom : (SeenBeacons.prune seen now).size < nonceCacheMax) :
    (SeenBeacons.beaconNonceIsReplay seen now pk nonce).2.lookup key = some at_ := by
  have hkept := lookup_prune h hyoung
  simp only [SeenBeacons.beaconNonceIsReplay]
  rw [if_neg (Nat.not_le.2 hroom)]
  split_ifs with hmem
  · exact hkept
  · rw [AList.lookup_insert_ne]
    · exact hkept
    · rintro rfl
      exact hmem (AList.lookup_isSome.1 (by rw [hkept]; rfl))

end Cache

/-! ### A receiver over time -/

/-- The clocks at a monotonic time. The wall clock is ahead of it by a fixed offset. -/
def clockAt (offset mono : ℕ) : Clock := ⟨mono, (offset + mono) / nanosPerSec⟩

/-- The cache and the monotonic time of the last datagram. -/
structure Receiver where
  seen : SeenBeacons
  mono : ℕ

/-- A beacon, the time since the one before, and the arguments of `parse_beacon_payload`. -/
structure Arrival where
  elapsed : ℕ
  payload : Bytes
  source : IpAddr
  expected : Option Bytes

/-- The receiver answers every payload with the host that `parse_beacon_payload` accepts. The wall
clock, which the age check reads, and the monotonic one, which the cache reads a little later, are
taken at one time here. -/
def receiver (verify : Bytes → Bytes → Bytes → Bool) (offset : ℕ) :
    Machine Receiver Arrival (Option Host) where
  step s a :=
    let now := clockAt offset (s.mono + a.elapsed)
    let r := parseBeaconPayload verify s.seen now a.payload a.source a.expected
    (r.1, { seen := r.2, mono := now.mono })

/-- The payload of an accepted beacon. -/
def accepted (a : Arrival) (answer : Option Host) : Option Bytes := answer.map fun _ => a.payload

/-- The timestamp of a beacon reads as a number and lies before the current second. -/
def Fields.dated (f : Fields) (now : Clock) : Bool :=
  (parseUnsigned (2 ^ 64) f.timestamp).any fun ts => ts < now.unix

/-- An arriving beacon that is authentic is dated before the current second, has a hexadecimal
nonce, and does not find the cache full. -/
def Covered (verify : Bytes → Bytes → Bytes → Bool) (offset : ℕ) (s : Receiver) (a : Arrival) :
    Bool :=
  let now := clockAt offset (s.mono + a.elapsed)
  (authenticate verify now a.payload a.source a.expected).all fun beacon =>
    beacon.1.dated now && (Hex.decodeDigits beacon.1.nonceHex).isSome &&
      decide ((SeenBeacons.prune s.seen now.mono).size < nonceCacheMax)

section Runs

variable {verify : Bytes → Bytes → Bytes → Bool} {offset : ℕ}

/-- The copies of a payload are dropped: its nonce was noted in a second after its timestamp, or
its timestamp is too old by now. -/
def Spent (offset : ℕ) (s : Receiver) (payload : Bytes) : Prop :=
  ∃ f pk nonce ts, Fields.ofPayload payload = some f ∧
    Hex.decodeDigits f.signingPkHex = some pk ∧ Hex.decodeDigits f.nonceHex = some nonce ∧
    parseUnsigned (2 ^ 64) f.timestamp = some ts ∧
    ((∃ at_, s.seen.lookup (pk, nonce) = some at_ ∧ ts < (clockAt offset at_).unix) ∨
      ts + maxAge < (clockAt offset s.mono).unix)

/-- An entry that has left the cache is at least a minute old, and by then a timestamp from a
second before it is too old. -/
theorem tooOld_of_expired {ts at_ now : ℕ} (hts : ts < (clockAt offset at_).unix)
    (hold : ¬ now - at_ < nonceTtl) : ts + maxAge < (clockAt offset now).unix := by
  have hlater : offset + at_ + 60 * nanosPerSec ≤ offset + now := by
    rw [nonceTtl, Nat.not_lt] at hold
    have hpos : 0 < 60 * nanosPerSec := by decide
    omega
  have hseconds : (offset + at_) / nanosPerSec + 60 ≤ (offset + now) / nanosPerSec := by
    calc (offset + at_) / nanosPerSec + 60
        = (offset + at_ + 60 * nanosPerSec) / nanosPerSec :=
          (Nat.add_mul_div_right _ _ (by decide)).symm
      _ ≤ (offset + now) / nanosPerSec := Nat.div_le_div_right hlater
  simp only [clockAt, maxAge] at hts ⊢
  omega

theorem unix_clockAt_mono {m n : ℕ} (h : m ≤ n) :
    (clockAt offset m).unix ≤ (clockAt offset n).unix :=
  Nat.div_le_div_right (Nat.add_le_add_left h offset)

variable {payload : Bytes} {expected : Option Bytes}

/-- A beacon that is not authentic is dropped, and one whose nonce reads goes through the cache. -/
theorem parseBeaconPayload_of_none {seen : SeenBeacons} {now : Clock} {source : IpAddr}
    (h : authenticate verify now payload source expected = none) :
    parseBeaconPayload verify seen now payload source expected = (none, seen) := by
  simp only [parseBeaconPayload, h]

@[inherit_doc parseBeaconPayload_of_none]
theorem parseBeaconPayload_of_some {seen : SeenBeacons}
    {now : Clock} {payload pk nonce : Bytes} {source : IpAddr} {f : Fields}
    (h : authenticate verify now payload source expected = some (f, pk))
    (hnonce : Hex.decodeDigits f.nonceHex = some nonce) :
    parseBeaconPayload verify seen now payload source expected =
      (if (SeenBeacons.beaconNonceIsReplay seen now.mono pk nonce).1 then none
        else some { hostPk := f.hostPk, localIp := f.localIp },
        (SeenBeacons.beaconNonceIsReplay seen now.mono pk nonce).2) := by
  simp only [parseBeaconPayload, h, hnonce]

variable {s : Receiver} {a : Arrival}

/-- What a covered beacon that is authentic consists of. -/
theorem exists_of_covered {f : Fields} {pk : Bytes} (hcovered : Covered verify offset s a = true)
    (hauth : authenticate verify (clockAt offset (s.mono + a.elapsed)) a.payload a.source
      a.expected = some (f, pk)) :
    ∃ nonce ts, Hex.decodeDigits f.nonceHex = some nonce ∧
      parseUnsigned (2 ^ 64) f.timestamp = some ts ∧
      ts < (clockAt offset (s.mono + a.elapsed)).unix ∧
      (SeenBeacons.prune s.seen (s.mono + a.elapsed)).size < nonceCacheMax := by
  simp only [Covered, hauth, Option.all_some, Bool.and_eq_true, decide_eq_true_eq, Fields.dated,
    Option.isSome_iff_exists, Option.any_eq_true] at hcovered
  obtain ⟨⟨⟨ts, hts, hlt⟩, nonce, hnonce⟩, hroom⟩ := hcovered
  exact ⟨nonce, ts, hnonce, hts, hlt, hroom⟩

/-- A payload whose copies are dropped stays one over a covered step. -/
theorem Spent.step (h : Spent offset s payload) (hcovered : Covered verify offset s a = true) :
    Spent offset ((receiver verify offset).step s a).2 payload := by
  obtain ⟨f, pk, nonce, ts, hfields, hpk, hnonce, hts, hspent⟩ := h
  refine ⟨f, pk, nonce, ts, hfields, hpk, hnonce, hts, ?_⟩
  obtain ⟨at_, hat, hlt⟩ | hold := hspent
  · cases hauth : authenticate verify (clockAt offset (s.mono + a.elapsed)) a.payload a.source
        a.expected with
    | none =>
      left
      refine ⟨at_, ?_, hlt⟩
      simp only [receiver, parseBeaconPayload_of_none hauth]
      exact hat
    | some beacon =>
      obtain ⟨f', pk'⟩ := beacon
      obtain ⟨nonce', -, hnonce', -, -, hroom⟩ := exists_of_covered hcovered hauth
      simp only [receiver, parseBeaconPayload_of_some hauth hnonce']
      by_cases hyoung : s.mono + a.elapsed - at_ < nonceTtl
      · exact .inl ⟨at_, lookup_beaconNonceIsReplay hat hyoung hroom, hlt⟩
      · exact .inr (tooOld_of_expired hlt hyoung)
  · exact .inr (hold.trans_le (unix_clockAt_mono (Nat.le_add_right _ _)))

/-- A payload that a covered step accepts was not spent before, and is spent after it. -/
theorem spent_of_accepted (hcovered : Covered verify offset s a = true)
    (h : accepted a ((receiver verify offset).step s a).1 = some payload) :
    ¬ Spent offset s payload ∧ Spent offset ((receiver verify offset).step s a).2 payload := by
  obtain ⟨host, hhost, rfl⟩ := Option.map_eq_some_iff.1 h
  obtain ⟨f, pk, hauth, -⟩ := exists_of_parseBeaconPayload hhost
  obtain ⟨hfields, hfresh, -, hsigner, -⟩ := authenticate_eq_some.1 hauth
  obtain ⟨-, -, hpk, -⟩ := signer_eq_some.1 hsigner
  obtain ⟨nonce, ts, hnonce, hts, hlt, hroom⟩ := exists_of_covered hcovered hauth
  have hnew : (SeenBeacons.beaconNonceIsReplay s.seen (s.mono + a.elapsed) pk nonce).1 = false := by
    simp only [receiver, parseBeaconPayload_of_some hauth hnonce] at hhost
    split_ifs at hhost with hreplay
    exact Bool.eq_false_iff.2 hreplay
  constructor
  · rintro ⟨f', pk', nonce', ts', hfields', hpk', hnonce', hts', hspent⟩
    -- a copy has the same fields
    obtain rfl := Option.some.inj (hfields.symm.trans hfields')
    obtain rfl := Option.some.inj (hpk.symm.trans hpk')
    obtain rfl := Option.some.inj (hnonce.symm.trans hnonce')
    obtain rfl := Option.some.inj (hts.symm.trans hts')
    have hage : (clockAt offset (s.mono + a.elapsed)).unix - ts ≤ maxAge := by
      simp only [Fields.stale, hts, Option.any_some, decide_eq_false_iff_not, not_lt] at hfresh
      exact hfresh
    obtain ⟨at_, hat, hnoted⟩ | hold := hspent
    · by_cases hyoung : s.mono + a.elapsed - at_ < nonceTtl
      · rw [beaconNonceIsReplay_of_young hat hyoung hroom] at hnew
        cases hnew
      · have htoo := tooOld_of_expired hnoted hyoung
        omega
    · have hlater : (clockAt offset s.mono).unix ≤ (clockAt offset (s.mono + a.elapsed)).unix :=
        unix_clockAt_mono (Nat.le_add_right _ _)
      omega
  · refine ⟨f, pk, nonce, ts, hfields, hpk, hnonce, hts, .inl ⟨s.mono + a.elapsed, ?_, hlt⟩⟩
    simp only [receiver, parseBeaconPayload_of_some hauth hnonce]
    exact lookup_of_not_replay hnew

/-- In every sequence of beacons that are all covered when they arrive, no payload is accepted
twice. -/
theorem accepted_payloads_distinct (verify : Bytes → Bytes → Bytes → Bool) (offset mono : ℕ)
    {arrivals : List Arrival}
    (hcovered : (receiver verify offset).Follows (fun s a => Covered verify offset s a = true)
      ⟨∅, mono⟩ arrivals) :
    (Machine.emitted accepted ((receiver verify offset).run ⟨∅, mono⟩ arrivals).1).Pairwise
      (· ≠ ·) := by
  let Inv : Receiver → Set Bytes → Prop := fun s seen => ∀ payload ∈ seen, Spent offset s payload
  have hstart : Inv ⟨∅, mono⟩ ∅ := (by rintro payload ⟨⟩)
  refine (Machine.emitted_pairwise_of_follows Inv ?_ ?_ hstart hcovered).2
  · intro s a seen hok hinv _ payload hmem
    exact (hinv payload hmem).step hok
  · intro s a seen payload hok hinv haccepted
    obtain ⟨hnew, hspent⟩ := spent_of_accepted hok haccepted
    refine ⟨?_, ?_⟩
    · rintro earlier hmem rfl
      exact hnew (hinv earlier hmem)
    · rintro other (rfl | hmem)
      · exact hspent
      · exact (hinv other hmem).step hok

/-- A beacon of the host `10.0.0.2` with a timestamp, as the receiver reads it. -/
def replayedPayload (timestamp : String) : Bytes :=
  utf8 ("07:10.0.0.2:" ++ timestamp ++ ":0102:03:04")

/-- One arrival of a payload after a number of nanoseconds. -/
def arrivalAfter (elapsed : ℕ) (payload : Bytes) : Arrival where
  elapsed := elapsed
  payload := payload
  source := .v4 ![10, 0, 0, 2]
  expected := none

/-- A beacon dated one second before its arrival, and a copy of it a second and a minute later. -/
theorem accepted_payloads_distinct_of_copies :
    (Machine.emitted accepted ((receiver (fun _ _ _ => true) (1000 * nanosPerSec)).run ⟨∅, 0⟩
      [arrivalAfter 0 (replayedPayload "999"), arrivalAfter nanosPerSec (replayedPayload "999"),
        arrivalAfter (59 * nanosPerSec) (replayedPayload "999")]).1).Pairwise (· ≠ ·) :=
  accepted_payloads_distinct (fun _ _ _ => true) (1000 * nanosPerSec) 0 (by decide +kernel)

/-- A beacon dated at the second of its arrival is accepted again when it arrives a minute later. -/
theorem beacon_accepted_twice :
    Machine.emitted accepted ((receiver (fun _ _ _ => true) (1000 * nanosPerSec)).run ⟨∅, 0⟩
      [arrivalAfter 0 (replayedPayload "1000"),
        arrivalAfter (60 * nanosPerSec) (replayedPayload "1000")]).1 =
      [replayedPayload "1000", replayedPayload "1000"] := by
  decide +kernel

end Runs

end Beacon

end KyberPipe
