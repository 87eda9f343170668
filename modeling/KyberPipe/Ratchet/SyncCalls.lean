import KyberPipe.Ratchet.Registry
import KyberPipe.Ratchet.Tlv

/-!
# Processing the bytes of a Synchronize packet

The whole of `ratchet_process_synchronize_impl`: decoding, the cache of applied packets, the burst
limit, the work on the session and the bookkeeping of a success. Each helper reads the clock for
itself, so a call has five readings. With one reading for all of them the call does what
`ratchetProcessSynchronize` does.
-/

namespace KyberPipe

variable {K C : Type}

/-- `sync_digest`, the 64-bit FNV-1a hash of the packet. -/
def syncDigest (data : Bytes) : ℕ :=
  data.foldl (fun hash b => (hash ^^^ b.toNat) * 0x100000001b3 % 2 ^ 64) 0xcbf29ce484222325

/-- The readings of the clock in one call, in the order in which they are made. -/
structure SyncClock where
  /-- In `already_applied_authenticated`. -/
  lookup : ℕ
  /-- In `sync_rate_limited`. -/
  check : ℕ
  /-- During the work on the session. -/
  work : Clock
  /-- In `stamp_sync`. -/
  stamp : ℕ
  /-- In `record_applied_sync`. -/
  record : ℕ
  lookup_le : lookup ≤ check
  check_le : check ≤ work.mono
  work_le : work.mono ≤ stamp
  stamp_le : stamp ≤ record

/-- A call that takes no time. -/
def SyncClock.at (now : Clock) : SyncClock :=
  ⟨now.mono, now.mono, now, now.mono, now.mono, le_rfl, le_rfl, le_rfl, le_rfl⟩

namespace SyncGate

variable (gate : SyncGate)

/-- Forget the applied packets that are too old. -/
def pruneApplied (now : ℕ) : SyncGate :=
  { gate with appliedSync := gate.appliedSync.filter fun e => now - e.2 < appliedSyncCacheTtl }

/-- `already_applied_authenticated` -/
def alreadyAppliedAuthenticated (digest now : ℕ) : Bool × SyncGate :=
  let gate := gate.pruneApplied now
  (gate.appliedSync.any (·.1 == digest), gate)

/-- `sync_rate_limited` -/
def syncRateLimited (now : ℕ) : Bool × SyncGate :=
  let gate :=
    { gate with lastSyncAt := gate.lastSyncAt.filter fun at_ => now - at_ < syncRateWindow }
  (decide (syncRateBurst ≤ gate.lastSyncAt.length), gate)

/-- `stamp_sync` -/
def stampSync (now : ℕ) : SyncGate := { gate with lastSyncAt := gate.lastSyncAt ++ [now] }

/-- `record_applied_sync` -/
def recordAppliedSync (digest now : ℕ) : SyncGate :=
  let applied := (gate.pruneApplied now).appliedSync ++ [(digest, now)]
  { gate with appliedSync := applied.drop (applied.length - appliedSyncCacheMax) }

/-- The bookkeeping after both tables were asked. -/
def asked (clock : SyncClock) : SyncGate :=
  ((gate.pruneApplied clock.lookup).syncRateLimited clock.check).2

/-- The bookkeeping of a success. -/
def succeeded (digest : ℕ) (clock : SyncClock) : SyncGate :=
  ((gate.asked clock).stampSync clock.stamp).recordAppliedSync digest clock.record

end SyncGate

/-- Decode a packet. The nonce must have its 12 bytes. -/
def syncPacket (ofBytes : Bytes → C) (data : Bytes) :
    Except KyberError (RatchetEncryptedMessage C) := do
  let msg ← WireMessage.fromBinary data
  if msg.nonce.length ≠ 12 then throw (.decryptionFailed "Nonce must be 12 bytes")
  return msg.decode ofBytes

namespace RatchetRegistry

variable (P : Primitives K C) (ofBytes : Bytes → C) (r : RatchetRegistry K C)

/-- Replace the Synchronize bookkeeping of a peer. -/
def setGate (peer : String) (gate : SyncGate) : RatchetRegistry K C :=
  { r with gates := r.gates.insert peer gate }

/-- Whether a call finds its packet among the applied ones. -/
def answersFromCache (peer : String) (data : Bytes) (clock : SyncClock) : Bool :=
  (syncPacket ofBytes data).isOk &&
    ((r.gate peer).alreadyAppliedAuthenticated (syncDigest data) clock.lookup).1

/-- `ratchet_process_synchronize_impl` -/
def ratchetProcessSynchronizeImpl (peer : String) (data : Bytes) (clock : SyncClock) :
    Except KyberError ℕ × RatchetRegistry K C :=
  match syncPacket ofBytes data with
  | .error e => (.error e, r)
  | .ok msg =>
    match (r.gate peer).alreadyAppliedAuthenticated (syncDigest data) clock.lookup with
    | (true, gate) => (.ok 0, r.setGate peer gate)
    | (false, gate) =>
      match gate.syncRateLimited clock.check with
      | (true, gate) =>
        (.error (.cryptoError
          s!"Synchronize rate-limited for peer {peer} — burst (3/15) exhausted; retry in 15s"),
          r.setGate peer gate)
      | (false, gate) =>
        match r.sessions.lookup peer with
        | none =>
          (.error (.cryptoError
            s!"No ratchet session for peer '{peer}'. Call ratchet_init_session first."),
            r.setGate peer gate)
        | some s =>
          match s.applySynchronize P msg clock.work with
          | (.error e, s) =>
            (.error e, { r.setGate peer gate with sessions := r.sessions.insert peer s })
          | (.ok skipped, s) =>
            let gate :=
              (gate.stampSync clock.stamp).recordAppliedSync (syncDigest data) clock.record
            (.ok skipped, { r.setGate peer gate with sessions := r.sessions.insert peer s })

end RatchetRegistry

/-! ## What a call can do -/

namespace SyncGate

variable {gate : SyncGate} {digest now : ℕ}

theorem alreadyAppliedAuthenticated_eq_true :
    (gate.alreadyAppliedAuthenticated digest now).1 = true ↔
      ∃ e ∈ gate.appliedSync, now - e.2 < appliedSyncCacheTtl ∧ e.1 = digest := by
  simp [alreadyAppliedAuthenticated, pruneApplied]

/-- An applied packet in the cache after a success is the new one or an old one. -/
theorem mem_succeeded {clock : SyncClock} {e : ℕ × ℕ}
    (h : e ∈ (gate.succeeded digest clock).appliedSync) :
    e = (digest, clock.record) ∨ e ∈ gate.appliedSync := by
  have hmem := List.mem_of_mem_drop h
  rcases List.mem_append.1 hmem with hold | hnew
  · have hpruned := List.mem_of_mem_filter hold
    exact .inr (List.mem_of_mem_filter hpruned)
  · exact .inl (List.mem_singleton.1 hnew)

theorem mem_asked {clock : SyncClock} {e : ℕ × ℕ} (h : e ∈ (gate.asked clock).appliedSync) :
    e ∈ gate.appliedSync :=
  List.mem_of_mem_filter h

end SyncGate

namespace RatchetRegistry

variable {P : Primitives K C} {ofBytes : Bytes → C} {r : RatchetRegistry K C} {peer q : String}
  {data : Bytes} {clock : SyncClock}

@[simp]
theorem gate_setGate_self (r : RatchetRegistry K C) (peer : String) (gate : SyncGate) :
    (r.setGate peer gate).gate peer = gate := by
  simp [setGate, RatchetRegistry.gate]

theorem gate_setGate_of_ne (r : RatchetRegistry K C) (gate : SyncGate) (h : q ≠ peer) :
    (r.setGate peer gate).gate q = r.gate q := by
  simp [setGate, RatchetRegistry.gate, AList.lookup_insert_ne h]

/-- The possible results of a call. -/
inductive SyncStep (P : Primitives K C) (ofBytes : Bytes → C) (r : RatchetRegistry K C)
    (peer : String) (data : Bytes) (clock : SyncClock) :
    Except KyberError ℕ → RatchetRegistry K C → Prop
  | malformed {e : KyberError} (hparse : syncPacket ofBytes data = .error e) :
      SyncStep P ofBytes r peer data clock (.error e) r
  | cached (hhit : r.answersFromCache ofBytes peer data clock = true) :
      SyncStep P ofBytes r peer data clock (.ok 0)
        (r.setGate peer ((r.gate peer).pruneApplied clock.lookup))
  | refused (e : KyberError) :
      SyncStep P ofBytes r peer data clock (.error e)
        (r.setGate peer ((r.gate peer).asked clock))
  | failed {msg : RatchetEncryptedMessage C} {s s' : DoubleRatchetState K C} {e : KyberError}
      (hs : r.sessions.lookup peer = some s)
      (happly : s.applySynchronize P msg clock.work = (.error e, s')) :
      SyncStep P ofBytes r peer data clock (.error e)
        { r.setGate peer ((r.gate peer).asked clock) with sessions := r.sessions.insert peer s' }
  | applied {msg : RatchetEncryptedMessage C} {s s' : DoubleRatchetState K C} {skipped : ℕ}
      (hparse : syncPacket ofBytes data = .ok msg)
      (hmiss : r.answersFromCache ofBytes peer data clock = false)
      (hfew : ((r.gate peer).asked clock).lastSyncAt.length < syncRateBurst)
      (hs : r.sessions.lookup peer = some s)
      (happly : s.applySynchronize P msg clock.work = (.ok skipped, s')) :
      SyncStep P ofBytes r peer data clock (.ok skipped)
        { r.setGate peer ((r.gate peer).succeeded (syncDigest data) clock) with
          sessions := r.sessions.insert peer s' }

variable (P ofBytes r peer data clock) in
theorem ratchetProcessSynchronizeImpl_step :
    SyncStep P ofBytes r peer data clock
      (r.ratchetProcessSynchronizeImpl P ofBytes peer data clock).1
      (r.ratchetProcessSynchronizeImpl P ofBytes peer data clock).2 := by
  unfold ratchetProcessSynchronizeImpl
  split
  · rename_i e hparse
    exact .malformed hparse
  · rename_i msg hparse
    have hok : (syncPacket ofBytes data).isOk = true := by
      rw [hparse]
      rfl
    split
    · rename_i gate hcache
      have hhit : r.answersFromCache ofBytes peer data clock = true := by
        rw [answersFromCache, hok, hcache]
        rfl
      obtain rfl : (r.gate peer).pruneApplied clock.lookup = gate := congrArg Prod.snd hcache
      exact .cached hhit
    · rename_i gate hcache
      have hmiss : r.answersFromCache ofBytes peer data clock = false := by
        rw [answersFromCache, hok, hcache]
        rfl
      obtain rfl : (r.gate peer).pruneApplied clock.lookup = gate := congrArg Prod.snd hcache
      split
      · rename_i gate hlimit
        obtain rfl : (r.gate peer).asked clock = gate := congrArg Prod.snd hlimit
        exact .refused _
      · rename_i gate hlimit
        obtain rfl : (r.gate peer).asked clock = gate := congrArg Prod.snd hlimit
        have hfew : ((r.gate peer).asked clock).lastSyncAt.length < syncRateBurst :=
          Nat.lt_of_not_le (of_decide_eq_false (congrArg Prod.fst hlimit))
        split
        · exact .refused _
        · rename_i s hs
          split
          · rename_i e s' happly
            exact .failed hs happly
          · rename_i skipped s' happly
            exact .applied hparse hmiss hfew hs happly

variable {res : Except KyberError ℕ} {r' : RatchetRegistry K C}

section

variable (h : SyncStep P ofBytes r peer data clock res r')
include h

/-- A call that succeeds without the cache has passed the limiter and applied its packet. -/
theorem SyncStep.of_applied (hok : res.isOk = true)
    (hmiss : r.answersFromCache ofBytes peer data clock = false) :
    ∃ msg s s' skipped, syncPacket ofBytes data = .ok msg ∧
      ((r.gate peer).asked clock).lastSyncAt.length < syncRateBurst ∧
      r.sessions.lookup peer = some s ∧
      s.applySynchronize P msg clock.work = (.ok skipped, s') ∧
      r'.gate peer = (r.gate peer).succeeded (syncDigest data) clock := by
  cases h with
  | malformed hparse => cases hok
  | cached hhit =>
    rw [hhit] at hmiss
    cases hmiss
  | refused e => cases hok
  | failed hs happly => cases hok
  | applied hparse hmiss hfew hs happly =>
    exact ⟨_, _, _, _, hparse, hfew, hs, happly, r.gate_setGate_self peer _⟩

/-- A digest in the cache after a call was there before, or it is the one of the packet that the
call applied. -/
theorem SyncStep.mem_appliedSync {e : ℕ × ℕ} (he : e ∈ (r'.gate peer).appliedSync) :
    e ∈ (r.gate peer).appliedSync ∨ res.isOk = true ∧
      r.answersFromCache ofBytes peer data clock = false ∧ e.1 = syncDigest data := by
  cases h with
  | malformed hparse => exact .inl he
  | cached hhit =>
    rw [gate_setGate_self] at he
    exact .inl (List.mem_of_mem_filter he)
  | refused e' =>
    rw [gate_setGate_self] at he
    exact .inl (SyncGate.mem_asked he)
  | failed hs happly =>
    have he : e ∈ ((r.setGate peer _).gate peer).appliedSync := he
    rw [gate_setGate_self] at he
    exact .inl (SyncGate.mem_asked he)
  | applied hparse hmiss hfew hs happly =>
    have he : e ∈ ((r.setGate peer _).gate peer).appliedSync := he
    rw [gate_setGate_self] at he
    rcases SyncGate.mem_succeeded he with rfl | hold
    · exact .inr ⟨rfl, hmiss, rfl⟩
    · exact .inl hold

/-- A call leaves the tables of every other peer alone. -/
theorem SyncStep.frame (hq : q ≠ peer) :
    r'.gate q = r.gate q ∧ r'.sessions.lookup q = r.sessions.lookup q := by
  cases h with
  | malformed hparse => exact ⟨rfl, rfl⟩
  | cached hhit => exact ⟨r.gate_setGate_of_ne _ hq, rfl⟩
  | refused e => exact ⟨r.gate_setGate_of_ne _ hq, rfl⟩
  | failed hs happly => exact ⟨r.gate_setGate_of_ne _ hq, AList.lookup_insert_ne hq⟩
  | applied hparse hmiss hfew hs happly =>
    exact ⟨r.gate_setGate_of_ne _ hq, AList.lookup_insert_ne hq⟩

end

/-- What a call answers depends only on the tables of its peer. -/
theorem ratchetProcessSynchronizeImpl_fst_congr {r₁ r₂ : RatchetRegistry K C}
    (hgate : r₁.gate peer = r₂.gate peer)
    (hsession : r₁.sessions.lookup peer = r₂.sessions.lookup peer) :
    (r₁.ratchetProcessSynchronizeImpl P ofBytes peer data clock).1 =
      (r₂.ratchetProcessSynchronizeImpl P ofBytes peer data clock).1 := by
  unfold ratchetProcessSynchronizeImpl
  rw [hgate, hsession]
  split
  · rfl
  · split
    · rfl
    · split
      · rfl
      · split
        · rfl
        · split <;> rfl

/-- The single-clock function through the helpers of `sync.rs`. The second pruning of the cache
finds nothing more to forget. -/
theorem ratchetProcessSynchronize_eq (P : Primitives K C) (peer : String) (gate : SyncGate)
    (s : DoubleRatchetState K C) (msg : RatchetEncryptedMessage C) (digest : ℕ) (now : Clock) :
    ratchetProcessSynchronize P peer gate s msg digest now =
      if (gate.alreadyAppliedAuthenticated digest now.mono).1 then
        (.ok 0, gate.pruneApplied now.mono, s)
      else if ((gate.pruneApplied now.mono).syncRateLimited now.mono).1 then
        (.error (.cryptoError
          s!"Synchronize rate-limited for peer {peer} — burst (3/15) exhausted; retry in 15s"),
          gate.asked (.at now), s)
      else
        match s.applySynchronize P msg now with
        | (.error e, s) => (.error e, gate.asked (.at now), s)
        | (.ok skipped, s) => (.ok skipped, gate.succeeded digest (.at now), s) := by
  have hsucceeded : gate.succeeded digest (.at now) =
      let applied := (gate.pruneApplied now.mono).appliedSync ++ [(digest, now.mono)]
      { lastSyncAt := (gate.asked (.at now)).lastSyncAt ++ [now.mono]
        appliedSync := applied.drop (applied.length - appliedSyncCacheMax) } := by
    show ((gate.asked (.at now)).stampSync now.mono).recordAppliedSync digest now.mono = _
    have hprune : (((gate.asked (.at now)).stampSync now.mono).pruneApplied now.mono).appliedSync =
        (gate.pruneApplied now.mono).appliedSync := by
      show (gate.appliedSync.filter fun e => now.mono - e.2 < appliedSyncCacheTtl).filter
        (fun e => now.mono - e.2 < appliedSyncCacheTtl) = _
      simp [List.filter_filter, SyncGate.pruneApplied]
    rw [SyncGate.recordAppliedSync, hprune]
    rfl
  simp only [hsucceeded]
  unfold ratchetProcessSynchronize
  dsimp only
  by_cases hhit : (gate.alreadyAppliedAuthenticated digest now.mono).1 = true
  · rw [if_pos hhit]
    exact if_pos hhit
  · rw [if_neg hhit]
    refine (if_neg hhit).trans ?_
    by_cases hlimit : ((gate.pruneApplied now.mono).syncRateLimited now.mono).1 = true
    · rw [if_pos hlimit]
      exact if_pos (of_decide_eq_true hlimit)
    · rw [if_neg hlimit]
      exact if_neg fun h => hlimit (decide_eq_true h)

/-- A call that takes no time does to its peer what `ratchetProcessSynchronize` does with the
decoded packet. -/
theorem ratchetProcessSynchronizeImpl_at {msg : RatchetEncryptedMessage C}
    {s : DoubleRatchetState K C} (hparse : syncPacket ofBytes data = .ok msg)
    (hs : r.sessions.lookup peer = some s) (now : Clock) :
    let call := r.ratchetProcessSynchronizeImpl P ofBytes peer data (.at now)
    let res := ratchetProcessSynchronize P peer (r.gate peer) s msg (syncDigest data) now
    call.1 = res.1 ∧ call.2.gate peer = res.2.1 ∧ call.2.sessions.lookup peer = some res.2.2 := by
  dsimp only
  rw [ratchetProcessSynchronize_eq]
  simp only [ratchetProcessSynchronizeImpl, hparse]
  have hlookup : (r.gate peer).alreadyAppliedAuthenticated (syncDigest data)
      (SyncClock.at now).lookup =
        (((r.gate peer).alreadyAppliedAuthenticated (syncDigest data) now.mono).1,
          (r.gate peer).pruneApplied now.mono) := rfl
  have hcheck : ((r.gate peer).pruneApplied now.mono).syncRateLimited (SyncClock.at now).check =
      ((((r.gate peer).pruneApplied now.mono).syncRateLimited now.mono).1,
        (r.gate peer).asked (.at now)) := rfl
  rw [hlookup]
  cases ((r.gate peer).alreadyAppliedAuthenticated (syncDigest data) now.mono).1 with
  | true => exact ⟨rfl, r.gate_setGate_self peer _, hs⟩
  | false =>
    dsimp only
    rw [hcheck]
    cases (((r.gate peer).pruneApplied now.mono).syncRateLimited now.mono).1 with
    | true => exact ⟨rfl, r.gate_setGate_self peer _, hs⟩
    | false =>
      simp only [hs]
      rcases happly : s.applySynchronize P msg now with ⟨e | skipped, s'⟩
      all_goals
        rw [show s.applySynchronize P msg (SyncClock.at now).work = _ from happly]
        exact ⟨rfl, r.gate_setGate_self peer _, AList.lookup_insert _⟩

end RatchetRegistry

/-! ## Sequences of calls -/

/-- The registry between two calls, and the last reading of the clock. -/
structure SyncProcess (K C : Type) where
  registry : RatchetRegistry K C
  now : ℕ := 0

/-- What happens to the process. -/
inductive SyncEvent (K C : Type) where
  /-- A call with the bytes of a packet. -/
  | call (peer : String) (data : Bytes) (clock : SyncClock)
  /-- Anything else that happens to the sessions. -/
  | update (sessions : RatchetSessionMap K C)

/-- The answer to a call, and whether it came from the cache. -/
structure SyncAnswer where
  result : Except KyberError ℕ
  cached : Bool

namespace SyncProcess

/-- The process under its events. -/
def machine (P : Primitives K C) (ofBytes : Bytes → C) :
    Machine (SyncProcess K C) (SyncEvent K C) (Option SyncAnswer) where
  step p
    | .call peer data clock =>
      let res := p.registry.ratchetProcessSynchronizeImpl P ofBytes peer data clock
      (some ⟨res.1, p.registry.answersFromCache ofBytes peer data clock⟩, ⟨res.2, clock.record⟩)
    | .update sessions => (none, { p with registry := { p.registry with sessions } })

/-- A call begins after the one before it has ended. -/
def InOrder (p : SyncProcess K C) : SyncEvent K C → Prop
  | .call _ _ clock => p.now ≤ clock.lookup
  | .update _ => True

instance (p : SyncProcess K C) : ∀ event, Decidable (p.InOrder event)
  | .call _ _ clock => inferInstanceAs (Decidable (p.now ≤ clock.lookup))
  | .update _ => .isTrue trivial

/-- The clock of a call that applied a packet of `peer` that was not in the cache. -/
def appliedCall (peer : String) : SyncEvent K C → Option SyncAnswer → Option SyncClock
  | .call q _ clock, some answer =>
    if q = peer ∧ answer.result.isOk = true ∧ answer.cached = false then some clock else none
  | _, _ => none

end SyncProcess

/-! ## Symbolic packets -/

namespace Symbolic

/-- The next `n` Synchronize packets of a session. -/
def synchronizeAll (s : DoubleRatchetState Key Ciphertext) :
    ℕ → List (RatchetEncryptedMessage Ciphertext)
  | 0 => []
  | n + 1 =>
    let r := s.ratchetSynchronizePacket primitives (randomness n) ⟨0, 0⟩
    r.1.toOption.toList ++ synchronizeAll r.2 n

/-- The bytes of the ciphertext of the responder's `i`-th packet, as many as the JSON of a
Synchronize message with a one-digit count and the tag take. -/
def ciphertextBytes (i : ℕ) : Bytes := List.replicate (49 + 16) (UInt8.ofNat (160 + i))

/-- The ciphertext that a byte string stands for: one of the responder's first four packets, or
one that nobody has sealed. -/
def ofWire (bytes : Bytes) : Ciphertext :=
  ((synchronizeAll responder 4).zipIdx.find? fun e => ciphertextBytes e.2 == bytes).elim
    ⟨.absent, ⟨0, 0⟩, [], []⟩ (·.1.ciphertext)

/-- The bytes of the responder's `i`-th packet. -/
def syncBytes (i : ℕ) : Bytes :=
  (WireMessage.toBinary ⟨Nonce.toBytes ⟨0, i⟩, ciphertextBytes i, none, none, none⟩).toOption.getD
    []

/-- The sessions of a desktop that is paired with the responder. -/
def pairedRegistry : RatchetRegistry Key Ciphertext :=
  { sessions := AList.singleton "phone" initiator }

end Symbolic

end KyberPipe
