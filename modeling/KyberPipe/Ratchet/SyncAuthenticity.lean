import KyberPipe.Ratchet.SyncCalls

/-!
# Which Synchronize packets succeed

A packet that is not in the cache succeeds only if the session opens it and finds a Synchronize
packet of its position in it. The cache knows a packet by its FNV-1a digest only. So success means
authenticity as long as no two packets of a peer collide, and a collision lets a packet succeed that
nobody has sealed.
-/

namespace KyberPipe

variable {K C : Type}

namespace DoubleRatchetState

variable (P : Primitives K C) (s : DoubleRatchetState K C)

/-- Whether the session opens a packet and finds a Synchronize packet of its position in it. -/
def opensSynchronize (msg : RatchetEncryptedMessage C) (now : Clock) : Bool :=
  match (s.decryptMessage P msg now).1 with
  | .ok plaintext => (verifySynchronize P msg.nonce.seq plaintext).isOk
  | .error _ => false

/-- Whether a packet is authenticated by the session, or by its copy whose receiving chain was
moved to the packet. -/
def authenticatesSynchronize (msg : RatchetEncryptedMessage C) (now : Clock) : Bool :=
  s.opensSynchronize P msg now ||
    match s.resyncReceivingChain P msg.nonce.seq now with
    | (.ok _, trial) => trial.opensSynchronize P msg now
    | (.error _, _) => false

variable {P s} {msg : RatchetEncryptedMessage C} {now : Clock}
variable {s' : DoubleRatchetState K C}

theorem DecryptStep.exists_aeadOpen {nonce : Nonce} {c : C} {payload : Option RekeyPayload}
    {pt : Bytes} (h : DecryptStep P s nonce c payload now (.ok pt) s') :
    ∃ key, P.aeadOpen key nonce c (payloadAad payload) = some pt := by
  cases h with
  | previous hadmits hdel =>
    cases hdel with
    | cached hgen hck hkey hdec => exact ⟨_, aeadOpen_of_decryptChacha20 hdec⟩
    | chain hgen hck hanchor hle hgap hdec => exact ⟨_, aeadOpen_of_decryptChacha20 hdec⟩
  | current hadmits hskip hderives hdel =>
    cases hdel with
    | cached hkey hdec => exact ⟨_, aeadOpen_of_decryptChacha20 hdec⟩
    | chain hgap hdec => exact ⟨_, aeadOpen_of_decryptChacha20 hdec⟩
  | pending hadmits hskip hderives hdel => exact ⟨_, aeadOpen_of_decryptChacha20 hdel.hdec⟩

theorem exists_aeadOpen_of_decryptMessage {pt : Bytes}
    (h : (s.decryptMessage P msg now).1 = .ok pt) :
    ∃ key aad, P.aeadOpen key msg.nonce msg.ciphertext aad = some pt := by
  unfold decryptMessage at h
  split_ifs at h
  · have hstep := ratchetDecryptWithRekey_step P s msg.nonce msg.ciphertext msg.rekeyCiphertext
      msg.rekeyX25519Pk msg.rekeyMlkemPk now
    rw [h] at hstep
    obtain ⟨key, hopen⟩ := hstep.exists_aeadOpen
    exact ⟨key, _, hopen⟩
  · have hstep := ratchetDecrypt_step P s msg.nonce msg.ciphertext now
    rw [h] at hstep
    obtain ⟨key, hopen⟩ := hstep.exists_aeadOpen
    exact ⟨key, _, hopen⟩

/-- A packet that was opened is sealed, and what was sealed is a Synchronize packet. -/
theorem exists_aeadOpen_of_opensSynchronize (h : s.opensSynchronize P msg now = true) :
    ∃ key aad pt, P.aeadOpen key msg.nonce msg.ciphertext aad = some pt ∧
      verifySynchronize P msg.nonce.seq pt = .ok () := by
  unfold opensSynchronize at h
  split at h
  · rename_i pt hdec
    obtain ⟨key, aad, hopen⟩ := exists_aeadOpen_of_decryptMessage hdec
    refine ⟨key, aad, pt, hopen, ?_⟩
    cases hverify : verifySynchronize P msg.nonce.seq pt with
    | error e =>
      rw [hverify] at h
      cases h
    | ok _ => rfl
  · cases h

theorem exists_aeadOpen_of_authenticatesSynchronize
    (h : s.authenticatesSynchronize P msg now = true) :
    ∃ key aad pt, P.aeadOpen key msg.nonce msg.ciphertext aad = some pt ∧
      verifySynchronize P msg.nonce.seq pt = .ok () := by
  rcases Bool.or_eq_true_iff.1 h with hlive | hcopy
  · exact exists_aeadOpen_of_opensSynchronize hlive
  · split at hcopy
    · exact exists_aeadOpen_of_opensSynchronize hcopy
    · cases hcopy

theorem authenticatesSynchronize_of_apply {skipped : ℕ}
    (h : s.applySynchronize P msg now = (.ok skipped, s')) :
    s.authenticatesSynchronize P msg now = true := by
  have hopened : ∀ {t t' : DoubleRatchetState K C} {pt : Bytes},
      t.decryptMessage P msg now = (.ok pt, t') →
      verifySynchronize P msg.nonce.seq pt = .ok () → t.opensSynchronize P msg now = true := by
    intro t t' pt hdec hverify
    simp [opensSynchronize, hdec, hverify, Except.isOk, Except.toBool]
  have heffect := synchronizeEffect_applySynchronize P s msg now
  rw [h] at heffect
  cases heffect with
  | moved _ hresync hdec hverify =>
    -- the copy was moved to the packet first
    rw [authenticatesSynchronize, hresync]
    exact Bool.or_eq_true_iff.2 (.inr (hopened hdec hverify))
  | opened _ hdec hverify => rw [authenticatesSynchronize, hopened hdec hverify, Bool.true_or]

end DoubleRatchetState

namespace SyncProcess

variable (P : Primitives K C) (ofBytes : Bytes → C)

/-- In this state the session of the peer authenticates the packet in these bytes: the AEAD opens
it to a Synchronize packet of its position. -/
def Authenticates (p : SyncProcess K C) (peer : String) (data : Bytes) (now : Clock) : Prop :=
  ∃ msg s, syncPacket ofBytes data = .ok msg ∧ p.registry.sessions.lookup peer = some s ∧
    s.authenticatesSynchronize P msg now = true ∧
    ∃ key aad pt, P.aeadOpen key msg.nonce msg.ciphertext aad = some pt ∧
      DoubleRatchetState.verifySynchronize P msg.nonce.seq pt = .ok ()

/-- Whenever a call of the run succeeds, the bytes it was given were authenticated by this call or
by an earlier one for the same peer. -/
def AuthenticSuccesses (p : SyncProcess K C) (events : List (SyncEvent K C)) : Prop :=
  ∀ k peer data clock, events[k]? = some (.call peer data clock) →
    (((machine P ofBytes).run p (events.take k)).2.registry.ratchetProcessSynchronizeImpl P ofBytes
      peer data clock).1.isOk = true →
    ∃ j ≤ k, ∃ clock', events[j]? = some (.call peer data clock') ∧
      ((machine P ofBytes).run p (events.take j)).2.Authenticates P ofBytes peer data clock'.work

/-- No two packets of a peer have the same digest. -/
def CollisionFree (events : List (SyncEvent K C)) : Prop :=
  ∀ peer data data' clock clock', .call peer data clock ∈ events →
    .call peer data' clock' ∈ events → syncDigest data = syncDigest data' → data = data'

/-- The peer and the bytes of a call that applied a packet. -/
def appliedPacket : SyncEvent K C → Option SyncAnswer → Option (String × Bytes)
  | .call peer data _, some answer =>
    if answer.result.isOk = true ∧ answer.cached = false then some (peer, data) else none
  | _, _ => none

/-- Every digest in a cache is the one of a packet that was applied for the peer. -/
def CacheApplied (p : SyncProcess K C) (seen : List (String × Bytes)) : Prop :=
  ∀ peer, ∀ e ∈ (p.registry.gate peer).appliedSync, ∃ data, (peer, data) ∈ seen ∧
    syncDigest data = e.1

variable {P ofBytes} {p : SyncProcess K C} {seen : List (String × Bytes)}

open RatchetRegistry

theorem CacheApplied.step (h : p.CacheApplied seen) (event : SyncEvent K C) :
    CacheApplied ((machine P ofBytes).step p event).2
      (seen ++ (appliedPacket event ((machine P ofBytes).step p event).1).toList) := by
  have hseen : ∀ {q : String} {e : ℕ × ℕ} {extra : List (String × Bytes)},
      e ∈ (p.registry.gate q).appliedSync →
      ∃ data, (q, data) ∈ seen ++ extra ∧ syncDigest data = e.1 := by
    intro q e extra he
    obtain ⟨data, hdata, hdigest⟩ := h q e he
    exact ⟨data, List.mem_append_left _ hdata, hdigest⟩
  cases event with
  | update sessions => exact fun q e he => hseen he
  | call peer data clock =>
    intro q e he
    have hstep := ratchetProcessSynchronizeImpl_step P ofBytes p.registry peer data clock
    simp only [machine, appliedPacket] at he ⊢
    generalize p.registry.ratchetProcessSynchronizeImpl P ofBytes peer data clock = call
      at hstep he ⊢
    by_cases hq : q = peer
    · subst hq
      rcases hstep.mem_appliedSync he with hold | ⟨hok, hmiss, hdigest⟩
      · exact hseen hold
      · -- the new entry stands for the packet of this call
        rw [if_pos ⟨hok, hmiss⟩]
        exact ⟨data, List.mem_append_right _ (List.mem_singleton_self _), hdigest.symm⟩
    · rw [(hstep.frame hq).1] at he
      exact hseen he

variable {peer : String}

/-- A call that succeeds without the cache has authenticated its packet. -/
theorem authenticates_of_applied {data : Bytes} {clock : SyncClock}
    (hok : (p.registry.ratchetProcessSynchronizeImpl P ofBytes peer data clock).1.isOk = true)
    (hmiss : p.registry.answersFromCache ofBytes peer data clock = false) :
    p.Authenticates P ofBytes peer data clock.work := by
  have hstep := ratchetProcessSynchronizeImpl_step P ofBytes p.registry peer data clock
  obtain ⟨msg, s, _, _, hparse, _, hs, happly, _⟩ := hstep.of_applied hok hmiss
  have hauth := DoubleRatchetState.authenticatesSynchronize_of_apply happly
  exact ⟨msg, s, hparse, hs, hauth,
    DoubleRatchetState.exists_aeadOpen_of_authenticatesSynchronize hauth⟩

theorem authenticates_of_appliedPacket {event : SyncEvent K C} {data : Bytes}
    (h : appliedPacket event ((machine P ofBytes).step p event).1 = some (peer, data)) :
    ∃ clock, event = .call peer data clock ∧ p.Authenticates P ofBytes peer data clock.work := by
  cases event with
  | update sessions => cases h
  | call q bytes clock =>
    simp only [machine, appliedPacket] at h
    split_ifs at h with hnew
    obtain ⟨rfl, rfl⟩ := Prod.mk.inj (Option.some.inj h)
    exact ⟨clock, rfl, authenticates_of_applied hnew.1 hnew.2⟩

/-- A call that is answered from the cache finds the digest of its packet there. -/
theorem exists_mem_of_answersFromCache {r : RatchetRegistry K C} {data : Bytes} {clock : SyncClock}
    (h : r.answersFromCache ofBytes peer data clock = true) :
    ∃ e ∈ (r.gate peer).appliedSync, e.1 = syncDigest data := by
  obtain ⟨e, he, -, hdigest⟩ :=
    SyncGate.alreadyAppliedAuthenticated_eq_true.1 (Bool.and_eq_true_iff.1 h).2
  exact ⟨e, he, hdigest⟩

end SyncProcess

open SyncProcess RatchetRegistry in
/-- In a run from empty caches in which no two packets of a peer share a digest, every packet that
succeeds was authenticated in its call or earlier. -/
theorem authenticSuccesses_of_collisionFree (P : Primitives K C) (ofBytes : Bytes → C)
    {p : SyncProcess K C} (hempty : ∀ peer, (p.registry.gate peer).appliedSync = [])
    {events : List (SyncEvent K C)} (hfree : CollisionFree events) :
    p.AuthenticSuccesses P ofBytes events := by
  intro k peer data clock hk hok
  have hstart : p.CacheApplied [] := by
    intro q e he
    rw [hempty q] at he
    cases he
  have hfollows : (machine P ofBytes).Follows (fun _ _ => True) p (events.take k) :=
    Machine.follows_of_forall fun _ _ => trivial
  have hcache := Machine.run_emitted_of_follows CacheApplied
    (fun p event seen h _ => h.step event) hstart hfollows
  rw [List.nil_append] at hcache
  by_cases hhit : ((machine P ofBytes).run p (events.take k)).2.registry.answersFromCache ofBytes
      peer data clock = true
  · -- the digest in the cache is the one of a packet that was applied before
    obtain ⟨e, he, hdigest⟩ := exists_mem_of_answersFromCache hhit
    obtain ⟨data', hdata', hsame⟩ := hcache peer e he
    obtain ⟨j, event, hj, hemit⟩ := Machine.exists_of_mem_emitted hdata'
    obtain ⟨clock', rfl, hauth⟩ := authenticates_of_appliedPacket hemit
    rw [List.getElem?_take] at hj
    split_ifs at hj with hjk
    rw [List.take_take, Nat.min_eq_left hjk.le] at hauth
    obtain rfl := hfree peer data data' clock clock' (List.mem_of_getElem? hk)
      (List.mem_of_getElem? hj) (hdigest.symm.trans hsame.symm)
    exact ⟨j, hjk.le, clock', hj, hauth⟩
  · exact ⟨k, le_rfl, clock, hk, authenticates_of_applied hok (by simpa using hhit)⟩

section Symbolic

open Symbolic SyncProcess

/-- The packet of the responder, given twice. -/
def repeatedPacket : List (SyncEvent Key Ciphertext) :=
  [.call "phone" (syncBytes 0) (.at ⟨0, 0⟩), .call "phone" (syncBytes 0) (.at ⟨nanosPerSec, 0⟩)]

/-- Both calls succeed, the second one from the cache, and the packet was authenticated. -/
theorem authenticSuccesses_repeatedPacket :
    (((machine primitives ofWire).run ⟨pairedRegistry, 0⟩ repeatedPacket).1.map fun e =>
        e.2.map fun answer => (answer.result.isOk, answer.cached)) =
      [some (true, false), some (true, true)] ∧
      AuthenticSuccesses primitives ofWire ⟨pairedRegistry, 0⟩ repeatedPacket := by
  refine ⟨by decide +kernel, authenticSuccesses_of_collisionFree primitives ofWire
    (fun _ => rfl) ?_⟩
  intro peer data data' clock clock' hcall hcall' _
  have hbytes : ∀ {data : Bytes} {clock : SyncClock},
      SyncEvent.call peer data clock ∈ repeatedPacket → data = syncBytes 0 := by
    intro data clock h
    simp only [repeatedPacket, List.mem_cons, SyncEvent.call.injEq, List.not_mem_nil, or_false] at h
    rcases h with h | h
    · exact h.2.1
    · exact h.2.1
  rw [hbytes hcall, hbytes hcall']

/-- Bytes of a ciphertext that nobody has sealed. With the responder's first nonce they have the
digest of the responder's first packet. -/
def forgedBytes : Bytes :=
  List.replicate 48 0xa0 ++
    [0x60, 0x03, 0x3d, 0x75, 0x0d, 0x21, 0xe5, 0x2b, 0x1b, 0x12, 0x12, 0x0f, 0x1d, 0x04, 0x0d,
      0x2e, 0x75]

/-- A packet that nobody has sealed. -/
def forgedPacket : Bytes :=
  (WireMessage.toBinary ⟨Nonce.toBytes ⟨0, 0⟩, forgedBytes, none, none, none⟩).toOption.getD []

/-- The forged packet follows the responder's first packet. -/
def forgery : List (SyncEvent Key Ciphertext) :=
  [.call "phone" (syncBytes 0) (.at ⟨0, 0⟩), .call "phone" forgedPacket (.at ⟨nanosPerSec, 0⟩)]

/-- The forged packet has the digest of the responder's. The call with it succeeds, although no
session authenticates it. -/
theorem forgery_succeeds :
    forgedPacket ≠ syncBytes 0 ∧ syncDigest forgedPacket = syncDigest (syncBytes 0) ∧
      (((machine primitives ofWire).run ⟨pairedRegistry, 0⟩ forgery).1.map fun e =>
          e.2.map fun answer => answer.result.toOption) = [some (some 0), some (some 0)] ∧
      ¬AuthenticSuccesses primitives ofWire ⟨pairedRegistry, 0⟩ forgery := by
  refine ⟨by decide +kernel, by decide +kernel, by decide +kernel, fun hall => ?_⟩
  obtain ⟨j, hj, clock', hcall, msg, s, hparse, hs, hauth, -⟩ :=
    hall 1 "phone" forgedPacket (.at ⟨nanosPerSec, 0⟩) rfl (by decide +kernel)
  have hother : forgedPacket ≠ syncBytes 0 := by decide +kernel
  obtain rfl | rfl : j = 0 ∨ j = 1 := by omega
  · exact hother (SyncEvent.call.inj (Option.some.inj hcall)).2.1.symm
  · obtain rfl := (SyncEvent.call.inj (Option.some.inj hcall)).2.2
    have hrejected : (syncPacket ofWire forgedPacket).toOption.bind (fun msg =>
        (((machine primitives ofWire).run ⟨pairedRegistry, 0⟩
          (forgery.take 1)).2.registry.sessions.lookup "phone").map fun s =>
            s.authenticatesSynchronize primitives msg ⟨nanosPerSec, 0⟩) = some false := by
      decide +kernel
    rw [hparse, hs] at hrejected
    cases hauth.symm.trans (Option.some.inj hrejected)

end Symbolic

end KyberPipe
