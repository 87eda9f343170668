import KyberPipe.Desktop.Restart
import KyberPipe.Ratchet.AtMostOnce

/-!
# Imports of old snapshots

The guard of an import compares four counters. A message that is delivered from the cache of skipped
keys or from the retained previous generation moves none of them, so a snapshot from before such a
delivery passes the guard, and the message can be delivered again. If a counter of the live session
is ahead of the snapshot the import is refused, and if nothing was delivered since the export
nothing is lost.
-/

namespace KyberPipe

open Symbolic Machine RatchetWatermark

variable {K C B : Type}

/-- The registry under calls to its peers. -/
def RatchetRegistry.machine (P : Primitives K C) :
    Machine (RatchetRegistry K C) (String × Call C) (Except KyberError (Response C)) where
  step r a := r.withRatchetSession P a.1 a.2

/-- The nonce and ciphertext of a message that a call to `peer` returned as plaintext. -/
def deliveredTo (peer : String) (a : String × Call C) (answer : Except KyberError (Response C)) :
    Option (Nonce × C) :=
  if a.1 = peer then answer.toOption.bind (deliveredMessage a.2) else none

/-- A counter lies above the one of another watermark. -/
def RatchetWatermark.AheadOf (w other : RatchetWatermark) : Prop :=
  other.ratchetGeneration < w.ratchetGeneration ∨ other.sendMessageCount < w.sendMessageCount ∨
    other.recvMessageCount < w.recvMessageCount

theorem RatchetWatermark.refusesImport_of_aheadOf {w other : RatchetWatermark}
    (h : w.AheadOf other) : refusesImport (some w) other = true := by
  rw [← Bool.not_eq_false, refusesImport_eq_false]
  unfold AheadOf at h
  omega

namespace DoubleRatchetState

/-- Spent keys stay spent over an export and an import. -/
theorem Spent.reloaded {P : Primitives K C} {s : DoubleRatchetState K C} {used : Set K}
    (h : s.Spent P used) (now : Clock) : (s.reloaded now).Spent P used := by
  obtain ⟨hbumps, hkeys⟩ := h
  refine ⟨hbumps.reloaded now, hkeys.imp id ?_⟩
  rintro ⟨history, hused, hfit⟩
  exact ⟨history, hused, hfit.of_receive_eq rfl rfl rfl rfl rfl
    (hfit.slots.of_kept rfl (.inl ⟨rfl, rfl, rfl⟩) (.inl rfl))⟩

end DoubleRatchetState

namespace RatchetRegistry

variable {P : Primitives K C} {r : RatchetRegistry K C} {peer : String}

/-- The keys of the messages in `seen` are spent in the session of the peer. -/
def Delivered (P : Primitives K C) (peer : String) (r : RatchetRegistry K C)
    (seen : Set (Nonce × C)) : Prop :=
  ∃ used, (∀ s, r.sessions.lookup peer = some s → s.Spent P used) ∧
    ∀ d ∈ seen, ∃ key ∈ used, ∃ aad pt, P.aeadOpen key d.1 d.2 aad = some pt

theorem Delivered.mono {seen seen' : Set (Nonce × C)} (h : r.Delivered P peer seen)
    (hsub : seen' ⊆ seen) : r.Delivered P peer seen' := by
  obtain ⟨used, hspent, hseen⟩ := h
  exact ⟨used, hspent, fun d hd => hseen d (hsub hd)⟩

section Ideal

variable (ideal : P.Ideal)
include ideal

variable {seen : Set (Nonce × C)} {a : String × Call C}

theorem Delivered.step (h : r.Delivered P peer seen) (ha : ¬a.2.Manual) :
    ((machine P).step r a).2.Delivered P peer seen := by
  obtain ⟨used, hspent, hseen⟩ := h
  refine ⟨used, fun s' hs' => ?_, hseen⟩
  simp only [machine, lookup_withRatchetSession] at hs'
  obtain ⟨s, hs, rfl⟩ := Option.map_eq_some_iff.1 hs'
  split_ifs
  · exact (Session.exec_evolves P a.1 ⟨s, r.gate a.1⟩ ha).spent ideal (hspent s hs)
  · exact hspent s hs

theorem Delivered.step_delivered (h : r.Delivered P peer seen) {d : Nonce × C}
    (hdel : deliveredTo peer a ((machine P).step r a).1 = some d) :
    (∀ d' ∈ seen, d'.2 ≠ d.2) ∧ ((machine P).step r a).2.Delivered P peer (insert d seen) := by
  obtain ⟨used, hspent, hseen⟩ := h
  unfold deliveredTo at hdel
  split_ifs at hdel with hpeer
  obtain ⟨q, call⟩ := a
  obtain rfl : q = peer := hpeer
  simp only [machine] at hdel ⊢
  cases hs : r.sessions.lookup q with
  | none => simp [withRatchetSession, hs, Except.toOption] at hdel
  | some s =>
    simp only [withRatchetSession, hs, Except.toOption, Option.bind_some] at hdel
    obtain ⟨payload, now, pt, hstep⟩ := Session.exec_delivered P q ⟨s, r.gate q⟩ hdel
    obtain ⟨key, hopen, hnew, hspent'⟩ := hstep.spent ideal (hspent s hs)
    refine ⟨fun d' hd' heq => ?_, insert key used, fun s' hs' => ?_, ?_⟩
    · obtain ⟨key', hmem, aad, pt', hopen'⟩ := hseen d' hd'
      rw [heq] at hopen'
      exact hnew (ideal.key_eq_of_open hopen' hopen ▸ hmem)
    · rw [lookup_withRatchetSession, hs, Option.map_some, if_pos rfl] at hs'
      exact Option.some.inj hs' ▸ hspent'
    · rintro d' (rfl | hd')
      · exact ⟨key, Set.mem_insert key used, _, pt, hopen⟩
      · obtain ⟨key', hmem, hopen'⟩ := hseen d' hd'
        exact ⟨key', Set.mem_insert_of_mem key hmem, hopen'⟩

variable {calls : List (String × Call C)}

/-- After a run the earlier messages and those of the run are delivered. -/
theorem Delivered.run (h : r.Delivered P peer seen) (hcalls : ∀ a ∈ calls, ¬a.2.Manual) :
    ((machine P).run r calls).2.Delivered P peer
      (seen ∪ {d | d ∈ emitted (deliveredTo peer) ((machine P).run r calls).1}) := by
  induction calls generalizing r seen with
  | nil => simpa using h
  | cons a calls ih =>
    rw [List.forall_mem_cons] at hcalls
    rw [run_cons_fst, run_cons_snd]
    cases hdel : deliveredTo peer a ((machine P).step r a).1 with
    | none =>
      rw [emitted_cons_none hdel]
      exact ih (h.step ideal hcalls.1) hcalls.2
    | some d =>
      rw [emitted_cons_some hdel]
      refine (ih (h.step_delivered ideal hdel).2 hcalls.2).mono ?_
      rintro d' (hd' | hd')
      · exact .inl (.inr hd')
      · rcases List.mem_cons.1 hd' with rfl | hd'
        · exact .inl (.inl rfl)
        · exact .inr hd'

/-- What was delivered is not delivered again. -/
theorem Delivered.not_again (h : r.Delivered P peer seen) (hcalls : ∀ a ∈ calls, ¬a.2.Manual) :
    ∀ d ∈ seen, ∀ d' ∈ emitted (deliveredTo peer) ((machine P).run r calls).1,
      d.2 ≠ d'.2 :=
  (emitted_pairwise (fun r seen => Delivered P peer r seen) (fun a => ¬a.2.Manual)
    (fun _ _ _ ha hinv _ => hinv.step ideal ha)
    (fun _ _ _ _ _ hinv hdel => hinv.step_delivered ideal hdel) h hcalls).1

theorem Fresh.delivered (h : r.Fresh P) (peer : String) : r.Delivered P peer ∅ := by
  refine ⟨∅, fun s hs => ?_, (by rintro d ⟨⟩)⟩
  obtain ⟨secret, isInitiator, pair, peerXpk, peerMpk, rfl⟩ := h peer s hs
  exact DoubleRatchetState.spent_newWithKeypair ideal secret isInitiator pair peerXpk peerMpk

end Ideal

/-- An import of an exported session is refused or puts the session, as it was, in place of the
live one. -/
theorem ratchetImportSession_toJson {F : SnapshotFormat K B} (lawful : F.Lawful)
    (s : DoubleRatchetState K C) (now : Clock) :
    r.ratchetImportSession F peer (F.toJson s.toSnapshot) now =
      if refusesImport (r.ratchetSessionWatermark peer) (.fromLive s) then .ok r
      else .ok { r with sessions := r.sessions.insert peer (s.reloaded now) } := by
  unfold ratchetImportSession
  rw [lawful.fromJson_toJson]
  dsimp only
  rw [DoubleRatchetState.fromSnapshot_toSnapshot]
  rfl

end RatchetRegistry

open RatchetRegistry in
/-- A session is exported after the calls `as` and imported over the live one after the further
calls `bs`. If a counter of the live session is ahead of the snapshot, or nothing was delivered
since the export, no message that was delivered before the import is delivered after it, whatever
calls follow. -/
theorem import_no_replay_of_ahead {P : Primitives K C} (ideal : P.Ideal) {F : SnapshotFormat K B}
    (lawful : F.Lawful) {r : RatchetRegistry K C} (hfresh : r.Fresh P) (peer : String)
    (as bs cs : List (String × Call C)) (hcalls : ∀ a ∈ as ++ bs ++ cs, ¬a.2.Manual) {blob : B}
    (hblob : ((machine P).run r as).2.ratchetExportSession F peer = some blob) (now : Clock)
    {r' : RatchetRegistry K C}
    (himport : ((machine P).run r (as ++ bs)).2.ratchetImportSession F peer blob now = .ok r')
    (hsafe : (∃ w w', ((machine P).run r as).2.ratchetSessionWatermark peer = some w ∧
        ((machine P).run r (as ++ bs)).2.ratchetSessionWatermark peer = some w' ∧ w'.AheadOf w) ∨
      emitted (deliveredTo peer) ((machine P).run ((machine P).run r as).2 bs).1 = []) :
    ∀ d ∈ emitted (deliveredTo peer) ((machine P).run r (as ++ bs)).1,
      ∀ d' ∈ emitted (deliveredTo peer) ((machine P).run r' cs).1, d.2 ≠ d'.2 := by
  simp only [List.mem_append, or_imp, forall_and] at hcalls
  obtain ⟨⟨has, hbs⟩, hcs⟩ := hcalls
  have hexported := (hfresh.delivered ideal peer).run ideal has
  have hlive := (hfresh.delivered ideal peer).run ideal
    (fun a ha => (List.mem_append.1 ha).elim (has a) (hbs a))
  obtain ⟨s, hs, rfl⟩ := Option.map_eq_some_iff.1 hblob
  rw [ratchetImportSession_toJson lawful] at himport
  -- what was delivered before the import is delivered in the registry after it
  suffices hdelivered : r'.Delivered P peer
      (∅ ∪ {d | d ∈ emitted (deliveredTo peer) ((machine P).run r (as ++ bs)).1}) from
    fun d hd => hdelivered.not_again ideal hcs d (.inr hd)
  split_ifs at himport with hrefused
  · exact Except.ok.inj himport ▸ hlive
  · obtain rfl := Except.ok.inj himport
    rcases hsafe with ⟨w, w', hw, hw', hahead⟩ | hnone
    · -- a live counter above the snapshot's makes the guard refuse
      have hfrom : w = .fromLive s := by
        rw [ratchetSessionWatermark, hs] at hw
        exact (Option.some.inj hw).symm
      rw [hw', ← hfrom] at hrefused
      exact absurd (refusesImport_of_aheadOf hahead) hrefused
    · obtain ⟨used, hspent, hseen⟩ := hexported
      refine ⟨used, fun s' hs' => ?_, ?_⟩
      · rw [AList.lookup_insert] at hs'
        exact Option.some.inj hs' ▸ (hspent s hs).reloaded now
      · have hsame : emitted (deliveredTo peer) ((machine P).run r (as ++ bs)).1 =
            emitted (deliveredTo peer) ((machine P).run r as).1 := by
          rw [run_append, emitted, List.filterMap_append]
          exact (congrArg _ hnone).trans (List.append_nil _)
        rw [hsame]
        exact hseen

namespace Symbolic

/-- The responder's first three messages, each as a call to the desktop's session. -/
def phoneMessages : List (String × Call Ciphertext) :=
  (sendAll responder 0 3).1.map fun msg => ("phone", receive msg)

end Symbolic

open RatchetRegistry in
/-- The session is exported after message 0 and imported after messages 1 and 2. Its receive
counter is behind, so the import is refused, and none of the three is delivered again. -/
theorem import_no_replay_of_ahead_refused :
    let delivered := emitted (deliveredTo "phone") ((machine primitives).run
      registry (phoneMessages.take 1 ++ phoneMessages.drop 1)).1
    let live := ((machine primitives).run registry (phoneMessages.take 1 ++ phoneMessages.drop 1)).2
    delivered.length = 3 ∧ ∀ d ∈ delivered, ∀ d' ∈ emitted (deliveredTo "phone")
      ((machine primitives).run live phoneMessages).1, d.2 ≠ d'.2 := by
  intro delivered live
  refine ⟨by decide +kernel, ?_⟩
  have hw : ((machine primitives).run registry
      (phoneMessages.take 1)).2.ratchetSessionWatermark "phone" = some ⟨0, 0, 0, 1⟩ := by
    decide +kernel
  have hw' : live.ratchetSessionWatermark "phone" = some ⟨0, 0, 0, 3⟩ := by decide +kernel
  obtain ⟨s, hs, hfrom⟩ := Option.map_eq_some_iff.1 hw
  have hahead : RatchetWatermark.AheadOf ⟨0, 0, 0, 3⟩ ⟨0, 0, 0, 1⟩ := .inr (.inr (by decide))
  have hblob : ((machine primitives).run registry (phoneMessages.take 1)).2.ratchetExportSession
        storeFormat.toSnapshotFormat "phone" =
          some (storeFormat.toJson s.toSnapshot) := by
    rw [ratchetExportSession, hs]
    rfl
  refine import_no_replay_of_ahead ideal storeFormat_lawful.toLawful
    registry_fresh "phone" (phoneMessages.take 1)
    (phoneMessages.drop 1) phoneMessages ?_ hblob ⟨0, 0⟩ ?_
    (.inl ⟨_, _, hw, hw', hahead⟩)
  · intro a ha
    have hmem : a ∈ phoneMessages := by
      rw [List.take_append_drop] at ha
      exact (List.mem_append.1 ha).elim id id
    obtain ⟨msg, -, rfl⟩ := List.mem_map.1 hmem
    exact id
  · refine (ratchetImportSession_toJson storeFormat_lawful.toLawful s ⟨0, 0⟩).trans ?_
    refine if_pos ?_
    rw [hw', hfrom]
    exact refusesImport_of_aheadOf hahead

open RatchetRegistry in
/-- Message 2 is delivered and the keys of messages 0 and 1 are cached; the session is exported;
message 0 is delivered from the cache. The counters are the same, so the snapshot is imported, and
message 0 is delivered again. -/
theorem import_no_replay_fails_after_cached_delivery :
    let message0 := phoneMessages.take 1
    let exported := ((machine primitives).run registry (phoneMessages.drop 2)).2
    let live := ((machine primitives).run exported message0).2
    let deliveries := fun r => (emitted (deliveredTo "phone")
      ((machine primitives).run r message0).1).map (·.1)
    deliveries exported = [⟨0, 0⟩] ∧ deliveries live = [] ∧
      ((exported.ratchetExportSession storeFormat.toSnapshotFormat "phone").bind
          fun blob => (live.ratchetImportSession storeFormat.toSnapshotFormat "phone" blob
            ⟨0, 0⟩).toOption).map deliveries = some [⟨0, 0⟩] := by
  decide +kernel

end KyberPipe
