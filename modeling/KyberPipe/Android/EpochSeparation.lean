import KyberPipe.Android.PairingEpochs
import KyberPipe.Ratchet.ConcurrentImport

/-!
# Pairing epochs

All sessions of a phone have the epoch 1, so epochs tell them apart only while there is a single
pairing. Then the recorded watermark stays behind the stored snapshot if the counters never move
back (a rekey takes them to zero) and rest between the storing of a snapshot and the recording.
-/

namespace KyberPipe

open Symbolic Machine RatchetRegistry WatermarkStore RatchetWatermark

variable {K C B : Type}

/-- The epochs of the sessions that were established, in order. -/
def pairedEpochs (notes : List PhoneNote) : List ℕ :=
  notes.filterMap fun note =>
    match note with
    | .paired epoch => some epoch
    | .recorded _ => none

/-- Each new session has a greater epoch than every earlier one, and a stored snapshot is accepted
exactly if it is one of the newest session. -/
structure EpochsSeparate (F : SnapshotFormat K B) (notes : List PhoneNote) (s : Phone K C B) :
    Prop where
  increasing : (pairedEpochs notes).Pairwise (· < ·)
  newest_accepted : ∀ wm, s.snapshotWatermark F = some wm →
    (pairedEpochs notes).getLast? = some wm.pairingEpoch →
      refuseRollback wm s.recorded = false
  earlier_refused : ∀ wm : Watermark, wm.pairingEpoch ∈ (pairedEpochs notes).dropLast →
    refuseRollback wm s.recorded = true

/-! ### Traffic that moves no counter back -/

/-- A call of ordinary traffic: an encryption, a bookkeeping call, or the decryption of a message
without a rekey payload while no proposal of the peer is staged. A message below the counter is not
sealed under the key at the counter. -/
def Call.Forward (P : Primitives K C) (t : DoubleRatchetState K C) : Call C → Prop
  | .encrypt _ _ _ | .synchronizePacket _ _ | .generateRekeyAck _ _ | .peekRekeyAck _ _
  | .consumeRekeyAck | .cancelOutgoingRekey | .cancelPendingIncomingRekey => True
  | .decrypt nonce c => t.incomingProposal.receivingChainKey = none ∧ t.InOrder P nonce c none
  | .decryptWithRekey nonce c rct rx rm _ =>
    DoubleRatchetState.completePayload rct rx rm = none ∧
      t.incomingProposal.receivingChainKey = none ∧ t.InOrder P nonce c none
  | .processRekeyAck _ | .processRekeyAckBinary _ _ | .processSynchronize _ _ _ | .resync _ _
  | .commitPendingRekey | .commitOutgoingRekey => False

section Forward

open DoubleRatchetState

variable {P : Primitives K C} {t t' : DoubleRatchetState K C}

theorem DoubleRatchetState.Precedes.fromLive_le (h : t.Precedes t')
    (hgen : t'.ratchetGeneration = t.ratchetGeneration) :
    fromLive t ≤ .fromLive t' := by
  refine le_iff.2 (.inr ⟨h.epoch.symm, hgen.ge, ?_⟩)
  rcases h.forward with hlt | ⟨-, hcounts⟩
  · omega
  · exact hcounts

theorem fromLive_le_ratchetEncrypt (pt : Bytes) (rnd : EncryptRandomness) (now : Clock) :
    fromLive t ≤ .fromLive (t.ratchetEncrypt P pt rnd now).2 :=
  (ratchetEncrypt_step P t pt rnd now).precedes.fromLive_le
    (ratchetEncrypt_step P t pt rnd now).send_count.1

variable {res : Except KyberError Bytes}

/-- Without a staged proposal and without a payload there is nothing to commit. -/
theorem DoubleRatchetState.DecryptStep.generation_of_unstaged {nonce : Nonce} {c : C} {now : Clock}
    (h : DecryptStep P t nonce c none now res t')
    (hstaged : t.incomingProposal.receivingChainKey = none) :
    t'.ratchetGeneration = t.ratchetGeneration := by
  cases h with
  | refused => rfl
  | failed _ _ _ hderives => rw [hderives.frame]
  | previous _ hdel => rw [hdel.frame]
  | current _ _ hderives hdel => rw [resolveRekeyRaceAndAck_frame, hdel.frame, hderives.frame]
  | pending _ _ hderives hdel =>
    cases hderives
    cases hstaged.symm.trans hdel.hkey

theorem fromLive_le_of_decryptStep {nonce : Nonce} {c : C} {now : Clock} (hpaired : t.Paired)
    (h : DecryptStep P t nonce c none now res t')
    (hstaged : t.incomingProposal.receivingChainKey = none) (horder : t.InOrder P nonce c none) :
    fromLive t ≤ .fromLive t' := by
  have hwhole : t.WellStaged := ⟨hpaired.bumps, fun hsome => by rw [hstaged] at hsome; cases hsome⟩
  exact (h.precedes hwhole horder).fromLive_le (h.generation_of_unstaged hstaged)

/-- Ordinary traffic does not move the watermark back. -/
theorem Call.Forward.fromLive_le {c : Call C} (h : c.Forward P t) (hpaired : t.Paired)
    (peer : String) (gate : SyncGate) :
    fromLive t ≤ .fromLive (Session.exec P peer ⟨t, gate⟩ c).2.ratchet := by
  cases c with
  | encrypt pt rnd now => exact fromLive_le_ratchetEncrypt pt rnd now
  | synchronizePacket rnd now => exact fromLive_le_ratchetEncrypt _ rnd now
  | generateRekeyAck rnd now =>
    obtain heq | ⟨seq, heq⟩ := t.ratchetGenerateRekeyAck_state P rnd now
    · exact le_of_eq (congrArg fromLive heq).symm
    · refine le_trans ?_ (congrArg fromLive heq).ge
      exact (le_refl (fromLive t)).trans
        (fromLive_le_ratchetEncrypt (t := t.takePendingRekeyAckSeq.2) _ rnd now)
  | peekRekeyAck rnd now =>
    obtain ⟨cache, heq | ⟨seq, heq⟩⟩ := t.peekRekeyAck_state P rnd now
    · exact le_of_eq (congrArg fromLive heq).symm
    · exact (fromLive_le_ratchetEncrypt _ rnd now).trans
        (congrArg fromLive heq).ge
  | decrypt nonce c =>
    exact fromLive_le_of_decryptStep hpaired (ratchetDecrypt_step P t nonce c ⟨0, 0⟩) h.1 h.2
  | decryptWithRekey nonce c rct rx rm now =>
    have hstep := ratchetDecryptWithRekey_step P t nonce c rct rx rm now
    rw [h.1] at hstep
    exact fromLive_le_of_decryptStep hpaired hstep h.2.1 h.2.2
  | consumeRekeyAck => exact (fromLive_exec_quiet P peer rfl ⟨t, gate⟩).ge
  | cancelOutgoingRekey => exact (fromLive_exec_quiet P peer rfl ⟨t, gate⟩).ge
  | cancelPendingIncomingRekey => exact (fromLive_exec_quiet P peer rfl ⟨t, gate⟩).ge
  | _ => exact h.elim

end Forward

/-! ### Separation -/

/-- The handles of the pairing resolve, so that it may establish a session. -/
def PhoneEvent.mayPair : PhoneEvent C → Bool
  | .pair (.ok _) (.ok _) _ _ => true
  | _ => false

namespace Phone

/-- If the phone can store snapshots, calls are ordinary traffic, and quiet between the storing of a
snapshot and the recording of the watermark. -/
def Careful (P : Primitives K C) (peer : String) (s : Phone K C B) : PhoneEvent C → Prop
  | .call c => s.snapshotKey.length = 32 → ∀ t ∈ s.registry.sessions.lookup peer,
    c.Forward P t ∧ (s.recording = true → c.quiet = true)
  | _ => True

/-- Nothing is there for the peer. -/
structure Unpaired (peer : String) (s : Phone K C B) : Prop where
  live : s.registry.sessions.lookup peer = none
  stored : s.snapshot = none
  recorded : s.recorded = none
  recording : s.recording = false

/-- The recorded mark lies below the live session and below the stored snapshot. -/
structure Behind (F : SnapshotFormat K B) (peer : String) (s : Phone K C B) : Prop where
  live : ∀ mark ∈ s.recorded, ∀ t ∈ s.registry.sessions.lookup peer, mark ≤ .fromLive t
  stored : ∀ mark ∈ s.recorded, ∀ wm, s.snapshotWatermark F = some wm → mark ≤ wm
  /-- Until the watermark is recorded, the snapshot is up to date. -/
  recording : s.recording = true → ∀ t ∈ s.registry.sessions.lookup peer,
    s.snapshotWatermark F = some (.fromLive t)
  unkeyed : s.snapshotKey.length ≠ 32 → s.recorded = none ∧ s.recording = false

section Steps

variable {P : Primitives K C} {F : SnapshotFormat K B} {peer : String} {s : Phone K C B}
variable {event : PhoneEvent C}

theorem performKemHandshake_of_not_mayPair {r : RatchetRegistry K C}
    {keypair : Except KyberError HybridKeyPair} {kemSecret : Except KyberError Bytes}
    {peerX25519Pk peerMlkemPk : Bytes}
    (h : (PhoneEvent.pair keypair kemSecret peerX25519Pk peerMlkemPk : PhoneEvent C).mayPair =
      false) :
    r.performKemHandshake P peer keypair kemSecret peerX25519Pk peerMlkemPk =
      (none, r.ratchetRemoveSession peer) := by
  cases keypair with
  | error e => cases kemSecret <;> rfl
  | ok pair =>
    cases kemSecret with
    | error e => rfl
    | ok secret => cases h

/-- A phone without a mark is behind nothing. -/
theorem Behind.of_unrecorded (hrecorded : s.recorded = none) (hrecording : s.recording = false) :
    s.Behind F peer where
  live mark hmark := by rw [hrecorded] at hmark; cases hmark
  stored mark hmark := by rw [hrecorded] at hmark; cases hmark
  recording hyes := by rw [hrecording] at hyes; cases hyes
  unkeyed _ := ⟨hrecorded, hrecording⟩

/-- A phone stays without anything for the peer until a pairing establishes a session. -/
theorem Unpaired.step (h : s.Unpaired peer) (hevent : event.mayPair = false) :
    ((machine P F peer).step s event).2.Unpaired peer := by
  cases event with
  | pair keypair kemSecret peerX25519Pk peerMlkemPk =>
    simp only [machine, performKemHandshake_of_not_mayPair hevent]
    exact { h with live := AList.lookup_erase peer s.registry.sessions }
  | call c =>
    refine { h with live := ?_ }
    simp only [machine, lookup_withRatchetSession, h.live, Option.map_none]
  | persist written =>
    cases hexport : s.exportWrapped F peer with
    | none => simpa only [machine, hexport] using h
    | some data =>
      obtain ⟨-, t, ht, -⟩ := exportWrapped_eq_some hexport
      cases h.live.symm.trans ht
  | record => simpa only [machine, h.recording, Bool.false_eq_true, if_false] using h
  | coldStart now =>
    have hstored : s.restarted.snapshot = none := h.stored
    simp only [machine, Phone.coldStart, hstored]
    exact { h with live := rfl, recording := rfl }

/-- A pairing of such a phone leaves nothing recorded. -/
theorem Unpaired.behind_pair (h : s.Unpaired peer) (hevent : event.mayPair = true) :
    ((machine P F peer).step s event).2.Behind F peer := by
  cases event with
  | pair keypair kemSecret peerX25519Pk peerMlkemPk =>
    exact .of_unrecorded h.recorded h.recording
  | _ => cases hevent

/-- Recording a watermark that the snapshot shows keeps the mark below it. -/
theorem Behind.update (h : s.Behind F peer) {wm : Watermark} (hkey : s.snapshotKey.length = 32)
    (hstored : s.snapshotWatermark F = some wm)
    (hlive : ∀ t ∈ s.registry.sessions.lookup peer, wm = .fromLive t) :
    (s.update wm).Behind F peer where
  live := by
    rintro mark ⟨⟩ t ht
    exact update_le.2 ⟨fun mark hmark => h.live mark hmark t ht, (hlive t ht).le⟩
  stored := by
    rintro mark ⟨⟩ wm' hwm'
    obtain rfl := Option.some.inj (hstored.symm.trans hwm')
    exact update_le.2 ⟨fun mark hmark => h.stored mark hmark wm hwm', le_rfl⟩
  recording := h.recording
  unkeyed hother := absurd hkey hother

/-- A call of ordinary traffic leaves the mark behind. -/
theorem Behind.call (hsound : s.Sound F peer) (h : s.Behind F peer) {c : Call C}
    (hcareful : s.Careful P peer (.call c)) :
    Behind F peer { s with registry := (s.registry.withRatchetSession P peer c).2 } := by
  have hlookup : ∀ t' ∈ (s.registry.withRatchetSession P peer c).2.sessions.lookup peer,
      ∃ t gate, t ∈ s.registry.sessions.lookup peer ∧
        (Session.exec P peer ⟨t, gate⟩ c).2.ratchet = t' := by
    intro t' ht'
    rw [lookup_withRatchetSession] at ht'
    obtain ⟨t, ht, rfl⟩ := Option.map_eq_some_iff.1 ht'
    rw [if_pos rfl]
    exact ⟨t, _, ht, rfl⟩
  by_cases hkey : s.snapshotKey.length = 32
  · refine { h with live := fun mark hmark t' ht' => ?_, recording := fun hrecording t' ht' => ?_ }
    · obtain ⟨t, gate, ht, rfl⟩ := hlookup t' ht'
      exact (h.live mark hmark t ht).trans
        ((hcareful hkey t ht).1.fromLive_le (hsound.live t ht) peer gate)
    · obtain ⟨t, gate, ht, rfl⟩ := hlookup t' ht'
      rw [fromLive_exec_quiet P peer ((hcareful hkey t ht).2 hrecording)]
      exact h.recording hrecording t ht
  · -- nothing was ever recorded
    obtain ⟨hnone, hidle⟩ := h.unkeyed hkey
    refine { h with live := fun mark hmark => ?_, recording := fun hrecording => ?_ }
    · cases hnone.symm.trans hmark
    · cases hidle.symm.trans hrecording

/-- A cold start restores the session of the snapshot, or none. -/
theorem Behind.coldStart (lawful : F.Lawful) (hsound : s.Sound F peer) (h : s.Behind F peer)
    (now : Clock) : (s.coldStart F peer now).2.Behind F peer := by
  have hempty : s.restarted.Behind F peer :=
    { h with
      live := fun _ _ t ht => nomatch ht
      recording := by rintro ⟨⟩
      unkeyed := fun hkey => ⟨(h.unkeyed hkey).1, rfl⟩ }
  simp only [Phone.coldStart]
  cases hsnapshot : s.restarted.snapshot with
  | none => exact hempty
  | some data =>
    obtain ⟨t, rfl, hpaired⟩ := hsound.stored data hsnapshot
    have hwm : s.restarted.snapshotWatermark F = some (.fromLive t) :=
      snapshotWatermark_eq lawful hpaired hsnapshot
    simp only [hwm, Option.any_some, Option.elim_some]
    split_ifs with hkey hrefused
    · exact hempty
    · exact hempty
    · rw [ratchetImportSession_restarted lawful]
      have haccepted : ∀ mark ∈ s.restarted.recorded, mark ≤ .fromLive t :=
        refuseRollback_eq_false.1 (by simpa using hrefused)
      have hlive : ∀ t' ∈ (AList.insert peer (t.reloaded now) ∅ :
          RatchetSessionMap K C).lookup peer, fromLive t = .fromLive t' := by
        intro t' ht'
        obtain rfl := Option.some.inj ((AList.lookup_insert ∅).symm.trans ht')
        rfl
      refine Behind.update ?_ (not_not.1 hkey) (snapshotWatermark_eq lawful hpaired rfl) hlive
      refine ⟨fun mark hmark t' ht' => (haccepted mark hmark).trans (hlive t' ht').le,
        fun mark hmark wm hstored => ?_, by rintro ⟨⟩, hempty.unkeyed⟩
      obtain rfl := Option.some.inj ((snapshotWatermark_eq lawful hpaired rfl).symm.trans hstored)
      exact haccepted mark hmark

/-- Every event but a pairing that may establish a session leaves the mark behind. -/
theorem Behind.step (lawful : F.Lawful) (hsound : s.Sound F peer) (h : s.Behind F peer)
    (hevent : event.mayPair = false) (hcareful : s.Careful P peer event) :
    ((machine P F peer).step s event).2.Behind F peer := by
  cases event with
  | pair keypair kemSecret peerX25519Pk peerMlkemPk =>
    simp only [machine, performKemHandshake_of_not_mayPair hevent]
    have hgone : ∀ t, t ∉ (s.registry.ratchetRemoveSession peer).sessions.lookup peer :=
      fun t ht => by
        rw [show (s.registry.ratchetRemoveSession peer).sessions.lookup peer = none from
          AList.lookup_erase peer s.registry.sessions] at ht
        cases ht
    exact { h with
      live := fun _ _ t ht => absurd ht (hgone t)
      recording := fun _ t ht => absurd ht (hgone t) }
  | call c => exact h.call hsound hcareful
  | persist written =>
    simp only [machine]
    cases hexport : s.exportWrapped F peer with
    | none => exact h
    | some data =>
      obtain ⟨hkey, t, hlive, rfl⟩ := exportWrapped_eq_some hexport
      cases written with
      | false => exact h
      | true =>
        have hwm := snapshotWatermark_eq (s := { s with
          snapshot := some (F.toJson t.toSnapshot), recording := true }) lawful
          (hsound.live t hlive) rfl
        refine ⟨h.live, fun mark hmark wm hstored => ?_, fun _ t' ht' => ?_,
          fun hother => absurd hkey hother⟩
        · obtain rfl := Option.some.inj (hwm.symm.trans hstored)
          exact h.live mark hmark t hlive
        · obtain rfl := Option.some.inj (hlive.symm.trans ht')
          exact hwm
  | record =>
    simp only [machine]
    split_ifs with hrecording
    · have hidle : Behind F peer { s with recording := false } :=
        { h with
          recording := by rintro ⟨⟩
          unkeyed := fun hkey => ⟨(h.unkeyed hkey).1, rfl⟩ }
      cases hlive : s.registry.sessions.lookup peer with
      | none => simpa [ratchetSessionWatermark, hlive] using hidle
      | some t =>
        have hkey : s.snapshotKey.length = 32 := by
          by_contra hother
          cases (h.unkeyed hother).2.symm.trans hrecording
        have hupdated := hidle.update hkey (h.recording hrecording t hlive) fun t' ht' => by
          obtain rfl := Option.some.inj (hlive.symm.trans ht')
          rfl
        simpa [ratchetSessionWatermark, hlive] using hupdated
    · exact h
  | coldStart now => exact h.coldStart lawful hsound now

/-- In a run with one pairing at most, the recorded mark stays behind. -/
theorem Behind.run (lawful : F.Lawful) {events : List (PhoneEvent C)}
    (hsound : s.Sound F peer) (h : s.Behind F peer)
    (hpairings : events.countP (·.mayPair) = 0 ∨ s.Unpaired peer ∧ events.countP (·.mayPair) ≤ 1)
    (hfollows : (machine P F peer).Follows (Careful P peer) s events) :
    ((machine P F peer).run s events).2.Behind F peer := by
  induction events generalizing s with
  | nil => exact h
  | cons event events ih =>
    obtain ⟨hcareful, hrest⟩ := hfollows
    rw [run_cons_snd]
    cases hevent : event.mayPair with
    | false =>
      rw [List.countP_cons_of_neg (by simp [hevent])] at hpairings
      exact ih (hsound.step lawful event) (h.step lawful hsound hevent hcareful)
        (hpairings.imp_right fun ⟨hunpaired, hone⟩ => ⟨hunpaired.step hevent, hone⟩) hrest
    | true =>
      -- the only pairing finds nothing recorded
      rw [List.countP_cons_of_pos (by simp [hevent])] at hpairings
      obtain ⟨hunpaired, hone⟩ := hpairings.resolve_left (Nat.succ_ne_zero _)
      exact ih (hsound.step lawful event) (hunpaired.behind_pair hevent) (.inl (by omega)) hrest

end Steps

end Phone

theorem length_pairedEpochs_step_le (P : Primitives K C) (F : SnapshotFormat K B) (peer : String)
    (s : Phone K C B) (event : PhoneEvent C) :
    (pairedEpochs ((Phone.machine P F peer).step s event).1).length ≤ event.mayPair.toNat := by
  cases event with
  | pair keypair kemSecret peerX25519Pk peerMlkemPk =>
    cases hevent : PhoneEvent.mayPair (C := C)
        (.pair keypair kemSecret peerX25519Pk peerMlkemPk) with
    | false =>
      simp [Phone.machine, Phone.performKemHandshake_of_not_mayPair hevent, pairedEpochs]
    | true =>
      simp only [Phone.machine]
      cases (s.registry.performKemHandshake P peer keypair kemSecret peerX25519Pk
        peerMlkemPk).1 <;> simp [pairedEpochs]
  | call c => exact Nat.zero_le _
  | persist written =>
    simp only [Phone.machine]
    cases s.exportWrapped F peer <;> exact Nat.zero_le _
  | record =>
    simp only [Phone.machine]
    split_ifs
    · cases s.registry.ratchetSessionWatermark peer <;> exact Nat.zero_le _
    · exact Nat.zero_le _
  | coldStart now =>
    simp only [Phone.machine, Phone.coldStart]
    split
    · exact Nat.zero_le _
    · split_ifs
      · exact Nat.zero_le _
      · exact Nat.zero_le _
      · split
        · exact Nat.zero_le _
        · cases s.restarted.snapshotWatermark F <;> exact Nat.zero_le _

/-- At most as many sessions are established as pairings may. -/
theorem length_pairedEpochs_le (P : Primitives K C) (F : SnapshotFormat K B) (peer : String)
    (s : Phone K C B) (events : List (PhoneEvent C)) :
    (pairedEpochs (flattened ((Phone.machine P F peer).run s events).1)).length ≤
      events.countP (·.mayPair) := by
  induction events generalizing s with
  | nil => exact Nat.zero_le _
  | cons event events ih =>
    have hstep := length_pairedEpochs_step_le P F peer s event
    have hrest := ih ((Phone.machine P F peer).step s event).2
    unfold pairedEpochs at hstep hrest ⊢
    unfold flattened at hrest ⊢
    rw [run_cons_fst, List.flatMap_cons, List.filterMap_append, List.length_append,
      List.countP_cons]
    cases hevent : event.mayPair <;> simp only [hevent, Bool.toNat] at hstep ⊢ <;> grind

/-- In the life of a phone with one desktop in which at most one pairing establishes a session and,
if snapshots can be stored, the calls are ordinary traffic and quiet while a poll records, epochs
separate the pairings. -/
theorem epochs_separate_of_single_pairing {P : Primitives K C} {F : SnapshotFormat K B}
    (lawful : F.Lawful) (peer : String) (snapshotKey : Bytes) {events : List (PhoneEvent C)}
    (hpairings : events.countP (·.mayPair) ≤ 1)
    (hcareful : (Phone.machine P F peer).Follows (Phone.Careful P peer) { snapshotKey } events) :
    let run := (Phone.machine P F peer).run { snapshotKey } events
    EpochsSeparate F (flattened run.1) run.2 := by
  intro run
  have hunpaired : ({ snapshotKey } : Phone K C B).Unpaired peer := ⟨rfl, rfl, rfl, rfl⟩
  have hbehind := Phone.Behind.run lawful (Phone.sound_initial snapshotKey) (.of_unrecorded rfl rfl)
    (.inr ⟨hunpaired, hpairings⟩) hcareful
  have hone : (pairedEpochs (flattened run.1)).length ≤ 1 :=
    (length_pairedEpochs_le P F peer _ events).trans hpairings
  exact {
    increasing := by
      generalize pairedEpochs (flattened run.1) = epochs at hone
      match epochs, hone with
      | [], _ => exact .nil
      | [epoch], _ => exact List.pairwise_singleton _ epoch
    newest_accepted := fun wm hwm _ => refuseRollback_eq_false.2
      fun mark hmark => hbehind.stored mark hmark wm hwm
    earlier_refused := fun wm hmem => by
      have hpos := List.length_pos_of_mem hmem
      rw [List.length_dropLast] at hpos
      omega }

/-- A pairing, a message and a poll that persists. -/
def Symbolic.pairedAndPolled : List (PhoneEvent Symbolic.Ciphertext) :=
  [phonePairing [1], .call (.encrypt [] (randomness 0) ⟨0, 0⟩), .persist true, .record]

/-- The symbolic phone with a snapshot key. -/
def Symbolic.phoneRun (snapshotKey : Bytes) (events : List (PhoneEvent Symbolic.Ciphertext)) :
    List PhoneNote × Phone Symbolic.Key Symbolic.Ciphertext (RatchetSnapshot Symbolic.Key) :=
  let run := (Phone.machine primitives storeFormat.toSnapshotFormat "pc").run
    { snapshotKey } events
  (flattened run.1, run.2)

/-- A phone with a key, a single pairing, and a cold start. -/
theorem epochs_separate_of_single_pairing_and_restart :
    let run := phoneRun (List.replicate 32 9)
      (pairedAndPolled ++ [.coldStart ⟨5, 5⟩])
    run.1 = [.paired 1, .recorded ⟨1, 0, 1, 0⟩, .recorded ⟨1, 0, 1, 0⟩] ∧
      EpochsSeparate storeFormat.toSnapshotFormat run.1 run.2 := by
  refine ⟨by decide +kernel, epochs_separate_of_single_pairing storeFormat_lawful.toLawful
    "pc" (List.replicate 32 9) (by decide) ?_⟩
  refine ⟨trivial, fun _ t _ => ⟨trivial, ?_⟩, trivial, trivial, trivial, trivial⟩
  intro hrecording
  exact absurd hrecording (by decide +kernel)

/-- After a second pairing the epoch is 1 as before. On a phone that stores snapshots, the snapshot
of the new session is refused, and the one of the old session would be accepted. -/
theorem second_pairing_keeps_epoch :
    let events := pairedAndPolled ++ [phonePairing [2], .persist true]
    let run := phoneRun (List.replicate 32 9) events
    pairedEpochs (phoneRun [] events).1 = [1, 1] ∧
      pairedEpochs run.1 = [1, 1] ∧
      run.2.snapshotWatermark storeFormat.toSnapshotFormat = some ⟨1, 0, 0, 0⟩ ∧
      refuseRollback ⟨1, 0, 0, 0⟩ run.2.recorded = true ∧
      refuseRollback ⟨1, 0, 1, 0⟩ run.2.recorded = false := by
  decide +kernel

end KyberPipe
