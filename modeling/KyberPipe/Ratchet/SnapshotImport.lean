import KyberPipe.Ratchet.ConfirmQueue
import KyberPipe.Desktop.Restart

/-!
# Import of any snapshot

`ratchet_import_session_impl` on any document, with the panics of `from_snapshot`. The record that a
document decodes to has four parallel arrays for the key history, and the loop over the first one
indexes the others. Nothing relates the confirm queue of a record to its outgoing proposal.
-/

namespace KyberPipe

open Symbolic DoubleRatchetState

variable {K C B : Type}

namespace RatchetSnapshot

variable (snap : RatchetSnapshot K)

/-- The key pair at an index of the four parallel arrays, if all of them reach that far. -/
def keypairAt (i : ℕ) : Option HybridKeyPair := do
  let x25519Pk ← snap.previousX25519Pk[i]?
  let x25519Sk ← snap.previousX25519Sk[i]?
  let mlkemPk ← snap.previousMlkemPk[i]?
  let mlkemSk ← snap.previousMlkemSk[i]?
  pure ⟨x25519Pk, x25519Sk, mlkemPk, mlkemSk⟩

/-- The loop over the key history. It runs over the first array, and an index that another one does
not have is a panic. -/
def previousKeypairs : Option (List HybridKeyPair) :=
  (List.range snap.previousX25519Pk.length).mapM snap.keypairAt

/-- The other arrays of the key history are at least as long as the first one. -/
structure HistoryFits : Prop where
  x25519Sk : snap.previousX25519Pk.length ≤ snap.previousX25519Sk.length
  mlkemPk : snap.previousX25519Pk.length ≤ snap.previousMlkemPk.length
  mlkemSk : snap.previousX25519Pk.length ≤ snap.previousMlkemSk.length

/-- The record has a pending confirmation just if it has an outgoing proposal. -/
def CarrierFits : Prop :=
  snap.rekeyPendingConfirmQueue ≠ [] ↔
    snap.outgoingRootKey.isSome = true ∨ snap.outgoingSendingChainKey.isSome = true

end RatchetSnapshot

/-- `from_snapshot`, or nothing if it panics. -/
def DoubleRatchetState.fromSnapshotIndexed (snap : RatchetSnapshot K) (now : Clock) :
    Option (DoubleRatchetState K C) :=
  snap.previousKeypairs.map fun previousKeypairs =>
    { fromSnapshot snap now with previousKeypairs }

/-- How an import ends. -/
inductive ImportOutcome (K C : Type) where
  | failed (e : KyberError)
  /-- The guard drops the snapshot, and the import reports success. -/
  | refused
  | installed (s : DoubleRatchetState K C)
  | panicked

/-- `ratchet_import_session_impl` -/
def RatchetRegistry.ratchetImportSessionImpl (F : SnapshotFormat K B) (r : RatchetRegistry K C)
    (peer : String) (data : B) (now : Clock) : ImportOutcome K C × RatchetRegistry K C :=
  match F.fromJson data with
  | .error e => (.failed (.serializationError e), r)
  | .ok snap =>
    if r.importWatermarkGuard peer (.fromSnapshot snap) then (.refused, r)
    else
      match fromSnapshotIndexed snap now with
      | none => (.panicked, r)
      | some s => (.installed s, { r with sessions := r.sessions.insert peer s })

/-! ### The key history -/

/-- A loop that may fail gives the results of all its rounds. -/
theorem mapM_eq_some_iff {α β : Type*} {f : α → Option β} {l : List α} {l' : List β} :
    l.mapM f = some l' ↔ List.Forall₂ (fun a b => f a = some b) l l' := by
  induction l generalizing l' with
  | nil => simp [eq_comm]
  | cons a l ih =>
    rw [List.mapM_cons, List.forall₂_cons_left_iff]
    simp only [bind, pure, Option.bind_eq_some_iff, ih, Option.some_inj]
    constructor
    · rintro ⟨b, hb, rest, hrest, rfl⟩
      exact ⟨b, rest, hb, hrest, rfl⟩
    · rintro ⟨b, rest, hb, hrest, rfl⟩
      exact ⟨b, hb, rest, hrest, rfl⟩

section History

variable {snap : RatchetSnapshot K}

theorem getElem?_zipKeypairs (xpks xsks mpks msks : List Bytes) (i : ℕ) :
    (zipKeypairs xpks xsks mpks msks)[i]? =
      xpks[i]?.bind fun xpk => xsks[i]?.bind fun xsk => mpks[i]?.bind fun mpk =>
        msks[i]?.bind fun msk => some ⟨xpk, xsk, mpk, msk⟩ := by
  induction xpks, xsks, mpks, msks using zipKeypairs.induct generalizing i with
  | case1 xpk xpks xsk xsks mpk mpks msk msks ih =>
    cases i with
    | zero => rfl
    | succ i => simpa only [zipKeypairs, List.getElem?_cons_succ] using ih i
  | case2 xpks xsks mpks msks hshort =>
    -- one of the four lists is empty
    rw [zipKeypairs]
    · cases xpks with
      | nil => rfl
      | cons =>
        cases xsks with
        | nil => simp
        | cons =>
          cases mpks with
          | nil => simp
          | cons =>
            cases msks with
            | nil => simp
            | cons => exact absurd rfl (hshort _ _ _ _ _ _ _ _ rfl rfl rfl)
    · exact hshort

theorem RatchetSnapshot.keypairAt_eq (i : ℕ) :
    snap.keypairAt i =
      (zipKeypairs snap.previousX25519Pk snap.previousX25519Sk snap.previousMlkemPk
        snap.previousMlkemSk)[i]? :=
  (getElem?_zipKeypairs _ _ _ _ i).symm

/-- There is a key pair at every index of the first array just if the other arrays are as long. -/
theorem RatchetSnapshot.historyFits_iff :
    snap.HistoryFits ↔
      ∀ i < snap.previousX25519Pk.length, (snap.keypairAt i).isSome = true := by
  constructor
  · intro h i hi
    have hxsk := hi.trans_le h.x25519Sk
    have hmpk := hi.trans_le h.mlkemPk
    have hmsk := hi.trans_le h.mlkemSk
    simp [keypairAt, hi, hxsk, hmpk, hmsk]
  · intro h
    -- an array that is too short has nothing at its own length
    refine ⟨?_, ?_, ?_⟩ <;>
    · by_contra hshort
      have hnone := h _ (not_le.1 hshort)
      simp [keypairAt] at hnone

/-- The loop returns the key pairs just if no index is out of range. -/
theorem RatchetSnapshot.previousKeypairs_eq_some_iff {pairs : List HybridKeyPair} :
    snap.previousKeypairs = some pairs ↔
      snap.HistoryFits ∧
        pairs = zipKeypairs snap.previousX25519Pk snap.previousX25519Sk snap.previousMlkemPk
          snap.previousMlkemSk := by
  have hbeyond : ∀ i, snap.previousX25519Pk.length ≤ i → snap.keypairAt i = none := by
    intro i hi
    simp [keypairAt, List.getElem?_eq_none hi]
  rw [previousKeypairs, mapM_eq_some_iff, List.forall₂_iff_get, historyFits_iff]
  constructor
  · rintro ⟨hlength, hget⟩
    rw [List.length_range] at hlength
    have hpair : ∀ i, snap.keypairAt i = pairs[i]? := by
      intro i
      rcases lt_or_ge i snap.previousX25519Pk.length with hi | hi
      · rw [List.getElem?_eq_getElem (hlength ▸ hi)]
        simpa using hget i (by simpa using hi) (hlength ▸ hi)
      · rw [hbeyond i hi, List.getElem?_eq_none (hlength ▸ hi)]
    refine ⟨fun i hi => ?_, List.ext_getElem? fun i => ?_⟩
    · rw [hpair, List.getElem?_eq_getElem (hlength ▸ hi)]
      rfl
    · rw [← hpair, keypairAt_eq]
  · rintro ⟨hsome, rfl⟩
    have hlength : snap.previousX25519Pk.length =
        (zipKeypairs snap.previousX25519Pk snap.previousX25519Sk snap.previousMlkemPk
          snap.previousMlkemSk).length := by
      refine le_antisymm (not_lt.1 fun hlt => ?_) ?_
      · have h := hsome _ hlt
        rw [keypairAt_eq, List.getElem?_eq_none (Nat.le_refl _)] at h
        cases h
      · rw [← List.getElem?_eq_none_iff, ← keypairAt_eq]
        exact hbeyond _ (Nat.le_refl _)
    refine ⟨List.length_range.trans hlength, fun i hi hi' => ?_⟩
    rw [keypairAt_eq]
    simp

end History

/-! ### Importing -/

namespace DoubleRatchetState

variable {snap : RatchetSnapshot K} {now : Clock}

/-- Without a panic `from_snapshot` gives the session with the zipped key history. -/
theorem fromSnapshotIndexed_of_fits (h : snap.HistoryFits) :
    fromSnapshotIndexed (C := C) snap now = some (fromSnapshot snap now) := by
  rw [fromSnapshotIndexed, RatchetSnapshot.previousKeypairs_eq_some_iff.2 ⟨h, rfl⟩]
  rfl

theorem fromSnapshotIndexed_of_not_fits (h : ¬snap.HistoryFits) :
    fromSnapshotIndexed (C := C) snap now = none := by
  rw [fromSnapshotIndexed, Option.map_eq_none_iff, Option.eq_none_iff_forall_ne_some]
  intro pairs hpairs
  exact h (RatchetSnapshot.previousKeypairs_eq_some_iff.1 hpairs).1

/-- What holds of the structure of every session that was not imported. -/
structure WellStructured (s : DoubleRatchetState K C) : Prop where
  single : s.rekeyPendingConfirmQueue.length ≤ 1
  carrier : s.rekeyPendingConfirmQueue ≠ [] ↔ s.outgoingProposal.isPending = true
  /-- The components of the key history have one length. -/
  history : s.toSnapshot.previousX25519Pk.length = s.toSnapshot.previousX25519Sk.length ∧
    s.toSnapshot.previousX25519Pk.length = s.toSnapshot.previousMlkemPk.length ∧
    s.toSnapshot.previousX25519Pk.length = s.toSnapshot.previousMlkemSk.length

/-- At most one confirmation of a snapshot survives, and one does if there is any. -/
theorem length_confirmQueue (snap : RatchetSnapshot K) (now : Clock) :
    (snap.confirmQueue now).length = min 1 snap.rekeyPendingConfirmQueue.length := by
  unfold RatchetSnapshot.confirmQueue
  simp only [ite_getLast?_toList]
  generalize hqueue : snap.rekeyPendingConfirmQueue.mapIdx _ = queue
  have hlength : queue.length = snap.rekeyPendingConfirmQueue.length := by
    rw [← hqueue, List.length_mapIdx]
  rw [← hlength]
  cases hlast : queue.getLast? with
  | none =>
    rw [List.getLast?_eq_none_iff.1 hlast]
    cases snap.outgoingRekeyPayload <;> rfl
  | some carrier =>
    have hpos : 0 < queue.length := List.length_pos_iff.2 fun hnil => by simp [hnil] at hlast
    rw [min_eq_left hpos]
    cases snap.outgoingRekeyPayload <;> rfl

/-- A restored session is well structured just if the snapshot relates its queue to its
proposal. -/
theorem wellStructured_fromSnapshot_iff :
    (fromSnapshot (C := C) snap now).WellStructured ↔ snap.CarrierFits := by
  have hlength := length_confirmQueue snap now
  have hqueue : (fromSnapshot (C := C) snap now).rekeyPendingConfirmQueue ≠ [] ↔
      snap.rekeyPendingConfirmQueue ≠ [] := by
    show snap.confirmQueue now ≠ [] ↔ _
    rw [← List.length_pos_iff, ← List.length_pos_iff, hlength]
    omega
  have hpending : (fromSnapshot (C := C) snap now).outgoingProposal.isPending = true ↔
      snap.outgoingRootKey.isSome = true ∨ snap.outgoingSendingChainKey.isSome = true :=
    by simp [fromSnapshot, OutgoingProposal.isPending]
  rw [RatchetSnapshot.CarrierFits, ← hqueue, ← hpending]
  refine ⟨fun h => h.carrier, fun h => ⟨?_, h, by simp [toSnapshot]⟩⟩
  show (snap.confirmQueue now).length ≤ 1
  omega

end DoubleRatchetState

/-- An import of any document returns, and installs only well structured sessions, just if the
record of a document that the guard lets through has a key history that fits and a confirmation
exactly with a proposal. -/
theorem import_total_iff (F : SnapshotFormat K B) (r : RatchetRegistry K C) (peer : String)
    (data : B) (now : Clock) :
    ((r.ratchetImportSessionImpl F peer data now).1 ≠ .panicked ∧
        ∀ s, (r.ratchetImportSessionImpl F peer data now).1 = .installed s → s.WellStructured) ↔
      ∀ snap, F.fromJson data = .ok snap →
        r.importWatermarkGuard peer (.fromSnapshot snap) = false →
        snap.HistoryFits ∧ snap.CarrierFits := by
  unfold RatchetRegistry.ratchetImportSessionImpl
  cases hdecode : F.fromJson data with
  | error e =>
    exact iff_of_true ⟨fun h => (nomatch h), fun _ h => (nomatch h)⟩ fun _ h => (nomatch h)
  | ok snap =>
    have hsnap : (∀ snap', Except.ok (ε := String) snap = .ok snap' →
        r.importWatermarkGuard peer (.fromSnapshot snap') = false →
          snap'.HistoryFits ∧ snap'.CarrierFits) ↔
        (r.importWatermarkGuard peer (.fromSnapshot snap) = false →
          snap.HistoryFits ∧ snap.CarrierFits) := by
      refine ⟨fun h => h snap rfl, fun h snap' heq => ?_⟩
      obtain rfl := Except.ok.inj heq
      exact h
    rw [hsnap]
    dsimp only
    cases hguard : r.importWatermarkGuard peer (.fromSnapshot snap) with
    | true =>
      rw [if_pos rfl]
      exact iff_of_true ⟨fun h => (nomatch h), fun _ h => (nomatch h)⟩ fun h => (nomatch h)
    | false =>
      rw [if_neg Bool.false_ne_true]
      by_cases hfits : snap.HistoryFits
      · rw [fromSnapshotIndexed_of_fits hfits]
        constructor
        · intro h _
          exact ⟨hfits, wellStructured_fromSnapshot_iff.1 (h.2 _ rfl)⟩
        · intro h
          refine ⟨fun heq => (nomatch heq), fun s heq => ?_⟩
          obtain rfl := ImportOutcome.installed.inj heq
          exact wellStructured_fromSnapshot_iff.2 (h rfl).2
      · rw [fromSnapshotIndexed_of_not_fits hfits]
        exact iff_of_false (fun h => h.1 rfl) fun h => hfits (h rfl).1

/-- On records whose key history fits, the import is the one without panics. -/
theorem ratchetImportSession_eq_of_fits {F : SnapshotFormat K B} {r : RatchetRegistry K C}
    {peer : String} {data : B} {now : Clock}
    (h : ∀ snap, F.fromJson data = .ok snap → snap.HistoryFits) :
    r.ratchetImportSession F peer data now =
      match r.ratchetImportSessionImpl F peer data now with
      | (.failed e, _) => .error e
      | (_, r') => .ok r' := by
  unfold RatchetRegistry.ratchetImportSession RatchetRegistry.ratchetImportSessionImpl
  cases hdecode : F.fromJson data with
  | error e => rfl
  | ok snap =>
    dsimp only
    rw [fromSnapshotIndexed_of_fits (h snap hdecode)]
    split_ifs <;> rfl

namespace Symbolic

/-- A snapshot of the initiator whose key history has one public key and nothing else. -/
def raggedSnapshot : RatchetSnapshot Key :=
  { initiator.toSnapshot with previousX25519Pk := [List.replicate 32 9] }

/-- A snapshot of the initiator with a confirmation for no proposal. -/
def straySnapshot : RatchetSnapshot Key :=
  { initiator.toSnapshot with rekeyPendingConfirmQueue := [3] }

end Symbolic

/-- The import of a record with a ragged key history panics, and a record with a confirmation for no
proposal is installed as it is. -/
theorem ragged_snapshot_panics :
    (({} : RatchetRegistry Symbolic.Key Symbolic.Ciphertext).ratchetImportSessionImpl
        storeFormat.toSnapshotFormat "phone" raggedSnapshot ⟨0, 0⟩).1 =
      .panicked ∧
    ∃ s, (({} : RatchetRegistry Symbolic.Key Symbolic.Ciphertext).ratchetImportSessionImpl
        storeFormat.toSnapshotFormat "phone" straySnapshot ⟨0, 0⟩).1 =
      .installed s ∧ ¬s.WellStructured := by
  refine ⟨rfl, _, rfl, fun h => ?_⟩
  have hpending := h.carrier.1 (List.cons_ne_nil _ _)
  exact absurd hpending (by decide)

end KyberPipe
