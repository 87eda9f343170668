import KyberPipe.Desktop.StoreSpec

/-!
# Removing a peer from the store

`remove_ratchet_session_for_peer` rewrites the store without the peer and erases the peer from both
watermark tiers; `clear_ratchet_store` deletes all files. The rewrite makes the old store, with the
entry of the peer, the backup, to which a restore falls back when the store does not parse.
-/

namespace KyberPipe

open Symbolic StorageOp Script

variable {K C B W T : Type}

namespace StoreFormat

variable (F : StoreFormat K B W T)

/-- Rewrite the store without a peer, if it has one. -/
def removeFromStore (peerId : String) : DiskScript T :=
  .inspect fun d =>
    match (d .store).bind F.storeOfText with
    | none => .done
    | some map =>
      -- the rotation of the write keeps the old store, entry and all, as the backup
      if peerId ∈ map then writeStore (F.storeToText (map.erase peerId)) .done else .done

/-- Rewrite a watermark tier without a peer, and delete it if nothing is left. -/
def removeFromTier (peerId : String) (tier : Location) : DiskScript T :=
  .inspect fun d =>
    match (d tier).bind F.watermarksOfText with
    | none => .done
    | some obj =>
      if peerId ∈ obj then
        if (obj.erase peerId).entries.isEmpty then .perform (.remove tier) fun _ => .done
        else .perform (.write tier (F.watermarksToText (obj.erase peerId))) fun _ => .done
      else .done

/-- Remove one peer's persisted snapshot and its watermarks. -/
def removeRatchetSessionForPeer (peerId : String) : DiskScript T :=
  if peerId = "" then .done
  else
    (F.removeFromStore peerId).andThen
      ((F.removeFromTier peerId .keyring).andThen (F.removeFromTier peerId .watermarks))

/-- Delete all files of the store and the watermarks. -/
def clearRatchetStore : DiskScript T :=
  .perform (.remove .store) fun _ =>
    .perform (.remove .watermarks) fun _ =>
      .perform (.remove .tmp) fun _ =>
        .perform (.remove .bak) fun _ => .perform (.remove .keyring) fun _ => .done

/-! ## What a removal leaves -/

/-- The file can be read as a store and has an entry for the peer. -/
def holdsEntry (d : Disk T) (file : Location) (peer : String) : Bool :=
  ((d file).bind F.storeOfText).any fun map => peer ∈ map

theorem complete_writeStore_done (json : T) (d : Disk T) :
    let d' := (writeStore json .done).complete apply d
    d' .store = some json ∧ d' .bak = (d .store).or (d .bak) ∧
      d' .keyring = d .keyring ∧ d' .watermarks = d .watermarks := by
  cases hstore : d .store with
  | none =>
    simp [writeStore, rotateStore, replaceStore, removeTmp, complete, apply, hstore]
  | some old =>
    simp [writeStore, rotateStore, replaceStore, removeTmp, complete, apply, hstore]

/-- Without an entry of the peer nothing is written. With one, the store is rewritten and the old
one becomes the backup. -/
theorem removeFromStore_cases (d : Disk T) (peer : String) :
    let d' := (F.removeFromStore peer).complete apply d
    (F.holdsEntry d .store peer = false ∧ d' = d) ∨
      ∃ map, (d .store).bind F.storeOfText = some map ∧ peer ∈ map ∧
        d' .store = some (F.storeToText (map.erase peer)) ∧ d' .bak = d .store ∧
        d' .keyring = d .keyring ∧ d' .watermarks = d .watermarks := by
  unfold removeFromStore holdsEntry
  simp only [complete]
  cases hread : (d .store).bind F.storeOfText with
  | none => exact .inl ⟨rfl, rfl⟩
  | some map =>
    dsimp only
    by_cases hmem : peer ∈ map
    · rw [if_pos hmem]
      obtain ⟨hstore, hbak, htiers⟩ :=
        complete_writeStore_done (F.storeToText (map.erase peer)) d
      obtain ⟨text, htext, -⟩ := Option.bind_eq_some_iff.1 hread
      rw [htext, Option.some_or] at hbak
      exact .inr ⟨map, rfl, hmem, hstore, hbak.trans htext.symm, htiers⟩
    · rw [if_neg hmem]
      exact .inl ⟨by simp [hmem], rfl⟩

theorem removeFromTier_other (d : Disk T) (peer : String) {tier loc : Location}
    (hloc : loc ≠ tier) :
    (F.removeFromTier peer tier).complete apply d loc = d loc := by
  unfold removeFromTier
  simp only [complete]
  cases hread : (d tier).bind F.watermarksOfText with
  | none => rfl
  | some obj =>
    obtain ⟨text, htext, -⟩ := Option.bind_eq_some_iff.1 hread
    dsimp only
    split_ifs
    · simp [complete, apply, htext, hloc]
    · simp [complete, apply, hloc]
    · rfl

/-- The watermarks of the other peers stay in the tier. -/
theorem lookup_tier_removeFromTier {F : StoreFormat K B W T} (lawful : F.Lawful) (d : Disk T)
    {peer q : String} (hq : q ≠ peer) (tier : Location) :
    (F.tier ((F.removeFromTier peer tier).complete apply d) tier).lookup q =
      (F.tier d tier).lookup q := by
  unfold removeFromTier
  simp only [complete]
  cases hread : (d tier).bind F.watermarksOfText with
  | none => rfl
  | some obj =>
    have hbefore : (F.tier d tier).lookup q = ((obj.erase peer).lookup q).bind parseWatermark := by
      rw [StoreFormat.tier, hread, Option.elim_some, lookup_parseWatermarkMap,
        AList.lookup_erase_ne hq]
    obtain ⟨text, htext, -⟩ := Option.bind_eq_some_iff.1 hread
    dsimp only
    split_ifs with hmem hempty
    · -- nothing is left, so the other peer had no watermark either
      have herased : obj.erase peer = ∅ := AList.ext (List.isEmpty_iff.1 hempty)
      rw [hbefore, herased]
      simp [complete, apply, htext, StoreFormat.tier]
    · obtain ⟨obj', hobj, hlookup⟩ := lawful.watermarksOfText_toText (obj.erase peer)
      rw [hbefore, ← hlookup]
      simp [complete, apply, StoreFormat.tier, hobj, lookup_parseWatermarkMap]
    · rfl

/-- The recorded watermark of a peer depends on what the tiers hold for it. -/
theorem lookup_loadWatermarks_congr (F : StoreFormat K B W T) {d d' : Disk T} {q : String}
    (hkeyring : (F.tier d' .keyring).lookup q = (F.tier d .keyring).lookup q)
    (hfile : (F.tier d' .watermarks).lookup q = (F.tier d .watermarks).lookup q) :
    (F.loadWatermarks d').lookup q = (F.loadWatermarks d).lookup q := by
  simp only [loadWatermarks, lookup_mergeTier, hkeyring, hfile]

theorem tier_congr (F : StoreFormat K B W T) {d d' : Disk T} {loc : Location}
    (h : d' loc = d loc) : F.tier d' loc = F.tier d loc := by
  rw [StoreFormat.tier, StoreFormat.tier, h]

/-- After a removal no file that a restore may read has an entry for the peer, and the entries and
watermarks of the other peers are what they were. -/
structure RemovedDurably (F : StoreFormat K B W T) (peer : String) (d d' : Disk T) : Prop where
  gone : F.holdsEntry d' .store peer = false ∧ F.holdsEntry d' .bak peer = false
  entries : ∀ q ≠ peer, (F.recovered d').lookup q = (F.recovered d).lookup q
  watermarks : ∀ q ≠ peer, (F.loadWatermarks d').lookup q = (F.loadWatermarks d).lookup q

section Removal

variable {F : StoreFormat K B W T} (lawful : F.Lawful) (d : Disk T) (peer : String)

theorem complete_removeRatchetSessionForPeer (hpeer : peer ≠ "") :
    (F.removeRatchetSessionForPeer peer).complete apply d =
      (F.removeFromTier peer .watermarks).complete apply
        ((F.removeFromTier peer .keyring).complete apply
          ((F.removeFromStore peer).complete apply d)) := by
  rw [removeRatchetSessionForPeer, if_neg hpeer, complete_andThen, complete_andThen]

/-- The files of the store are those after the rewrite. -/
theorem removeRatchetSessionForPeer_files (hpeer : peer ≠ "") :
    let d₁ := (F.removeFromStore peer).complete apply d
    let d' := (F.removeRatchetSessionForPeer peer).complete apply d
    d' .store = d₁ .store ∧ d' .bak = d₁ .bak := by
  dsimp only
  rw [complete_removeRatchetSessionForPeer d peer hpeer]
  constructor
  · rw [F.removeFromTier_other _ _ (by decide), F.removeFromTier_other _ _ (by decide)]
  · rw [F.removeFromTier_other _ _ (by decide), F.removeFromTier_other _ _ (by decide)]

/-- A rewrite that takes the peer out of the store puts its entry into the backup. -/
theorem holdsEntry_removeRatchetSessionForPeer :
    let d' := (F.removeRatchetSessionForPeer peer).complete apply d
    (F.holdsEntry d' .store peer = false ∧ F.holdsEntry d' .bak peer = false) ↔
      F.holdsEntry d .store peer = false ∧ F.holdsEntry d .bak peer = false := by
  dsimp only
  by_cases hpeer : peer = ""
  · rw [removeRatchetSessionForPeer, if_pos hpeer]
    rfl
  · obtain ⟨hstore, hbak⟩ := removeRatchetSessionForPeer_files (F := F) d peer hpeer
    simp only [holdsEntry, hstore, hbak]
    obtain ⟨-, hsame⟩ | ⟨map, hread, hmem, hstore₁, hbak₁, -⟩ := F.removeFromStore_cases d peer
    · rw [hsame]
    · -- the old store, which has the entry, is the backup now
      rw [hbak₁, hread]
      simp [hmem]

include lawful

/-- The watermarks of the other peers survive a removal. -/
theorem lookup_loadWatermarks_removeRatchetSessionForPeer {q : String} (hq : q ≠ peer) :
    (F.loadWatermarks ((F.removeRatchetSessionForPeer peer).complete apply d)).lookup q =
      (F.loadWatermarks d).lookup q := by
  by_cases hpeer : peer = ""
  · rw [removeRatchetSessionForPeer, if_pos hpeer]
    rfl
  · rw [complete_removeRatchetSessionForPeer d peer hpeer]
    have hstore : ∀ loc, loc = .keyring ∨ loc = .watermarks →
        (F.removeFromStore peer).complete apply d loc = d loc := by
      intro loc hloc
      obtain ⟨-, hsame⟩ | ⟨map, -, -, -, -, hkeyring, hfile⟩ := F.removeFromStore_cases d peer
      · rw [hsame]
      · rcases hloc with rfl | rfl
        · exact hkeyring
        · exact hfile
    -- each tier is rewritten by one removal and left alone by the other and by the store write
    refine F.lookup_loadWatermarks_congr ?_ ?_
    · rw [F.tier_congr (F.removeFromTier_other _ peer (by decide)),
        lookup_tier_removeFromTier lawful _ hq, F.tier_congr (hstore _ (.inl rfl))]
    · rw [lookup_tier_removeFromTier lawful _ hq,
        F.tier_congr (F.removeFromTier_other _ peer (by decide)),
        F.tier_congr (hstore _ (.inr rfl))]

/-- The entries of the other peers survive a removal. -/
theorem lookup_recovered_removeRatchetSessionForPeer {q : String} (hq : q ≠ peer) :
    (F.recovered ((F.removeRatchetSessionForPeer peer).complete apply d)).lookup q =
      (F.recovered d).lookup q := by
  by_cases hpeer : peer = ""
  · rw [removeRatchetSessionForPeer, if_pos hpeer]
    rfl
  · obtain ⟨hsamestore, hsamebak⟩ := removeRatchetSessionForPeer_files (F := F) d peer hpeer
    rw [F.recovered_congr hsamestore hsamebak]
    obtain ⟨-, hsame⟩ | ⟨map, hread, -, hstore, -⟩ := F.removeFromStore_cases d peer
    · rw [hsame]
    · -- the store could be read before, so the backup did not matter
      obtain ⟨text, htext, hmap⟩ := Option.bind_eq_some_iff.1 hread
      have hbefore : F.recovered d = map := by
        simp only [recovered, readStore, htext, hmap, Option.getD_some]
      rw [(recovered_of_store lawful hstore).2, hbefore, AList.lookup_erase_ne hq]

/-- A removal leaves no entry of the peer exactly if there was none in the first place. -/
theorem removedDurably_iff :
    F.RemovedDurably peer d ((F.removeRatchetSessionForPeer peer).complete apply d) ↔
      F.holdsEntry d .store peer = false ∧ F.holdsEntry d .bak peer = false := by
  have hgone := holdsEntry_removeRatchetSessionForPeer (F := F) d peer
  constructor
  · intro h
    exact hgone.1 h.gone
  · intro h
    exact
      { gone := hgone.2 h
        entries := fun q hq => lookup_recovered_removeRatchetSessionForPeer lawful d peer hq
        watermarks := fun q hq =>
          lookup_loadWatermarks_removeRatchetSessionForPeer lawful d peer hq }

end Removal

/-- A disk with the store and backup of another phone only. -/
theorem removedDurably_absent :
    storeFormat.RemovedDurably "tablet" persisted
      ((storeFormat.removeRatchetSessionForPeer "tablet").complete apply
        persisted) :=
  (removedDurably_iff storeFormat_lawful persisted "tablet").2
    (by decide +kernel)

/-- After a removal the backup has the entry of the peer, and if the new store is torn, the next
start restores its session. -/
theorem removed_session_comes_back :
    let d := (storeFormat.removeRatchetSessionForPeer "phone").complete apply
      persisted
    let torn := Function.update d .store (some (.watermarks ∅))
    ¬storeFormat.RemovedDurably "phone" persisted d ∧
      "phone" ∈ (storeFormat.restoreAllRatchetSessions (C := Symbolic.Ciphertext) "00"
        ⟨0, 0⟩ torn {}).2.sessions := by
  refine ⟨fun h => ?_, by decide +kernel⟩
  exact absurd h.gone.2 (by decide +kernel)

end StoreFormat

end KyberPipe
