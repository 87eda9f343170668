import KyberPipe.Desktop.Store

/-!
# What the store does

One description for each function of the store: what the recorded watermarks are after they were
saved, what the files hold after a crash in the middle of a write and after a complete one, and
which sessions a restore brings back.
-/

namespace KyberPipe

open RatchetRegistry RatchetWatermark StorageOp Script

variable {K C B W T : Type}

/-! ## Watermarks -/

theorem lookup_parseWatermarkMap (obj : WatermarkJson) (peer : String) :
    (parseWatermarkMap obj).lookup peer = (obj.lookup peer).bind parseWatermark := by
  rw [parseWatermarkMap, AList.lookup_upsertFrom, AList.lookup_empty, Option.or_none]

variable {w : Watermark}

/-- Generations are read as 32-bit numbers. -/
theorem parseWatermark_generation_lt {value : Option (List (Option ℕ))}
    (h : parseWatermark value = some w) : w.ratchetGeneration < 2 ^ 32 := by
  unfold parseWatermark at h
  split at h
  · obtain rfl := Option.some.inj h
    exact Nat.mod_lt _ (by decide)
  · obtain rfl := Option.some.inj h
    exact Nat.mod_lt _ (by decide)
  · cases h

theorem parseWatermark_watermarkToJson (h : w.ratchetGeneration < 2 ^ 32) :
    parseWatermark (watermarkToJson w) = some w := by
  simp only [watermarkToJson, parseWatermark, Nat.mod_eq_of_lt h]

theorem mergeWatermark_generation_lt {high fresh : Watermark} {n : ℕ}
    (hhigh : high.ratchetGeneration < n) (hfresh : fresh.ratchetGeneration < n) :
    (mergeWatermark high fresh).ratchetGeneration < n := by
  unfold mergeWatermark
  split_ifs
  · exact hfresh
  · exact hhigh
  · exact max_lt hhigh hfresh

namespace StoreFormat

variable (F : StoreFormat K B W T)

/-- The watermarks at one location. -/
def tier (d : Disk T) (loc : Location) : WatermarkMap :=
  ((d loc).bind F.watermarksOfText).elim ∅ parseWatermarkMap

/-- The recorded watermark of a peer. -/
def highWater (d : Disk T) (peer : String) : Watermark := ((F.loadWatermarks d).lookup peer).getD ⊥

theorem lookup_mergeTier (d : Disk T) (loc : Location) (out : WatermarkMap) (peer : String) :
    (F.mergeTier d loc out).lookup peer =
      (((F.tier d loc).lookup peer).map fun wm =>
        mergeWatermark ((out.lookup peer).getD ⊥) wm).or (out.lookup peer) := by
  unfold mergeTier tier
  cases (d loc).bind F.watermarksOfText with
  | none => simp
  | some obj =>
    simp only [Option.elim_some, AList.lookup_upsertFrom]
    cases (parseWatermarkMap obj).lookup peer <;> rfl

theorem getD_lookup_mergeTier (d : Disk T) (loc : Location) (out : WatermarkMap) (peer : String) :
    ((F.mergeTier d loc out).lookup peer).getD ⊥ =
      (out.lookup peer).getD ⊥ ⊔ ((F.tier d loc).lookup peer).getD ⊥ := by
  rw [lookup_mergeTier]
  cases (F.tier d loc).lookup peer with
  | none => simp
  | some wm => simp [mergeWatermark_eq_sup]

/-- The recorded watermark of a peer is the join of the two tiers. -/
theorem highWater_eq (d : Disk T) (peer : String) :
    F.highWater d peer =
      ((F.tier d .keyring).lookup peer).getD ⊥ ⊔ ((F.tier d .watermarks).lookup peer).getD ⊥ := by
  rw [highWater, loadWatermarks, getD_lookup_mergeTier, getD_lookup_mergeTier]
  simp

variable {d : Disk T}

theorem tier_generation_lt {loc : Location} {peer : String}
    (h : (F.tier d loc).lookup peer = some w) : w.ratchetGeneration < 2 ^ 32 := by
  unfold tier at h
  cases hobj : (d loc).bind F.watermarksOfText with
  | none =>
    rw [hobj] at h
    simp at h
  | some obj =>
    rw [hobj, Option.elim_some, lookup_parseWatermarkMap] at h
    obtain ⟨value, _, hparse⟩ := Option.bind_eq_some_iff.1 h
    exact parseWatermark_generation_lt hparse

theorem highWater_generation_lt (d : Disk T) (peer : String) :
    (F.highWater d peer).ratchetGeneration < 2 ^ 32 := by
  have htier : ∀ loc, (((F.tier d loc).lookup peer).getD ⊥).ratchetGeneration < 2 ^ 32 := by
    intro loc
    cases h : (F.tier d loc).lookup peer with
    | none => exact Nat.two_pow_pos 32
    | some w => exact F.tier_generation_lt h
  rw [highWater_eq]
  exact mergeWatermark_generation_lt (htier _) (htier _)

/-- Both tiers after a write hold the written watermarks. -/
theorem highWater_write {F : StoreFormat K B W T} (lawful : F.Lawful) {wms : WatermarkMap}
    (hgen : ∀ peer w, wms.lookup peer = some w → w.ratchetGeneration < 2 ^ 32)
    (hkeyring : d .keyring = some (F.watermarksToText
      (AList.upsertFrom ∅ wms fun _ wm _ => some (watermarkToJson wm))))
    (hfile : d .watermarks = d .keyring) (peer : String) :
    F.highWater d peer = (wms.lookup peer).getD ⊥ := by
  obtain ⟨obj, hobj, hlookup⟩ := lawful.watermarksOfText_toText
    (AList.upsertFrom ∅ wms fun _ wm _ => some (watermarkToJson wm))
  have htier : ∀ loc, d loc = d .keyring → (F.tier d loc).lookup peer = wms.lookup peer := by
    intro loc hloc
    rw [tier, hloc, hkeyring, Option.bind_some, hobj, Option.elim_some, lookup_parseWatermarkMap,
      hlookup, AList.lookup_upsertFrom, AList.lookup_empty, Option.or_none, Option.bind_assoc]
    cases h : wms.lookup peer with
    | none => rfl
    | some w => exact parseWatermark_watermarkToJson (hgen peer w h)
  rw [highWater_eq, htier _ rfl, htier _ hfile, sup_idem]

/-- After watermarks above the recorded ones were saved, they are the recorded ones. -/
theorem highWater_saveWatermarks {F : StoreFormat K B W T} (lawful : F.Lawful) {wms : WatermarkMap}
    (hgen : ∀ peer w, wms.lookup peer = some w → w.ratchetGeneration < 2 ^ 32)
    (hle : ∀ peer, F.highWater d peer ≤ (wms.lookup peer).getD ⊥) (peer : String) :
    F.highWater ((F.saveWatermarks wms).complete apply d) peer =
      (wms.lookup peer).getD ⊥ := by
  unfold saveWatermarks
  split_ifs with hempty
  · -- nothing to save: the recorded watermarks lie below the empty map
    have hwms : wms = ∅ := AList.ext (List.isEmpty_iff.1 hempty)
    have hbot := hle peer
    rw [hwms, AList.lookup_empty, Option.getD_none, le_bot_iff] at hbot
    rw [hwms, AList.lookup_empty, Option.getD_none]
    exact hbot
  · simp only [complete]
    split_ifs with hall
    · -- nothing moves: the recorded watermarks also lie above
      refine le_antisymm (hle peer) ?_
      change _ ≤ F.highWater d peer
      cases h : wms.lookup peer with
      | none => exact bot_le
      | some w =>
        have hmem := AList.mem_lookup_iff.1 h
        have hany := List.all_eq_true.1 hall _ hmem
        rw [highWater]
        cases hc : (F.loadWatermarks d).lookup peer with
        | none => simp [hc] at hany
        | some c => exact advances_eq_false.1 (by simpa [hc] using hany)
    · exact highWater_write lawful hgen (by simp [complete, apply])
        (by simp [complete, apply]) peer

/-! ## Persisting -/

/-- The watermark of the live session of a peer. -/
def liveWater (r : RatchetRegistry K C) (peer : String) : Watermark :=
  (r.sessions.lookup peer).elim ⊥ .fromLive

variable {s : DoubleRatchetState K C}

theorem snapshotWatermark_toJson {F : StoreFormat K B W T} (lawful : F.Lawful)
    (hgen : s.ratchetGeneration ≤ u32Max) :
    F.snapshotWatermark (F.toJson s.toSnapshot) = some (.fromLive s) := by
  rw [snapshotWatermark, ratchetSnapshotWatermark_toJson lawful.toLawful hgen]

section Persist

variable {F : StoreFormat K B W T} (lawful : F.Lawful) {r : RatchetRegistry K C}
  (hgen : ∀ peer s, r.sessions.lookup peer = some s → s.ratchetGeneration ≤ u32Max)
include lawful hgen

/-- The fresh watermarks join the recorded ones with those of the live sessions. -/
theorem getD_lookup_freshWatermarks (d : Disk T) (peer : String) :
    ((F.freshWatermarks r d).lookup peer).getD ⊥ = F.highWater d peer ⊔ liveWater r peer := by
  rw [freshWatermarks, AList.lookup_upsertFrom, highWater, liveWater]
  cases h : r.sessions.lookup peer with
  | none => simp
  | some s =>
    simp [snapshotWatermark_toJson lawful (hgen peer s h), mergeWatermark_eq_sup]

theorem freshWatermarks_generation_lt {peer : String}
    (h : (F.freshWatermarks r d).lookup peer = some w) : w.ratchetGeneration < 2 ^ 32 := by
  have hw : w = F.highWater d peer ⊔ liveWater r peer := by
    rw [← getD_lookup_freshWatermarks lawful hgen, h, Option.getD_some]
  have hlive : (liveWater r peer).ratchetGeneration < 2 ^ 32 := by
    unfold liveWater
    cases hs : r.sessions.lookup peer with
    | none => exact Nat.two_pow_pos 32
    | some s =>
      have hle := hgen peer s hs
      simp only [Option.elim_some, fromLive]
      unfold u32Max at hle
      omega
  rw [hw]
  exact mergeWatermark_generation_lt (F.highWater_generation_lt d peer) hlive

end Persist

theorem lookup_sealedSessions (F : StoreFormat K B W T) (wk : K) (nonces : String → Nonce)
    (r : RatchetRegistry K C) (peer : String) :
    (F.sealedSessions wk nonces r).lookup peer = (r.sessions.lookup peer).bind fun s =>
      (F.wrap wk (nonces peer) (F.toJson s.toSnapshot)).map fun ct =>
        ⟨some (nonces peer), some ct⟩ := by
  rw [sealedSessions, AList.lookup_upsertFrom, AList.lookup_empty, Option.or_none]

/-- The sealed store of a live session opens to its snapshot. -/
theorem openEntry_sealedSessions {F : StoreFormat K B W T} (lawful : F.Lawful) (wk : K)
    (nonces : String → Nonce) (r : RatchetRegistry K C) (peer : String) :
    ((F.sealedSessions wk nonces r).lookup peer).bind (F.openEntry wk) =
      (r.sessions.lookup peer).map fun s => F.toJson s.toSnapshot := by
  rw [lookup_sealedSessions]
  cases r.sessions.lookup peer with
  | none => rfl
  | some s =>
    obtain ⟨ct, hwrap, hunwrap⟩ := lawful.unwrap_wrap wk (nonces peer) (F.toJson s.toSnapshot)
    simp [hwrap, openEntry, hunwrap]

/-- The sealed store is empty only without sessions. -/
theorem sealedSessions_eq_empty_iff {F : StoreFormat K B W T} (lawful : F.Lawful) (wk : K)
    (nonces : String → Nonce) (r : RatchetRegistry K C) :
    F.sealedSessions wk nonces r = ∅ ↔ r.sessions = ∅ := by
  constructor
  · intro h
    refine AList.eq_empty_of_lookup_eq_none fun peer => ?_
    have hopen := openEntry_sealedSessions lawful wk nonces r peer
    rw [h, AList.lookup_empty, Option.bind_none, eq_comm, Option.map_eq_none_iff] at hopen
    exact hopen
  · intro h
    rw [sealedSessions, h]
    rfl

/-- Saving watermarks leaves the store alone. -/
theorem saveWatermarks_keeps (F : StoreFormat K B W T) (wms : WatermarkMap) (content : Option T) :
    (F.saveWatermarks wms).Keeps apply (fun d : Disk T => d .store = content) := by
  have hwrite : ∀ (loc : Location) (json : T), loc ≠ .store → ∀ d d' : Disk T,
      d .store = content → (write loc json).apply d = some d' →
        d' .store = content := by
    intro loc json hloc d d' hd happly
    rw [apply_of_not_touches happly hloc.symm, hd]
  unfold saveWatermarks
  split_ifs
  · trivial
  · intro d
    dsimp only
    split_ifs
    · trivial
    · exact ⟨hwrite _ _ (by decide), fun _ => ⟨hwrite _ _ (by decide), fun _ => trivial⟩⟩

theorem removeTmp_keeps (content : Option T) :
    removeTmp.Keeps apply (fun d : Disk T => d .store = content) := by
  refine ⟨fun d d' hd happly => ?_, fun _ => trivial⟩
  exact (apply_of_not_touches happly (by simp [StorageOp.Touches])).trans hd

/-- The write and the sync of the temporary file succeed. -/
theorem crashAfter_writeStore_add_two (json : T) (advance : DiskScript T) (n : ℕ) (d : Disk T) :
    (writeStore json advance).crashAfter apply (n + 2) d =
      ((rotateStore advance).andThen removeTmp).crashAfter apply n
        (Function.update d .tmp (some json)) :=
  rfl

variable {advance : DiskScript T}

/-- Without an old store the next operation is the rename of the temporary file. -/
theorem crashAfter_rotateStore_of_none {json : T} (hstore : d .store = none)
    (htmp : d .tmp = some json) (n : ℕ) :
    ((rotateStore advance).andThen removeTmp).crashAfter apply n d =
      match n with
      | 0 => d
      | n + 1 => (advance.andThen removeTmp).crashAfter apply n
          (Function.update (Function.update d .tmp none) .store (some json)) := by
  cases n with
  | zero => simp [rotateStore, replaceStore, andThen, crashAfter, hstore]
  | succ n =>
    simp [rotateStore, replaceStore, andThen, crashAfter, apply, hstore, htmp]

/-- An old store is moved to the backup before the temporary file is renamed. -/
theorem crashAfter_rotateStore_of_some {old json : T} (hstore : d .store = some old)
    (htmp : d .tmp = some json) (n : ℕ) :
    ((rotateStore advance).andThen removeTmp).crashAfter apply n d =
      let rotated := Function.update (Function.update d .store none) .bak (some old)
      match n with
      | 0 => d
      | 1 => rotated
      | n + 2 => (advance.andThen removeTmp).crashAfter apply n
          (Function.update (Function.update rotated .tmp none) .store (some json)) := by
  match n with
  | 0 => simp [rotateStore, replaceStore, andThen, crashAfter, hstore]
  | 1 =>
    simp [rotateStore, replaceStore, andThen, crashAfter, apply, hstore]
  | n + 2 =>
    simp [rotateStore, replaceStore, andThen, crashAfter, apply, hstore, htmp]

/-- The files after a crash in a store write. Up to the second operation the old store is untouched,
the third one moves an existing store away, and the next rename puts the new text in place. -/
theorem crashAfter_writeStore {json : T}
    (hadvance : advance.Keeps apply fun d : Disk T => d .store = some json) (n : ℕ)
    (d : Disk T) :
    let crashed := (writeStore json advance).crashAfter apply n d
    (n ≤ 2 ∧ crashed .store = d .store ∧ crashed .bak = d .bak) ∨
      (n = 3 ∧ (d .store).isSome ∧ crashed .store = none) ∨
      (3 ≤ n ∧ (n = 3 → d .store = none) ∧ crashed .store = some json) := by
  have htail := hadvance.andThen (removeTmp_keeps (some json))
  match n with
  | 0 | 1 => exact .inl ⟨by omega, rfl, rfl⟩
  | n + 2 =>
    dsimp only
    rw [crashAfter_writeStore_add_two]
    have htmp : Function.update d .tmp (some json) .tmp = some json := rfl
    have hsame : Function.update d .tmp (some json) .store = d .store := rfl
    cases hstore : d .store with
    | none =>
      rw [crashAfter_rotateStore_of_none (hsame.trans hstore) htmp]
      cases n with
      | zero => exact .inl ⟨le_rfl, hstore, rfl⟩
      | succ n => exact .inr (.inr ⟨by omega, fun _ => rfl, htail.crashAfter rfl n⟩)
    | some old =>
      rw [crashAfter_rotateStore_of_some (hsame.trans hstore) htmp]
      match n with
      | 0 => exact .inl ⟨le_rfl, hstore, rfl⟩
      | 1 => exact .inr (.inl ⟨rfl, rfl, rfl⟩)
      | n + 2 => exact .inr (.inr ⟨by omega, by omega, htail.crashAfter rfl n⟩)

/-- A complete store write puts the new text in place before it goes on with `advance`. -/
theorem complete_writeStore (json : T) (advance : DiskScript T) (d : Disk T) :
    ∃ d₂ : Disk T, d₂ .store = some json ∧ d₂ .keyring = d .keyring ∧
      d₂ .watermarks = d .watermarks ∧
      (writeStore json advance).complete apply d =
        removeTmp.complete apply (advance.complete apply d₂) := by
  cases hstore : d .store with
  | none =>
    refine ⟨Function.update (Function.update (Function.update d .tmp (some json)) .tmp none) .store
      (some json), rfl, rfl, rfl, ?_⟩
    simp [writeStore, rotateStore, replaceStore, complete, apply, hstore]
  | some old =>
    let rotated := Function.update (Function.update (Function.update d .tmp (some json)) .store
      none) .bak (some old)
    refine ⟨Function.update (Function.update rotated .tmp none) .store (some json), rfl, rfl, rfl,
      ?_⟩
    simp [writeStore, rotateStore, replaceStore, complete, apply, hstore, rotated]

theorem complete_removeTmp (d : Disk T) {loc : Location} (hloc : loc ≠ .tmp) :
    (removeTmp.complete apply d) loc = d loc := by
  cases htmp : d .tmp with
  | none => simp [removeTmp, complete, apply, htmp]
  | some text => simp [removeTmp, complete, apply, htmp, hloc]

/-- The recorded watermarks depend on the two tiers only. -/
theorem highWater_congr (F : StoreFormat K B W T) {d d' : Disk T}
    (hkeyring : d' .keyring = d .keyring) (hfile : d' .watermarks = d .watermarks)
    (peer : String) : F.highWater d' peer = F.highWater d peer := by
  rw [highWater_eq, highWater_eq, tier, tier, tier, tier, hkeyring, hfile]

/-- The sessions that a restore goes through. -/
def recovered (F : StoreFormat K B W T) (d : Disk T) : StoreMap W := (F.readStore d).getD ∅

theorem recovered_of_store {F : StoreFormat K B W T} (lawful : F.Lawful) {map : StoreMap W}
    (h : d .store = some (F.storeToText map)) : F.ReadsBack map (F.recovered d) := by
  obtain ⟨map', hread, hlookup⟩ := lawful.storeOfText_toText map
  have hrecovered : F.recovered d = map' := by
    simp only [recovered, readStore, h, hread, Option.getD_some]
  rw [hrecovered]
  exact ⟨hread, hlookup⟩

theorem recovered_of_none (F : StoreFormat K B W T) (h : d .store = none) : F.recovered d = ∅ := by
  simp only [recovered, readStore, h, Option.getD_none]

theorem recovered_congr (F : StoreFormat K B W T) {d d' : Disk T}
    (hstore : d' .store = d .store) (hbak : d' .bak = d .bak) : F.recovered d' = F.recovered d := by
  rw [recovered, recovered, readStore, readStore, hstore, hbak]

theorem persistAllRatchetSessions_of_empty {F : StoreFormat K B W T} {snapshotKeyHex : String}
    {wk : K} (hkey : F.wrapKey snapshotKeyHex = some wk) (nonces : String → Nonce)
    {r : RatchetRegistry K C} (hempty : r.sessions = ∅) :
    F.persistAllRatchetSessions snapshotKeyHex nonces r = .done := by
  have hids : r.ratchetPeerIds = [] := by
    rw [ratchetPeerIds, hempty]
    rfl
  simp [persistAllRatchetSessions, hkey, hids]

section Persist

variable {F : StoreFormat K B W T} (lawful : F.Lawful) {snapshotKeyHex : String} {wk : K}
  (hkey : F.wrapKey snapshotKeyHex = some wk) (nonces : String → Nonce) {r : RatchetRegistry K C}
include lawful hkey

/-- With a session to save, persisting is a store write. -/
theorem persistAllRatchetSessions_of_ne (hne : r.sessions ≠ ∅) :
    F.persistAllRatchetSessions snapshotKeyHex nonces r = .inspect fun d =>
      writeStore (F.storeToText (F.sealedSessions wk nonces r))
        (F.saveWatermarks (F.freshWatermarks r d)) := by
  have hids : r.ratchetPeerIds.isEmpty = false := by
    rw [ratchetPeerIds, AList.keys, List.keys, List.isEmpty_map]
    exact AList.entries_isEmpty_of_ne hne
  have hmap : (F.sealedSessions wk nonces r).entries.isEmpty = false :=
    AList.entries_isEmpty_of_ne ((sealedSessions_eq_empty_iff lawful wk nonces r).not.2 hne)
  simp [persistAllRatchetSessions, hkey, hids, hmap]

/-- A crash in the middle of persisting leaves the old store, no store or the new one. -/
theorem recovered_crashAfter (hne : r.sessions ≠ ∅) (n : ℕ) (d : Disk T) :
    let crashed := (F.persistAllRatchetSessions snapshotKeyHex nonces r).crashAfter
      apply n d
    (n ≤ 2 ∧ F.recovered crashed = F.recovered d) ∨
      (n = 3 ∧ (d .store).isSome ∧ F.recovered crashed = ∅) ∨
      (3 ≤ n ∧ (n = 3 → d .store = none) ∧
        F.ReadsBack (F.sealedSessions wk nonces r) (F.recovered crashed)) := by
  dsimp only
  rw [persistAllRatchetSessions_of_ne lawful hkey nonces hne, crashAfter]
  rcases crashAfter_writeStore (F.saveWatermarks_keeps _ _) n d with
    ⟨hn, hstore, hbak⟩ | ⟨hn, hsome, hstore⟩ | ⟨hn, hnone, hstore⟩
  · exact .inl ⟨hn, F.recovered_congr hstore hbak⟩
  · exact .inr (.inl ⟨hn, hsome, F.recovered_of_none hstore⟩)
  · exact .inr (.inr ⟨hn, hnone, recovered_of_store lawful hstore⟩)

/-- Complete persisting raises the recorded watermarks to those of the live sessions. -/
theorem highWater_persist
    (hgen : ∀ peer s, r.sessions.lookup peer = some s → s.ratchetGeneration ≤ u32Max)
    (d : Disk T) (peer : String) :
    F.highWater ((F.persistAllRatchetSessions snapshotKeyHex nonces r).complete apply d)
      peer = F.highWater d peer ⊔ liveWater r peer := by
  by_cases hempty : r.sessions = ∅
  · rw [persistAllRatchetSessions_of_empty hkey nonces hempty, liveWater, hempty,
      AList.lookup_empty, Option.elim_none, sup_bot_eq, complete]
  · rw [persistAllRatchetSessions_of_ne lawful hkey nonces hempty, complete]
    obtain ⟨d₂, _, hkeyring, hfile, hcomplete⟩ := complete_writeStore
      (F.storeToText (F.sealedSessions wk nonces r)) (F.saveWatermarks (F.freshWatermarks r d)) d
    have hsame := F.highWater_congr hkeyring hfile
    rw [hcomplete, F.highWater_congr (complete_removeTmp _ (by decide))
      (complete_removeTmp _ (by decide)),
      highWater_saveWatermarks lawful (fun _ _ => freshWatermarks_generation_lt lawful hgen),
      getD_lookup_freshWatermarks lawful hgen]
    intro peer
    rw [hsame, getD_lookup_freshWatermarks lawful hgen]
    exact le_sup_left

theorem recovered_persist (hne : r.sessions ≠ ∅) (d : Disk T) :
    F.ReadsBack (F.sealedSessions wk nonces r)
      (F.recovered ((F.persistAllRatchetSessions snapshotKeyHex nonces r).complete apply d)) := by
  rw [persistAllRatchetSessions_of_ne lawful hkey nonces hne, complete]
  obtain ⟨d₂, hstore, _, _, hcomplete⟩ := complete_writeStore
    (F.storeToText (F.sealedSessions wk nonces r)) (F.saveWatermarks (F.freshWatermarks r d)) d
  apply recovered_of_store lawful
  rw [hcomplete, complete_removeTmp _ (by decide)]
  exact (F.saveWatermarks_keeps _ _).complete hstore

end Persist

/-! ## Restoring -/

/-- The session that an entry restores over the live session of its peer. -/
def imported (F : StoreFormat K B W T) (wk : K) (watermarks : WatermarkMap) (now : Clock)
    (peer : String) (entry : StoreEntry W) (live : Option (DoubleRatchetState K C)) :
    Option (DoubleRatchetState K C) :=
  (F.openEntry wk entry).bind fun blob =>
    (F.fromJson blob).toOption.bind fun snap =>
      if F.refused watermarks peer blob ||
          refusesImport (live.map .fromLive) (.fromSnapshot snap) then none
      else some (.fromSnapshot snap now)

theorem restoreEntry_sessions (F : StoreFormat K B W T) (wk : K) (watermarks : WatermarkMap)
    (now : Clock) (acc : ℕ × RatchetRegistry K C) (peer : String) (entry : StoreEntry W) :
    (F.restoreEntry wk watermarks now acc peer entry).2.sessions =
      acc.2.sessions.upsert peer (F.imported wk watermarks now peer entry) := by
  unfold restoreEntry AList.upsert imported
  cases hopen : F.openEntry wk entry with
  | none => rfl
  | some blob =>
    simp only [Option.bind_some]
    cases hrefused : F.refused watermarks peer blob with
    | true => cases F.fromJson blob <;> rfl
    | false =>
      unfold ratchetImportSession importWatermarkGuard
      cases hjson : F.fromJson blob with
      | error e => rfl
      | ok snap =>
        simp only [Except.toOption, Option.bind_some, Bool.false_or]
        unfold ratchetSessionWatermark
        cases refusesImport ((acc.2.sessions.lookup peer).map .fromLive)
          (.fromSnapshot snap) <;> rfl

theorem restoreEntries_sessions (F : StoreFormat K B W T) (wk : K) (watermarks : WatermarkMap)
    (now : Clock) (map : StoreMap W) (r : RatchetRegistry K C) :
    (F.restoreEntries wk watermarks now map r).2.sessions =
      r.sessions.upsertFrom map (F.imported wk watermarks now) := by
  have hfold : ∀ (entries : List (Sigma fun _ : String => StoreEntry W))
      (acc : ℕ × RatchetRegistry K C),
      (entries.foldl (fun acc e => F.restoreEntry wk watermarks now acc e.1 e.2) acc).2.sessions =
        entries.foldl (fun m e => m.upsert e.1 (F.imported wk watermarks now e.1 e.2))
          acc.2.sessions := by
    intro entries
    induction entries with
    | nil => exact fun _ => rfl
    | cons e entries ih =>
      intro acc
      rw [List.foldl_cons, List.foldl_cons, ih, restoreEntry_sessions]
  exact hfold map.entries (0, r)

theorem restoreAllRatchetSessions_eq (F : StoreFormat K B W T) {snapshotKeyHex : String} {wk : K}
    (hkey : F.wrapKey snapshotKeyHex = some wk) (now : Clock) (d : Disk T)
    (r : RatchetRegistry K C) :
    F.restoreAllRatchetSessions snapshotKeyHex now d r =
      F.restoreEntries wk (F.loadWatermarks d) now (F.recovered d) r := by
  unfold restoreAllRatchetSessions recovered
  cases hread : F.readStore d with
  | none => simp [hkey, restoreEntries]
  | some map => simp [hkey]

/-- The serialized snapshot that the store holds for a peer. -/
def stored (F : StoreFormat K B W T) (wk : K) (d : Disk T) (peer : String) : Option B :=
  ((F.recovered d).lookup peer).bind (F.openEntry wk)

/-- After a restart exactly the stored sessions that do not lie behind their watermark are back.
-/
theorem lookup_restoreAllRatchetSessions (F : StoreFormat K B W T) {snapshotKeyHex : String}
    {wk : K} (hkey : F.wrapKey snapshotKeyHex = some wk) (now : Clock) (d : Disk T)
    (peer : String) :
    (F.restoreAllRatchetSessions (C := C) snapshotKeyHex now d {}).2.sessions.lookup peer =
      (F.stored wk d peer).bind fun blob =>
        (F.fromJson blob).toOption.bind fun snap =>
          if F.refused (F.loadWatermarks d) peer blob then none
          else some (.fromSnapshot snap now) := by
  rw [restoreAllRatchetSessions_eq F hkey, restoreEntries_sessions, AList.lookup_upsertFrom,
    AList.lookup_empty, Option.or_none, stored, Option.bind_assoc]
  simp only [imported, Option.map_none, refusesImport, Bool.or_false]

/-- A session that does not lie behind its watermark comes back. -/
theorem refused_toJson {F : StoreFormat K B W T} (lawful : F.Lawful)
    (hgen : s.ratchetGeneration ≤ u32Max) (d : Disk T) (peer : String) :
    F.refused (F.loadWatermarks d) peer (F.toJson s.toSnapshot) = false ↔
      F.highWater d peer ≤ .fromLive s := by
  rw [refused, snapshotWatermark_toJson lawful hgen, highWater]
  cases (F.loadWatermarks d).lookup peer with
  | none => simp
  | some high => simpa using isRollback_eq_false

end StoreFormat

/-! ## A symbolic store -/

namespace Symbolic

/-- The texts of the symbolic store. -/
inductive FileText where
  | store (map : StoreMap (Key × Nonce × RatchetSnapshot Key))
  | watermarks (obj : WatermarkJson)

/-- The symbolic store keeps its maps as they are, and a sealed snapshot records its key. -/
def storeFormat :
    StoreFormat Key (RatchetSnapshot Key) (Key × Nonce × RatchetSnapshot Key) FileText where
  toJson snap := snap
  fromJson snap := .ok snap
  fields snap := .ok fun name =>
    if name = "pairing_epoch" then some snap.pairingEpoch
    else if name = "ratchet_generation" then some snap.ratchetGeneration
    else if name = "send_message_count" then some snap.sendMessageCount
    else if name = "recv_message_count" then some snap.recvMessageCount
    else none
  wrapKey _ := some .absent
  wrap wk nonce blob := some (wk, nonce, blob)
  unwrap wk nonce ct := if ct.1 = wk ∧ ct.2.1 = nonce then some ct.2.2 else none
  storeToText := .store
  storeOfText
    | .store map => some map
    | .watermarks _ => none
  watermarksToText := .watermarks
  watermarksOfText
    | .watermarks obj => some obj
    | .store _ => none

/-- The symbolic store is lawful. -/
theorem storeFormat_lawful : storeFormat.Lawful where
  fromJson_toJson _ := rfl
  fields_toJson _ := ⟨_, rfl, rfl, rfl, rfl, rfl⟩
  unwrap_wrap _ _ _ := ⟨_, rfl, if_pos ⟨rfl, rfl⟩⟩
  storeOfText_toText _ := ⟨_, rfl, fun _ => rfl⟩
  watermarksOfText_toText _ := ⟨_, rfl, fun _ => rfl⟩

/-- A desktop paired with one phone. -/
def registry : RatchetRegistry Key Ciphertext := { sessions := AList.singleton "phone" initiator }

/-- Persist a registry. -/
def persist (r : RatchetRegistry Key Ciphertext) : DiskScript FileText :=
  storeFormat.persistAllRatchetSessions "00" (fun _ => ⟨0, 0⟩) r

/-- The disk after the first complete persisting. -/
def persisted : Disk FileText := (persist registry).complete apply fun _ => none

end Symbolic

end KyberPipe
