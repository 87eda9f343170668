import KyberPipe.Android.Watermark
import KyberPipe.Desktop.StoreSpec

/-!
# The three rollback guards

The desktop store, the phone's `RatchetWatermarkStore` and the import guard of the registry compare
watermarks each in its own way, and the two stores keep them in their own JSON. Whatever is recorded
for a peer, the mark of both stores is the join of it, and all three guards refuse what does not lie
above the mark.
-/

namespace KyberPipe

open WatermarkStore StorageOp

variable {K C B W T T' : Type}

/-! ## The phone's JSON -/

/-- The JSON object of the phone: by peer the array of its elements, `none` for an element that is
not a number and for a value that is not an array. -/
abbrev PhoneWatermarks := AList fun _ : String => Option (List (Option ℤ))

/-- The JSON texts of the phone. -/
structure PhoneFormat (T : Type) where
  toText : PhoneWatermarks → T
  ofText : T → Option PhoneWatermarks

/-- What is written can be read back. -/
def PhoneFormat.Lawful (G : PhoneFormat T) : Prop := ∀ map, G.ofText (G.toText map) = some map

namespace WatermarkStore

/-- `ULong.toLong`: the two's complement of a 64-bit number. -/
def toLong (n : ℕ) : ℤ := if n < 2 ^ 63 then n else n - 2 ^ 64

/-- `Long.toULong` -/
def toULong (n : ℤ) : ℕ := (n % 2 ^ 64).toNat

/-- `getInt` and `Int.toUInt`: the low 32 bits. -/
def toUInt (n : ℤ) : ℕ := (n % 2 ^ 32).toNat

variable (G : PhoneFormat T)

/-- `parseMap`: a text that does not parse is an empty object. -/
def parseMap (json : T) : PhoneWatermarks := (G.ofText json).getD ∅

/-- The watermark of a JSON array of length four. -/
def ofArray : Option (List (Option ℤ)) → Option Watermark
  | some [some e, some g, some s, some r] => some ⟨toULong e, toUInt g, toULong s, toULong r⟩
  | _ => none

/-- The JSON array of a watermark. -/
def toArray (w : Watermark) : Option (List (Option ℤ)) :=
  some [some (toLong w.pairingEpoch), some (toLong w.ratchetGeneration),
    some (toLong w.sendMessageCount), some (toLong w.recvMessageCount)]

/-- `read`: the recorded mark of a peer. -/
def read (json : T) (peer : String) : Option Watermark :=
  if peer = "" then none else ((parseMap G json).lookup peer).bind ofArray

/-- `update` on the settings of the phone: the mark that is stored, and the new text. -/
def record (json : T) (peer : String) (fresh : Option Watermark) : Option Watermark × T :=
  if peer = "" then (none, json)
  else
    match fresh with
    | none => (none, json)
    | some fresh =>
      let effective := update (read G json peer) fresh
      (some effective, G.toText ((parseMap G json).insert peer (toArray effective)))

/-- The text of the phone after a sequence of updates. -/
def recordAll (json : T) (peer : String) (wms : List Watermark) : T :=
  wms.foldl (fun json wm => (record G json peer (some wm)).2) json

end WatermarkStore

/-- Watermarks whose numbers fit into the signed types of the phone. -/
def RatchetWatermark.Fits (w : Watermark) : Prop :=
  w.pairingEpoch < 2 ^ 63 ∧ w.ratchetGeneration < 2 ^ 31 ∧ w.sendMessageCount < 2 ^ 63 ∧
    w.recvMessageCount < 2 ^ 63

instance (w : Watermark) : Decidable w.Fits :=
  inferInstanceAs (Decidable (_ ∧ _ ∧ _ ∧ _))

theorem RatchetWatermark.Fits.sup {a b : Watermark} (ha : a.Fits) (hb : b.Fits) : (a ⊔ b).Fits := by
  rw [← mergeWatermark_eq_sup]
  unfold mergeWatermark
  split_ifs
  · exact hb
  · exact ha
  · exact ⟨ha.1, max_lt ha.2.1 hb.2.1, max_lt ha.2.2.1 hb.2.2.1, max_lt ha.2.2.2 hb.2.2.2⟩

namespace WatermarkStore

theorem toULong_toLong {n : ℕ} (h : n < 2 ^ 63) : toULong (toLong n) = n := by
  rw [toLong, if_pos h, toULong]
  omega

theorem toUInt_toLong {n : ℕ} (h : n < 2 ^ 31) : toUInt (toLong n) = n := by
  rw [toLong, if_pos (by omega), toUInt]
  omega

theorem ofArray_toArray {w : Watermark} (h : w.Fits) : ofArray (toArray w) = some w := by
  simp only [toArray, ofArray, toULong_toLong h.1, toUInt_toLong h.2.1, toULong_toLong h.2.2.1,
    toULong_toLong h.2.2.2]

/-- An update of the phone records the join. -/
theorem read_record {G : PhoneFormat T} (lawful : G.Lawful) {json : T} {peer : String}
    (hpeer : peer ≠ "") {wm : Watermark} (hfits : ((read G json peer).getD ⊥ ⊔ wm).Fits) :
    read G (record G json peer (some wm)).2 peer = some ((read G json peer).getD ⊥ ⊔ wm) := by
  have heffective : update (read G json peer) wm = (read G json peer).getD ⊥ ⊔ wm := by
    cases hread : read G json peer with
    | none => simp [update]
    | some mark => simp [update_some]
  generalize hmark : (read G json peer).getD ⊥ ⊔ wm = mark at hfits heffective
  simp only [record, if_neg hpeer, heffective]
  rw [read, if_neg hpeer, parseMap, lawful, Option.getD_some, AList.lookup_insert, Option.bind_some]
  exact ofArray_toArray hfits

end WatermarkStore

/-! ## The desktop's tiers -/

namespace StoreFormat

variable (F : StoreFormat K B W T)

/-- What persisting does with the watermark of one session. -/
def recordWatermark (peer : String) (wm : Watermark) : DiskScript T :=
  .inspect fun d => F.saveWatermarks
    ((F.loadWatermarks d).upsert peer fun high => some (mergeWatermark (high.getD ⊥) wm))

/-- The disk after a sequence of watermarks was recorded. -/
def recordAll (peer : String) (wms : List Watermark) (d : Disk T) : Disk T :=
  wms.foldl (fun d wm => (F.recordWatermark peer wm).complete apply d) d

theorem lookup_loadWatermarks_isSome {d : Disk T} {peer : String}
    (h : ((F.tier d .keyring).lookup peer).isSome) :
    ((F.loadWatermarks d).lookup peer).isSome := by
  rw [loadWatermarks, lookup_mergeTier, lookup_mergeTier]
  obtain ⟨wm, hwm⟩ := Option.isSome_iff_exists.1 h
  simp [hwm]

theorem lookup_saveWatermarks_isSome {F : StoreFormat K B W T} (lawful : F.Lawful)
    {wms : WatermarkMap} {peer : String} {wm : Watermark} (hwm : wms.lookup peer = some wm)
    (hgen : wm.ratchetGeneration < 2 ^ 32) (d : Disk T) :
    ((F.loadWatermarks ((F.saveWatermarks wms).complete apply d)).lookup
      peer).isSome := by
  have hmem := AList.mem_lookup_iff.1 hwm
  unfold saveWatermarks
  split_ifs with hempty
  · rw [List.isEmpty_iff.1 hempty] at hmem
    cases hmem
  · simp only [Script.complete]
    split_ifs with hall
    · -- nothing moves, so the peer already has a mark
      have hany := List.all_eq_true.1 hall _ hmem
      exact ((Option.any_eq_true_iff_get _ _).1 hany).1
    · obtain ⟨obj, hobj, hlookup⟩ := lawful.watermarksOfText_toText
        (AList.upsertFrom ∅ wms fun _ wm _ => some (watermarkToJson wm))
      apply lookup_loadWatermarks_isSome
      simp [Script.complete, apply, StoreFormat.tier, hobj, lookup_parseWatermarkMap, hlookup,
        AList.lookup_upsertFrom, hwm, parseWatermark_watermarkToJson hgen]

/-- The desktop records the join. -/
theorem lookup_recordWatermark {F : StoreFormat K B W T} (lawful : F.Lawful) (d : Disk T)
    (peer : String) {wm : Watermark} (hgen : wm.ratchetGeneration < 2 ^ 32) :
    (F.loadWatermarks ((F.recordWatermark peer wm).complete apply d)).lookup peer =
      some (((F.loadWatermarks d).lookup peer).getD ⊥ ⊔ wm) := by
  let fresh := (F.loadWatermarks d).upsert peer fun high =>
    some (mergeWatermark (high.getD ⊥) wm)
  have hself : fresh.lookup peer = some (((F.loadWatermarks d).lookup peer).getD ⊥ ⊔ wm) :=
    AList.lookup_upsert_self ..
  have hother : ∀ q, q ≠ peer → fresh.lookup q = (F.loadWatermarks d).lookup q := fun q hq =>
    AList.lookup_upsert_ne hq _ _
  have hgens : ∀ q w, fresh.lookup q = some w → w.ratchetGeneration < 2 ^ 32 := by
    intro q w hw
    have hhigh := F.highWater_generation_lt d q
    by_cases hq : q = peer
    · subst hq
      rw [hself] at hw
      rw [← Option.some.inj hw]
      exact mergeWatermark_generation_lt hhigh hgen
    · rw [hother q hq] at hw
      rwa [highWater, hw] at hhigh
  have hle : ∀ q, F.highWater d q ≤ (fresh.lookup q).getD ⊥ := by
    intro q
    by_cases hq : q = peer
    · subst hq
      rw [hself]
      exact le_sup_left
    · rw [hother q hq]
      exact le_rfl
  -- the mark is there, and its value is the saved one
  obtain ⟨mark, hmark⟩ := Option.isSome_iff_exists.1
    (lookup_saveWatermarks_isSome lawful hself (hgens peer _ hself) d)
  have hhigh := highWater_saveWatermarks lawful hgens hle peer
  rw [highWater, hmark, hself, Option.getD_some, Option.getD_some] at hhigh
  show (F.loadWatermarks ((F.saveWatermarks fresh).complete apply d)).lookup peer = _
  rw [hmark, hhigh]

end StoreFormat

/-! ## Agreement -/

/-- From the same mark, the same sequence of watermarks leads to the same mark. -/
theorem records_agree {F : StoreFormat K B W T} (lawful : F.Lawful) {G : PhoneFormat T'}
    (glawful : G.Lawful) {peer : String} (hpeer : peer ≠ "") {wms : List Watermark}
    (hfits : ∀ wm ∈ wms, wm.Fits) {d : Disk T} {json : T'}
    (hsame : (F.loadWatermarks d).lookup peer = read G json peer)
    (hmark : ((F.loadWatermarks d).lookup peer).getD ⊥ |>.Fits) :
    (F.loadWatermarks (F.recordAll peer wms d)).lookup peer =
      read G (recordAll G json peer wms) peer := by
  induction wms generalizing d json with
  | nil => exact hsame
  | cons wm wms ih =>
    rw [List.forall_mem_cons] at hfits
    have hgen : wm.ratchetGeneration < 2 ^ 32 := hfits.1.2.1.trans (by decide)
    have hdesktop := StoreFormat.lookup_recordWatermark lawful d peer hgen
    have hjoin := hmark.sup hfits.1
    have hphone := read_record glawful hpeer (hsame ▸ hjoin)
    refine ih hfits.2 ?_ ?_
    · rw [hdesktop, hphone, hsame]
    · rw [hdesktop]
      exact hjoin

/-- Both stores refuse what does not lie above the mark. -/
theorem isRollback_eq_refuseRollback (cand mark : Watermark) :
    isRollback cand mark = refuseRollback cand (some mark) := by
  rw [Bool.eq_iff_iff, ← not_iff_not, Bool.not_eq_true, Bool.not_eq_true, isRollback_eq_false,
    refuseRollback_eq_false]
  simp

/-- Within an epoch, so does the import guard. -/
theorem refusesImport_eq_isRollback {cand live : Watermark}
    (hepoch : live.pairingEpoch = cand.pairingEpoch) :
    RatchetWatermark.refusesImport (some live) cand = isRollback cand live := by
  rw [Bool.eq_iff_iff, ← not_iff_not, Bool.not_eq_true, Bool.not_eq_true, isRollback_eq_false,
    RatchetWatermark.refusesImport_eq_false, RatchetWatermark.le_iff]
  omega

/-- After any watermarks were recorded for a peer with an id, the desktop and the phone hold the
same mark and refuse the same candidates; and the import guard refuses a candidate of the epoch of
the live session exactly if the stores would against its watermark. -/
theorem rollback_guards_agree {F : StoreFormat K B W T} (lawful : F.Lawful) {G : PhoneFormat T'}
    (glawful : G.Lawful) {peer : String} (hpeer : peer ≠ "") {wms : List Watermark}
    (hfits : ∀ wm ∈ wms, wm.Fits) {d : Disk T} {json : T'}
    (hd : (F.loadWatermarks d).lookup peer = none)
    (hjson : read G json peer = none) :
    let desktop := (F.loadWatermarks (F.recordAll peer wms d)).lookup peer
    let phone := read G (recordAll G json peer wms) peer
    desktop = phone ∧
      (∀ cand, desktop.any (isRollback cand) = refuseRollback cand phone) ∧
      ∀ (r : RatchetRegistry K C) (s : DoubleRatchetState K C) (cand : Watermark),
        r.sessions.lookup peer = some s → s.pairingEpoch = cand.pairingEpoch →
          r.importWatermarkGuard peer cand = isRollback cand (.fromLive s) ∧
          r.importWatermarkGuard peer cand =
            refuseRollback cand (some (.fromLive s)) := by
  intro desktop phone
  have hmark : desktop = phone := by
    refine records_agree lawful glawful hpeer hfits (hd.trans hjson.symm) ?_
    rw [hd]
    exact ⟨by decide, by decide, by decide, by decide⟩
  refine ⟨hmark, fun cand => ?_, fun r s cand hs hepoch => ?_⟩
  · rw [hmark]
    cases phone with
    | none => rfl
    | some mark => exact isRollback_eq_refuseRollback cand mark
  · have hguard : r.importWatermarkGuard peer cand = isRollback cand (.fromLive s) := by
      rw [RatchetRegistry.importWatermarkGuard, RatchetRegistry.ratchetSessionWatermark, hs]
      exact refusesImport_eq_isRollback hepoch
    exact ⟨hguard, hguard.trans (isRollback_eq_refuseRollback _ _)⟩

namespace Symbolic

/-- The phone's texts as the objects themselves. -/
def phoneFormat : PhoneFormat PhoneWatermarks := ⟨id, some⟩

/-- Marks that are ahead of each other in one counter each, and a new epoch. -/
def divergingMarks : List Watermark := [⟨0, 1, 5, 3⟩, ⟨0, 1, 4, 9⟩, ⟨1, 0, 2, 0⟩, ⟨1, 0, 0, 7⟩]

/-- Both stores hold the join of marks of which none lies above the others. -/
theorem rollback_guards_agree_diverging :
    let phone := read phoneFormat
      (recordAll phoneFormat ∅ "phone" divergingMarks) "phone"
    phone = some ⟨1, 0, 2, 7⟩ ∧
      (storeFormat.loadWatermarks (storeFormat.recordAll "phone" divergingMarks
        fun _ => none)).lookup "phone" = phone := by
  intro phone
  have hdesktop : (storeFormat.loadWatermarks fun _ => none).lookup "phone" = none := rfl
  have hphone : read phoneFormat ∅ "phone" = none := rfl
  have hagree := rollback_guards_agree (C := Ciphertext) storeFormat_lawful
    (fun _ => rfl : phoneFormat.Lawful) (by decide : "phone" ≠ "")
    (by decide : ∀ wm ∈ divergingMarks, wm.Fits) hdesktop hphone
  exact ⟨by decide +kernel, hagree.1⟩

end Symbolic

end KyberPipe
