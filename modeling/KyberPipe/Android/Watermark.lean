import KyberPipe.Desktop.Watermark

/-!
# Rollback watermarks of the phone

`RatchetWatermarkStore`: the high-water mark that the phone keeps for a peer, and the guard that
compares a snapshot with it at a cold start. Both agree with those of the desktop store.
-/

namespace KyberPipe

namespace WatermarkStore

/-- `dominates`: no counter lies behind. The epochs are not compared. -/
def dominates (a b : Watermark) : Bool :=
  b.ratchetGeneration ≤ a.ratchetGeneration && b.sendMessageCount ≤ a.sendMessageCount &&
    b.recvMessageCount ≤ a.recvMessageCount

/-- `update`: merge a fresh watermark into the recorded one. -/
def update (stored : Option Watermark) (fresh : Watermark) : Watermark :=
  match stored with
  | none => fresh
  | some stored =>
    if stored.pairingEpoch < fresh.pairingEpoch then fresh
    else if fresh.pairingEpoch < stored.pairingEpoch then stored
    else if dominates fresh stored then fresh
    else if dominates stored fresh then stored
    else
      { stored with
        ratchetGeneration := max stored.ratchetGeneration fresh.ratchetGeneration
        sendMessageCount := max stored.sendMessageCount fresh.sendMessageCount
        recvMessageCount := max stored.recvMessageCount fresh.recvMessageCount }

/-- `refuseRollback` -/
def refuseRollback (snapshotWm : Watermark) (recorded : Option Watermark) : Bool :=
  match recorded with
  | none => false
  | some recorded =>
    if snapshotWm.pairingEpoch ≠ recorded.pairingEpoch then
      snapshotWm.pairingEpoch < recorded.pairingEpoch
    else !dominates snapshotWm recorded && snapshotWm ≠ recorded

theorem dominates_eq_true {a b : Watermark} :
    dominates a b = true ↔ b.ratchetGeneration ≤ a.ratchetGeneration ∧
      b.sendMessageCount ≤ a.sendMessageCount ∧ b.recvMessageCount ≤ a.recvMessageCount := by
  simp [dominates, and_assoc]

/-- A watermark of the same epoch that dominates another one lies above it. -/
theorem le_of_dominates {a b : Watermark} (hepoch : b.pairingEpoch = a.pairingEpoch)
    (h : dominates a b = true) : b ≤ a :=
  RatchetWatermark.le_iff.2 (.inr ⟨hepoch, dominates_eq_true.1 h⟩)

theorem update_some (stored fresh : Watermark) : update (some stored) fresh = stored ⊔ fresh := by
  rw [← mergeWatermark_eq_sup]
  simp only [update]
  split_ifs with hnew hold hfresh hstored
  · rw [mergeWatermark, if_pos hnew]
  · rw [mergeWatermark, if_neg hnew, if_pos hold]
  · have hle := le_of_dominates (by omega) hfresh
    rw [mergeWatermark_eq_sup, sup_eq_right.2 hle]
  · have hle := le_of_dominates (by omega) hstored
    rw [mergeWatermark_eq_sup, sup_eq_left.2 hle]
  · rw [mergeWatermark, if_neg hnew, if_neg hold]

/-- An updated mark is the least one above the recorded mark and the fresh one. -/
theorem update_le {stored : Option Watermark} {fresh wm : Watermark} :
    update stored fresh ≤ wm ↔ (∀ mark, stored = some mark → mark ≤ wm) ∧ fresh ≤ wm := by
  cases stored with
  | none => simp [update]
  | some stored => simp [update_some]

/-- A snapshot is accepted exactly if it lies above the recorded mark. -/
theorem refuseRollback_eq_false {snapshotWm : Watermark} {recorded : Option Watermark} :
    refuseRollback snapshotWm recorded = false ↔
      ∀ mark, recorded = some mark → mark ≤ snapshotWm := by
  cases recorded with
  | none => simp [refuseRollback]
  | some mark =>
    simp only [refuseRollback, Option.some.injEq, forall_eq']
    split_ifs with hepoch
    · rw [decide_eq_false_iff_not, RatchetWatermark.le_iff]
      omega
    · rw [not_not] at hepoch
      have hdominates : dominates snapshotWm mark = true ↔ mark ≤ snapshotWm := by
        rw [dominates_eq_true, RatchetWatermark.le_iff]
        omega
      rw [← hdominates, Bool.and_eq_false_iff, Bool.not_eq_false', decide_eq_false_iff_not, not_not]
      constructor
      · rintro (h | rfl)
        · exact h
        · exact hdominates.2 le_rfl
      · exact .inl

end WatermarkStore

end KyberPipe
