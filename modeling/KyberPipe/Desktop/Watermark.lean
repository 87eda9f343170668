import Mathlib.Order.Lattice
import KyberPipe.Ratchet.Registry

/-!
# Rollback watermarks

The high-water marks of `ratchet_store.rs`. Watermarks are ordered by pairing epoch first and
component-wise within an epoch. In this order `merge_watermark` is the join, a snapshot is a
rollback if it does not lie above the mark, and a fresh mark advances the recorded one if it
does not lie below it.
-/

namespace KyberPipe

/-- The high-water mark of a peer. -/
abbrev Watermark := RatchetWatermark

namespace RatchetWatermark

/-- A watermark as a point of the order: the epoch, then the three counters each for itself. -/
def key (w : RatchetWatermark) : ℕ ×ₗ (ℕ × ℕ × ℕ) :=
  toLex (w.pairingEpoch, w.ratchetGeneration, w.sendMessageCount, w.recvMessageCount)

theorem key_injective : Function.Injective key := by
  intro a b h
  obtain ⟨hepoch, hgen, hsend, hrecv⟩ : a.pairingEpoch = b.pairingEpoch ∧
      a.ratchetGeneration = b.ratchetGeneration ∧ a.sendMessageCount = b.sendMessageCount ∧
      a.recvMessageCount = b.recvMessageCount := by
    simpa [key] using h
  cases a
  cases b
  simp_all

instance : PartialOrder RatchetWatermark := PartialOrder.lift key key_injective

theorem le_iff {a b : RatchetWatermark} :
    a ≤ b ↔ a.pairingEpoch < b.pairingEpoch ∨ a.pairingEpoch = b.pairingEpoch ∧
      a.ratchetGeneration ≤ b.ratchetGeneration ∧ a.sendMessageCount ≤ b.sendMessageCount ∧
      a.recvMessageCount ≤ b.recvMessageCount :=
  Prod.Lex.toLex_le_toLex

end RatchetWatermark

variable (high fresh : Watermark)

/-- Merge a fresh watermark into a high-water mark. A newer epoch replaces the mark, an older
one is ignored, and within an epoch every component keeps its maximum. -/
def mergeWatermark : Watermark :=
  if high.pairingEpoch < fresh.pairingEpoch then fresh
  else if fresh.pairingEpoch < high.pairingEpoch then high
  else
    { high with
      ratchetGeneration := max high.ratchetGeneration fresh.ratchetGeneration
      sendMessageCount := max high.sendMessageCount fresh.sendMessageCount
      recvMessageCount := max high.recvMessageCount fresh.recvMessageCount }

/-- Whether a snapshot is older than the high-water mark in its epoch or in any component. -/
def isRollback (snap high : Watermark) : Bool :=
  if snap.pairingEpoch < high.pairingEpoch then true
  else if high.pairingEpoch < snap.pairingEpoch then false
  else
    snap.ratchetGeneration < high.ratchetGeneration ||
      snap.sendMessageCount < high.sendMessageCount ||
      snap.recvMessageCount < high.recvMessageCount

/-- Whether a fresh watermark moves the high-water mark. -/
def advances : Bool :=
  if high.pairingEpoch < fresh.pairingEpoch then true
  else if fresh.pairingEpoch < high.pairingEpoch then false
  else
    high.ratchetGeneration < fresh.ratchetGeneration ||
      high.sendMessageCount < fresh.sendMessageCount ||
      high.recvMessageCount < fresh.recvMessageCount

namespace RatchetWatermark

theorem le_mergeWatermark_left : high ≤ mergeWatermark high fresh := by
  unfold mergeWatermark
  split_ifs with h h'
  · exact le_iff.2 (.inl h)
  · exact le_rfl
  · exact le_iff.2 (.inr ⟨rfl, le_max_left _ _, le_max_left _ _, le_max_left _ _⟩)

theorem le_mergeWatermark_right : fresh ≤ mergeWatermark high fresh := by
  unfold mergeWatermark
  split_ifs with h h'
  · exact le_rfl
  · exact le_iff.2 (.inl h')
  · exact le_iff.2 (.inr ⟨by dsimp only; omega, le_max_right _ _, le_max_right _ _,
      le_max_right _ _⟩)

theorem mergeWatermark_le {high fresh w : Watermark} (hhigh : high ≤ w) (hfresh : fresh ≤ w) :
    mergeWatermark high fresh ≤ w := by
  unfold mergeWatermark
  split_ifs with h h'
  · exact hfresh
  · exact hhigh
  · rw [le_iff] at *
    dsimp only
    omega

/-- Merging is the join of the order. -/
instance : SemilatticeSup RatchetWatermark where
  sup := mergeWatermark
  le_sup_left := le_mergeWatermark_left
  le_sup_right := le_mergeWatermark_right
  sup_le _ _ _ := mergeWatermark_le

instance : OrderBot RatchetWatermark where
  bot := ⟨0, 0, 0, 0⟩
  bot_le w := by
    rw [le_iff]
    dsimp only
    omega

end RatchetWatermark

theorem mergeWatermark_eq_sup : mergeWatermark high fresh = high ⊔ fresh :=
  rfl

/-- A snapshot is refused unless it lies above the high-water mark. -/
theorem isRollback_eq_false {snap high : Watermark} :
    isRollback snap high = false ↔ high ≤ snap := by
  rw [RatchetWatermark.le_iff]
  unfold isRollback
  split_ifs <;> simp <;> omega

/-- A mark that does not advance lies below the recorded one. -/
theorem advances_eq_false {high fresh : Watermark} :
    advances high fresh = false ↔ fresh ≤ high := by
  rw [RatchetWatermark.le_iff]
  unfold advances
  split_ifs <;> simp <;> omega

end KyberPipe
