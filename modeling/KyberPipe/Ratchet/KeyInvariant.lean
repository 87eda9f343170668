import KyberPipe.Ratchet.NonceUniqueness
import KyberPipe.Ratchet.Proposals

/-!
# Where the keys of a session come from

Every receiving chain of a session is the chain of one generation, started from the seed that
was installed with that generation. A key in the cache and a key already used is a position of
such a chain below the position the chain has reached, and no used key is in the cache. Hence
a key that opens a message was never used before.
-/

namespace KyberPipe

variable {K C : Type}

/-- The history of the receiving side: the seed and the reached position of each generation's
chain, and the message keys used so far. -/
structure KeyHistory (K : Type) where
  seed : ℕ → K
  pos : ℕ → ℕ
  used : Set K

namespace KeyHistory

variable (h : KeyHistory K)

/-- The history after the chain of generation `g` moved on by `n` positions. -/
def advance (g n : ℕ) : KeyHistory K :=
  { h with pos := Function.update h.pos g (h.pos g + n) }

/-- The history after `key` was used. -/
def use (key : K) : KeyHistory K :=
  { h with used := insert key h.used }

/-- The history after a chain was installed for generation `g`. -/
def install (g : ℕ) (seed : K) : KeyHistory K :=
  { h with
    seed := Function.update h.seed g seed
    pos := Function.update h.pos g 0 }

@[simp]
theorem advance_pos_self (g n : ℕ) : (h.advance g n).pos g = h.pos g + n :=
  Function.update_self ..

theorem advance_pos_of_ne {g g' : ℕ} (hne : g' ≠ g) (n : ℕ) :
    (h.advance g n).pos g' = h.pos g' :=
  Function.update_of_ne hne ..

theorem le_advance_pos (g n g' : ℕ) : h.pos g' ≤ (h.advance g n).pos g' := by
  by_cases hg : g' = g
  · rw [hg, advance_pos_self]
    exact Nat.le_add_right _ _
  · rw [advance_pos_of_ne h hg]

@[simp]
theorem install_seed_self (g : ℕ) (seed : K) :
    (h.install g seed).seed g = seed :=
  Function.update_self ..

theorem install_seed_of_ne {g g' : ℕ} (hne : g' ≠ g) (seed : K) :
    (h.install g seed).seed g' = h.seed g' :=
  Function.update_of_ne hne ..

@[simp]
theorem install_pos_self (g : ℕ) (seed : K) : (h.install g seed).pos g = 0 :=
  Function.update_self ..

theorem install_pos_of_ne {g g' : ℕ} (hne : g' ≠ g) (seed : K) :
    (h.install g seed).pos g' = h.pos g' :=
  Function.update_of_ne hne ..

/-- The seeds installed up to generation `g`. -/
def installed (g : ℕ) : Set K := {k | ∃ i ≤ g, h.seed i = k}

theorem installed_install (g : ℕ) (seed : K) :
    (h.install (g + 1) seed).installed (g + 1) ⊆ insert seed (h.installed g) := by
  rintro k ⟨i, hi, rfl⟩
  by_cases hig : i = g + 1
  · subst hig
    exact .inl (h.install_seed_self _ seed)
  · exact .inr ⟨i, by omega, (h.install_seed_of_ne hig seed).symm⟩

end KeyHistory

namespace DoubleRatchetState

/-- The keys of a session agree with a history. -/
structure KeysFit (P : Primitives K C) (s : DoubleRatchetState K C) (h : KeyHistory K) :
    Prop where
  recv : s.recv.key = P.chain.stateAt (h.seed s.ratchetGeneration) (h.pos s.ratchetGeneration)
  previous : ∀ ck g, s.previousRecvChainKey = some ck → s.previousRecvGen = some g →
    g < s.ratchetGeneration ∧ ck = P.chain.stateAt (h.seed g) (h.pos g)
  isSeed : ∀ g ≤ s.ratchetGeneration, P.chain.IsSeed (h.seed g)
  seed_inj : ∀ g ≤ s.ratchetGeneration, ∀ g' ≤ s.ratchetGeneration, h.seed g = h.seed g' → g = g'
  cache : ∀ e key, s.skipMessageKeys.lookup e = some key → e.1 ≤ s.ratchetGeneration ∧
    key ∉ h.used ∧ ∃ q < h.pos e.1, key = P.chain.keyAt (h.seed e.1) q
  cache_inj : ∀ e e' key, s.skipMessageKeys.lookup e = some key →
    s.skipMessageKeys.lookup e' = some key → e = e'
  used : ∀ key ∈ h.used, ∃ g ≤ s.ratchetGeneration, ∃ q < h.pos g,
    key = P.chain.keyAt (h.seed g) q
  slots : s.SlotsFit P (h.installed s.ratchetGeneration)

variable {P : Primitives K C} {s s' : DoubleRatchetState K C} {h : KeyHistory K}

theorem KeysFit.of_receive_eq (hfit : s.KeysFit P h) (hrecv : s'.recv.key = s.recv.key)
    (hgen : s'.ratchetGeneration = s.ratchetGeneration)
    (hprevKey : s'.previousRecvChainKey = s.previousRecvChainKey)
    (hprevGen : s'.previousRecvGen = s.previousRecvGen)
    (hcache : s'.skipMessageKeys = s.skipMessageKeys)
    (hslots : s'.SlotsFit P (h.installed s.ratchetGeneration)) : s'.KeysFit P h where
  recv := by rw [hrecv, hgen, hfit.recv]
  previous := by
    rw [hgen, hprevKey, hprevGen]
    exact hfit.previous
  isSeed := hgen ▸ hfit.isSeed
  seed_inj := hgen ▸ hfit.seed_inj
  cache := by
    rw [hgen, hcache]
    exact hfit.cache
  cache_inj := by
    rw [hcache]
    exact hfit.cache_inj
  used := hgen ▸ hfit.used
  slots := hgen ▸ hslots

section Ideal

variable (ideal : P.Ideal)
include ideal

/-- A key at or above the reached position of its chain was never used. -/
theorem KeysFit.keyAt_not_used (hfit : s.KeysFit P h) {g q : ℕ} (hg : g ≤ s.ratchetGeneration)
    (hq : h.pos g ≤ q) : P.chain.keyAt (h.seed g) q ∉ h.used := by
  intro hmem
  obtain ⟨g', hg', q', hq', hkey⟩ := hfit.used _ hmem
  obtain ⟨hseed, rfl⟩ := ideal.keyAt_inj (hfit.isSeed g hg) (hfit.isSeed g' hg') hkey
  obtain rfl := hfit.seed_inj g hg g' hg' hseed
  omega

/-- A key at or above the reached position of its chain is not in the cache. -/
theorem KeysFit.keyAt_not_cached (hfit : s.KeysFit P h) {g q : ℕ}
    (hg : g ≤ s.ratchetGeneration) (hq : h.pos g ≤ q) (e : ℕ × ℕ) :
    s.skipMessageKeys.lookup e ≠ some (P.chain.keyAt (h.seed g) q) := by
  intro hlookup
  obtain ⟨he, _, q', hq', hkey⟩ := hfit.cache e _ hlookup
  obtain ⟨hseed, rfl⟩ := ideal.keyAt_inj (hfit.isSeed g hg) (hfit.isSeed e.1 he) hkey
  obtain rfl := hfit.seed_inj g hg e.1 he hseed
  omega

/-- The chain of generation `g` may move on by `n` positions while keys it passed enter the
cache under the generation's label. -/
theorem KeysFit.advance (hfit : s.KeysFit P h) {g n : ℕ} (base : ℕ) (hg : g ≤ s.ratchetGeneration)
    (hrecv : s'.recv.key = P.chain.stateAt (h.seed s.ratchetGeneration)
      ((h.advance g n).pos s.ratchetGeneration))
    (hgen : s'.ratchetGeneration = s.ratchetGeneration)
    (hprev : ∀ ck g', s'.previousRecvChainKey = some ck → s'.previousRecvGen = some g' →
      g' < s.ratchetGeneration ∧ ck = P.chain.stateAt (h.seed g') ((h.advance g n).pos g'))
    (hcache : ∀ e key, s'.skipMessageKeys.lookup e = some key →
      s.skipMessageKeys.lookup e = some key ∨
        ∃ j < n, e = (g, base + j) ∧ key = P.chain.keyAt (h.seed g) (h.pos g + j))
    (hslots : s'.SlotsFit P (h.installed s.ratchetGeneration)) :
    s'.KeysFit P (h.advance g n) where
  recv := by rw [hrecv, hgen]; rfl
  previous := hgen ▸ hprev
  isSeed := hgen ▸ hfit.isSeed
  seed_inj := hgen ▸ hfit.seed_inj
  cache := by
    intro e key hlookup
    rw [hgen]
    rcases hcache e key hlookup with hold | ⟨j, hj, rfl, rfl⟩
    · obtain ⟨he, hused, q, hq, hkey⟩ := hfit.cache e key hold
      exact ⟨he, hused, q, hq.trans_le (h.le_advance_pos g n e.1), hkey⟩
    · refine ⟨hg, hfit.keyAt_not_used ideal hg (by omega), h.pos g + j, ?_, rfl⟩
      rw [KeyHistory.advance_pos_self]
      omega
  cache_inj := by
    intro e e' key hlookup hlookup'
    rcases hcache e key hlookup with hold | ⟨j, hj, rfl, rfl⟩
    · rcases hcache e' key hlookup' with hold' | ⟨j', hj', rfl, rfl⟩
      · exact hfit.cache_inj e e' key hold hold'
      · exact absurd hold (hfit.keyAt_not_cached ideal hg (by omega) e)
    · rcases hcache e' _ hlookup' with hold' | ⟨j', hj', rfl, hkey⟩
      · exact absurd hold' (hfit.keyAt_not_cached ideal hg (by omega) e')
      · obtain ⟨_, hjj⟩ := ideal.keyAt_inj (hfit.isSeed g hg) (hfit.isSeed g hg) hkey
        rw [show j = j' by omega]
  used := by
    intro key hkey
    obtain ⟨g', hg', q, hq, hkey⟩ := hfit.used key hkey
    exact ⟨g', hgen ▸ hg', q, hq.trans_le (h.le_advance_pos g n g'), hkey⟩
  slots := hgen ▸ hslots

end Ideal

/-- A key that is neither cached nor above the reached position of its chain may be marked as
used. -/
theorem KeysFit.use (hfit : s.KeysFit P h) {g q : ℕ} (hg : g ≤ s.ratchetGeneration)
    (hq : q < h.pos g)
    (hcache : ∀ e, s.skipMessageKeys.lookup e ≠ some (P.chain.keyAt (h.seed g) q)) :
    s.KeysFit P (h.use (P.chain.keyAt (h.seed g) q)) where
  recv := hfit.recv
  previous := hfit.previous
  isSeed := hfit.isSeed
  seed_inj := hfit.seed_inj
  cache := by
    intro e key hlookup
    obtain ⟨he, hused, hpos⟩ := hfit.cache e key hlookup
    refine ⟨he, ?_, hpos⟩
    rintro (rfl | hmem)
    · exact hcache e hlookup
    · exact hused hmem
  cache_inj := hfit.cache_inj
  used := by
    rintro key (rfl | hmem)
    · exact ⟨g, hg, q, hq, rfl⟩
    · exact hfit.used key hmem
  slots := hfit.slots

end DoubleRatchetState

end KyberPipe
