import Mathlib.Order.Interval.Finset.Nat
import KyberPipe.Ratchet.Rekey

/-!
# Skip keys and resynchronisation

Chain advancement with the collection of skipped message keys, pruning of the cache, and the
forward resynchronisation of `resync.rs`.
-/

namespace KyberPipe

/-- `SYNC_MAX_GAP` -/
def syncMaxGap : ℕ := 1000

/-- `SYNC_MAX_CUMULATIVE` -/
def syncMaxCumulative : ℕ := 20000

variable {K C : Type} (P : Primitives K C)

/-- Derive the message keys of the positions `base, ..., base + n - 1` of a generation. -/
def deriveSkipKeys (chainKey : K) (base generation n : ℕ) : K × SkipKeyMap K :=
  P.chain.collect (fun i => (generation, base + i)) chainKey n

/-- Advance a receiving chain past `targetSeq`: the chain key of the next position and the
keys skipped on the way. -/
def advanceReceivingChain (chainKey : K) (baseSeq targetSeq generation maxSkip : ℕ) :
    Except KyberError (K × SkipKeyMap K) :=
  if maxSkip < targetSeq - baseSeq then
    let diff := targetSeq - baseSeq
    .error (.sessionDesynchronized s!"Sequence gap {diff} exceeds max_skip {maxSkip}")
  else
    let skipped := deriveSkipKeys P chainKey baseSeq generation (targetSeq - baseSeq)
    .ok (P.chain.step skipped.1, skipped.2)

/-- The message key at `targetSeq` of a chain whose key is at position `count`. -/
def deriveTentativeMsgKey (chainKey : K) (count targetSeq maxSkip : ℕ) : Except KyberError K :=
  if maxSkip < targetSeq - count then
    let diff := targetSeq - count
    .error (.cryptoError s!"Tentative derivation gap {diff} exceeds max_skip {maxSkip}")
  else .ok (P.chain.keyAt chainKey (targetSeq - count))

/-- Keep the keys of the current and the previous generation, then remove the oldest keys
until the cache fits its budget. -/
def pruneSkipKeys (store : SkipKeyMap K) (currentGen budget : ℕ) : SkipKeyMap K :=
  (store.retain fun e => e.1 = currentGen || (0 < currentGen && e.1 = currentGen - 1)).evictTo
    toLex budget

/-- Try the cached key of a position. It is removed only after it has authenticated the message; one
that does not is an error. -/
def tryDecryptWithCachedKey (store : SkipKeyMap K) (nonceGen seq : ℕ) (nonce : Nonce)
    (ciphertext : C) (aad : Bytes) : Except KyberError (Option (Bytes × SkipKeyMap K)) :=
  match store.lookup (nonceGen, seq) with
  | none => .ok none
  | some key =>
    match decryptChacha20 P key nonce ciphertext aad with
    | .ok plaintext => .ok (some (plaintext, store.erase (nonceGen, seq)))
    | .error e => .error e

/-- Store newly skipped keys and prune the cache. -/
def DoubleRatchetState.cacheSkipKeys (s : DoubleRatchetState K C) (skipped : SkipKeyMap K) :
    DoubleRatchetState K C :=
  { s with
    skipMessageKeys :=
      pruneSkipKeys (skipped ∪ s.skipMessageKeys) s.ratchetGeneration (s.maxSkip * 2) }

namespace DoubleRatchetState

variable (s : DoubleRatchetState K C)

/-- The receiving chain moved forward to `targetSeq`, with every key on the way cached. -/
def moveReceivingChain (targetSeq : ℕ) : DoubleRatchetState K C :=
  let gap := targetSeq - s.recv.messageCount
  let skipped := deriveSkipKeys P s.recv.key s.recv.messageCount s.ratchetGeneration gap
  let s :=
    { s with
      recv := ⟨skipped.1, targetSeq⟩
      resyncForwardTotal := s.resyncForwardTotal + gap }
  s.cacheSkipKeys skipped.2

/-- Move the receiving chain forward to `targetSeq` within the gap and the lifetime budget. -/
def resyncForward (targetSeq : ℕ) : Except KyberError ℕ × DoubleRatchetState K C :=
  let cur := s.recv.messageCount
  let gap := targetSeq - cur
  if targetSeq ≤ cur then
    (.error (.cryptoError s!"Stale Synchronize target {targetSeq} (already at {cur})"), s)
  else if syncMaxGap < gap then
    (.error (.cryptoError
      s!"Synchronize gap {gap} exceeds maximum {syncMaxGap} — session must be re-paired"), s)
  else if syncMaxCumulative < s.resyncForwardTotal + gap then
    let total := s.resyncForwardTotal
    (.error (.cryptoError
      s!"Synchronize budget exhausted (cumulative {total} + gap {gap} > {syncMaxCumulative}) — session must be re-paired"),
      s)
  else (.ok gap, s.moveReceivingChain P targetSeq)

/-- Resynchronise the receiving chain to `targetSeq`. A fresh proposal in either slot refuses
the move, a stale one is evicted first. -/
def resyncReceivingChain (targetSeq : ℕ) (now : Clock) :
    Except KyberError ℕ × DoubleRatchetState K C :=
  let incomingPending :=
    s.incomingProposal.rootKey.isSome || s.incomingProposal.receivingChainKey.isSome
  if incomingPending && !s.incomingProposal.isStale now then
    (.error (.cryptoError
      "Synchronize refused: a fresh unconsumed rekey proposal is pending — resolve it first"), s)
  else
    let s := if incomingPending then s.cancelPendingIncomingRekey else s
    let outgoingPending :=
      s.outgoingProposal.rootKey.isSome || s.outgoingProposal.sendingChainKey.isSome
    if outgoingPending && !outgoingProposalIsStale s.rekeyPendingConfirmQueue now then
      (.error (.cryptoError
        "Synchronize refused: a fresh unconsumed outgoing rekey proposal is pending — resolve it first"),
        s)
    else
      let s := if outgoingPending then s.cancelOutgoingRekey else s
      s.resyncForward P targetSeq

end DoubleRatchetState

/-! ## Cache lookups -/

variable {P}
variable {currentGen budget : ℕ}
variable {store : SkipKeyMap K} {e : ℕ × ℕ}

theorem lookup_of_lookup_pruneSkipKeys {key : K}
    (h : (pruneSkipKeys store currentGen budget).lookup e = some key) :
    store.lookup e = some key := by
  have hretained := AList.lookup_of_lookup_evictTo toLex h
  exact (AList.lookup_of_lookup_retain hretained).2

/-- A pruned cache keeps its budget. -/
theorem size_pruneSkipKeys_le (store : SkipKeyMap K) (currentGen budget : ℕ) :
    (pruneSkipKeys store currentGen budget).size ≤ budget :=
  AList.size_evictTo_le toLex budget _

/-- A pruned cache has keys of the current and the previous generation only. -/
theorem generation_of_mem_pruneSkipKeys (h : e ∈ pruneSkipKeys store currentGen budget) :
    e.1 = currentGen ∨ e.1 + 1 = currentGen := by
  obtain ⟨key, hkey⟩ := Option.isSome_iff_exists.1 (AList.lookup_isSome.2 h)
  have hretained := (AList.lookup_of_lookup_retain (AList.lookup_of_lookup_evictTo toLex hkey)).1
  simp only [Bool.or_eq_true, decide_eq_true_eq, Bool.and_eq_true] at hretained
  omega

/-- Pruning takes the keys of the current and the previous generation and removes the smallest while
there are more than the budget. What is left has its values, is as much as the budget allows, and
ranks above all that was removed. -/
theorem prune_keeps_newest_keys (store : SkipKeyMap K) (currentGen budget : ℕ) :
    let p : ℕ × ℕ → Prop := fun e => e.1 = currentGen ∨ e.1 + 1 = currentGen
    let fresh := store.keys.filter fun e => p e
    let pruned := pruneSkipKeys store currentGen budget
    pruned.size = min budget fresh.length ∧
      (∀ e ∈ pruned, e ∈ fresh ∧ pruned.lookup e = store.lookup e) ∧
      (∀ e ∈ fresh, e ∉ pruned → ∀ e' ∈ pruned, toLex e < toLex e') ∧
      ∃ (kept : SkipKeyMap K) (rounds : ℕ), kept.keys = fresh ∧
        pruned = (AList.eraseMin toLex)^[rounds] kept ∧
        ∀ n, budget < ((AList.eraseMin toLex)^[n] kept).size ↔ n < rounds := by
  intro p fresh pruned
  let kept := store.retain fun e => e.1 = currentGen || (0 < currentGen && e.1 = currentGen - 1)
  have hkeys : kept.keys = fresh := by
    have hp : ∀ e : ℕ × ℕ, (e.1 = currentGen || (0 < currentGen && e.1 = currentGen - 1)) =
        decide (p e) := fun e => by
      rw [Bool.eq_iff_iff]
      simp only [Bool.or_eq_true, Bool.and_eq_true, decide_eq_true_eq, p]
      omega
    simp only [kept, fresh, AList.keys, AList.retain, List.keys, List.filter_map, hp]
    rfl
  have hlen : kept.size = fresh.length := by
    rw [← hkeys]
    simp [AList.size, AList.keys, List.keys]
  have hpruned : pruned = (AList.eraseMin toLex)^[kept.size - budget] kept := rfl
  have hsize := AList.size_iterate_eraseMin (toLex : ℕ × ℕ → _) (kept.size - budget) kept
  refine ⟨?_, fun e he => ?_, fun e he hgone e' he' => ?_, kept, kept.size - budget, hkeys, hpruned,
    fun n => ?_⟩
  · rw [hpruned, hsize, ← hlen]
    omega
  · obtain ⟨key, hkey⟩ := Option.isSome_iff_exists.1 (AList.lookup_isSome.2 he)
    refine ⟨?_, by rw [hkey, lookup_of_lookup_pruneSkipKeys hkey]⟩
    rw [← hkeys]
    exact AList.mem_keys.1 (AList.mem_of_mem_iterate_eraseMin toLex (hpruned ▸ he))
  · rw [← hkeys, ← AList.mem_keys] at he
    rw [hpruned] at hgone he'
    exact AList.rank_lt_of_mem_iterate_eraseMin toLex toLex.injective he hgone he'
  · rw [AList.size_iterate_eraseMin]
    omega

/-- Within the budget, pruning keeps every key of the current and the previous generation. -/
theorem lookup_pruneSkipKeys_of_size_le (hsize : store.size ≤ budget)
    (he : e.1 = currentGen ∨ e.1 + 1 = currentGen) :
    (pruneSkipKeys store currentGen budget).lookup e = store.lookup e := by
  have hretained : (store.retain fun e =>
      e.1 = currentGen || (0 < currentGen && e.1 = currentGen - 1)).size ≤ budget :=
    (AList.size_retain_le _ _).trans hsize
  rw [pruneSkipKeys, AList.evictTo_of_size_le toLex hretained]
  apply AList.lookup_retain_of_pos
  rcases he with he | he
  · simp [he]
  · simp only [Bool.or_eq_true, decide_eq_true_eq, Bool.and_eq_true]
    omega

/-- Within the budget, storing new keys finds a new key or else the old one. -/
theorem lookup_pruneSkipKeys_union {skipped store : SkipKeyMap K}
    (hsize : store.size + skipped.size ≤ budget) (he : e.1 = currentGen ∨ e.1 + 1 = currentGen) :
    (pruneSkipKeys (skipped ∪ store) currentGen budget).lookup e =
      (skipped.lookup e).or (store.lookup e) := by
  rw [lookup_pruneSkipKeys_of_size_le _ he, AList.lookup_union]
  refine (AList.size_union_le skipped store).trans ?_
  rwa [Nat.add_comm]

/-- Pruning keeps the last keys of the current generation: those from `floor` on, if all keys of
the generation are below `top` and the budget covers the positions in between. -/
theorem lookup_pruneSkipKeys_of_recent {currentGen budget floor top : ℕ}
    (hstore : ∀ i, (currentGen, i) ∈ store → i < top) (hbudget : top - floor ≤ budget) {i : ℕ}
    (hi : floor ≤ i) :
    (pruneSkipKeys store currentGen budget).lookup (currentGen, i) =
      store.lookup (currentGen, i) := by
  let p : ℕ × ℕ → Bool := fun e => e.1 = currentGen || (0 < currentGen && e.1 = currentGen - 1)
  have hfew : ((store.retain p).keysFrom toLex (currentGen, i)).length ≤ budget := by
    have hnodup : ((store.retain p).keysFrom toLex (currentGen, i)).Nodup :=
      List.Nodup.filter _ (AList.keys_nodup _)
    -- a key that ranks from `(currentGen, i)` on is one of the positions below `top`
    have hsub : ((store.retain p).keysFrom toLex (currentGen, i)).toFinset ⊆
        (Finset.Ico i top).image (Prod.mk currentGen) := by
      rintro ⟨g, j⟩ he
      obtain ⟨hmem, hrank⟩ := List.mem_filter.1 (List.mem_toFinset.1 he)
      obtain ⟨key, hkey⟩ :=
        Option.isSome_iff_exists.1 (AList.lookup_isSome.2 (AList.mem_keys.2 hmem))
      obtain ⟨hp, hold⟩ := AList.lookup_of_lookup_retain hkey
      obtain ⟨hgen, hpos⟩ := Prod.Lex.toLex_le_toLex'.1 (of_decide_eq_true hrank)
      obtain rfl : currentGen = g := by
        simp only [p, Bool.or_eq_true, Bool.and_eq_true, decide_eq_true_eq] at hp
        dsimp only at hgen
        omega
      have hlt := hstore j (AList.lookup_isSome.1 (by rw [hold]; rfl))
      exact Finset.mem_image.2 ⟨j, Finset.mem_Ico.2 ⟨hpos rfl, hlt⟩, rfl⟩
    have hcard := (Finset.card_le_card hsub).trans Finset.card_image_le
    rw [List.toFinset_card_of_nodup hnodup, Nat.card_Ico] at hcard
    omega
  rw [pruneSkipKeys, AList.lookup_evictTo_of_keysFrom_le toLex hfew]
  apply AList.lookup_retain_of_pos
  simp [p]

/-- A cached key was cached before or is one of the newly skipped ones. -/
theorem lookup_of_lookup_cacheSkipKeys {s : DoubleRatchetState K C} {skipped : SkipKeyMap K}
    {key : K} (h : (s.cacheSkipKeys skipped).skipMessageKeys.lookup e = some key) :
    s.skipMessageKeys.lookup e = some key ∨ skipped.lookup e = some key := by
  have hunion := lookup_of_lookup_pruneSkipKeys h
  rw [AList.lookup_union] at hunion
  cases hskip : skipped.lookup e with
  | none =>
    rw [hskip, Option.none_or] at hunion
    exact .inl hunion
  | some key' =>
    rw [hskip, Option.some_or] at hunion
    exact .inr hunion

theorem labelInjective (generation base : ℕ) :
    Function.Injective fun i : ℕ => (generation, base + i) := by
  intro i j h
  exact Nat.add_left_cancel (Prod.mk.inj h).2

@[simp]
theorem deriveSkipKeys_fst (chainKey : K) (base generation n : ℕ) :
    (deriveSkipKeys P chainKey base generation n).1 = P.chain.stateAt chainKey n :=
  P.chain.collect_fst _ _ n

variable {base generation n : ℕ} {chainKey key : K}

/-- A skipped key belongs to the position it is stored under. -/
theorem exists_of_lookup_deriveSkipKeys
    (h : (deriveSkipKeys P chainKey base generation n).2.lookup e = some key) :
    ∃ j < n, e = (generation, base + j) ∧ key = P.chain.keyAt chainKey j :=
  P.chain.exists_of_lookup_collect _ _ h

/-- After the skipped keys of a walk are stored, the cache has old keys and those of the skipped
positions. -/
theorem lookup_cacheSkipKeys_cases {s : DoubleRatchetState K C}
    (h : (s.cacheSkipKeys (deriveSkipKeys P chainKey base generation n).2).skipMessageKeys.lookup
      e = some key) :
    s.skipMessageKeys.lookup e = some key ∨
      ∃ j < n, e = (generation, base + j) ∧ key = P.chain.keyAt chainKey j :=
  (lookup_of_lookup_cacheSkipKeys h).imp_right exists_of_lookup_deriveSkipKeys

theorem lookup_of_cacheSkipKeys_ne {s : DoubleRatchetState K C} (hne : e.1 ≠ generation)
    (h : (s.cacheSkipKeys (deriveSkipKeys P chainKey base generation n).2).skipMessageKeys.lookup
      e = some key) : s.skipMessageKeys.lookup e = some key := by
  rcases lookup_cacheSkipKeys_cases h with hold | ⟨j, _, rfl, _⟩
  · exact hold
  · exact absurd rfl hne

theorem lookup_deriveSkipKeys {chainKey : K} {base generation n j : ℕ} (hj : j < n) :
    (deriveSkipKeys P chainKey base generation n).2.lookup (generation, base + j) =
      some (P.chain.keyAt chainKey j) :=
  P.chain.lookup_collect_of_lt _ _ (labelInjective generation base) hj

theorem size_deriveSkipKeys_le (chainKey : K) (base generation n : ℕ) :
    (deriveSkipKeys P chainKey base generation n).2.size ≤ n :=
  P.chain.size_collect_le _ _ n

/-- Positions below the base are not among the skipped ones. -/
theorem lookup_deriveSkipKeys_of_lt {chainKey : K} {base generation n i : ℕ} (hi : i < base) :
    (deriveSkipKeys P chainKey base generation n).2.lookup (generation, i) = none := by
  rw [Option.eq_none_iff_forall_ne_some]
  intro key hlookup
  obtain ⟨j, _, he, _⟩ := exists_of_lookup_deriveSkipKeys hlookup
  have := (Prod.mk.inj he).2
  omega

/-! ## What a resynchronisation can do -/

namespace DoubleRatchetState

/-- A session whose stale proposals may have been evicted. -/
inductive Evicts (s : DoubleRatchetState K C) : DoubleRatchetState K C → Prop
  | none : Evicts s s
  | incoming : Evicts s s.cancelPendingIncomingRekey
  | outgoing : Evicts s s.cancelOutgoingRekey
  | both : Evicts s s.cancelPendingIncomingRekey.cancelOutgoingRekey

theorem resyncForward_cases (P : Primitives K C) (s : DoubleRatchetState K C) (targetSeq : ℕ) :
    (∃ e, s.resyncForward P targetSeq = (.error e, s)) ∨
      s.recv.messageCount < targetSeq ∧
        s.resyncForward P targetSeq =
          (.ok (targetSeq - s.recv.messageCount), s.moveReceivingChain P targetSeq) := by
  unfold resyncForward
  dsimp only
  split_ifs with hstale hgap htotal
  · exact .inl ⟨_, rfl⟩
  · exact .inl ⟨_, rfl⟩
  · exact .inl ⟨_, rfl⟩
  · exact .inr ⟨Nat.lt_of_not_le hstale, rfl⟩

/-- A resynchronisation that moves the chain keeps to both budgets. -/
theorem resyncForward_ok {P : Primitives K C} {s t : DoubleRatchetState K C} {targetSeq gap : ℕ}
    (h : s.resyncForward P targetSeq = (.ok gap, t)) :
    gap = targetSeq - s.recv.messageCount ∧ gap ≤ syncMaxGap ∧
      s.resyncForwardTotal + gap ≤ syncMaxCumulative ∧ t = s.moveReceivingChain P targetSeq := by
  unfold resyncForward at h
  dsimp only at h
  split_ifs at h with hstale hgap htotal
  · cases h
  · cases h
  · cases h
  · obtain ⟨hok, rfl⟩ := Prod.mk.inj h
    obtain rfl := Except.ok.inj hok
    exact ⟨rfl, Nat.le_of_not_lt hgap, Nat.le_of_not_lt htotal, rfl⟩

section

variable (P : Primitives K C)

/-- A resynchronisation evicts stale proposals and then fails or tries to move the chain. -/
theorem exists_resyncForward (s : DoubleRatchetState K C) (targetSeq : ℕ) (now : Clock) :
    ∃ t, Evicts s t ∧
      ((∃ e, s.resyncReceivingChain P targetSeq now = (.error e, t)) ∨
        s.resyncReceivingChain P targetSeq now = t.resyncForward P targetSeq) := by
  unfold resyncReceivingChain
  dsimp only
  split_ifs
  · exact ⟨s, .none, .inl ⟨_, rfl⟩⟩
  · exact ⟨_, .incoming, .inl ⟨_, rfl⟩⟩
  · exact ⟨_, .both, .inr rfl⟩
  · exact ⟨_, .incoming, .inr rfl⟩
  · exact ⟨_, .none, .inl ⟨_, rfl⟩⟩
  · exact ⟨_, .outgoing, .inr rfl⟩
  · exact ⟨_, .none, .inr rfl⟩

/-- A resynchronisation evicts stale proposals and then fails or moves the chain. -/
theorem resyncReceivingChain_cases (s : DoubleRatchetState K C) (targetSeq : ℕ) (now : Clock) :
    ∃ t, Evicts s t ∧
      ((∃ e, s.resyncReceivingChain P targetSeq now = (.error e, t)) ∨
        t.recv.messageCount < targetSeq ∧ s.resyncReceivingChain P targetSeq now =
            (.ok (targetSeq - t.recv.messageCount), t.moveReceivingChain P targetSeq)) := by
  obtain ⟨t, hevicts, hfailed | hforward⟩ := exists_resyncForward P s targetSeq now
  · exact ⟨t, hevicts, .inl hfailed⟩
  · rw [hforward]
    exact ⟨t, hevicts, resyncForward_cases P t targetSeq⟩

/-- A resynchronisation does nothing to the proposals but evict the stale ones. -/
theorem resyncReceivingChain_slots (s : DoubleRatchetState K C) (targetSeq : ℕ) (now : Clock) :
    ∃ t, Evicts s t ∧
      (s.resyncReceivingChain P targetSeq now).2.incomingProposal = t.incomingProposal ∧
      (s.resyncReceivingChain P targetSeq now).2.outgoingProposal = t.outgoingProposal ∧
      (s.resyncReceivingChain P targetSeq now).2.rekeyPendingConfirmQueue =
        t.rekeyPendingConfirmQueue := by
  obtain ⟨t, hevict, ⟨e, hres⟩ | ⟨_, hres⟩⟩ := resyncReceivingChain_cases P s targetSeq now
  · rw [hres]
    exact ⟨t, hevict, rfl, rfl, rfl⟩
  · rw [hres]
    exact ⟨t, hevict, rfl, rfl, rfl⟩

/-- A resynchronisation touches only the receiving chain with its skipped keys and the budget, and
the slots with the confirm queue. -/
theorem resyncReceivingChain_frame (s : DoubleRatchetState K C) (targetSeq : ℕ) (now : Clock) :
    (s.resyncReceivingChain P targetSeq now).2 =
      { s with
        recv := (s.resyncReceivingChain P targetSeq now).2.recv
        incomingProposal := (s.resyncReceivingChain P targetSeq now).2.incomingProposal
        outgoingProposal := (s.resyncReceivingChain P targetSeq now).2.outgoingProposal
        skipMessageKeys := (s.resyncReceivingChain P targetSeq now).2.skipMessageKeys
        rekeyPendingConfirmQueue :=
          (s.resyncReceivingChain P targetSeq now).2.rekeyPendingConfirmQueue
        resyncForwardTotal := (s.resyncReceivingChain P targetSeq now).2.resyncForwardTotal } := by
  obtain ⟨t, hevict, ⟨e, hres⟩ | ⟨_, hres⟩⟩ := resyncReceivingChain_cases P s targetSeq now
  · rw [hres]
    cases hevict <;> rfl
  · rw [hres]
    cases hevict <;> rfl

end

end DoubleRatchetState

end KyberPipe
