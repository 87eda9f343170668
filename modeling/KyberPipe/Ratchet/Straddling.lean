import KyberPipe.Ratchet.Completeness

/-!
# Messages that straddle a rekey

After a commit from generation `g` the receiver keeps the chain of `g` at the position it had
reached, with a watermark below that position. Messages of `g` that are still on their way are
opened with the cached keys of `g` or with the retained chain, while the next generation goes
on.
-/

namespace KyberPipe

open Symbolic

namespace DoubleRatchetState

variable {K C : Type} {P : Primitives K C} {s s' t : DoubleRatchetState K C} {k : K} {g : ℕ}
variable {c : C} {pt : Bytes} {payload : Option RekeyPayload} {now : Clock}
variable {delivered : Set ℕ}

/-- The receiver has left generation `g`, retains its chain from `k`, and has delivered the
positions in `delivered` of it. -/
structure Retains (P : Primitives K C) (s : DoubleRatchetState K C) (g : ℕ) (k : K)
    (delivered : Set ℕ) : Prop where
  isSeed : P.chain.IsSeed k
  generation_ne : s.ratchetGeneration ≠ u32Max
  lt_generation : g < s.ratchetGeneration
  spent : s.Spent P (Set.image (P.chain.keyAt k) delivered)
  previousGen : s.previousRecvGen = some g
  chain : ∃ anchor, s.previousRecvAnchor = some anchor ∧
    s.previousRecvChainKey = some (P.chain.stateAt k anchor) ∧
    (∀ w, s.replayWindow.prevGenHighestDelivered = some w → w < anchor) ∧
    (∀ i ∈ delivered, i < anchor) ∧
    ∀ i key, s.skipMessageKeys.lookup (g, i) = some key → i < anchor ∧ key = P.chain.keyAt k i
  seen : ∀ i, (g, i) ∈ s.replayWindow.seen → i ∈ delivered

/-- The key of position `i` of the retained generation is cached, or the retained chain reaches
the position within `maxSkip`. -/
def StillHeld (s : DoubleRatchetState K C) (g i : ℕ) : Prop :=
  (s.skipMessageKeys.lookup (g, i)).isSome ∨
    ∃ anchor, s.previousRecvAnchor = some anchor ∧ anchor ≤ i ∧ i ≤ anchor + s.maxSkip

theorem accepted_nil : accepted ([] : List (Arrival K C)) = ∅ := by
  ext i
  simp [accepted]

variable {i : ℕ}

theorem accepted_cons_error {e : KyberError} {arrivals : List (Arrival K C)} :
    accepted (⟨s, i, .error e⟩ :: arrivals) = accepted arrivals := by
  ext j
  simp [accepted]

theorem accepted_cons_ok {arrivals : List (Arrival K C)} :
    accepted (⟨s, i, .ok pt⟩ :: arrivals) = insert i (accepted arrivals) := by
  ext j
  simp [accepted, eq_comm]

/-- A raised watermark is below every bound of the old one and the new position. -/
theorem watermark_lt_of_raiseWatermark {w : ReplayWindow} {seq bound : ℕ}
    (hold : ∀ n, w.prevGenHighestDelivered = some n → n < bound) (hseq : seq < bound) {n : ℕ}
    (hn : (w.raiseWatermark seq).prevGenHighestDelivered = some n) : n < bound := by
  obtain rfl := Option.some.inj hn
  cases hw : w.prevGenHighestDelivered with
  | none => exact hseq
  | some v => exact max_lt (hold v hw) hseq

/-! ## The commit -/

/-- The watermark captured at a commit is below the counter if every delivery was. -/
theorem capturePreviousRecvWatermark_lt
    (hseen : ∀ i, (s.ratchetGeneration, i) ∈ s.replayWindow.seen → i < s.recv.messageCount)
    {w : ℕ} (hw : s.capturePreviousRecvWatermark = some w) : w < s.recv.messageCount := by
  have hmem : ∀ i ∈ (s.replayWindow.seen.filter fun e => e.1 = s.ratchetGeneration).image
      Prod.snd, i < s.recv.messageCount := by
    intro i hi
    obtain ⟨⟨g', i'⟩, he, rfl⟩ := Finset.mem_image.1 hi
    obtain ⟨hmem, rfl⟩ := Finset.mem_filter.1 he
    exact hseen i' hmem
  unfold capturePreviousRecvWatermark at hw
  dsimp only at hw
  split_ifs at hw with hcount hne hne
  · obtain rfl := Option.some.inj hw
    exact max_lt (by omega) (hmem _ (Finset.max'_mem _ hne))
  · obtain rfl := Option.some.inj hw
    show s.recv.messageCount - 1 < s.recv.messageCount
    omega
  · obtain rfl := Option.some.inj hw
    exact hmem _ (Finset.max'_mem _ hne)

/-- After a commit the chain of the generation that was left is retained. -/
theorem Aligned.commit (ideal : P.Ideal) (hal : s.Aligned P k delivered)
    (hstep : Evolves P s t) (hgen : t.ratchetGeneration = s.ratchetGeneration + 1)
    (hne : t.ratchetGeneration ≠ u32Max) : t.Retains P s.ratchetGeneration k delivered := by
  have hspent := hstep.spent ideal hal.spent
  have hlt : s.ratchetGeneration < t.ratchetGeneration := by omega
  have hwater : ∀ w, s.capturePreviousRecvWatermark = some w → w < s.recv.messageCount :=
    fun w => capturePreviousRecvWatermark_lt fun i hi => hal.delivered_lt i (hal.seen i hi)
  obtain ⟨h, _, hfit, _⟩ := hal.history ideal
  cases hstep.commitStep hfit hal.spent.1 hgen with
  | own hfrom hpair =>
    rw [commitOutgoingRekey_eq_of_isFrom hfrom hpair] at hne hspent hlt ⊢
    exact ⟨hal.isSeed, hne, hlt, hspent, rfl, ⟨s.recv.messageCount, rfl,
      congrArg some hal.recv, hwater, hal.delivered_lt, hal.cache⟩, (by rintro i ⟨⟩)⟩
  | @peer nonce c payload now pt s₁ _ seed hdec hderives hdel =>
    obtain ⟨r, ss, hfrom, _⟩ := (hderives.slotsFit hfit.slots).isFrom_of_pendingDelivery hdel
    have hbump := (hderives.advances.bumps hal.spent.1).incoming (by rw [hfrom.1]; rfl)
    have hstate := hdel.hstate
    rw [commitPendingRekeyWithRaceResolution_eq hfrom hbump] at hstate
    have hsame := hderives.sameReceive
    have hleft : s.ratchetGeneration ≠ saturatingSucc s₁.ratchetGeneration := by
      rw [← generation_of_pendingDelivery (hderives.slotsFit hfit.slots)
        (hderives.advances.bumps hal.spent.1) hdel]
      exact hlt.ne
    refine ⟨hal.isSeed, hne, hlt, hspent, ?_, ⟨s.recv.messageCount, ?_, ?_, ?_,
      hal.delivered_lt, ?_⟩, ?_⟩
    · rw [hstate, ← hsame.generation]
      rfl
    · rw [hstate, ← hsame.recv]
      rfl
    · rw [← hal.recv, hstate, ← hsame.recv]
      rfl
    · have hcapture : s₁.capturePreviousRecvWatermark = s.capturePreviousRecvWatermark := by
        unfold capturePreviousRecvWatermark
        rw [hsame.window, hsame.generation, hsame.recv]
      rw [hstate]
      intro w hw
      exact hwater w (hcapture ▸ hw)
    · intro i key hlookup
      rw [hstate] at hlookup
      -- the keys skipped by the commit belong to the new generation
      have hold := lookup_of_cacheSkipKeys_ne hleft hlookup
      exact hal.cache i key (hsame.cache ▸ hold)
    · intro i hi
      rw [hstate] at hi
      cases mem_seen_of_recordDelivered_ne hleft hi

/-! ## Traffic of the new generation -/

section

variable (hret : s.Retains P g k delivered)
include hret

/-- A step that leaves the retained chain and the watermark alone and adds no key and no delivery
of the retained generation. -/
theorem Retains.of_previous_eq (hspent : t.Spent P (Set.image (P.chain.keyAt k) delivered))
    (hgen : t.ratchetGeneration = s.ratchetGeneration)
    (hkey : t.previousRecvChainKey = s.previousRecvChainKey)
    (hanchor : t.previousRecvAnchor = s.previousRecvAnchor)
    (hprev : t.previousRecvGen = s.previousRecvGen)
    (hwater : t.replayWindow.prevGenHighestDelivered = s.replayWindow.prevGenHighestDelivered)
    (hcache : ∀ i key, t.skipMessageKeys.lookup (g, i) = some key →
      s.skipMessageKeys.lookup (g, i) = some key)
    (hseen : ∀ i, (g, i) ∈ t.replayWindow.seen → (g, i) ∈ s.replayWindow.seen) :
    t.Retains P g k delivered where
  isSeed := hret.isSeed
  generation_ne := hgen ▸ hret.generation_ne
  lt_generation := hgen ▸ hret.lt_generation
  spent := hspent
  previousGen := hprev.trans hret.previousGen
  chain := by
    obtain ⟨anchor, h₁, h₂, h₃, h₄, h₅⟩ := hret.chain
    rw [hkey, hanchor, hwater]
    exact ⟨anchor, h₁, h₂, h₃, h₄, fun i key hlookup => h₅ i key (hcache i key hlookup)⟩
  seen := fun i hi => hret.seen i (hseen i hi)

theorem Retains.of_same (hsame : SameReceive s t)
    (hspent : t.Spent P (Set.image (P.chain.keyAt k) delivered)) : t.Retains P g k delivered := by
  refine hret.of_previous_eq hspent hsame.generation hsame.previousKey hsame.previousAnchor
    hsame.previousGen (by rw [hsame.window]) ?_ ?_
  · rw [hsame.cache]
    exact fun _ _ h => h
  · rw [hsame.window]
    exact fun _ h => h

/-- A nonce that the retained generation does not handle is of another generation. -/
theorem Retains.ne_of_skipsPrevious {nonce : Nonce} (hskip : s.SkipsPrevious nonce) :
    nonce.generation ≠ g := by
  obtain ⟨anchor, hanchor, hck, _⟩ := hret.chain
  rintro rfl
  exact hskip (by rw [hck]; rfl) (by rw [hanchor]; rfl) hret.previousGen

end

section Ideal

variable (ideal : P.Ideal)
include ideal

/-- A step within the new generation that is not about a message of the retained chain keeps
what is retained. -/
theorem Retains.beside (hret : s.Retains P g k delivered) (hstep : EvolvesBeside P k s t)
    (hgen : t.ratchetGeneration = s.ratchetGeneration) : t.Retains P g k delivered := by
  have hspent : t.Spent P (Set.image (P.chain.keyAt k) delivered) :=
    hstep.evolves.spent ideal hret.spent
  obtain ⟨h, _, hfit⟩ := hret.spent.2.resolve_left hret.generation_ne
  obtain ⟨anchor, hanchor, hck, _, _, hcache⟩ := hret.chain
  have hother : g ≠ s.ratchetGeneration := hret.lt_generation.ne
  cases hstep.receivesBeside ideal hfit hret.spent.1 hret.generation_ne hgen with
  | quiet hsame => exact hret.of_same hsame hspent
  | moved targetSeq _ hsame =>
    refine hret.of_previous_eq hspent hgen hsame.previousKey hsame.previousAnchor
      hsame.previousGen (by rw [hsame.window]; rfl) ?_ ?_
    · intro i key hlookup
      rw [hsame.cache] at hlookup
      exact lookup_of_cacheSkipKeys_ne hother hlookup
    · rw [hsame.window]
      exact fun _ h => h
  | @opened nonce key hopens hkey =>
    cases hopens with
    | previousCached hprev _ hlookup _ =>
      -- a cached key of the retained generation is a key of the chain
      obtain rfl := Option.some.inj (hret.previousGen.symm.trans hprev)
      exact absurd (hcache _ key hlookup).2 (hkey nonce.seq)
    | previousChain _ hck' hanchor' _ _ =>
      obtain rfl := Option.some.inj (hck.symm.trans hck')
      exact absurd (KeyChain.keyAt_stateAt _ _ _ _) (hkey _)
    | cached hskip _ hsame =>
      have hne := hret.ne_of_skipsPrevious hskip
      refine hret.of_previous_eq hspent hgen hsame.previousKey hsame.previousAnchor
        hsame.previousGen (by rw [hsame.window]; rfl) ?_ ?_
      · rw [hsame.cache]
        exact fun i key' => AList.lookup_of_lookup_erase
      · intro i hi
        rw [hsame.window] at hi
        exact mem_seen_of_recordDelivered_ne hne.symm hi
    | chain hskip hsame =>
      refine hret.of_previous_eq hspent hgen hsame.previousKey hsame.previousAnchor
        hsame.previousGen (by rw [hsame.window]; rfl) ?_ ?_
      · intro i key' hlookup
        rw [hsame.cache] at hlookup
        exact lookup_of_cacheSkipKeys_ne hother hlookup
      · intro i hi
        rw [hsame.window] at hi
        exact mem_seen_of_recordDelivered_ne hother (Finset.mem_filter.1 hi).1

/-! ## Messages of the retained generation -/

/-- A message of the retained generation is opened only with its own key, only once, and either
from the cache or from the retained chain. -/
theorem Retains.of_ok (hret : s.Retains P g k delivered) {pt' : Bytes}
    (hseal : P.aeadSeal (P.chain.keyAt k i) ⟨g, i⟩ pt (payloadAad payload) = some c)
    (hstep : DecryptStep P s ⟨g, i⟩ c payload now (.ok pt') t) :
    pt' = pt ∧ i ∉ delivered ∧ t.Spent P (Set.image (P.chain.keyAt k) (insert i delivered)) ∧
      (s.skipMessageKeys.lookup (g, i) = some (P.chain.keyAt k i) ∧
          SameReceive (s.deliverPreviousCached (s.skipMessageKeys.erase (g, i)) g i) t ∨
        ∃ anchor, s.previousRecvAnchor = some anchor ∧ anchor ≤ i ∧
          SameReceive (s.deliverPreviousChain (P.chain.stateAt k (i + 1))
            (deriveSkipKeys P (P.chain.stateAt k anchor) anchor g (i - anchor)).2 g i) t) := by
  have hopen := ideal.open_of_seal hseal
  obtain ⟨key, hopen', hunused, hspent⟩ := hstep.spent ideal hret.spent
  obtain rfl := ideal.key_eq_of_open hopen' hopen
  obtain rfl : pt' = pt := Option.some.inj (hopen'.symm.trans hopen)
  refine ⟨rfl, fun hi => hunused ⟨i, hi, rfl⟩, by rwa [Set.image_insert_eq], ?_⟩
  rcases hstep.opens with ⟨key, hdec, hopens⟩ | ⟨s₁, seed, hskip, _, _⟩
  · have hkey := key_eq_of_decryptChacha20 ideal hseal hdec
    cases hopens with
    | previousCached _ _ hlookup hsame => exact .inl ⟨hkey ▸ hlookup, hsame⟩
    | @previousChain ck anchor _ _ hck hanchor hle hsame =>
      obtain ⟨anchor', hanchor', hck', _⟩ := hret.chain
      obtain rfl := Option.some.inj (hanchor'.symm.trans hanchor)
      obtain rfl := Option.some.inj (hck'.symm.trans hck)
      have hle : anchor' ≤ i := hle
      have hpos : anchor' + (i - anchor' + 1) = i + 1 := by omega
      dsimp only at hsame
      rw [KeyChain.stateAt_stateAt, hpos] at hsame
      exact .inr ⟨anchor', hanchor, hle, hsame⟩
    | cached hskip _ _ => exact absurd rfl (hret.ne_of_skipsPrevious hskip)
    | chain hskip _ => exact absurd rfl (hret.ne_of_skipsPrevious hskip)
  · exact absurd rfl (hret.ne_of_skipsPrevious hskip)

variable {res : Except KyberError Bytes}

/-- A ciphertext sealed under the key of its position in the retained generation is refused or
delivered with its plaintext for the first time, and what is retained stays consistent. -/
theorem Retains.step (hret : s.Retains P g k delivered)
    (hseal : P.aeadSeal (P.chain.keyAt k i) ⟨g, i⟩ pt (payloadAad payload) = some c)
    (hstep : DecryptStep P s ⟨g, i⟩ c payload now res t) :
    t.ratchetGeneration = s.ratchetGeneration ∧
      ((∃ e, res = .error e ∧ t.Retains P g k delivered) ∨
        res = .ok pt ∧ i ∉ delivered ∧ t.Retains P g k (insert i delivered)) := by
  cases res with
  | error e =>
    have hsame := hstep.sameReceive_of_error
    refine ⟨hsame.generation, .inl ⟨e, rfl, hret.of_same hsame ?_⟩⟩
    exact (Evolves.decrypt hstep).spent ideal hret.spent
  | ok pt' =>
    obtain ⟨anchor, hanchor, hck, hwater, hlt, hcache⟩ := hret.chain
    obtain ⟨rfl, hnew, hspent, ⟨hlookup, hsame⟩ | ⟨anchor', hanchor', hle, hsame⟩⟩ :=
      hret.of_ok ideal hseal hstep
    · have hi : i < anchor := (hcache i _ hlookup).1
      refine ⟨hsame.generation, .inr ⟨rfl, hnew, hret.isSeed,
        hsame.generation ▸ hret.generation_ne, hsame.generation ▸ hret.lt_generation, hspent,
        hsame.previousGen.trans hret.previousGen,
        ⟨anchor, hsame.previousAnchor.trans hanchor, hsame.previousKey.trans hck, ?_, ?_, ?_⟩, ?_⟩⟩
      · intro w hw
        rw [hsame.window] at hw
        exact watermark_lt_of_raiseWatermark hwater hi hw
      · rintro j (rfl | hj)
        · exact hi
        · exact hlt j hj
      · intro j key hj
        rw [hsame.cache] at hj
        exact hcache j key (AList.lookup_of_lookup_erase hj)
      · intro j hj
        rw [hsame.window] at hj
        rcases mem_seen_of_recordDelivered hj with heq | hold
        · exact .inl (Prod.mk.inj heq).2
        · exact .inr (hret.seen j hold)
    · obtain rfl := Option.some.inj (hanchor.symm.trans hanchor')
      refine ⟨hsame.generation, .inr ⟨rfl, hnew, hret.isSeed,
        hsame.generation ▸ hret.generation_ne, hsame.generation ▸ hret.lt_generation, hspent,
        hsame.previousGen.trans hret.previousGen,
        ⟨i + 1, hsame.previousAnchor, hsame.previousKey, ?_, ?_, ?_⟩, ?_⟩⟩
      · intro w hw
        rw [hsame.window] at hw
        refine watermark_lt_of_raiseWatermark (fun w hw => ?_) (Nat.lt_succ_self i) hw
        exact (hwater w hw).trans_le (Nat.le_succ_of_le hle)
      · rintro j (rfl | hj)
        · exact Nat.lt_succ_self j
        · exact (hlt j hj).trans_le (Nat.le_succ_of_le hle)
      · intro j key hj
        rw [hsame.cache] at hj
        rcases lookup_cacheSkipKeys_cases hj with hold | ⟨d, hd, he, hkey⟩
        · obtain ⟨hj, hkey⟩ := hcache j key hold
          exact ⟨by omega, hkey⟩
        · obtain rfl : j = anchor + d := (Prod.mk.inj he).2
          refine ⟨by omega, ?_⟩
          rw [hkey, KeyChain.keyAt_stateAt]
      · intro j hj
        rw [hsame.window] at hj
        rcases mem_seen_of_recordDelivered hj with heq | hold
        · exact .inl (Prod.mk.inj heq).2
        · exact .inr (hret.seen j hold)

variable {m : RatchetEncryptedMessage C}

theorem Retains.arrive (hret : s.Retains P g k delivered) (hm : Genuine P k g i pt m)
    (hreceive : s.receive P m now = (res, t)) :
    t.ratchetGeneration = s.ratchetGeneration ∧
      ((∃ e, res = .error e ∧ t.Retains P g k delivered) ∨
        res = .ok pt ∧ i ∉ delivered ∧ t.Retains P g k (insert i delivered)) := by
  obtain ⟨c, payload, rfl, hseal, _⟩ := hm
  have hstep := decryptPayload_step P s ⟨g, i⟩ c payload now
  rw [← receive_messageOf, hreceive] at hstep
  exact hret.step ideal hseal hstep

/-- A message of the retained generation that is still held and was not delivered is
accepted. -/
theorem Retains.accepts (hret : s.Retains P g k delivered) (hm : Genuine P k g i pt m)
    (hi : i ∉ delivered) (hheld : s.StillHeld g i) (now : Clock) :
    ∃ t, s.receive P m now = (.ok pt, t) := by
  obtain ⟨c, payload, rfl, hseal, _⟩ := hm
  obtain ⟨anchor, hanchor, hck, hwater, _, hcache⟩ := hret.chain
  have hdec := decryptChacha20_of_seal ideal hseal
  have hunseen : (g, i) ∉ s.replayWindow.seen := fun h => hi (hret.seen i h)
  have hadmits : s.Admits ⟨g, i⟩ :=
    ⟨hret.generation_ne, .inr (.inr ⟨by rw [hret.previousGen]; rfl, by rw [hck]; rfl⟩), hunseen⟩
  suffices ∃ fromCache t, s.dispatchPreviousGeneration P g i ⟨g, i⟩ c (payloadAad payload) =
      (.ok (some (pt, fromCache)), t) by
    obtain ⟨fromCache, t, ht⟩ := this
    refine ⟨t, ?_⟩
    rw [receive_messageOf]
    unfold decryptPayload ratchetDecryptWithRekey ratchetDecryptWithRekeyClassified
    rw [buildRekeyAad_payload, validateAndExtractNonce_of_admits hadmits]
    simp only [ht]
  unfold dispatchPreviousGeneration
  rw [if_pos ⟨by rw [hret.previousGen]; rfl, by rw [hck]; rfl⟩]
  simp only [tryDecryptPreviousGeneration, hck, hanchor, hret.previousGen, ne_eq,
    not_true_eq_false, if_false]
  cases hlookup : s.skipMessageKeys.lookup (g, i) with
  | some key =>
    obtain ⟨_, rfl⟩ := hcache i key hlookup
    simp only [tryDecryptWithCachedKey, hlookup, hdec]
    exact ⟨_, _, rfl⟩
  | none =>
    obtain ⟨anchor', hanchor', hle, hgap⟩ := hheld.resolve_left (by rw [hlookup]; simp)
    obtain rfl := Option.some.inj (hanchor.symm.trans hanchor')
    rw [tryDecryptWithCachedKey_none.2 hlookup]
    -- the watermark lies below the anchor, so it refuses nothing from the anchor on
    have hfresh : ¬s.replayWindow.prevGenHighestDelivered.any (i ≤ ·) := by
      rw [Option.any_eq_true]
      rintro ⟨w, hw, hiw⟩
      have := hwater w hw
      have := of_decide_eq_true hiw
      omega
    have hadvance : advanceReceivingChain P (P.chain.stateAt k anchor) anchor i g s.maxSkip =
        .ok _ := advanceReceivingChain_ok.2 ⟨by omega, rfl, rfl⟩
    have hkey : P.chain.keyAt (P.chain.stateAt k anchor) (i - anchor) = P.chain.keyAt k i := by
      rw [KeyChain.keyAt_stateAt, Nat.add_sub_cancel' hle]
    simp only [tryPreviousChain, if_neg hunseen, if_neg (Nat.not_lt.2 hle), if_neg hfresh,
      hadvance, hkey, hdec]
    exact ⟨_, _, rfl⟩

/-! ## Runs across a commit -/

variable {sent : List (Bytes × RatchetEncryptedMessage C)} {arrivals : List (Arrival K C)}

/-- A run within the generation keeps the receiver aligned, with the accepted messages
delivered. -/
theorem ReceiveRun.aligned (hrun : ReceiveRun P sent (EvolvesBeside P k) s arrivals t)
    (hsent : ∀ i pt m, sent[i]? = some (pt, m) → Genuine P k s.ratchetGeneration i pt m)
    (hal : s.Aligned P k delivered) :
    t.ratchetGeneration = s.ratchetGeneration ∧
      t.Aligned P k (delivered ∪ accepted arrivals) := by
  induction hrun generalizing delivered with
  | done s =>
    rw [accepted_nil, Set.union_empty]
    exact ⟨rfl, hal⟩
  | other h hgen _ ih =>
    obtain ⟨hgen', hal'⟩ := ih (hgen ▸ hsent) (hal.beside ideal h hgen)
    exact ⟨hgen'.trans hgen, hal'⟩
  | @arrive s s' u i pt m now res arrivals hi hreceive _ ih =>
    obtain ⟨hgen, ⟨e, rfl, hal'⟩ | ⟨rfl, _, hal'⟩⟩ := hal.arrive ideal (hsent i pt m hi) hreceive
    · obtain ⟨hgen', hal''⟩ := ih (hgen ▸ hsent) hal'
      rw [accepted_cons_error]
      exact ⟨hgen'.trans hgen, hal''⟩
    · obtain ⟨hgen', hal''⟩ := ih (hgen ▸ hsent) hal'
      rw [accepted_cons_ok, Set.union_insert, ← Set.insert_union]
      exact ⟨hgen'.trans hgen, hal''⟩

/-- In a run after the commit a message that is still held is delivered at its first accepted
arrival and refused once it was delivered. -/
theorem ReceiveRun.delivers_retained (hrun : ReceiveRun P sent (EvolvesBeside P k) s arrivals t)
    (hsent : ∀ i pt m, sent[i]? = some (pt, m) → Genuine P k g i pt m)
    (hret : s.Retains P g k delivered) {j : ℕ} {x : Arrival K C} {pt : Bytes}
    (hj : arrivals[j]? = some x) (hx : sent[x.index]? = some (pt, m)) :
    (x.index ∈ delivered ∪ accepted (arrivals.take j) → ∃ e, x.result = .error e) ∧
      (x.index ∉ delivered ∪ accepted (arrivals.take j) → x.state.StillHeld g x.index →
        x.result = .ok pt) := by
  induction hrun generalizing delivered j with
  | done s => exact absurd hj (by simp)
  | other h hgen _ ih => exact ih (hret.beside ideal h hgen) hj
  | @arrive s s' u i pt' m' now res arrivals hi hreceive _ ih =>
    obtain ⟨_, hcases⟩ := hret.arrive ideal (hsent i pt' m' hi) hreceive
    cases j with
    | zero =>
      obtain rfl := Option.some.inj hj
      obtain ⟨rfl, rfl⟩ := Prod.mk.inj (Option.some.inj (hi.symm.trans hx))
      rw [List.take_zero, accepted_nil, Set.union_empty]
      refine ⟨fun hdel => ?_, fun hnot hheld => ?_⟩
      · rcases hcases with ⟨e, he, _⟩ | ⟨_, hnew, _⟩
        · exact ⟨e, he⟩
        · exact absurd hdel hnew
      · obtain ⟨t', ht'⟩ := hret.accepts ideal (hsent i _ _ hi) hnot hheld now
        rw [hreceive] at ht'
        exact (Prod.mk.inj ht').1
    | succ j =>
      have hj : arrivals[j]? = some x := by simpa using hj
      rw [List.take_succ_cons]
      rcases hcases with ⟨e, rfl, hret'⟩ | ⟨rfl, _, hret'⟩
      · rw [accepted_cons_error]
        exact ih hret' hj
      · rw [accepted_cons_ok, Set.union_insert, ← Set.insert_union]
        exact ih hret' hj

end Ideal

/-- A receiver enters a generation with the sender's chain, gets messages of the sender in any
order, and commits a rekey of either side. In the next generation, unless it is the last one of the
counter, in any order and between any other steps, a message of the old generation whose key is
cached or that the retained chain reaches within `maxSkip` decrypts to its plaintext if it was not
delivered yet, and is refused if it was. -/
theorem straddling_delivery (ideal : P.Ideal) {a a' b u : DoubleRatchetState K C}
    {sent : List (Bytes × RatchetEncryptedMessage C)} {before after : List (Arrival K C)}
    (hsender : a.Reachable P) (hstart : a.send = ⟨k, 0⟩) (hsend : SendRun P a sent a')
    (hreceiver : b.EntersGeneration P) (hgen : b.ratchetGeneration = a.ratchetGeneration)
    (hchain : b.recv.key = P.chain.stateAt k b.recv.messageCount)
    (hbefore : ReceiveRun P sent (EvolvesBeside P k) b before s)
    (hcommit : Evolves P s t) (hnext : t.ratchetGeneration = s.ratchetGeneration + 1)
    (hopen : t.ratchetGeneration ≠ u32Max)
    (hafter : ReceiveRun P sent (EvolvesBeside P k) t after u)
    {j : ℕ} {x : Arrival K C} {pt : Bytes} {m : RatchetEncryptedMessage C}
    (hj : after[j]? = some x) (hx : sent[x.index]? = some (pt, m)) :
    (x.index ∈ b.deliveredOnEntry ∪ accepted before ∪ accepted (after.take j) →
        ∃ e, x.result = .error e) ∧
      (x.index ∉ b.deliveredOnEntry ∪ accepted before ∪ accepted (after.take j) →
        x.state.StillHeld a.ratchetGeneration x.index → x.result = .ok pt) := by
  have hsent : ∀ i pt m, sent[i]? = some (pt, m) →
      Genuine P k a.ratchetGeneration i pt m ∧ a.ratchetGeneration ≠ u32Max :=
    fun i pt m hi => hsend.genuine_of_start hsender hstart hi
  have hentry : b.Aligned P k b.deliveredOnEntry :=
    hreceiver.aligned ideal (hgen ▸ (hsent _ _ _ hx).2) hchain
  obtain ⟨hkept, hal⟩ := hbefore.aligned ideal
    (fun i pt m hi => hgen ▸ (hsent i pt m hi).1) hentry
  have hret := hal.commit ideal hcommit hnext hopen
  rw [hkept, hgen] at hret
  exact hafter.delivers_retained ideal (fun i pt m hi => (hsent i pt m hi).1) hret hj hx

/-- A receiver that sends in between gets on with its run. -/
theorem ReceiveRun.sendAll {k : Symbolic.Key}
    {sent : List (Bytes × RatchetEncryptedMessage Symbolic.Ciphertext)}
    {s t : DoubleRatchetState Symbolic.Key Symbolic.Ciphertext}
    {arrivals : List (Arrival Symbolic.Key Symbolic.Ciphertext)} {first n : ℕ}
    (hrun : ReceiveRun primitives sent (EvolvesBeside primitives k)
      (sendAll s first n).2 arrivals t) :
    ReceiveRun primitives sent (EvolvesBeside primitives k) s arrivals t := by
  induction n generalizing s first with
  | zero => exact hrun
  | succ n ih =>
    have hstep := ratchetEncrypt_step primitives s [] (randomness first) ⟨0, 0⟩
    exact .other (.encrypt hstep) hstep.sameReceive.generation (ih hrun)

/-- The responder sends until it holds a proposal of its own and commits it; the message that the
initiator sent before arrives then and is delivered. -/
theorem straddling_delivery_own_commit :
    ∃ m, (sendAll initiator 0 1).1 = [m] ∧
      ((sendAll responder 1 101).2.commitOutgoingRekey.receive
        primitives m ⟨0, 0⟩).1 = .ok [] := by
  have hfacts : (sendAll initiator 0 1).1.length = 1 ∧
      let s := (sendAll responder 1 101).2
      s.ratchetGeneration = 0 ∧ s.commitOutgoingRekey.ratchetGeneration = 1 ∧
        s.commitOutgoingRekey.previousRecvAnchor = some 0 := by
    decide +kernel
  have hbefore : ∀ sent, ReceiveRun primitives sent
      (EvolvesBeside primitives initiator.send.key) responder []
      (sendAll responder 1 101).2 := fun _ => ReceiveRun.sendAll (.done _)
  generalize (sendAll responder 1 101).2 = s at hfacts hbefore ⊢
  obtain ⟨hlength, hgen, hgen', hanchor⟩ := hfacts
  obtain ⟨m, hm⟩ := List.length_eq_one_iff.1 hlength
  have hsend := sendRun_sendAll hlength
  rw [hm] at hsend
  refine ⟨m, hm, (straddling_delivery ideal ⟨[7], true, ⟨[], [1]⟩, _, _, .refl⟩ rfl hsend
    (.inl ⟨[7], false, ⟨[], [2]⟩, _, _, rfl⟩) rfl rfl (hbefore _) .commitOutgoing
    (by rw [hgen, hgen']) (by rw [hgen']; decide)
    (.arrive (i := 0) rfl Prod.mk.eta.symm (.done _)) (j := 0) rfl rfl).2 ?_
    (.inr ⟨0, hanchor, le_rfl, Nat.zero_le _⟩)⟩
  rw [List.take_zero, accepted_nil, Set.union_empty, Set.union_empty]
  rintro ⟨⟩

/-- The responder is one generation below the last one and holds a proposal of its own, the
initiator has sent a message. After the commit the retained chain is at the position of the message,
but it is refused. -/
theorem straddling_delivery_fails_at_last_generation :
    let g := u32Max - 1
    let s := (sendAll { responder with ratchetGeneration := g } 1 101).2
    let t := s.commitOutgoingRekey
    let sent := (sendAll { initiator with ratchetGeneration := g } 0 1).1
    t.ratchetGeneration = s.ratchetGeneration + 1 ∧ t.previousRecvGen = some g ∧
      t.previousRecvAnchor = some 0 ∧ t.replayWindow.prevGenHighestDelivered = none ∧
      t.previousRecvChainKey = some initiator.send.key ∧
      sent.map (·.nonce) = [⟨g, 0⟩] ∧
      ∀ m ∈ sent, (t.receive primitives m ⟨0, 0⟩).1 = .error (.cryptoError
        "Ratchet generation at u32::MAX — nonce reuse risk. Re-pair required.") := by
  decide +kernel

end DoubleRatchetState

end KyberPipe
