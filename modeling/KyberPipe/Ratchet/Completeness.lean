import KyberPipe.Ratchet.Alignment

/-!
# Out-of-order completeness

A receiver that is aligned with the chain of its generation, and whose cache holds the key of
every undelivered position below its counter, accepts every genuine message it has not delivered
yet, as long as the gap to the message is at most `maxSkip` and the cache stays within its
budget.
-/

namespace KyberPipe

open Symbolic

namespace DoubleRatchetState

variable {K C : Type} {P : Primitives K C} {s s' t : DoubleRatchetState K C} {k : K}
variable {nonce : Nonce} {c : C} {aad pt : Bytes} {payload : Option RekeyPayload} {now : Clock}
variable {delivered : Set ℕ}

/-! ## What the receive path accepts -/

theorem validateAndExtractNonce_of_admits (hadmits : s.Admits nonce) :
    s.validateAndExtractNonce nonce = .ok (nonce.generation, nonce.seq) := by
  unfold validateAndExtractNonce
  dsimp only
  rw [if_neg hadmits.generation_ne, if_neg (not_not.2 hadmits.generation), if_neg hadmits.not_seen]

/-- A message past the previous generation whose payload, if any, can be decapsulated is opened
after its proposal was derived. -/
theorem decryptPayload_of_openCurrent (hadmits : s.Admits nonce)
    (hprev : s.dispatchPreviousGeneration P nonce.generation nonce.seq nonce c
      (payloadAad payload) = (.ok none, s))
    (hpayload : ∀ p, payload = some p → (s.decapsulateRekey P p.ciphertext).isSome)
    (hopen : ∀ s₁, Derives P s nonce now payload s₁ → ∃ out t,
      s₁.openCurrent P nonce.generation nonce.seq nonce c (payloadAad payload) payload.isSome =
        (.ok (pt, out), t)) :
    ∃ t, s.decryptPayload P nonce c payload now = (.ok pt, t) := by
  unfold decryptPayload ratchetDecryptWithRekey ratchetDecryptWithRekeyClassified
  rw [buildRekeyAad_payload, validateAndExtractNonce_of_admits hadmits]
  simp only [hprev]
  cases payload with
  | none =>
    obtain ⟨out, t, ht⟩ := hopen s .absent
    simp only [Option.map_none, Option.isSome_none] at ht ⊢
    rw [ht]
    exact ⟨t, rfl⟩
  | some p =>
    simp only [Option.map_some, deriveIncomingProposal]
    cases hsup : s.carrierSuperseded nonce.generation with
    | true =>
      obtain ⟨out, t, ht⟩ := hopen s (.superseded hsup)
      simp only [Option.isSome_some] at ht
      simp only [Option.isSome_some, if_true, ht]
      exact ⟨t, rfl⟩
    | false =>
      obtain ⟨ss, hss⟩ := Option.isSome_iff_exists.1 (hpayload p rfl)
      obtain ⟨out, t, ht⟩ := hopen _ (.staged hsup hss)
      simp only [Option.isSome_some] at ht
      simp only [Option.isSome_some, hss, Bool.false_eq_true, if_false, ht]
      exact ⟨t, rfl⟩

variable (nonce) in
theorem openCurrent_of_cached {key : K}
    (hkey : s.skipMessageKeys.lookup (nonce.generation, nonce.seq) = some key)
    (hdec : decryptChacha20 P key nonce c aad = .ok pt) (hasPayload : Bool) :
    ∃ out t, s.openCurrent P nonce.generation nonce.seq nonce c aad hasPayload =
      (.ok (pt, out), t) := by
  unfold openCurrent tryDecryptWithCachedKey
  simp only [hkey, hdec]
  exact ⟨_, _, rfl⟩

variable (nonce) in
theorem openCurrent_of_chain (hkey : s.skipMessageKeys.lookup (nonce.generation, nonce.seq) = none)
    (hgap : nonce.seq - s.recv.messageCount ≤ s.maxSkip)
    (hdec : decryptChacha20 P (P.chain.keyAt s.recv.key (nonce.seq - s.recv.messageCount)) nonce
      c aad = .ok pt) (hasPayload : Bool) :
    ∃ out t, s.openCurrent P nonce.generation nonce.seq nonce c aad hasPayload =
      (.ok (pt, out), t) := by
  unfold openCurrent
  rw [tryDecryptWithCachedKey_none.2 hkey]
  unfold tryDecryptWithChain
  simp only [deriveSkipKeys_fst, KeyChain.out_stateAt, if_neg (Nat.not_lt.2 hgap), hdec]
  exact ⟨_, _, rfl⟩

theorem dispatchPreviousGeneration_of_ne (hne : s.previousRecvChainKey.isSome →
      nonce.generation ≠ s.previousRecvGen.getD u32Max) :
    s.dispatchPreviousGeneration P nonce.generation nonce.seq nonce c aad = (.ok none, s) := by
  unfold dispatchPreviousGeneration
  exact if_neg fun h => hne h.2 h.1

/-! ## Complete receivers -/

/-- The cache holds the key of every undelivered position from `floor` up to the counter. -/
def CompleteFrom (P : Primitives K C) (s : DoubleRatchetState K C) (k : K) (floor : ℕ)
    (delivered : Set ℕ) : Prop :=
  ∀ i, floor ≤ i → i < s.recv.messageCount → i ∉ delivered →
    s.skipMessageKeys.lookup (s.ratchetGeneration, i) = some (P.chain.keyAt k i)

/-- Delivering position `i` evicts no key from `floor` on: the whole cache stays within its
budget, or the positions from `floor` to `i` do. -/
def RoomFor (s : DoubleRatchetState K C) (floor i : ℕ) : Prop :=
  s.skipMessageKeys.size + (i - s.recv.messageCount) ≤ s.maxSkip * 2 ∨ i - floor ≤ s.maxSkip * 2

/-- An encapsulated payload can be decapsulated by a session with a generated key pair. -/
theorem WellKeyed.decapsulateRekey_isSome (kem : P.KemCorrect) (hkeyed : s.WellKeyed P)
    {ct : Bytes} (hct : Encapsulated P ct) : (s.decapsulateRekey P ct).isSome := by
  obtain ⟨seed, hseed⟩ := hkeyed.ours
  obtain ⟨ss, hss⟩ := kem.exists_decapsulateHybrid hct seed
  unfold decapsulateRekey
  rw [List.findSome?_cons_of_isSome]
  · rw [hseed, hss]
    rfl
  · rw [hseed, hss]
    rfl

section Ideal

variable (ideal : P.Ideal)
include ideal

variable {m : RatchetEncryptedMessage C}

/-- An aligned receiver accepts a genuine message that is new, if the gap is within `maxSkip` and
the key of a position below the counter is cached. -/
theorem Aligned.accepts (kem : P.KemCorrect) (hal : s.Aligned P k delivered)
    (hkeyed : s.WellKeyed P) {i : ℕ}
    (hcached : i < s.recv.messageCount →
      s.skipMessageKeys.lookup (s.ratchetGeneration, i) = some (P.chain.keyAt k i))
    (hm : Genuine P k s.ratchetGeneration i pt m) (hi : i ∉ delivered)
    (hgap : i - s.recv.messageCount ≤ s.maxSkip) : ∃ t, s.receive P m now = (.ok pt, t) := by
  obtain ⟨c, payload, rfl, hseal, hpayload⟩ := hm
  have hdec := decryptChacha20_of_seal ideal hseal
  rw [receive_messageOf]
  refine decryptPayload_of_openCurrent ⟨hal.generation_ne, .inl rfl, fun h => hi (hal.seen i h)⟩
    (dispatchPreviousGeneration_of_ne ?_)
    (fun p hp => hkeyed.decapsulateRekey_isSome kem (hpayload p hp)) ?_
  · -- the retained generation is an older one
    intro hck heq
    cases hprev : s.previousRecvGen with
    | none =>
      rw [hprev] at heq
      exact hal.generation_ne heq
    | some g =>
      rw [hprev] at heq
      exact absurd heq (hal.previousGen_lt ideal hprev hck).ne'
  · intro s₁ hderives
    have hsame := hderives.sameReceive
    rcases Nat.lt_or_ge i s.recv.messageCount with hlt | hge
    · refine openCurrent_of_cached ⟨s.ratchetGeneration, i⟩ ?_ hdec _
      rw [hsame.cache]
      exact hcached hlt
    · refine openCurrent_of_chain ⟨s.ratchetGeneration, i⟩ ?_ ?_ ?_ _
      · rw [hsame.cache, Option.eq_none_iff_forall_ne_some]
        intro key hlookup
        exact absurd (hal.cache i key hlookup).1 (Nat.not_lt.2 hge)
      · rw [hsame.recv, hsame.maxSkip]
        exact hgap
      · rw [hsame.recv, hal.recv, KeyChain.keyAt_stateAt, Nat.add_sub_cancel' hge]
        exact hdec

omit ideal in
/-- With room for the skipped keys, storing them finds a new key or else the old one. -/
theorem Aligned.lookup_deliverChain (hal : s.Aligned P k delivered) {floor i j : ℕ} (next : K)
    (hroom : s.RoomFor floor i) (hle : s.recv.messageCount ≤ i) (hj : floor ≤ j) :
    let skipped := (deriveSkipKeys P s.recv.key s.recv.messageCount s.ratchetGeneration
      (i - s.recv.messageCount)).2
    (s.deliverChain next skipped i).skipMessageKeys.lookup (s.ratchetGeneration, j) =
      (skipped.lookup (s.ratchetGeneration, j)).or
        (s.skipMessageKeys.lookup (s.ratchetGeneration, j)) := by
  intro skipped
  show (pruneSkipKeys (skipped ∪ s.skipMessageKeys) s.ratchetGeneration (s.maxSkip * 2)).lookup
    (s.ratchetGeneration, j) = _
  rcases hroom with hbudget | hbudget
  · exact lookup_pruneSkipKeys_union
      ((Nat.add_le_add_left (size_deriveSkipKeys_le _ _ _ _) _).trans hbudget) (.inl rfl)
  · rw [← AList.lookup_union]
    refine lookup_pruneSkipKeys_of_recent ?_ hbudget hj
    -- every key of the generation, new or old, is below the delivered position
    intro j' hmem
    rcases AList.mem_union.1 hmem with hnew | hold
    · obtain ⟨key, hkey⟩ := Option.isSome_iff_exists.1 (AList.lookup_isSome.2 hnew)
      obtain ⟨d, hd, he, _⟩ := exists_of_lookup_deriveSkipKeys hkey
      obtain rfl : j' = s.recv.messageCount + d := (Prod.mk.inj he).2
      omega
    · obtain ⟨key, hkey⟩ := Option.isSome_iff_exists.1 (AList.lookup_isSome.2 hold)
      exact (hal.cache j' key hkey).1.trans_le hle

variable {floor : ℕ}

/-- A delivery with room for its skipped keys keeps the receiver complete. -/
theorem CompleteFrom.of_ok (hal : s.Aligned P k delivered)
    (hcomplete : s.CompleteFrom P k floor delivered) {i : ℕ} {pt' : Bytes}
    (hroom : s.RoomFor floor i)
    (hseal : P.aeadSeal (P.chain.keyAt k i) ⟨s.ratchetGeneration, i⟩ pt (payloadAad payload) =
      some c) (hstep : DecryptStep P s ⟨s.ratchetGeneration, i⟩ c payload now (.ok pt') t) :
    t.CompleteFrom P k floor (insert i delivered) := by
  obtain ⟨_, _, _, ⟨_, hsame⟩ | ⟨hle, hsame⟩⟩ := hal.of_ok ideal hseal hstep
  · intro j hfloor hj hnot
    rw [hsame.recv] at hj
    rw [hsame.generation, hsame.cache]
    have hji : j ≠ i := fun h => hnot (.inl h)
    refine (AList.lookup_erase_ne fun h => hji (Prod.mk.inj h).2).trans ?_
    exact hcomplete j hfloor hj fun h => hnot (.inr h)
  · intro j hfloor hj hnot
    rw [hsame.recv] at hj
    rw [hsame.generation, hsame.cache]
    have hj : j < i + 1 := hj
    have hji : j ≠ i := fun h => hnot (.inl h)
    -- nothing from the floor on is evicted, so the key is a new one or was there before
    refine (hal.lookup_deliverChain _ hroom hle hfloor).trans ?_
    rcases Nat.lt_or_ge j s.recv.messageCount with hlt | hge
    · rw [lookup_deriveSkipKeys_of_lt hlt, Option.none_or]
      exact hcomplete j hfloor hlt fun h => hnot (.inr h)
    · have hsome : (deriveSkipKeys P s.recv.key s.recv.messageCount s.ratchetGeneration
          (i - s.recv.messageCount)).2.lookup
            (s.ratchetGeneration, s.recv.messageCount + (j - s.recv.messageCount)) =
          some (P.chain.keyAt s.recv.key (j - s.recv.messageCount)) :=
        lookup_deriveSkipKeys (by omega)
      rw [hal.recv, KeyChain.keyAt_stateAt, Nat.add_sub_cancel' hge] at hsome
      rw [hal.recv, hsome, Option.some_or]

/-- A genuine message from `floor` on that arrives at a complete receiver is delivered if it was not
before and refused otherwise; one below `floor` may be refused in either case. The receiver stays
complete. -/
theorem CompleteFrom.arrive (kem : P.KemCorrect) (hal : s.Aligned P k delivered)
    (hcomplete : s.CompleteFrom P k floor delivered) (hkeyed : s.WellKeyed P) {i : ℕ}
    {res : Except KyberError Bytes} (hm : Genuine P k s.ratchetGeneration i pt m)
    (hgap : i - s.recv.messageCount ≤ s.maxSkip) (hroom : s.RoomFor floor i)
    (hreceive : s.receive P m now = (res, t)) :
    t.ratchetGeneration = s.ratchetGeneration ∧ t.WellKeyed P ∧
      s.recv.messageCount ≤ t.recv.messageCount ∧
      ∃ delivered', delivered ⊆ delivered' ∧ delivered' ⊆ insert i delivered ∧
        t.Aligned P k delivered' ∧ t.CompleteFrom P k floor delivered' ∧
        (i ∈ delivered → ∃ e, res = .error e) ∧
        (floor ≤ i → i ∈ delivered' ∧ (i ∉ delivered → res = .ok pt)) := by
  obtain ⟨hgen, hcases⟩ := hal.arrive ideal hm hreceive
  have haccepts : floor ≤ i → i ∉ delivered → ∃ t', s.receive P m now = (.ok pt, t') :=
    fun hfloor hi => hal.accepts ideal kem hkeyed (fun hlt => hcomplete i hfloor hlt hi) hm hi hgap
  obtain ⟨c, payload, rfl, hseal, _⟩ := hm
  have hstep := decryptPayload_step P s ⟨s.ratchetGeneration, i⟩ c payload now
  rw [← receive_messageOf, hreceive] at hstep
  rcases hcases with ⟨e, rfl, hal'⟩ | ⟨rfl, hnew, hal'⟩
  · have hsame := hstep.sameReceive_of_error
    refine ⟨hgen, hstep.wellKeyed hkeyed, by rw [hsame.recv], delivered, subset_rfl,
      Set.subset_insert i delivered, hal', ?_, fun _ => ⟨e, rfl⟩, fun hfloor => ?_⟩
    · rw [CompleteFrom, hsame.recv, hsame.cache, hsame.generation]
      exact hcomplete
    · -- an undelivered message from the floor on is accepted, so this one was delivered before
      have hdel : i ∈ delivered := by
        by_contra hi
        obtain ⟨t', ht'⟩ := haccepts hfloor hi
        rw [hreceive] at ht'
        cases (Prod.mk.inj ht').1
      exact ⟨hdel, fun hi => absurd hdel hi⟩
  · have hcount : s.recv.messageCount ≤ t.recv.messageCount := by
      obtain ⟨_, _, _, ⟨_, hsame⟩ | ⟨hle, hsame⟩⟩ := hal.of_ok ideal hseal hstep
      · exact (congrArg Chain.messageCount hsame.recv).ge
      · exact (Nat.le_succ_of_le hle).trans_eq (congrArg Chain.messageCount hsame.recv).symm
    exact ⟨hgen, hstep.wellKeyed hkeyed, hcount, insert i delivered, Set.subset_insert i delivered,
      subset_rfl, hal', hcomplete.of_ok ideal hal hroom hseal hstep, fun hi => absurd hi hnew,
      fun _ => ⟨Set.mem_insert i delivered, fun _ => rfl⟩⟩

/-- In a run with gaps within `maxSkip` and room for the skipped keys, a receiver that is
complete from `floor` on delivers every message from `floor` on at its first arrival and refuses
it afterwards. -/
theorem ReceiveRun.delivers_once (kem : P.KemCorrect)
    {Other : DoubleRatchetState K C → DoubleRatchetState K C → Prop}
    (hother : ∀ s t, Other s t → EvolvesBeside P k s t ∧ t.recv = s.recv ∧
      ∀ i, t.skipMessageKeys.lookup (s.ratchetGeneration, i) =
        s.skipMessageKeys.lookup (s.ratchetGeneration, i))
    {sent : List (Bytes × RatchetEncryptedMessage C)} {arrivals : List (Arrival K C)}
    (hrun : ReceiveRun P sent Other s arrivals t)
    (hsent : ∀ i pt m, sent[i]? = some (pt, m) → Genuine P k s.ratchetGeneration i pt m)
    (hal : s.Aligned P k delivered) (hcomplete : s.CompleteFrom P k floor delivered)
    (hkeyed : s.WellKeyed P) (hfloor : floor ≤ s.recv.messageCount)
    (hfits : ∀ a ∈ arrivals, floor ≤ a.state.recv.messageCount → a.state.maxSkip = s.maxSkip →
      a.index - a.state.recv.messageCount ≤ a.state.maxSkip ∧ a.state.RoomFor floor a.index) {j : ℕ}
    {a : Arrival K C} {pt : Bytes} (hj : arrivals[j]? = some a) (ha : sent[a.index]? = some (pt, m))
    (hindex : floor ≤ a.index) :
    (a.index ∈ delivered ∨ (∃ b ∈ arrivals.take j, b.index = a.index) → ∃ e, a.result = .error e) ∧
      (a.index ∉ delivered → (∀ b ∈ arrivals.take j, b.index ≠ a.index) →
        a.result = .ok pt) := by
  induction hrun generalizing delivered j with
  | done s => exact absurd hj (by simp)
  | @other s s' u arrivals h hgen _ ih =>
    obtain ⟨hbeside, hrecv, hcache⟩ := hother s s' h
    have hmax := hbeside.evolves.maxSkip_eq
    refine ih (hgen ▸ hsent) (hal.beside ideal hbeside hgen) ?_
      (hbeside.evolves.wellKeyed hkeyed) (hrecv ▸ hfloor) (hmax ▸ hfits) hj
    intro i
    rw [hrecv, hgen, hcache i]
    exact hcomplete i
  | @arrive s s' u i pt' m' now res arrivals hi hreceive _ ih =>
    rw [List.forall_mem_cons] at hfits
    obtain ⟨hgap, hroom⟩ := hfits.1 hfloor rfl
    obtain ⟨hgen, hkeyed', hcount, delivered', hsub, hsup, hal', hcomplete', hrepeated, hfirst⟩ :=
      hcomplete.arrive ideal kem hal hkeyed (hsent i pt' m' hi) hgap hroom hreceive
    cases j with
    | zero =>
      obtain rfl := Option.some.inj hj
      obtain ⟨rfl, _⟩ := Prod.mk.inj (Option.some.inj (hi.symm.trans ha))
      exact ⟨fun h => hrepeated (h.resolve_right (by simp)), fun h _ => (hfirst hindex).2 h⟩
    | succ j =>
      have hmax : s'.maxSkip = s.maxSkip := by
        have hstep := ratchetDecryptWithRekey_step P s m'.nonce m'.ciphertext m'.rekeyCiphertext
          m'.rekeyX25519Pk m'.rekeyMlkemPk now
        rw [← receive, hreceive] at hstep
        exact (Evolves.decrypt hstep).maxSkip_eq
      -- for the later arrivals the first one counts as delivered
      obtain ⟨hold, hnew⟩ := ih (hgen ▸ hsent) hal' hcomplete' hkeyed' (hfloor.trans hcount)
        (hmax ▸ hfits.2) (by simpa using hj)
      rw [List.take_succ_cons]
      constructor
      · rintro (hdel | ⟨b, hb, hbi⟩)
        · exact hold (.inl (hsub hdel))
        · rcases List.mem_cons.1 hb with rfl | hb
          · have hbi : i = a.index := hbi
            exact hold (.inl (hbi ▸ (hfirst (hbi ▸ hindex)).1))
          · exact hold (.inr ⟨b, hb, hbi⟩)
      · intro hdel hnone
        rw [List.forall_mem_cons] at hnone
        refine hnew ?_ hnone.2
        intro hmem
        rcases hsup hmem with heq | hmem
        · exact hnone.1 heq.symm
        · exact hdel hmem

end Ideal

/-- A sender encrypts messages within one generation, from the start of its chain on. A receiver
that entered the generation with the same chain gets these in any order and any number of times,
with gaps of at most `maxSkip` above its counter and the cache within `2 * maxSkip` keys. Every
message decrypts to its plaintext at its first arrival and is refused later, with or without a rekey
payload. -/
theorem out_of_order_completeness (ideal : P.Ideal) (kem : P.KemCorrect)
    {a a' b b' : DoubleRatchetState K C} {sent : List (Bytes × RatchetEncryptedMessage C)}
    {arrivals : List (Arrival K C)} (hsender : a.Reachable P) (hstart : a.send = ⟨k, 0⟩)
    (hsend : SendRun P a sent a') (hreceiver : b.EntersGeneration P)
    (hgen : b.ratchetGeneration = a.ratchetGeneration)
    (hchain : b.recv.key = P.chain.stateAt k b.recv.messageCount)
    (hentry : ∀ i, i + 1 < b.recv.messageCount →
      (b.skipMessageKeys.lookup (b.ratchetGeneration, i)).isSome)
    (hrun : ReceiveRun P sent (fun s t => EvolvesBeside P k s t ∧ t.recv = s.recv ∧
      t.skipMessageKeys = s.skipMessageKeys) b arrivals b')
    (hgap : ∀ x ∈ arrivals, x.index - x.state.recv.messageCount ≤ x.state.maxSkip)
    (hbudget : ∀ x ∈ arrivals, x.state.skipMessageKeys.size +
      (x.index - x.state.recv.messageCount) ≤ x.state.maxSkip * 2)
    {j : ℕ} {x : Arrival K C} {pt : Bytes} {m : RatchetEncryptedMessage C}
    (hj : arrivals[j]? = some x) (hx : sent[x.index]? = some (pt, m)) :
    (x.index ∈ b.deliveredOnEntry ∨ (∃ y ∈ arrivals.take j, y.index = x.index) →
        ∃ e, x.result = .error e) ∧
      (x.index ∉ b.deliveredOnEntry → (∀ y ∈ arrivals.take j, y.index ≠ x.index) →
        x.result = .ok pt) := by
  have hsent : ∀ i pt m, sent[i]? = some (pt, m) →
      Genuine P k a.ratchetGeneration i pt m ∧ a.ratchetGeneration ≠ u32Max :=
    fun i pt m hi => hsend.genuine_of_start hsender hstart hi
  have hal : b.Aligned P k b.deliveredOnEntry :=
    hreceiver.aligned ideal (hgen ▸ (hsent _ _ _ hx).2) hchain
  have hcomplete : b.CompleteFrom P k 0 b.deliveredOnEntry := by
    intro i _ hi hnot
    have hlt : i + 1 < b.recv.messageCount := lt_of_le_of_ne hi hnot
    obtain ⟨key, hkey⟩ := Option.isSome_iff_exists.1 (hentry i hlt)
    rw [hkey, (hal.cache i key hkey).2]
  refine hrun.delivers_once ideal kem ?_ ?_ hal hcomplete hreceiver.reachable.wellKeyed
    (Nat.zero_le _) (fun x hx _ _ => ⟨hgap x hx, .inl (hbudget x hx)⟩) hj hx (Nat.zero_le _)
  · rintro s t ⟨hbeside, hrecv, hcache⟩
    exact ⟨hbeside, hrecv, fun i => by rw [hcache]⟩
  · intro i pt m hi
    rw [hgen]
    exact (hsent i pt m hi).1

/-- The theorem at the symbolic sessions: of two messages the second arrives first, and the
first one is still delivered. -/
theorem out_of_order_completeness_swapped :
    let sent := (sendAll initiator 0 2).1.map fun m => ([], m)
    let arrivals := (receiveAll primitives sent responder [1, 0]).1
    ∃ x, arrivals[1]? = some x ∧ x.index = 0 ∧ x.result = .ok [] := by
  intro sent arrivals
  have hindex : arrivals.map (·.index) = [1, 0] := by decide +kernel
  have hlength : (sendAll initiator 0 2).1.length = 2 := by decide +kernel
  have hbounds : ∀ x ∈ arrivals, x.index - x.state.recv.messageCount ≤ x.state.maxSkip ∧
      x.state.skipMessageKeys.size + (x.index - x.state.recv.messageCount) ≤
        x.state.maxSkip * 2 := by
    have hall : arrivals.all (fun x => x.index - x.state.recv.messageCount ≤ x.state.maxSkip ∧
        x.state.skipMessageKeys.size + (x.index - x.state.recv.messageCount) ≤
          x.state.maxSkip * 2) = true := by
      decide +kernel
    simpa using hall
  obtain ⟨x, hx⟩ : ∃ x, arrivals[1]? = some x :=
    ⟨_, List.getElem?_eq_getElem (by rw [← List.length_map (·.index), hindex]; decide)⟩
  have hzero : x.index = 0 := by
    have hat := congrArg (·[1]?) hindex
    simpa [hx] using hat
  obtain ⟨m, hm⟩ : ∃ m, sent[x.index]? = some ([], m) := by
    rw [hzero, List.getElem?_map, List.getElem?_eq_getElem (hlength ▸ Nat.zero_lt_two)]
    exact ⟨_, rfl⟩
  refine ⟨x, hx, hzero, (out_of_order_completeness ideal kemCorrect
    (a := initiator) (b := responder) (k := initiator.send.key)
    ⟨[7], true, ⟨[], [1]⟩, _, _, .refl⟩ rfl (sendRun_sendAll hlength)
    (.inl ⟨[7], false, ⟨[], [2]⟩, _, _, rfl⟩) rfl rfl (by rintro i ⟨⟩)
    (receiveRun_receiveAll [1, 0]) (fun x hx => (hbounds x hx).1)
    (fun x hx => (hbounds x hx).2) hx hm).2 (by rintro ⟨⟩) ?_⟩
  intro y hy
  have hmem : y.index ∈ (arrivals.take 1).map (·.index) := List.mem_map_of_mem hy
  rw [List.map_take, hindex] at hmem
  rw [hzero, List.mem_singleton.1 hmem]
  exact Nat.one_ne_zero

end DoubleRatchetState

end KyberPipe
