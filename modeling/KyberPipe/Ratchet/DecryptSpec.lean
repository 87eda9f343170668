import KyberPipe.Ratchet.Decrypt

/-!
# What a decryption can do

Inversion of the receive path: a failed call changes at most the incoming proposal slot, and a
successful call used one message key in one of five ways. Invariants are proved from these
facts, not from the definitions of the receive path.
-/

namespace KyberPipe

namespace DoubleRatchetState

variable {K C : Type} {P : Primitives K C} {s s' : DoubleRatchetState K C}
variable {nonce : Nonce} {c : C} {aad pt : Bytes} {seq nonceGen : ℕ}

/-! ## Pieces of the receive path -/

theorem validateAndExtractNonce_ok {g q : ℕ} (h : s.validateAndExtractNonce nonce = .ok (g, q)) :
    s.ratchetGeneration ≠ u32Max ∧ g = nonce.generation ∧ q = nonce.seq ∧
      (nonce.generation = s.ratchetGeneration ∨
        nonce.generation = saturatingSucc s.ratchetGeneration ∨
        nonce.generation = s.previousRecvGen.getD u32Max ∧ s.previousRecvChainKey.isSome) ∧
      (nonce.generation, nonce.seq) ∉ s.replayWindow.seen := by
  unfold validateAndExtractNonce at h
  dsimp only at h
  split_ifs at h with hmax hgen hseen
  obtain ⟨rfl, rfl⟩ := Prod.mk.inj (Except.ok.inj h)
  exact ⟨hmax, rfl, rfl, hgen, hseen⟩

theorem tryDecryptWithCachedKey_some {store store' : SkipKeyMap K}
    (h : tryDecryptWithCachedKey P store nonceGen seq nonce c aad = .ok (some (pt, store'))) :
    ∃ key, store.lookup (nonceGen, seq) = some key ∧
      decryptChacha20 P key nonce c aad = .ok pt ∧ store' = store.erase (nonceGen, seq) := by
  unfold tryDecryptWithCachedKey at h
  split at h
  · simp at h
  · rename_i key hkey
    split at h
    · rename_i pt' hdec
      simp only [Except.ok.injEq, Option.some.injEq, Prod.mk.injEq] at h
      obtain ⟨rfl, rfl⟩ := h
      exact ⟨key, hkey, hdec, rfl⟩
    · simp at h

theorem tryDecryptWithCachedKey_none {store : SkipKeyMap K} :
    tryDecryptWithCachedKey P store nonceGen seq nonce c aad = .ok none ↔
      store.lookup (nonceGen, seq) = none := by
  unfold tryDecryptWithCachedKey
  constructor
  · intro h
    split at h
    · assumption
    · split at h <;> simp at h
  · intro h
    rw [h]

theorem advanceReceivingChain_ok {chainKey next : K} {skipped : SkipKeyMap K}
    {base target generation maxSkip : ℕ} :
    advanceReceivingChain P chainKey base target generation maxSkip = .ok (next, skipped) ↔
      target - base ≤ maxSkip ∧ next = P.chain.stateAt chainKey (target - base + 1) ∧
        skipped = (deriveSkipKeys P chainKey base generation (target - base)).2 := by
  unfold advanceReceivingChain
  split_ifs with hgap
  · simp only [false_iff]
    omega
  · simp only [Except.ok.injEq, Prod.mk.injEq, deriveSkipKeys_fst, KeyChain.step_stateAt]
    constructor
    · rintro ⟨rfl, rfl⟩
      exact ⟨by omega, rfl, rfl⟩
    · rintro ⟨_, rfl, rfl⟩
      exact ⟨rfl, rfl⟩

/-! ## The retained previous generation -/

/-- A delivery of a message of the previous generation. -/
inductive PreviousDelivery (P : Primitives K C) (s : DoubleRatchetState K C) (nonce : Nonce)
    (c : C) (aad pt : Bytes) : Bool → DoubleRatchetState K C → Prop
  | cached {key : K} (hgen : s.previousRecvGen = some nonce.generation)
      (hck : s.previousRecvChainKey.isSome)
      (hkey : s.skipMessageKeys.lookup (nonce.generation, nonce.seq) = some key)
      (hdec : decryptChacha20 P key nonce c aad = .ok pt) :
      PreviousDelivery P s nonce c aad pt true
        (s.deliverPreviousCached (s.skipMessageKeys.erase (nonce.generation, nonce.seq))
          nonce.generation nonce.seq)
  | chain {ck : K} {anchor : ℕ} (hgen : s.previousRecvGen = some nonce.generation)
      (hck : s.previousRecvChainKey = some ck) (hanchor : s.previousRecvAnchor = some anchor)
      (hle : anchor ≤ nonce.seq) (hgap : nonce.seq - anchor ≤ s.maxSkip)
      (hdec : decryptChacha20 P (P.chain.keyAt ck (nonce.seq - anchor)) nonce c aad = .ok pt) :
      PreviousDelivery P s nonce c aad pt false
        (s.deliverPreviousChain (P.chain.stateAt ck (nonce.seq - anchor + 1))
          (deriveSkipKeys P ck anchor nonce.generation (nonce.seq - anchor)).2
          nonce.generation nonce.seq)

/-- The retained chain opens a message or leaves the session unchanged. -/
theorem tryPreviousChain_cases {ck : K} {anchor : ℕ}
    (hgen : s.previousRecvGen = some nonce.generation) (hck : s.previousRecvChainKey = some ck)
    (hanchor : s.previousRecvAnchor = some anchor) :
    (∃ e, s.tryPreviousChain P ck anchor nonce.generation nonce.seq nonce c aad = (.error e, s)) ∨
      ∃ pt fromCache s', s.tryPreviousChain P ck anchor nonce.generation nonce.seq nonce c aad =
        (.ok (some (pt, fromCache)), s') ∧ PreviousDelivery P s nonce c aad pt fromCache s' := by
  unfold tryPreviousChain
  split_ifs with hseen hlt hwater
  · exact .inl ⟨_, rfl⟩
  · exact .inl ⟨_, rfl⟩
  · exact .inl ⟨_, rfl⟩
  · split
    · exact .inl ⟨_, rfl⟩
    · rename_i next skipped hadv
      obtain ⟨hgap, rfl, rfl⟩ := advanceReceivingChain_ok.1 hadv
      split
      · exact .inl ⟨_, rfl⟩
      · rename_i pt hdec
        exact .inr ⟨pt, false, _, rfl, .chain hgen hck hanchor (by omega) hgap hdec⟩

variable (P s nonce c aad) in
/-- The dispatch to the previous generation fails or does not apply without touching the session, or
delivers. It applies to all nonces of that generation. -/
theorem dispatchPreviousGeneration_cases :
    (∃ e, s.dispatchPreviousGeneration P nonce.generation nonce.seq nonce c aad = (.error e, s)) ∨
      s.dispatchPreviousGeneration P nonce.generation nonce.seq nonce c aad = (.ok none, s) ∨
      ∃ pt fromCache s', s.dispatchPreviousGeneration P nonce.generation nonce.seq nonce c aad =
        (.ok (some (pt, fromCache)), s') ∧ PreviousDelivery P s nonce c aad pt fromCache s' := by
  unfold dispatchPreviousGeneration
  split_ifs with hguard
  swap
  · exact .inr (.inl rfl)
  unfold tryDecryptPreviousGeneration
  split
  · rename_i ck anchor prevGen hck hanchor hprev
    split_ifs with hne
    · exact .inr (.inl rfl)
    · obtain rfl := not_not.1 hne
      split
      · exact .inl ⟨_, rfl⟩
      · rename_i pt store hcached
        obtain ⟨key, hkey, hdec, rfl⟩ := tryDecryptWithCachedKey_some hcached
        exact .inr (.inr ⟨pt, true, _, rfl, .cached hprev (by rw [hck]; rfl) hkey hdec⟩)
      · rcases tryPreviousChain_cases hprev hck hanchor with h | h
        · exact .inl h
        · exact .inr (.inr h)
  · exact .inr (.inl rfl)

/-! ## The current generation -/

/-- A delivery from the cache, the current chain or the chain of the staged proposal. -/
inductive CurrentDelivery (P : Primitives K C) (s : DoubleRatchetState K C) (nonce : Nonce)
    (c : C) (aad pt : Bytes) : DoubleRatchetState K C → Prop
  | cached {key : K}
      (hkey : s.skipMessageKeys.lookup (nonce.generation, nonce.seq) = some key)
      (hdec : decryptChacha20 P key nonce c aad = .ok pt) :
      CurrentDelivery P s nonce c aad pt
        (s.deliverCached (s.skipMessageKeys.erase (nonce.generation, nonce.seq))
          nonce.generation nonce.seq)
  | chain (hgap : nonce.seq - s.recv.messageCount ≤ s.maxSkip)
      (hdec : decryptChacha20 P
        (P.chain.keyAt s.recv.key (nonce.seq - s.recv.messageCount)) nonce c aad = .ok pt) :
      CurrentDelivery P s nonce c aad pt
        (s.deliverChain (P.chain.stateAt s.recv.key (nonce.seq - s.recv.messageCount + 1))
          (deriveSkipKeys P s.recv.key s.recv.messageCount s.ratchetGeneration
            (nonce.seq - s.recv.messageCount)).2 nonce.seq)

/-- A delivery from the chain of the staged proposal, which commits it. -/
structure PendingDelivery (P : Primitives K C) (s : DoubleRatchetState K C) (nonce : Nonce)
    (c : C) (aad pt : Bytes) (s' : DoubleRatchetState K C) (key : K) : Prop where
  hkey : s.incomingProposal.receivingChainKey = some key
  hgap : nonce.seq ≤ s.maxSkip
  hdec : decryptChacha20 P (P.chain.keyAt key nonce.seq) nonce c aad = .ok pt
  hstate : s' = s.commitPendingRekeyWithRaceResolution.deliverCommitted
    (P.chain.stateAt s.commitPendingRekeyWithRaceResolution.recv.key (nonce.seq + 1))
    (deriveSkipKeys P s.commitPendingRekeyWithRaceResolution.recv.key 0
      s.commitPendingRekeyWithRaceResolution.ratchetGeneration nonce.seq).2 nonce.seq

variable (P s nonce c aad) in
theorem tryDecryptWithChain_cases :
    (∃ e, s.tryDecryptWithChain P nonce.seq nonce c aad = (.error e, s)) ∨
      ∃ pt, nonce.seq - s.recv.messageCount ≤ s.maxSkip ∧
        decryptChacha20 P (P.chain.keyAt s.recv.key (nonce.seq - s.recv.messageCount)) nonce c
          aad = .ok pt ∧
        s.tryDecryptWithChain P nonce.seq nonce c aad =
          (.ok pt, s.deliverChain (P.chain.stateAt s.recv.key (nonce.seq - s.recv.messageCount + 1))
            (deriveSkipKeys P s.recv.key s.recv.messageCount s.ratchetGeneration
              (nonce.seq - s.recv.messageCount)).2 nonce.seq) := by
  unfold tryDecryptWithChain
  simp only [deriveSkipKeys_fst, KeyChain.out_stateAt, KeyChain.step_stateAt]
  split_ifs with hgap
  · exact .inl ⟨_, rfl⟩
  · split
    · exact .inl ⟨_, rfl⟩
    · rename_i pt hdec
      exact .inr ⟨pt, by omega, hdec, rfl⟩

@[simp]
theorem maxSkip_commitPendingRekeyWithRaceResolution :
    s.commitPendingRekeyWithRaceResolution.maxSkip = s.maxSkip := by
  rcases commitPendingRekeyWithRaceResolution_cases s with heq | heq
  · rw [heq, commitPendingRekey_frame]
    rfl
  · rw [heq, commitPendingRekey_frame]

/-- The advancement after a commit is within the same gap as the derivation before it. -/
theorem deliverPending_eq (hgap : seq ≤ s.maxSkip) :
    s.deliverPending P seq = (.ok (), s.commitPendingRekeyWithRaceResolution.deliverCommitted
      (P.chain.stateAt s.commitPendingRekeyWithRaceResolution.recv.key (seq + 1))
      (deriveSkipKeys P s.commitPendingRekeyWithRaceResolution.recv.key 0
        s.commitPendingRekeyWithRaceResolution.ratchetGeneration seq).2 seq) := by
  have hadv : advanceReceivingChain P s.commitPendingRekeyWithRaceResolution.recv.key 0 seq
      s.commitPendingRekeyWithRaceResolution.ratchetGeneration
      s.commitPendingRekeyWithRaceResolution.maxSkip =
        .ok (P.chain.stateAt s.commitPendingRekeyWithRaceResolution.recv.key (seq + 1),
          (deriveSkipKeys P s.commitPendingRekeyWithRaceResolution.recv.key 0
            s.commitPendingRekeyWithRaceResolution.ratchetGeneration seq).2) := by
    rw [advanceReceivingChain_ok, maxSkip_commitPendingRekeyWithRaceResolution]
    exact ⟨by omega, rfl, rfl⟩
  simp only [deliverPending, hadv]

variable (P s nonce c aad) in
/-- The chain of the staged proposal opens a message or leaves the session unchanged. -/
theorem tryPendingChain_cases (firstErr : KyberError) :
    (∃ e, s.tryPendingChain P firstErr nonce.seq nonce c aad = (.error e, s)) ∨
      ∃ pt s' key, s.tryPendingChain P firstErr nonce.seq nonce c aad = (.ok pt, s') ∧
        PendingDelivery P s nonce c aad pt s' key := by
  unfold tryPendingChain
  split
  · exact .inl ⟨_, rfl⟩
  · rename_i key hkey
    unfold deriveTentativeMsgKey
    split_ifs with hgap
    · exact .inl ⟨_, rfl⟩
    · simp only [Nat.sub_zero] at hgap ⊢
      split
      · exact .inl ⟨_, rfl⟩
      · rename_i pt hdec
        refine .inr ⟨pt, _, key, ?_, hkey, by omega, hdec, rfl⟩
        rw [deliverPending_eq (by omega)]

variable (P s nonce c aad) in
/-- Opening a message of the current or next generation fails without touching the session or
delivers it in one of three ways. A delivery by the current chain that has a payload, and no other
one, is classified as a derived proposal. -/
theorem openCurrent_cases (hasPayload : Bool) :
    (∃ e, s.openCurrent P nonce.generation nonce.seq nonce c aad hasPayload = (.error e, s)) ∨
      (∃ pt out s', s.openCurrent P nonce.generation nonce.seq nonce c aad hasPayload =
          (.ok (pt, out), s'.resolveRekeyRaceAndAck nonce.seq hasPayload) ∧
        CurrentDelivery P s nonce c aad pt s' ∧ (out = .proposalDerived ↔ hasPayload = true)) ∨
      ∃ pt s' key, s.openCurrent P nonce.generation nonce.seq nonce c aad hasPayload =
          (.ok (pt, .committed), s') ∧ PendingDelivery P s nonce c aad pt s' key := by
  unfold openCurrent
  split
  · exact .inl ⟨_, rfl⟩
  · rename_i pt store hcached
    obtain ⟨key, hkey, hdec, rfl⟩ := tryDecryptWithCachedKey_some hcached
    refine .inr (.inl ⟨pt, _, _, rfl, .cached hkey hdec, ?_⟩)
    cases hasPayload <;> decide
  · rcases tryDecryptWithChain_cases P s nonce c aad with
      ⟨firstErr, hchain⟩ | ⟨pt, hgap, hdec, hchain⟩
    · rw [hchain]
      rcases tryPendingChain_cases P s nonce c aad firstErr with
        ⟨e, hpend⟩ | ⟨pt, s', key, hpend, hdel⟩
      · exact .inl ⟨e, by simp only [hpend]⟩
      · exact .inr (.inr ⟨pt, s', key, by simp only [hpend], hdel⟩)
    · rw [hchain]
      refine .inr (.inl ⟨pt, _, _, rfl, .chain hgap hdec, ?_⟩)
      cases hasPayload <;> decide

/-! ## The whole receive path -/

section

variable (s) (nonce)

/-- The nonce passes validation. -/
structure Admits : Prop where
  generation_ne : s.ratchetGeneration ≠ u32Max
  generation : nonce.generation = s.ratchetGeneration ∨
    nonce.generation = saturatingSucc s.ratchetGeneration ∨
    nonce.generation = s.previousRecvGen.getD u32Max ∧ s.previousRecvChainKey.isSome
  not_seen : (nonce.generation, nonce.seq) ∉ s.replayWindow.seen

/-- The nonce is not one that the retained previous generation handles. -/
def SkipsPrevious : Prop :=
  s.previousRecvChainKey.isSome → s.previousRecvAnchor.isSome →
    s.previousRecvGen ≠ some nonce.generation

end

theorem skipsPrevious_of_dispatch
    (h : s.dispatchPreviousGeneration P nonce.generation nonce.seq nonce c aad = (.ok none, s)) :
    s.SkipsPrevious nonce := by
  intro hck hanchor hgen
  obtain ⟨ck, hck⟩ := Option.isSome_iff_exists.1 hck
  obtain ⟨anchor, hanchor⟩ := Option.isSome_iff_exists.1 hanchor
  simp only [dispatchPreviousGeneration, tryDecryptPreviousGeneration, hck, hanchor, hgen,
    Option.getD_some, Option.isSome_some, and_self, if_true, ne_eq, not_true_eq_false,
    if_false] at h
  split at h
  · simp at h
  · simp at h
  · rcases tryPreviousChain_cases (P := P) (c := c) hgen hck hanchor with
      ⟨e, h'⟩ | ⟨pt, b, s', h', _⟩
    · rw [h'] at h
      simp at h
    · rw [h'] at h
      simp at h

/-- What the derivation of the incoming proposal does to the session: nothing without a
payload or for a superseded carrier, otherwise the proposal is staged. -/
inductive Derives (P : Primitives K C) (s : DoubleRatchetState K C) (nonce : Nonce)
    (now : Clock) : Option RekeyPayload → DoubleRatchetState K C → Prop
  | absent : Derives P s nonce now none s
  | superseded {payload : RekeyPayload} (h : s.carrierSuperseded nonce.generation = true) :
      Derives P s nonce now (some payload) s
  | staged {payload : RekeyPayload} {ss : Bytes}
      (h : s.carrierSuperseded nonce.generation = false)
      (hss : s.decapsulateRekey P payload.ciphertext = some ss) :
      Derives P s nonce now (some payload)
        (s.stageIncoming P ss payload.x25519Pk payload.mlkemPk nonce.generation nonce.seq now)

/-- A call of the rekey-aware entry with a complete or absent payload. -/
def decryptPayload (P : Primitives K C) (s : DoubleRatchetState K C) (nonce : Nonce) (c : C)
    (payload : Option RekeyPayload) (now : Clock) :
    Except KyberError Bytes × DoubleRatchetState K C :=
  s.ratchetDecryptWithRekey P nonce c (payload.map (·.ciphertext)) (payload.map (·.x25519Pk))
    (payload.map (·.mlkemPk)) now

/-- The possible results of decrypting a message. -/
inductive DecryptStep (P : Primitives K C) (s : DoubleRatchetState K C) (nonce : Nonce) (c : C)
    (payload : Option RekeyPayload) (now : Clock) :
    Except KyberError Bytes → DoubleRatchetState K C → Prop
  | refused (e : KyberError) : DecryptStep P s nonce c payload now (.error e) s
  | failed (e : KyberError) {s' : DoubleRatchetState K C} (hadmits : s.Admits nonce)
      (hskip : s.SkipsPrevious nonce) (hderives : Derives P s nonce now payload s') :
      DecryptStep P s nonce c payload now (.error e) s'
  | previous {pt : Bytes} {fromCache : Bool} {s' : DoubleRatchetState K C}
      (hadmits : s.Admits nonce)
      (hdel : PreviousDelivery P s nonce c (payloadAad payload) pt fromCache s') :
      DecryptStep P s nonce c payload now (.ok pt) s'
  | current {pt : Bytes} {s₁ s₂ : DoubleRatchetState K C} (hadmits : s.Admits nonce)
      (hskip : s.SkipsPrevious nonce) (hderives : Derives P s nonce now payload s₁)
      (hdel : CurrentDelivery P s₁ nonce c (payloadAad payload) pt s₂) :
      DecryptStep P s nonce c payload now (.ok pt)
        (s₂.resolveRekeyRaceAndAck nonce.seq payload.isSome)
  | pending {pt : Bytes} {s₁ s₂ : DoubleRatchetState K C} {key : K} (hadmits : s.Admits nonce)
      (hskip : s.SkipsPrevious nonce) (hderives : Derives P s nonce now payload s₁)
      (hdel : PendingDelivery P s₁ nonce c (payloadAad payload) pt s₂ key) :
      DecryptStep P s nonce c payload now (.ok pt) s₂

variable (P s nonce c) in
/-- The rekey-aware entry forgets the classification. -/
theorem ratchetDecryptWithRekey_eq (rekeyCiphertext rekeyX25519Pk rekeyMlkemPk : Option Bytes)
    (now : Clock) :
    s.ratchetDecryptWithRekey P nonce c rekeyCiphertext rekeyX25519Pk rekeyMlkemPk now =
      ((s.ratchetDecryptWithRekeyClassified P nonce c rekeyCiphertext rekeyX25519Pk rekeyMlkemPk
          now).1.map Prod.fst,
        (s.ratchetDecryptWithRekeyClassified P nonce c rekeyCiphertext rekeyX25519Pk rekeyMlkemPk
          now).2) := by
  unfold ratchetDecryptWithRekey
  rcases s.ratchetDecryptWithRekeyClassified P nonce c rekeyCiphertext rekeyX25519Pk rekeyMlkemPk
    now with ⟨_ | ⟨pt, outcome⟩, t⟩
  · rfl
  · rfl

variable (P s nonce c) in
/-- Inversion of the rekey-aware entry for complete or absent payloads. -/
theorem decryptPayload_step (payload : Option RekeyPayload) (now : Clock) :
    DecryptStep P s nonce c payload now (s.decryptPayload P nonce c payload now).1
      (s.decryptPayload P nonce c payload now).2 := by
  rw [decryptPayload, ratchetDecryptWithRekey_eq]
  unfold ratchetDecryptWithRekeyClassified
  rw [buildRekeyAad_payload]
  cases hvalid : s.validateAndExtractNonce nonce with
  | error e => exact .refused e
  | ok gq =>
    obtain ⟨g, q⟩ := gq
    obtain ⟨hmax, rfl, rfl, hgen, hseen⟩ := validateAndExtractNonce_ok hvalid
    have hadmits : s.Admits nonce := ⟨hmax, hgen, hseen⟩
    rcases dispatchPreviousGeneration_cases P s nonce c (payloadAad payload) with
      ⟨e, hd⟩ | hd | ⟨pt, fromCache, s', hd, hdel⟩
    · simp only [hd]
      exact .refused e
    · have hskip := skipsPrevious_of_dispatch hd
      simp only [hd]
      -- the proposal of the carrier is derived before the message is opened
      have hopen : ∀ s₁, Derives P s nonce now payload s₁ →
          DecryptStep P s nonce c payload now
            ((s₁.openCurrent P nonce.generation nonce.seq nonce c (payloadAad payload)
              payload.isSome).1.map Prod.fst)
            (s₁.openCurrent P nonce.generation nonce.seq nonce c (payloadAad payload)
              payload.isSome).2 := by
        intro s₁ hderives
        rcases openCurrent_cases P s₁ nonce c (payloadAad payload) payload.isSome with
          ⟨e, ho⟩ | ⟨pt, out, s₂, ho, hdel, _⟩ | ⟨pt, s₂, key, ho, hdel⟩
        · rw [ho]
          exact .failed e hadmits hskip hderives
        · rw [ho]
          exact .current hadmits hskip hderives hdel
        · rw [ho]
          exact .pending hadmits hskip hderives hdel
      cases payload with
      | none => exact hopen s .absent
      | some p =>
        simp only [Option.map_some, deriveIncomingProposal]
        cases hsup : s.carrierSuperseded nonce.generation with
        | true => exact hopen s (.superseded hsup)
        | false =>
          cases hss : s.decapsulateRekey P p.ciphertext with
          | none => exact .refused _
          | some ss => exact hopen _ (.staged hsup hss)
    · simp only [hd]
      exact .previous hadmits hdel

/-- The payload of complete rekey parameters. -/
def completePayload (rekeyCiphertext rekeyX25519Pk rekeyMlkemPk : Option Bytes) :
    Option RekeyPayload :=
  match rekeyCiphertext, rekeyX25519Pk, rekeyMlkemPk with
  | some ct, some xpk, some mpk => some ⟨xpk, mpk, ct⟩
  | _, _, _ => none

variable (P s nonce c) in
/-- Incomplete rekey parameters are refused before anything is done with them. -/
theorem ratchetDecryptWithRekey_of_buildRekeyAad_error {rct rx rm : Option Bytes}
    {e : KyberError} (he : buildRekeyAad rct rx rm = .error e) (now : Clock) :
    ∃ e', s.ratchetDecryptWithRekey P nonce c rct rx rm now = (.error e', s) := by
  unfold ratchetDecryptWithRekey ratchetDecryptWithRekeyClassified
  cases s.validateAndExtractNonce nonce with
  | error e' => exact ⟨e', rfl⟩
  | ok gq =>
    refine ⟨e, ?_⟩
    simp only [he]

variable (P s nonce c) in
/-- Rekey parameters are complete, absent, or refused before anything is done with them. -/
theorem ratchetDecryptWithRekey_cases (rct rx rm : Option Bytes) (now : Clock) :
    s.ratchetDecryptWithRekey P nonce c rct rx rm now =
        s.decryptPayload P nonce c (completePayload rct rx rm) now ∨
      ∃ e, s.ratchetDecryptWithRekey P nonce c rct rx rm now = (.error e, s) := by
  by_cases hpartial : ∃ e, buildRekeyAad rct rx rm = .error e
  · obtain ⟨e, he⟩ := hpartial
    exact .inr (ratchetDecryptWithRekey_of_buildRekeyAad_error P s nonce c he now)
  · refine .inl ?_
    cases rct <;> cases rx <;> cases rm <;>
      first
        | rfl
        | exact absurd ⟨_, rfl⟩ hpartial

variable (P s nonce c) in
/-- Inversion of the rekey-aware entry. -/
theorem ratchetDecryptWithRekey_step (rct rx rm : Option Bytes) (now : Clock) :
    DecryptStep P s nonce c (completePayload rct rx rm) now
      (s.ratchetDecryptWithRekey P nonce c rct rx rm now).1
      (s.ratchetDecryptWithRekey P nonce c rct rx rm now).2 := by
  rcases ratchetDecryptWithRekey_cases P s nonce c rct rx rm now with h | ⟨e, h⟩
  · rw [h]
    exact decryptPayload_step P s nonce c _ now
  · rw [h]
    exact .refused e

variable (P s nonce c) in
/-- Without a payload the two entries are the same function. -/
theorem ratchetDecrypt_eq_decryptPayload (now : Clock) :
    s.ratchetDecrypt P nonce c = s.decryptPayload P nonce c none now := by
  unfold ratchetDecrypt ratchetDecryptWithAad decryptPayload ratchetDecryptWithRekey
    ratchetDecryptWithRekeyClassified
  rw [buildRekeyAad_payload]
  cases hvalid : s.validateAndExtractNonce nonce with
  | error e => rfl
  | ok gq =>
    obtain ⟨g, q⟩ := gq
    obtain ⟨_, rfl, rfl, _, _⟩ := validateAndExtractNonce_ok hvalid
    rcases dispatchPreviousGeneration_cases P s nonce c [] with
      ⟨e, hd⟩ | hd | ⟨pt, fromCache, s', hd, _⟩
    · simp only [payloadAad, Option.elim_none, hd]
    · simp only [payloadAad, Option.elim_none, hd, Option.map_none, openCurrent]
      cases tryDecryptWithCachedKey P s.skipMessageKeys nonce.generation nonce.seq nonce c [] with
      | error e => rfl
      | ok cached =>
        cases cached with
        | some hit => rfl
        | none =>
          rcases tryDecryptWithChain_cases P s nonce c [] with ⟨e, hc⟩ | ⟨pt, _, _, hc⟩
          · simp only [hc]
            rcases tryPendingChain_cases P s nonce c [] e with ⟨e', hp⟩ | ⟨pt, s', _, hp, _⟩
            · simp only [hp]
            · simp only [hp]
          · simp only [hc]
            rfl
    · simp only [payloadAad, Option.elim_none, hd]

variable (P s nonce c) in
/-- Inversion of the plain entry. -/
theorem ratchetDecrypt_step (now : Clock) :
    DecryptStep P s nonce c none now (s.ratchetDecrypt P nonce c).1
      (s.ratchetDecrypt P nonce c).2 := by
  rw [ratchetDecrypt_eq_decryptPayload P s nonce c now]
  exact decryptPayload_step P s nonce c none now

/-! ## Frames -/

/-- A delivery of the previous generation touches only the retained chain, the replay window
and the cache. -/
theorem PreviousDelivery.frame {fromCache : Bool}
    (h : PreviousDelivery P s nonce c aad pt fromCache s') :
    s' = { s with
      previousRecvChainKey := s'.previousRecvChainKey
      previousRecvAnchor := s'.previousRecvAnchor
      replayWindow := s'.replayWindow
      skipMessageKeys := s'.skipMessageKeys } := by
  cases h <;> rfl

/-- A delivery of the current generation touches only the receiving chain, the replay window
and the cache. -/
theorem CurrentDelivery.frame (h : CurrentDelivery P s nonce c aad pt s') :
    s' = { s with
      recv := s'.recv
      replayWindow := s'.replayWindow
      skipMessageKeys := s'.skipMessageKeys } := by
  cases h <;> rfl

/-- Deriving a proposal touches only the incoming slot. -/
theorem Derives.frame {payload : Option RekeyPayload} {now : Clock}
    (h : Derives P s nonce now payload s') :
    s' = { s with incomingProposal := s'.incomingProposal } := by
  cases h <;> rfl

section

variable (s) (seq)

/-- Deciding a race touches only the two slots, the confirm queue and the pending carrier. -/
theorem resolveRekeyRaceAndAck_frame (hasPayload : Bool) :
    s.resolveRekeyRaceAndAck seq hasPayload =
      { s with
        incomingProposal := (s.resolveRekeyRaceAndAck seq hasPayload).incomingProposal
        outgoingProposal := (s.resolveRekeyRaceAndAck seq hasPayload).outgoingProposal
        rekeyPendingConfirmQueue :=
          (s.resolveRekeyRaceAndAck seq hasPayload).rekeyPendingConfirmQueue
        pendingRekeyAckSeq := (s.resolveRekeyRaceAndAck seq hasPayload).pendingRekeyAckSeq } := by
  unfold resolveRekeyRaceAndAck
  split_ifs <;> rfl

/-- Deciding a race keeps the outgoing slot or empties it. -/
theorem resolveRekeyRaceAndAck_outgoing (hasPayload : Bool) :
    (s.resolveRekeyRaceAndAck seq hasPayload).outgoingProposal = s.outgoingProposal ∨
      (s.resolveRekeyRaceAndAck seq hasPayload).outgoingProposal = {} := by
  unfold resolveRekeyRaceAndAck
  split_ifs
  · exact .inl rfl
  · exact .inr rfl
  · exact .inl rfl
  · exact .inl rfl

/-- Deciding a race keeps the incoming slot or empties it. -/
theorem resolveRekeyRaceAndAck_incoming (hasPayload : Bool) :
    (s.resolveRekeyRaceAndAck seq hasPayload).incomingProposal = s.incomingProposal ∨
      (s.resolveRekeyRaceAndAck seq hasPayload).incomingProposal =
        { attachedAtMono := s.incomingProposal.attachedAtMono } := by
  unfold resolveRekeyRaceAndAck
  split_ifs
  · exact .inl rfl
  · exact .inl rfl
  · exact .inr rfl
  · exact .inl rfl

end

end DoubleRatchetState

end KyberPipe
