import Mathlib.Data.Set.Image
import KyberPipe.Ratchet.ReceiveSteps

/-!
# Sender and receiver of one generation

The messages that a sender encrypts within one generation are sealed under the successive keys of
one chain. A receiver is aligned with that chain if its receiving chain is the same one at the
position of its counter and every cached key of the generation is the key of its position. Receiving
messages of the chain, in any order and repeatedly, keeps it aligned.
-/

namespace KyberPipe

open KeyChain

namespace DoubleRatchetState

variable {K C : Type} {P : Primitives K C} {s s' t : DoubleRatchetState K C} {k : K}

/-! ## The sender -/

/-- The `i`-th message of generation `g`, sealed over `pt` under the chain from `k`. -/
def Genuine (P : Primitives K C) (k : K) (g i : ℕ) (pt : Bytes) (m : RatchetEncryptedMessage C) :
    Prop :=
  ∃ c payload, m = messageOf ⟨g, i⟩ c payload ∧
    P.aeadSeal (P.chain.keyAt k i) ⟨g, i⟩ pt (payloadAad payload) = some c ∧
    ∀ p, payload = some p → Encapsulated P p.ciphertext

/-- A run of a sender within one generation: encryptions that succeed, with their plaintexts
and messages in order, and other steps that leave the sending chain alone. -/
inductive SendRun (P : Primitives K C) :
    DoubleRatchetState K C → List (Bytes × RatchetEncryptedMessage C) →
      DoubleRatchetState K C → Prop
  | done (s : DoubleRatchetState K C) : SendRun P s [] s
  | encrypt {s s' u : DoubleRatchetState K C} {pt : Bytes} {rnd : EncryptRandomness}
      {now : Clock} {m : RatchetEncryptedMessage C}
      {sent : List (Bytes × RatchetEncryptedMessage C)}
      (h : s.ratchetEncrypt P pt rnd now = (.ok m, s')) (rest : SendRun P s' sent u) :
      SendRun P s ((pt, m) :: sent) u
  | step {s s' u : DoubleRatchetState K C} {sent : List (Bytes × RatchetEncryptedMessage C)}
      (h : Evolves P s s') (hsend : s'.send = s.send)
      (hgen : s'.ratchetGeneration = s.ratchetGeneration) (rest : SendRun P s' sent u) :
      SendRun P s sent u

theorem SendRun.append {u : DoubleRatchetState K C}
    {sent sent' : List (Bytes × RatchetEncryptedMessage C)} (hrun : SendRun P s sent t)
    (hrun' : SendRun P t sent' u) : SendRun P s (sent ++ sent') u := by
  induction hrun with
  | done s => exact hrun'
  | encrypt h _ ih => exact .encrypt h (ih hrun')
  | step h hsend hgen _ ih => exact .step h hsend hgen (ih hrun')

variable {m : RatchetEncryptedMessage C} {now : Clock} {pt : Bytes} {rnd : EncryptRandomness}

/-- A successful encryption seals the message at the counter and advances the chain. -/
theorem EncryptStep.genuine (hkeyed : s.WellKeyed P)
    (hkey : s.send.key = P.chain.stateAt k s.send.messageCount)
    (hstep : EncryptStep P s pt rnd now (.ok m) s') :
    Genuine P k s.ratchetGeneration s.send.messageCount pt m ∧
      s'.send.key = P.chain.stateAt k s'.send.messageCount := by
  have hcount := hstep.send_count.2
  cases hstep with
  | @sent payload u c hmax hattach hseal =>
    have hcounted : s.countSend.WellKeyed P :=
      hkeyed.of_keeps rfl (.of_eq rfl rfl rfl)
    have hpayload := (hattach.wellKeyed hcounted).2
    refine ⟨⟨c, payload, rfl, ?_, fun p hp => hpayload p (by rw [hp])⟩, ?_⟩
    · rw [hkey, out_stateAt] at hseal
      exact hseal
    · rw [hcount]
      show P.chain.step u.send.key = _
      have hu : u.send.key = s.send.key := by
        rw [hattach.frame]
        rfl
      rw [hu, hkey, step_stateAt]

theorem EncryptStep.generation_ne (hstep : EncryptStep P s pt rnd now (.ok m) s') :
    s.ratchetGeneration ≠ u32Max := by
  cases hstep with
  | sent hmax _ _ => exact hmax

variable {sent : List (Bytes × RatchetEncryptedMessage C)} {i : ℕ}

/-- Every message of a sender's run is genuine at its position. -/
theorem SendRun.genuine (hrun : SendRun P s sent t) (hkeyed : s.WellKeyed P)
    (hkey : s.send.key = P.chain.stateAt k s.send.messageCount) (hi : sent[i]? = some (pt, m)) :
    Genuine P k s.ratchetGeneration (s.send.messageCount + i) pt m ∧
      s.ratchetGeneration ≠ u32Max := by
  induction hrun generalizing i with
  | done s => exact absurd hi (by simp)
  | @encrypt s s' u pt' rnd now m' sent h _ ih =>
    have hstep := ratchetEncrypt_step P s pt' rnd now
    rw [h] at hstep
    obtain ⟨hgenuine, hkey'⟩ := hstep.genuine hkeyed hkey
    obtain ⟨hgen, hcount⟩ := hstep.send_count
    cases i with
    | zero =>
      obtain ⟨rfl, rfl⟩ := Prod.mk.inj (Option.some.inj hi)
      exact ⟨hgenuine, hstep.generation_ne⟩
    | succ i =>
      have hrest := ih (hstep.wellKeyed hkeyed) hkey' (by simpa using hi)
      rw [hgen, hcount, Nat.add_right_comm, Nat.add_assoc] at hrest
      exact hrest
  | step h hsend hgen _ ih =>
    have hrest := ih (h.wellKeyed hkeyed) (by rw [hsend, hkey]) hi
    rw [hgen, hsend] at hrest
    exact hrest

/-- The messages of a run that starts with an untouched chain are genuine at their indices. -/
theorem SendRun.genuine_of_start (hrun : SendRun P s sent t) (hreach : s.Reachable P)
    (hstart : s.send = ⟨k, 0⟩) (hi : sent[i]? = some (pt, m)) :
    Genuine P k s.ratchetGeneration i pt m ∧ s.ratchetGeneration ≠ u32Max := by
  have hkey : s.send.key = P.chain.stateAt k s.send.messageCount := by
    rw [hstart]
    rfl
  have hgenuine := hrun.genuine hreach.wellKeyed hkey hi
  rwa [hstart, Nat.zero_add] at hgenuine

/-! ## The receiver -/

variable (P) in
/-- Hand a received message to the rekey-aware entry. -/
def receive (s : DoubleRatchetState K C) (m : RatchetEncryptedMessage C) (now : Clock) :
    Except KyberError Bytes × DoubleRatchetState K C :=
  s.ratchetDecryptWithRekey P m.nonce m.ciphertext m.rekeyCiphertext m.rekeyX25519Pk
    m.rekeyMlkemPk now

theorem receive_messageOf (s : DoubleRatchetState K C) (nonce : Nonce) (c : C)
    (payload : Option RekeyPayload) (now : Clock) :
    s.receive P (messageOf nonce c payload) now = s.decryptPayload P nonce c payload now :=
  rfl

variable {payload : Option RekeyPayload}

/-- A complete message is decrypted by the rekey-aware entry or, without a payload, by the plain
one, with the same result. -/
theorem decryptMessage_messageOf (s : DoubleRatchetState K C) (nonce : Nonce) (c : C) (now : Clock)
    (hlength : ∀ p, payload = some p → p.x25519Pk.length = 32) :
    s.decryptMessage P (messageOf nonce c payload) now =
      s.receive P (messageOf nonce c payload) now := by
  cases payload with
  | none => exact ratchetDecrypt_eq_decryptPayload P s nonce c now
  | some p => simp [decryptMessage, messageOf, receive, hlength p rfl]

/-- The receiver is aligned with the chain from `k`, of which it has delivered the positions in
`delivered`. -/
structure Aligned (P : Primitives K C) (s : DoubleRatchetState K C) (k : K)
    (delivered : Set ℕ) : Prop where
  isSeed : P.chain.IsSeed k
  generation_ne : s.ratchetGeneration ≠ u32Max
  spent : s.Spent P (Set.image (P.chain.keyAt k) delivered)
  recv : s.recv.key = P.chain.stateAt k s.recv.messageCount
  cache : ∀ i key, s.skipMessageKeys.lookup (s.ratchetGeneration, i) = some key →
    i < s.recv.messageCount ∧ key = P.chain.keyAt k i
  delivered_lt : ∀ i ∈ delivered, i < s.recv.messageCount
  seen : ∀ i, (s.ratchetGeneration, i) ∈ s.replayWindow.seen → i ∈ delivered

variable {delivered : Set ℕ}

/-- The history of an aligned receiver has the chain at the position of the counter. -/
theorem Aligned.history (ideal : P.Ideal) (hal : s.Aligned P k delivered) :
    ∃ h : KeyHistory K, Set.image (P.chain.keyAt k) delivered ⊆ h.used ∧ s.KeysFit P h ∧
      h.seed s.ratchetGeneration = k := by
  obtain ⟨h, hused, hfit⟩ := hal.spent.2.resolve_left hal.generation_ne
  have hrecv := hfit.recv.symm.trans hal.recv
  exact ⟨h, hused, hfit, (stateAt_inj ideal.step_injective
    (hfit.isSeed _ le_rfl) hal.isSeed hrecv).1⟩

/-- The retained generation of an aligned receiver is an older one. -/
theorem Aligned.previousGen_lt (ideal : P.Ideal) (hal : s.Aligned P k delivered) {g : ℕ}
    (hgen : s.previousRecvGen = some g) (hck : s.previousRecvChainKey.isSome) :
    g < s.ratchetGeneration := by
  obtain ⟨h, _, hfit, _⟩ := hal.history ideal
  obtain ⟨ck, hck⟩ := Option.isSome_iff_exists.1 hck
  exact (hfit.previous ck g hck hgen).1

/-- A receiver whose chain stays and whose generation gains no key and no delivery stays
aligned. -/
theorem Aligned.of_recv_eq (hal : s.Aligned P k delivered)
    (hspent : t.Spent P (Set.image (P.chain.keyAt k) delivered))
    (hgen : t.ratchetGeneration = s.ratchetGeneration) (hrecv : t.recv = s.recv)
    (hcache : ∀ i key, t.skipMessageKeys.lookup (s.ratchetGeneration, i) = some key →
      s.skipMessageKeys.lookup (s.ratchetGeneration, i) = some key)
    (hseen : ∀ i, (s.ratchetGeneration, i) ∈ t.replayWindow.seen →
      (s.ratchetGeneration, i) ∈ s.replayWindow.seen) : t.Aligned P k delivered where
  isSeed := hal.isSeed
  generation_ne := hgen ▸ hal.generation_ne
  spent := hspent
  recv := by rw [hrecv, hal.recv]
  cache := by
    rw [hgen, hrecv]
    exact fun i key hlookup => hal.cache i key (hcache i key hlookup)
  delivered_lt := by
    rw [hrecv]
    exact hal.delivered_lt
  seen := by
    rw [hgen]
    exact fun i hi => hal.seen i (hseen i hi)

theorem Aligned.of_same (hal : s.Aligned P k delivered) (hsame : SameReceive s t)
    (hspent : t.Spent P (Set.image (P.chain.keyAt k) delivered)) : t.Aligned P k delivered := by
  refine hal.of_recv_eq hspent hsame.generation hsame.recv ?_ ?_
  · rw [hsame.cache]
    exact fun _ _ h => h
  · rw [hsame.window]
    exact fun _ h => h

/-- A position of another generation or the recorded one, after a delivery was recorded. -/
theorem mem_seen_of_recordDelivered {w : ReplayWindow} {e : ℕ × ℕ} {g seq : ℕ}
    (h : e ∈ (w.recordDelivered g seq).seen) : e = (g, seq) ∨ e ∈ w.seen :=
  Finset.mem_insert.1 (w.recordDelivered_subset g seq h)

/-- Recording a delivery adds no position of another generation. -/
theorem mem_seen_of_recordDelivered_ne {w : ReplayWindow} {e : ℕ × ℕ} {g seq : ℕ} (hne : e.1 ≠ g)
    (h : e ∈ (w.recordDelivered g seq).seen) : e ∈ w.seen := by
  rcases mem_seen_of_recordDelivered h with rfl | hold
  · exact absurd rfl hne
  · exact hold

section Ideal

variable (ideal : P.Ideal)
include ideal

section

variable (hal : s.Aligned P k delivered)
include hal

/-- A step beside the chain within the generation keeps the receiver aligned. -/
theorem Aligned.beside (hstep : EvolvesBeside P k s t)
    (hgen : t.ratchetGeneration = s.ratchetGeneration) : t.Aligned P k delivered := by
  have hspent : t.Spent P (Set.image (P.chain.keyAt k) delivered) :=
    hstep.evolves.spent ideal hal.spent
  obtain ⟨h, _, hfit, _⟩ := hal.history ideal
  have hne := hgen ▸ hal.generation_ne
  cases hstep.receivesBeside ideal hfit hal.spent.1 hal.generation_ne hgen with
  | quiet hsame => exact hal.of_same hsame hspent
  | moved targetSeq hlt hsame =>
    refine ⟨hal.isSeed, hne, hspent, ?_, ?_, ?_, ?_⟩
    · rw [hsame.recv]
      show (deriveSkipKeys P s.recv.key _ _ _).1 = P.chain.stateAt k targetSeq
      rw [deriveSkipKeys_fst, hal.recv, stateAt_stateAt, Nat.add_sub_cancel' hlt.le]
    · intro i key hlookup
      rw [hgen, hsame.cache] at hlookup
      rw [hsame.recv]
      show i < targetSeq ∧ _
      rcases lookup_cacheSkipKeys_cases hlookup with hold | ⟨j, hj, he, hkey⟩
      · obtain ⟨hi, hkey⟩ := hal.cache i key hold
        exact ⟨hi.trans hlt, hkey⟩
      · obtain rfl : i = s.recv.messageCount + j := (Prod.mk.inj he).2
        refine ⟨by omega, ?_⟩
        rw [hkey, hal.recv, keyAt_stateAt]
    · intro i hi
      rw [hsame.recv]
      exact (hal.delivered_lt i hi).trans hlt
    · intro i hi
      rw [hgen, hsame.window] at hi
      exact hal.seen i hi
  | @opened nonce key hopens hkey =>
    cases hopens with
    | previousCached hprev hck _ hsame =>
      have hlt := hal.previousGen_lt ideal hprev hck
      refine hal.of_recv_eq hspent hgen hsame.recv ?_ ?_
      · rw [hsame.cache]
        exact fun i key' => AList.lookup_of_lookup_erase
      · intro i hi
        rw [hsame.window] at hi
        exact mem_seen_of_recordDelivered_ne hlt.ne' hi
    | @previousChain ck anchor _ hprev hck _ _ hsame =>
      have hlt := hal.previousGen_lt ideal hprev (by rw [hck]; rfl)
      refine hal.of_recv_eq hspent hgen hsame.recv ?_ ?_
      · intro i key' hlookup
        rw [hsame.cache] at hlookup
        exact lookup_of_cacheSkipKeys_ne hlt.ne' hlookup
      · intro i hi
        rw [hsame.window] at hi
        exact mem_seen_of_recordDelivered_ne hlt.ne' hi
    | cached hskip hlookup hsame =>
      -- a cached key of this generation would be a key of the chain
      have hother : nonce.generation ≠ s.ratchetGeneration := by
        intro heq
        rw [heq] at hlookup
        exact hkey nonce.seq (hal.cache nonce.seq key hlookup).2
      refine hal.of_recv_eq hspent hgen hsame.recv ?_ ?_
      · rw [hsame.cache]
        exact fun i key' => AList.lookup_of_lookup_erase
      · intro i hi
        rw [hsame.window] at hi
        exact mem_seen_of_recordDelivered_ne hother.symm hi
    | chain hskip hsame =>
      refine absurd ?_ (hkey (s.recv.messageCount + (nonce.seq - s.recv.messageCount)))
      rw [hal.recv, keyAt_stateAt]

/-- The staged proposal's chain is not the chain of the generation. -/
theorem Aligned.pending_ne {nonce : Nonce} {s₁ : DoubleRatchetState K C} {seed : K}
    (hderives : Derives P s nonce now payload s₁)
    (hseed : s₁.incomingProposal.receivingChainKey = some seed) :
    P.chain.IsSeed seed ∧ seed ≠ k := by
  obtain ⟨h, _, hfit, hk⟩ := hal.history ideal
  rcases (hderives.slotsFit hfit.slots).incoming with hempty | ⟨r, ss, hfrom, hnew, _⟩
  · rw [hempty.2.2] at hseed
    cases hseed
  · obtain rfl := Option.some.inj (hfrom.2.2.symm.trans hseed)
    refine ⟨ideal.isSeed_nextSendChain r ss, ?_⟩
    rintro rfl
    exact hnew ⟨s.ratchetGeneration, le_rfl, hk⟩

/-- An aligned receiver opens a genuine message only with its own key, only once, and either
from the cache or from the chain. -/
theorem Aligned.of_ok {c : C} {pt pt' : Bytes}
    (hseal : P.aeadSeal (P.chain.keyAt k i) ⟨s.ratchetGeneration, i⟩ pt (payloadAad payload) =
      some c) (hstep : DecryptStep P s ⟨s.ratchetGeneration, i⟩ c payload now (.ok pt') t) :
    pt' = pt ∧ i ∉ delivered ∧ t.Spent P (Set.image (P.chain.keyAt k) (insert i delivered)) ∧
      (s.skipMessageKeys.lookup (s.ratchetGeneration, i) = some (P.chain.keyAt k i) ∧
          SameReceive (s.deliverCached (s.skipMessageKeys.erase (s.ratchetGeneration, i))
            s.ratchetGeneration i) t ∨ s.recv.messageCount ≤ i ∧ SameReceive (s.deliverChain
            (P.chain.stateAt s.recv.key (i - s.recv.messageCount + 1))
            (deriveSkipKeys P s.recv.key s.recv.messageCount s.ratchetGeneration
              (i - s.recv.messageCount)).2 i) t) := by
  have hopen := ideal.open_of_seal hseal
  obtain ⟨key, hopen', hunused, hspent⟩ := hstep.spent ideal hal.spent
  obtain rfl := ideal.key_eq_of_open hopen' hopen
  obtain rfl : pt' = pt := Option.some.inj (hopen'.symm.trans hopen)
  refine ⟨rfl, fun hi => hunused ⟨i, hi, rfl⟩, by rwa [Set.image_insert_eq], ?_⟩
  rcases hstep.opens with ⟨key, hdec, hopens⟩ | ⟨s₁, seed, _, hderives, hdel⟩
  · have hkey := key_eq_of_decryptChacha20 ideal hseal hdec
    cases hopens with
    | previousCached hprev hck _ _ =>
      exact absurd (hal.previousGen_lt ideal hprev hck) (lt_irrefl _)
    | previousChain hprev hck _ _ _ =>
      exact absurd (hal.previousGen_lt ideal hprev (by rw [hck]; rfl)) (lt_irrefl _)
    | cached _ hlookup hsame => exact .inl ⟨hkey ▸ hlookup, hsame⟩
    | chain _ hsame =>
      rw [hal.recv, keyAt_stateAt] at hkey
      have hpos := (ideal.keyAt_inj hal.isSeed hal.isSeed hkey).2
      dsimp only at hpos
      exact .inr ⟨by omega, hsame⟩
  · -- the staged chain is another chain, so it does not open the message
    obtain ⟨hseed, hne⟩ := hal.pending_ne ideal hderives hdel.hkey
    have hkey := key_eq_of_decryptChacha20 ideal hseal hdel.hdec
    exact absurd (ideal.keyAt_inj hseed hal.isSeed hkey).1 hne

end

variable {res : Except KyberError Bytes}

/-- A ciphertext that is sealed under the key of its position is refused or delivered with its
plaintext for the first time, and the receiver stays aligned. -/
theorem Aligned.step (hal : s.Aligned P k delivered) {c : C} {pt aad : Bytes}
    (hseal : P.aeadSeal (P.chain.keyAt k i) ⟨s.ratchetGeneration, i⟩ pt aad = some c)
    (hstep : DecryptStep P s ⟨s.ratchetGeneration, i⟩ c payload now res t) :
    t.ratchetGeneration = s.ratchetGeneration ∧
      ((∃ e, res = .error e ∧ t.Aligned P k delivered) ∨
        res = .ok pt ∧ i ∉ delivered ∧ t.Aligned P k (insert i delivered)) := by
  cases res with
  | error e =>
    have hsame := hstep.sameReceive_of_error
    refine ⟨hsame.generation, .inl ⟨e, rfl, hal.of_same hsame ?_⟩⟩
    exact (Evolves.decrypt hstep).spent ideal hal.spent
  | ok pt' =>
    -- what opens was sealed with the same associated data
    obtain ⟨key, hdec⟩ := hstep.exists_open
    obtain rfl := (ideal.seal_inj hseal
      (ideal.seal_of_open (aeadOpen_of_decryptChacha20 hdec))).2.2.2
    obtain ⟨rfl, hnew, hspent, hcached | hchain⟩ := hal.of_ok ideal hseal hstep
    · obtain ⟨hlookup, hsame⟩ := hcached
      refine ⟨hsame.generation, .inr ⟨rfl, hnew, hal.isSeed,
        hsame.generation ▸ hal.generation_ne, hspent, ?_, ?_, ?_, ?_⟩⟩
      · rw [hsame.recv]
        exact hal.recv
      · intro j key hj
        rw [hsame.generation, hsame.cache] at hj
        rw [hsame.recv]
        exact hal.cache j key (AList.lookup_of_lookup_erase hj)
      · rw [hsame.recv]
        rintro j (rfl | hj)
        · exact (hal.cache j _ hlookup).1
        · exact hal.delivered_lt j hj
      · intro j hj
        rw [hsame.generation, hsame.window] at hj
        rcases mem_seen_of_recordDelivered hj with heq | hold
        · exact .inl (Prod.mk.inj heq).2
        · exact .inr (hal.seen j hold)
    · obtain ⟨hle, hsame⟩ := hchain
      refine ⟨hsame.generation, .inr ⟨rfl, hnew, hal.isSeed,
        hsame.generation ▸ hal.generation_ne, hspent, ?_, ?_, ?_, ?_⟩⟩
      · rw [hsame.recv]
        show P.chain.stateAt s.recv.key _ = P.chain.stateAt k (i + 1)
        rw [hal.recv, stateAt_stateAt]
        congr 1
        omega
      · intro j key hj
        rw [hsame.generation, hsame.cache] at hj
        rw [hsame.recv]
        show j < i + 1 ∧ _
        rcases lookup_cacheSkipKeys_cases hj with hold | ⟨d, hd, he, hkey⟩
        · obtain ⟨hlt, hkey⟩ := hal.cache j key hold
          exact ⟨by omega, hkey⟩
        · obtain rfl : j = s.recv.messageCount + d := (Prod.mk.inj he).2
          refine ⟨by omega, ?_⟩
          rw [hkey, hal.recv, keyAt_stateAt]
      · rw [hsame.recv]
        show ∀ j ∈ insert i delivered, j < i + 1
        rintro j (rfl | hj)
        · exact Nat.lt_succ_self j
        · have := hal.delivered_lt j hj
          omega
      · intro j hj
        rw [hsame.generation, hsame.window] at hj
        rcases mem_seen_of_recordDelivered (Finset.mem_filter.1 hj).1 with heq | hold
        · exact .inl (Prod.mk.inj heq).2
        · exact .inr (hal.seen j hold)

/-- A genuine message is refused or delivered with its plaintext for the first time, and the
receiver stays aligned. -/
theorem Aligned.arrive (hal : s.Aligned P k delivered) (hm : Genuine P k s.ratchetGeneration i pt m)
    (hreceive : s.receive P m now = (res, t)) :
    t.ratchetGeneration = s.ratchetGeneration ∧
      ((∃ e, res = .error e ∧ t.Aligned P k delivered) ∨
        res = .ok pt ∧ i ∉ delivered ∧ t.Aligned P k (insert i delivered)) := by
  obtain ⟨c, payload, rfl, hseal, _⟩ := hm
  have hstep := decryptPayload_step P s ⟨s.ratchetGeneration, i⟩ c payload now
  rw [← receive_messageOf, hreceive] at hstep
  exact hal.step ideal hseal hstep

end Ideal

/-! ## Runs of a receiver -/

/-- The arrival of a message: the session it arrives at, the index of the message and the
result of the call. -/
structure Arrival (K C : Type) where
  state : DoubleRatchetState K C
  index : ℕ
  result : Except KyberError Bytes

/-- The indices that were delivered. -/
def accepted (arrivals : List (Arrival K C)) : Set ℕ :=
  {i | ∃ a ∈ arrivals, a.index = i ∧ ∃ pt, a.result = .ok pt}

/-- A run of a receiver within one generation: messages of the sender arrive in any order, any
number of times or never, and other steps come in between. -/
inductive ReceiveRun (P : Primitives K C) (sent : List (Bytes × RatchetEncryptedMessage C))
    (Other : DoubleRatchetState K C → DoubleRatchetState K C → Prop) :
    DoubleRatchetState K C → List (Arrival K C) → DoubleRatchetState K C → Prop
  | done (s : DoubleRatchetState K C) : ReceiveRun P sent Other s [] s
  | arrive {s s' u : DoubleRatchetState K C} {i : ℕ} {pt : Bytes}
      {m : RatchetEncryptedMessage C} {now : Clock} {res : Except KyberError Bytes}
      {arrivals : List (Arrival K C)} (hi : sent[i]? = some (pt, m))
      (hreceive : s.receive P m now = (res, s')) (rest : ReceiveRun P sent Other s' arrivals u) :
      ReceiveRun P sent Other s (⟨s, i, res⟩ :: arrivals) u
  | other {s s' u : DoubleRatchetState K C} {arrivals : List (Arrival K C)} (h : Other s s')
      (hgen : s'.ratchetGeneration = s.ratchetGeneration)
      (rest : ReceiveRun P sent Other s' arrivals u) : ReceiveRun P sent Other s arrivals u

/-- Hand the messages of a sender to a receiver in the given order. -/
def receiveAll (P : Primitives K C) (sent : List (Bytes × RatchetEncryptedMessage C)) :
    DoubleRatchetState K C → List ℕ → List (Arrival K C) × DoubleRatchetState K C
  | s, [] => ([], s)
  | s, i :: order =>
    match sent[i]? with
    | some (_, m) =>
      let r := s.receive P m ⟨0, 0⟩
      let rest := receiveAll P sent r.2 order
      (⟨s, i, r.1⟩ :: rest.1, rest.2)
    | none => receiveAll P sent s order

theorem receiveRun_receiveAll {Other : DoubleRatchetState K C → DoubleRatchetState K C → Prop}
    (order : List ℕ) :
    ReceiveRun P sent Other s (receiveAll P sent s order).1 (receiveAll P sent s order).2 := by
  induction order generalizing s with
  | nil => exact .done s
  | cons i order ih =>
    unfold receiveAll
    cases hi : sent[i]? with
    | none => exact ih
    | some p => exact .arrive hi rfl ih

/-! ## Entering a generation -/

/-- The session has just entered its generation: it is fresh, or the last step led into the
generation. -/
def EntersGeneration (P : Primitives K C) (s : DoubleRatchetState K C) : Prop :=
  (∃ secret isInitiator seed peerXpk peerMpk, s = newWithKeypair P secret isInitiator
      (generateHybridKeypair P seed) peerXpk peerMpk) ∨
    ∃ t, t.Reachable P ∧ Evolves P t s ∧ s.ratchetGeneration = t.ratchetGeneration + 1

/-- The positions delivered by entering a generation: none, or the one of the message that committed
the peer's proposal. -/
def deliveredOnEntry (s : DoubleRatchetState K C) : Set ℕ := {i | i + 1 = s.recv.messageCount}

variable {h : KeyHistory K}

/-- No key of a generation above the current one is cached. -/
theorem KeysFit.lookup_next (hfit : s.KeysFit P h) (i : ℕ) :
    s.skipMessageKeys.lookup (s.ratchetGeneration + 1, i) = none := by
  rw [Option.eq_none_iff_forall_ne_some]
  intro key hlookup
  exact absurd (hfit.cache _ key hlookup).1 (Nat.not_succ_le_self _)

section Ideal

variable (ideal : P.Ideal)
include ideal

/-- Committing our own proposal enters the next generation with an untouched chain. -/
theorem aligned_commitOutgoingRekey {ss : Bytes} {pair : HybridKeyPair} (hfit : s.KeysFit P h)
    (hspent : s.Spent P ∅) (hfrom : s.outgoingProposal.IsFrom P s.rootKey ss)
    (hpair : s.outgoingProposal.hybridPair = some pair)
    (hgen : s.commitOutgoingRekey.ratchetGeneration = s.ratchetGeneration + 1)
    (hne : s.commitOutgoingRekey.ratchetGeneration ≠ u32Max)
    (hk : s.commitOutgoingRekey.recv.key =
      P.chain.stateAt k s.commitOutgoingRekey.recv.messageCount) :
    s.commitOutgoingRekey.Aligned P k s.commitOutgoingRekey.deliveredOnEntry := by
  have hspent' := (Evolves.commitOutgoing (P := P)).spent ideal hspent
  rw [commitOutgoingRekey_eq_of_isFrom hfrom hpair] at hne hk hgen hspent' ⊢
  refine ⟨?_, hne, ⟨hspent'.1, ?_⟩, hk, ?_, (by rintro i ⟨⟩), (by rintro i ⟨⟩)⟩
  · obtain rfl : P.nextRecvChain s.rootKey ss = k := hk
    exact ideal.isSeed_nextRecvChain _ _
  · obtain ⟨h', _, hfit'⟩ := hspent'.2.resolve_left hne
    refine .inr ⟨h', ?_, hfit'⟩
    rintro _ ⟨i, hi, _⟩
    cases hi
  · intro i key hlookup
    rw [hgen] at hlookup
    exact absurd (hlookup.symm.trans (hfit.lookup_next i)) (by simp)

/-- A message that commits the peer's proposal enters the next generation with the chain past
that message. -/
theorem aligned_of_pendingDelivery {nonce : Nonce} {c : C} {s₁ : DoubleRatchetState K C} {seed : K}
    (hfit : s.KeysFit P h) (hspent : s.Spent P ∅)
    (hstep : DecryptStep P s nonce c payload now (.ok pt) t)
    (hderives : Derives P s nonce now payload s₁)
    (hdel : PendingDelivery P s₁ nonce c (payloadAad payload) pt t seed)
    (hgen : t.ratchetGeneration = s.ratchetGeneration + 1) (hne : t.ratchetGeneration ≠ u32Max)
    (hk : t.recv.key = P.chain.stateAt k t.recv.messageCount) :
    t.Aligned P k t.deliveredOnEntry := by
  obtain ⟨key, hopen, _, hspent'⟩ := hstep.spent ideal hspent
  obtain rfl := ideal.key_eq_of_open (aeadOpen_of_decryptChacha20 hdel.hdec) hopen
  obtain ⟨r, ss, hfrom, rfl⟩ := (hderives.slotsFit hfit.slots).isFrom_of_pendingDelivery hdel
  have hbump := (hderives.advances.bumps hspent.1).incoming (by rw [hfrom.1]; rfl)
  have hcount := recv_of_pendingDelivery (hderives.slotsFit hfit.slots)
    (hderives.advances.bumps hspent.1) hdel
  have hstate := hdel.hstate
  rw [commitPendingRekeyWithRaceResolution_eq hfrom hbump] at hstate
  rw [hcount] at hk
  obtain rfl : P.nextSendChain r ss = k := stateAt_left_inj ideal.step_injective hk
  refine ⟨ideal.isSeed_nextSendChain r ss, hne, ?_, ?_, ?_, ?_, ?_⟩
  · -- the only delivered position is the one just below the counter
    convert hspent' using 1
    rw [insert_empty_eq, ← Set.image_singleton]
    congr 1
    ext i
    rw [deliveredOnEntry, hcount, Set.mem_ofPred_eq, Set.mem_singleton_iff,
      Nat.add_right_cancel_iff]
  · rw [hcount]
  · intro i key hlookup
    rw [hgen, hstate] at hlookup
    rw [hcount]
    rcases lookup_cacheSkipKeys_cases hlookup with hold | ⟨j, hj, he, hkey⟩
    · have hcache : s₁.skipMessageKeys = s.skipMessageKeys := hderives.sameReceive.cache
      rw [hcache] at hold
      exact absurd (hold.symm.trans (hfit.lookup_next i)) (by simp)
    · obtain rfl : i = 0 + j := (Prod.mk.inj he).2
      rw [Nat.zero_add]
      exact ⟨Nat.lt_succ_of_lt hj, hkey⟩
  · intro i hi
    have hi : i + 1 = t.recv.messageCount := hi
    omega
  · intro i hi
    rw [hstate] at hi
    rcases mem_seen_of_recordDelivered hi with heq | hold
    · rw [deliveredOnEntry, hcount]
      exact congrArg (· + 1) (Prod.mk.inj heq).2
    · cases hold

/-- A session that has just entered a generation is aligned with the chain of its receiving
side. -/
theorem EntersGeneration.aligned (henters : EntersGeneration P s)
    (hne : s.ratchetGeneration ≠ u32Max)
    (hk : s.recv.key = P.chain.stateAt k s.recv.messageCount) :
    s.Aligned P k s.deliveredOnEntry := by
  rcases henters with ⟨secret, isInitiator, seed, peerXpk, peerMpk, rfl⟩ | ⟨t, ht, hstep, hgen⟩
  · have hfit := keysFit_newWithKeypair ideal secret isInitiator (generateHybridKeypair P seed)
      peerXpk peerMpk
    refine ⟨?_, hne, ⟨?_, .inr ⟨_, ?_, hfit⟩⟩, hk, ?_, (by rintro i ⟨⟩),
      (by rintro i ⟨⟩)⟩
    · obtain rfl := hk
      exact hfit.isSeed 0 le_rfl
    · exact bumpsOnCommit_newWithKeypair P _ _ _ _ _
    · rintro _ ⟨i, hi, _⟩
      cases hi
    · intro i key hlookup
      exact absurd hlookup (by simp [newWithKeypair])
  · have hspent := ht.spent ideal
    have hmax : t.ratchetGeneration ≠ u32Max := by
      intro hmax
      exact hne (generation_eq_of_advances hstep.advances hspent.1 hmax)
    obtain ⟨h, _, hfit⟩ := hspent.2.resolve_left hmax
    cases hstep.commitStep hfit hspent.1 hgen with
    | own hfrom hpair => exact aligned_commitOutgoingRekey ideal hfit hspent hfrom hpair hgen hne hk
    | peer hdec hderives hdel =>
      exact aligned_of_pendingDelivery ideal hfit hspent hdec hderives hdel hgen hne hk

end Ideal

theorem EntersGeneration.reachable (henters : EntersGeneration P s) : s.Reachable P := by
  rcases henters with ⟨secret, isInitiator, seed, peerXpk, peerMpk, rfl⟩ | ⟨t, ht, hstep, _⟩
  · exact ⟨secret, isInitiator, seed, peerXpk, peerMpk, .refl⟩
  · exact ht.step hstep

end DoubleRatchetState

/-! ## Symbolic senders -/

namespace Symbolic

theorem length_sendAll_le (s : DoubleRatchetState Key Ciphertext) (first n : ℕ) :
    (sendAll s first n).1.length ≤ n := by
  induction n generalizing s first with
  | zero => exact le_rfl
  | succ n ih =>
    rw [sendAll, List.length_append]
    have hrest := ih (s.ratchetEncrypt primitives [] (randomness first) ⟨0, 0⟩).2 (first + 1)
    have hhead : ∀ o : Option (RatchetEncryptedMessage Ciphertext), o.toList.length ≤ 1 := by
      intro o
      cases o <;> simp
    have := hhead (s.ratchetEncrypt primitives [] (randomness first) ⟨0, 0⟩).1.toOption
    omega

theorem sendRun_sendAll {s : DoubleRatchetState Key Ciphertext} {first n : ℕ}
    (hlength : (sendAll s first n).1.length = n) :
    DoubleRatchetState.SendRun primitives s ((sendAll s first n).1.map fun m => ([], m))
      (sendAll s first n).2 := by
  induction n generalizing s first with
  | zero => exact .done s
  | succ n ih =>
    have hrest := length_sendAll_le
      (s.ratchetEncrypt primitives [] (randomness first) ⟨0, 0⟩).2 (first + 1) n
    rw [sendAll, List.length_append] at hlength
    rw [sendAll]
    cases henc : s.ratchetEncrypt primitives [] (randomness first) ⟨0, 0⟩ with
    | mk res s' =>
      rw [henc] at hlength hrest
      dsimp only at hlength hrest
      cases res with
      | error e =>
        simp only [Except.toOption, Option.toList_none, List.length_nil] at hlength
        omega
      | ok m =>
        simp only [Except.toOption, Option.toList_some, List.length_singleton] at hlength
        exact .encrypt henc (ih (by omega))

end Symbolic

end KyberPipe
