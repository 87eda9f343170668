import KyberPipe.Ratchet.KeySteps

/-!
# At-most-once delivery

A session never opens two messages with one message key. Under an AEAD whose ciphertexts
commit to their key, no ciphertext is therefore delivered twice, and no message of an honest
peer. Nor does the session keep a key that opens what it delivered.
-/

namespace KyberPipe

open Symbolic DoubleRatchetState Session Machine

variable {K C : Type}

namespace DoubleRatchetState

variable {P : Primitives K C} {s s' : DoubleRatchetState K C}

/-- Every key in `used` is spent: the session is at the last generation, where it opens nothing, or
its keys agree with a history that uses all of them. -/
def Spent (P : Primitives K C) (s : DoubleRatchetState K C) (used : Set K) : Prop :=
  s.BumpsOnCommit ∧
    (s.ratchetGeneration = u32Max ∨ ∃ h : KeyHistory K, used ⊆ h.used ∧ s.KeysFit P h)

/-- The last generation is never left. -/
theorem generation_eq_of_advances (hadv : Advances s s') (hbumps : s.BumpsOnCommit)
    (hmax : s.ratchetGeneration = u32Max) : s'.ratchetGeneration = u32Max := by
  have hle := hadv.position_le hbumps
  rw [sendPosition, if_pos hmax, top_le_iff] at hle
  by_contra hne
  rw [sendPosition_of_ne hne] at hle
  exact WithTop.coe_ne_top hle

variable {payload : Option RekeyPayload}

theorem DecryptStep.generation_ne {nonce : Nonce} {c : C} {now : Clock} {pt : Bytes}
    (hstep : DecryptStep P s nonce c payload now (.ok pt) s') : s.ratchetGeneration ≠ u32Max := by
  cases hstep with
  | previous hadmits _ => exact hadmits.generation_ne
  | current hadmits _ _ _ => exact hadmits.generation_ne
  | pending hadmits _ _ _ => exact hadmits.generation_ne

/-- The message keys that a session holds for its receiving side: the cached ones, and those of
every later position of its chain, of the chain of the previous generation and of the chains that
are staged for the next one. -/
inductive Holds (P : Primitives K C) (s : DoubleRatchetState K C) : K → Prop
  | cached {e : ℕ × ℕ} {key : K} (h : s.skipMessageKeys.lookup e = some key) : Holds P s key
  | current (n : ℕ) : Holds P s (P.chain.keyAt s.recv.key n)
  | previous {ck : K} {g : ℕ} (hck : s.previousRecvChainKey = some ck)
      (hg : s.previousRecvGen = some g) (n : ℕ) : Holds P s (P.chain.keyAt ck n)
  | staged {ck : K} (hck : s.incomingProposal.receivingChainKey = some ck ∨
      s.outgoingProposal.receivingChainKey = some ck) (n : ℕ) : Holds P s (P.chain.keyAt ck n)

section Ideal

variable (ideal : P.Ideal)
include ideal

variable {used : Set K}

/-- Every elementary step keeps spent keys spent. -/
theorem Evolves.spent (hspent : s.Spent P used) (hstep : Evolves P s s') : s'.Spent P used := by
  obtain ⟨hbumps, hkeys⟩ := hspent
  refine ⟨hstep.advances.bumps hbumps, ?_⟩
  by_cases hmax : s.ratchetGeneration = u32Max
  · exact .inl (generation_eq_of_advances hstep.advances hbumps hmax)
  · obtain ⟨h, hused, hfit⟩ := hkeys.resolve_left hmax
    obtain ⟨h', hused', hfit'⟩ := hstep.keysFit ideal hfit hbumps hmax
    exact .inr ⟨h', hused.trans hused', hfit'⟩

theorem EvolvesStar.spent (hspent : s.Spent P used) (hsteps : EvolvesStar P s s') :
    s'.Spent P used := by
  induction hsteps with
  | refl => exact hspent
  | tail _ hstep ih => exact hstep.spent ideal ih

/-- A delivery opens the message with an unspent key and spends it. -/
theorem DecryptStep.spent {nonce : Nonce} {c : C} {now : Clock} {pt : Bytes}
    (hspent : s.Spent P used) (hstep : DecryptStep P s nonce c payload now (.ok pt) s') :
    ∃ key, P.aeadOpen key nonce c (payloadAad payload) = some pt ∧ key ∉ used ∧
      s'.Spent P (insert key used) := by
  obtain ⟨hbumps, hkeys⟩ := hspent
  obtain ⟨h, hused, hfit⟩ := hkeys.resolve_left hstep.generation_ne
  obtain ⟨key, hopen, hnew, h', hused', hfit'⟩ := hstep.spendsKey ideal hfit hbumps
  refine ⟨key, hopen, fun hmem => hnew (hused hmem), hstep.advances.bumps hbumps,
    .inr ⟨h', ?_, hfit'⟩⟩
  rw [hused']
  exact Set.insert_subset_insert hused

/-- The keys of a fresh session agree with the history of its first chain. -/
theorem keysFit_newWithKeypair (secret : Bytes) (isInitiator : Bool) (pair : HybridKeyPair)
    (peerXpk peerMpk : Option Bytes) :
    let s := newWithKeypair P secret isInitiator pair peerXpk peerMpk
    s.KeysFit P ⟨fun _ => s.recv.key, fun _ => 0, ∅⟩ := by
  intro s
  have hrecv : ∃ l ∈ [Info.sendChain, Info.recvChain],
      s.recv.key = P.hkdf .chainSalt (.key s.rootKey) l := by
    cases isInitiator with
    | true => exact ⟨.recvChain, by simp, rfl⟩
    | false => exact ⟨.sendChain, by simp, rfl⟩
  obtain ⟨l, hl, hkey⟩ := hrecv
  refine ⟨rfl, (by rintro _ _ ⟨⟩), ?_, ?_, ?_, ?_, fun _ h => absurd h (Set.notMem_empty _),
    ⟨?_, .inl ⟨rfl, rfl, rfl⟩, .inl ⟨rfl, rfl, rfl⟩⟩⟩
  · intro g _
    rw [hkey]
    refine ideal.isSeed_of_info_ne ?_
    rintro rfl
    simp at hl
  · intro g hg g' hg' _
    exact (Nat.le_zero.1 hg).trans (Nat.le_zero.1 hg').symm
  · intro e key h
    exact absurd h (by simp [s, newWithKeypair])
  · intro e e' key h
    exact absurd h (by simp [s, newWithKeypair])
  · -- the first chain is expanded under a salt of its own
    intro r ss _
    constructor
    · rintro ⟨_, _, heq⟩
      cases (ideal.hkdf_inj (hkey.symm.trans heq)).1
    · rintro ⟨_, _, heq⟩
      cases (ideal.hkdf_inj (hkey.symm.trans heq)).1

theorem spent_newWithKeypair (secret : Bytes) (isInitiator : Bool) (pair : HybridKeyPair)
    (peerXpk peerMpk : Option Bytes) :
    (newWithKeypair P secret isInitiator pair peerXpk peerMpk).Spent P ∅ :=
  ⟨bumpsOnCommit_newWithKeypair P secret isInitiator pair peerXpk peerMpk,
    .inr ⟨_, Set.empty_subset _,
      keysFit_newWithKeypair ideal secret isInitiator pair peerXpk peerMpk⟩⟩

/-- A staged chain was never installed. -/
theorem SlotsFit.staged {installed : Set K} (h : s.SlotsFit P installed) {ck : K}
    (hck : s.incomingProposal.receivingChainKey = some ck ∨
      s.outgoingProposal.receivingChainKey = some ck) : P.chain.IsSeed ck ∧ ck ∉ installed := by
  rcases hck with hck | hck
  · rcases h.incoming with hempty | ⟨r, ss, hfrom, hnew, _⟩
    · cases hempty.2.2.symm.trans hck
    · obtain rfl := Option.some.inj (hfrom.2.2.symm.trans hck)
      exact ⟨ideal.isSeed_nextSendChain r ss, hnew⟩
  · rcases h.outgoing with hempty | ⟨ss, hfrom⟩
    · cases hempty.2.2.symm.trans hck
    · obtain rfl := Option.some.inj (hfrom.2.2.symm.trans hck)
      exact ⟨ideal.isSeed_nextRecvChain _ ss, (h.root _ ss .refl).2⟩

/-- A session holds no spent key. -/
theorem KeysFit.holds_not_used {h : KeyHistory K} (hfit : s.KeysFit P h)
    {key : K} (hkey : s.Holds P key) : key ∉ h.used := by
  cases hkey with
  | cached hlookup => exact (hfit.cache _ _ hlookup).2.1
  | current n =>
    rw [hfit.recv, KeyChain.keyAt_stateAt]
    exact hfit.keyAt_not_used ideal le_rfl (Nat.le_add_right _ n)
  | previous hck hg n =>
    obtain ⟨hlt, rfl⟩ := hfit.previous _ _ hck hg
    rw [KeyChain.keyAt_stateAt]
    exact hfit.keyAt_not_used ideal hlt.le (Nat.le_add_right _ n)
  | staged hck n =>
    intro hused
    obtain ⟨g, hg, q, _, heq⟩ := hfit.used _ hused
    obtain ⟨hseed, hnew⟩ := hfit.slots.staged ideal hck
    exact hnew ⟨g, hg, (ideal.keyAt_inj hseed (hfit.isSeed g hg) heq).1.symm⟩

end Ideal

end DoubleRatchetState

/-! ## Runs -/

/-- The nonce and ciphertext of a message that a call returned as plaintext. -/
def deliveredMessage : Call C → Response C → Option (Nonce × C)
  | .decrypt nonce c, .plaintext (.ok _) => some (nonce, c)
  | .decryptWithRekey nonce c _ _ _ _, .plaintext (.ok _) => some (nonce, c)
  | _, _ => none

/-- A call that returns a plaintext is a successful decryption. -/
theorem Session.exec_delivered (P : Primitives K C) (peer : String) (σ : Session K C)
    {call : Call C} {d : Nonce × C}
    (h : deliveredMessage call (σ.exec P peer call).1 = some d) :
    ∃ payload now pt, DoubleRatchetState.DecryptStep P σ.ratchet d.1 d.2 payload now (.ok pt)
      (σ.exec P peer call).2.ratchet := by
  cases call with
  | decrypt nonce c =>
    have hstep := ratchetDecrypt_step P σ.ratchet nonce c ⟨0, 0⟩
    simp only [exec] at h ⊢
    generalize σ.ratchet.ratchetDecrypt P nonce c = r at h hstep ⊢
    obtain ⟨res, t⟩ := r
    cases res with
    | error e => cases h
    | ok pt =>
      obtain rfl := Option.some.inj h
      exact ⟨none, ⟨0, 0⟩, pt, hstep⟩
  | decryptWithRekey nonce c rct rx rm now =>
    have hstep := ratchetDecryptWithRekey_step P σ.ratchet nonce c rct rx rm now
    simp only [exec] at h ⊢
    generalize σ.ratchet.ratchetDecryptWithRekey P nonce c rct rx rm now = r at h hstep ⊢
    obtain ⟨res, t⟩ := r
    cases res with
    | error e => cases h
    | ok pt =>
      obtain rfl := Option.some.inj h
      exact ⟨_, now, pt, hstep⟩
  | _ => cases h

variable {σ : Session K C} {calls : List (Call C)}

/-- No ciphertext is delivered twice in a run. -/
theorem Session.emitted_delivered_pairwise {P : Primitives K C} (ideal : P.Ideal) (peer : String)
    (hσ : σ.ratchet.Spent P ∅) (hcalls : ∀ call ∈ calls, ¬call.Manual) :
    (emitted deliveredMessage ((machine P peer).run σ calls).1).Pairwise
      fun d d' => d.2 ≠ d'.2 := by
  -- the key that opened a delivered ciphertext is spent
  let Inv : Session K C → Set (Nonce × C) → Prop := fun σ seen =>
    ∃ used, σ.ratchet.Spent P used ∧
      ∀ d ∈ seen, ∃ key ∈ used, ∃ aad pt, P.aeadOpen key d.1 d.2 aad = some pt
  have hinit : Inv σ ∅ := ⟨∅, hσ, fun d hd => absurd hd (Set.notMem_empty d)⟩
  refine (emitted_pairwise Inv (fun call => ¬call.Manual) ?_ ?_ hinit hcalls).2
  · rintro σ call seen hcall ⟨used, hspent, hseen⟩ -
    exact ⟨used, (σ.exec_evolves P peer hcall).spent ideal hspent, hseen⟩
  · rintro σ call seen d - ⟨used, hspent, hseen⟩ hdel
    obtain ⟨payload, now, pt, hstep⟩ := exec_delivered P peer σ hdel
    obtain ⟨key, hopen, hnew, hspent'⟩ := hstep.spent ideal hspent
    refine ⟨fun d' hd' heq => ?_, insert key used, hspent', ?_⟩
    · obtain ⟨key', hmem, aad, pt', hopen'⟩ := hseen d' hd'
      rw [heq] at hopen'
      exact hnew (ideal.key_eq_of_open hopen' hopen ▸ hmem)
    · rintro d' (rfl | hd')
      · exact ⟨key, Set.mem_insert key used, _, pt, hopen⟩
      · obtain ⟨key', hmem, hopen'⟩ := hseen d' hd'
        exact ⟨key', Set.mem_insert_of_mem key hmem, hopen'⟩

/-- The messages of a run have pairwise different nonces. -/
theorem Session.sentMessage_eq_of_nonce_eq (P : Primitives K C) (peer : String)
    (hσ : σ.ratchet.BumpsOnCommit) {m m' : RatchetEncryptedMessage C}
    (hm : m ∈ emitted sentMessage ((machine P peer).run σ calls).1)
    (hm' : m' ∈ emitted sentMessage ((machine P peer).run σ calls).1)
    (hnonce : m.nonce = m'.nonce) : m = m' := by
  have hnodup : (emitted sentNonce ((machine P peer).run σ calls).1).Nodup := by
    refine (emitted_sentNonce_pairwise P peer hσ calls).imp ?_
    rintro a b hab rfl
    exact lt_irrefl _ hab
  have hsent : emitted sentNonce ((machine P peer).run σ calls).1 =
      (emitted sentMessage ((machine P peer).run σ calls).1).map (·.nonce) :=
    (List.map_filterMap ..).symm
  rw [hsent] at hnodup
  exact List.inj_on_of_nodup_map hnodup hm hm' hnonce

/-- A session receives any calls in any order, among them messages of its peer, repeated, reordered
or forged. No two of its deliveries are messages of the peer with the same generation and position.
-/
theorem delivered_at_most_once {P : Primitives K C} (ideal : P.Ideal) (peer : String)
    (secret : Bytes) (isInitiator : Bool) (pair peerPair : HybridKeyPair)
    (peerXpk peerMpk ownXpk ownMpk : Option Bytes) (gate peerGate : SyncGate)
    (calls peerCalls : List (Call C)) (hcalls : ∀ call ∈ calls, ¬call.Manual) :
    let deliveries := emitted deliveredMessage ((machine P peer).run
      ⟨.newWithKeypair P secret isInitiator pair peerXpk peerMpk, gate⟩ calls).1
    let genuine := (emitted sentMessage ((machine P peer).run
      ⟨.newWithKeypair P secret (!isInitiator) peerPair ownXpk ownMpk, peerGate⟩
        peerCalls).1).map fun m => (m.nonce, m.ciphertext)
    deliveries.Pairwise fun d d' => d ∈ genuine → d' ∈ genuine →
      (d.1.generation, d.1.seq) ≠ (d'.1.generation, d'.1.seq) := by
  intro deliveries genuine
  have hspent := spent_newWithKeypair ideal secret isInitiator pair peerXpk
    peerMpk
  refine (emitted_delivered_pairwise ideal peer hspent hcalls).imp ?_
  intro d d' hne hd hd' heq
  obtain ⟨m, hm, rfl⟩ := List.mem_map.1 hd
  obtain ⟨m', hm', rfl⟩ := List.mem_map.1 hd'
  -- one position of the peer is one message, hence one ciphertext
  have hnonce : m.nonce = m'.nonce := by
    obtain ⟨hg, hs⟩ := Prod.mk.inj heq
    cases hn : m.nonce with
    | mk g q =>
      cases hn' : m'.nonce with
      | mk g' q' =>
        simp only [hn, hn'] at hg hs
        rw [hg, hs]
  exact hne (congrArg (·.ciphertext) (sentMessage_eq_of_nonce_eq P peer
    (bumpsOnCommit_newWithKeypair P secret (!isInitiator) peerPair ownXpk ownMpk) hm hm' hnonce))

/-- The theorem at the symbolic initiator, to which both messages of the responder are given
twice. -/
theorem delivered_at_most_once_two_messages :
    let genuine := (emitted sentMessage ((machine primitives "peer").run
      ⟨responder, {}⟩ [.encrypt [1] (randomness 0) ⟨0, 0⟩,
        .encrypt [2] (randomness 1) ⟨0, 0⟩]).1).map fun m => (m.nonce, m.ciphertext)
    let calls := (genuine ++ genuine).map fun d => Call.decrypt d.1 d.2
    let deliveries := emitted deliveredMessage
      ((machine primitives "peer").run ⟨initiator, {}⟩ calls).1
    (∀ call ∈ calls, ¬call.Manual) ∧ deliveries = genuine ∧ deliveries.length = 2 ∧
      deliveries.Pairwise fun d d' => d ∈ genuine → d' ∈ genuine →
        (d.1.generation, d.1.seq) ≠ (d'.1.generation, d'.1.seq) := by
  intro genuine calls deliveries
  have hcalls : ∀ call ∈ calls, ¬call.Manual := by
    intro call hcall
    obtain ⟨d, _, rfl⟩ := List.mem_map.1 hcall
    exact id
  exact ⟨hcalls, by decide +kernel, by decide +kernel,
    delivered_at_most_once ideal "peer" [7] true initiatorPair
      responderPair _ _ _ _ {} {} calls _ hcalls⟩

/-- The keys that opened the delivered messages are spent. -/
def Session.Closed (P : Primitives K C) (σ : Session K C) (delivered : List (Nonce × C)) : Prop :=
  ∃ used, σ.ratchet.Spent P used ∧
    ∀ d ∈ delivered, ∃ key ∈ used, ∃ aad pt, P.aeadOpen key d.1 d.2 aad = some pt

theorem Session.Closed.step {P : Primitives K C} (ideal : P.Ideal) (peer : String)
    {delivered : List (Nonce × C)} (h : σ.Closed P delivered) {call : Call C} (hcall : ¬call.Manual)
    :
    (σ.exec P peer call).2.Closed P
      (delivered ++ (deliveredMessage call (σ.exec P peer call).1).toList) := by
  obtain ⟨used, hspent, hdelivered⟩ := h
  cases hdel : deliveredMessage call (σ.exec P peer call).1 with
  | none =>
    refine ⟨used, (σ.exec_evolves P peer hcall).spent ideal hspent, ?_⟩
    rwa [Option.toList_none, List.append_nil]
  | some d =>
    obtain ⟨payload, now, pt, hstep⟩ := exec_delivered P peer σ hdel
    obtain ⟨key, hopen, _, hspent'⟩ := hstep.spent ideal hspent
    refine ⟨insert key used, hspent', fun d' hd' => ?_⟩
    rcases List.mem_append.1 hd' with hd' | hd'
    · obtain ⟨key', hmem, hopen'⟩ := hdelivered d' hd'
      exact ⟨key', Set.mem_insert_of_mem key hmem, hopen'⟩
    · obtain rfl := List.mem_singleton.1 hd'
      exact ⟨key, Set.mem_insert key used, _, pt, hopen⟩

/-- After any calls in any order, a session that is not in its last generation holds no key that
opens a ciphertext it delivered, whatever the nonce and the associated data. -/
theorem delivered_not_opened_again {P : Primitives K C} (ideal : P.Ideal) (peer : String)
    (secret : Bytes) (isInitiator : Bool) (pair : HybridKeyPair) (peerXpk peerMpk : Option Bytes)
    (gate : SyncGate) (calls : List (Call C)) (hcalls : ∀ call ∈ calls, ¬call.Manual)
    {trace : List (Call C × Response C)} {σ : Session K C}
    (hrun : (machine P peer).run
      ⟨.newWithKeypair P secret isInitiator pair peerXpk peerMpk, gate⟩ calls = (trace, σ))
    (hgen : σ.ratchet.ratchetGeneration ≠ u32Max) {d : Nonce × C}
    (hd : d ∈ emitted deliveredMessage trace) {key : K} (hkey : σ.ratchet.Holds P key)
    (nonce : Nonce) (aad : Bytes) : P.aeadOpen key nonce d.2 aad = none := by
  have hfresh : Session.Closed P
      ⟨.newWithKeypair P secret isInitiator pair peerXpk peerMpk, gate⟩ [] :=
    ⟨∅, spent_newWithKeypair ideal .., by simp⟩
  have hclosed := run_emitted_of_follows (m := machine P peer) (Session.Closed P)
    (fun _ _ _ h hcall => h.step ideal peer hcall) hfresh (follows_of_forall hcalls)
  rw [hrun, List.nil_append] at hclosed
  obtain ⟨used, ⟨_, hkeys⟩, hdelivered⟩ := hclosed
  obtain ⟨h, hused, hfit⟩ := hkeys.resolve_left hgen
  obtain ⟨key', hmem, aad', pt, hopen⟩ := hdelivered d hd
  refine Option.eq_none_iff_forall_ne_some.2 fun pt' hopen' => ?_
  rw [ideal.key_eq_of_open hopen hopen'] at hmem
  exact hfit.holds_not_used ideal hkey (hused hmem)

/-- The initiator opens the second of two messages, and the key of the first is in its cache. -/
theorem delivered_not_opened_again_out_of_order :
    let sent := emitted sentMessage ((machine primitives "peer").run
      ⟨responder, {}⟩ [.encrypt [1] (randomness 0) ⟨0, 0⟩, .encrypt [2] (randomness 1) ⟨0, 0⟩]).1
    let r := (machine primitives "peer").run ⟨initiator, {}⟩
      (sent.tail.map fun m => .decrypt m.nonce m.ciphertext)
    (emitted deliveredMessage r.1).length = 1 ∧ r.2.ratchet.skipMessageKeys.size = 1 ∧
      ∀ d ∈ emitted deliveredMessage r.1, ∀ key,
        r.2.ratchet.Holds primitives key →
          ∀ nonce aad, primitives.aeadOpen key nonce d.2 aad = none := by
  intro sent r
  refine ⟨by decide +kernel, by decide +kernel, fun d hd key hkey nonce aad => ?_⟩
  exact delivered_not_opened_again ideal "peer" [7] true initiatorPair _ _ {} _
    (List.forall_mem_map.2 fun _ _ => id) rfl (by decide +kernel) hd hkey nonce aad

end KyberPipe
