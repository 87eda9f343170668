import KyberPipe.Ratchet.DecryptSpec

/-!
# Chain walks

Five functions of the ratchet walk a receiving chain with a loop of their own. Here the loops are
written as the source has them, over the positions `base..target`, and compared with the one chain
function. In particular the two walks of a pending chain, before and after the commit, fail on the
same inputs.
-/

namespace KyberPipe

variable {K C : Type} (P : Primitives K C) (chainKey : K) (generation base target maxSkip : ℕ)

/-- `for _ in base..target`: replace the chain key by the next one. -/
def stepLoop : K :=
  (List.range' base (target - base)).foldl (fun ck _ => P.chain.step ck) chainKey

/-- `for skip_seq in base..target`: store the message key of the position, then replace the chain
key by the next one. -/
def skipLoop : K × SkipKeyMap K :=
  (List.range' base (target - base)).foldl
    (fun walk skipSeq =>
      (P.chain.step walk.1, walk.2.insert (generation, skipSeq) (P.chain.out walk.1)))
    (chainKey, ∅)

/-- The body of `derive_tentative_msg_key`. -/
def tentativeWalk : Except KyberError K :=
  let diff := target - base
  if base < target ∧ maxSkip < diff then
    .error (.cryptoError s!"Tentative derivation gap {diff} exceeds max_skip {maxSkip}")
  else .ok (P.chain.out (stepLoop P chainKey base target))

/-- The body of `advance_receiving_chain`. -/
def advanceWalk : Except KyberError (K × SkipKeyMap K) :=
  let diff := target - base
  if base < target ∧ maxSkip < diff then
    .error (.sessionDesynchronized s!"Sequence gap {diff} exceeds max_skip {maxSkip}")
  else
    let walk := skipLoop P chainKey generation base target
    .ok (P.chain.step walk.1, walk.2)

/-- The walk of `try_decrypt_with_chain`: the message key of the target, the next chain key and the
skipped keys. -/
def chainWalk : Except KyberError (K × K × SkipKeyMap K) :=
  let diff := target - base
  if base < target ∧ maxSkip < diff then
    .error (.sessionDesynchronized s!"Sequence gap {diff} exceeds max_skip {maxSkip}")
  else
    let walk := skipLoop P chainKey generation base target
    .ok (P.chain.out walk.1, P.chain.step walk.1, walk.2)

/-- The walk of `try_decrypt_previous_generation` to the message key, after the chain has been
advanced. -/
def previousWalk : K := P.chain.out (stepLoop P chainKey base target)

/-- The loop of `resync_receiving_chain`: the chain key at the target and the skipped keys. -/
def resyncWalk : K × SkipKeyMap K := skipLoop P chainKey generation base target

theorem stepLoop_eq :
    stepLoop P chainKey base target = P.chain.stateAt chainKey (target - base) := by
  unfold stepLoop
  generalize target - base = n
  induction n with
  | zero => rfl
  | succ n ih =>
    rw [List.range'_1_concat, List.foldl_append, ih, List.foldl_cons, List.foldl_nil,
      KeyChain.step_stateAt]

theorem skipLoop_eq :
    skipLoop P chainKey generation base target =
      deriveSkipKeys P chainKey base generation (target - base) := by
  unfold skipLoop deriveSkipKeys
  generalize target - base = n
  induction n with
  | zero => rfl
  | succ n ih =>
    rw [List.range'_1_concat, List.foldl_append, ih]
    rfl

/-- The bound in both loops' checks is the distance alone. -/
theorem gap_exceeds_iff : (base < target ∧ maxSkip < target - base) ↔ maxSkip < target - base := by
  omega

/-- The bodies with their loops compute what the model of the functions says. -/
theorem walks_eq_model :
    tentativeWalk P chainKey base target maxSkip =
        deriveTentativeMsgKey P chainKey base target maxSkip ∧
      advanceWalk P chainKey generation base target maxSkip =
        advanceReceivingChain P chainKey base target generation maxSkip := by
  simp only [tentativeWalk, advanceWalk, gap_exceeds_iff, stepLoop_eq, skipLoop_eq,
    KeyChain.out_stateAt, deriveTentativeMsgKey, advanceReceivingChain, and_self]

/-- Within the bound, all five walks find the same message key at each position and the same chain
key behind it. The walks before and after the commit of a pending chain fail on the same inputs, so
that a message which the pending chain opened is delivered. -/
theorem chain_walks_agree :
    previousWalk P chainKey base target = P.chain.keyAt chainKey (target - base) ∧
    let n := target - base
    let skipped := (deriveSkipKeys P chainKey base generation n).2
    (n ≤ maxSkip → tentativeWalk P chainKey base target maxSkip = .ok (P.chain.keyAt chainKey n) ∧
      advanceWalk P chainKey generation base target maxSkip =
        .ok (P.chain.stateAt chainKey (n + 1), skipped) ∧
      chainWalk P chainKey generation base target maxSkip =
        .ok (P.chain.keyAt chainKey n, P.chain.stateAt chainKey (n + 1), skipped)) ∧
    resyncWalk P chainKey generation base target = (P.chain.stateAt chainKey n, skipped) ∧
    (∀ e key, skipped.lookup e = some key ↔
      ∃ j < n, e = (generation, base + j) ∧ key = P.chain.keyAt chainKey j) ∧
    ((tentativeWalk P chainKey base target maxSkip).isOk = true ↔ n ≤ maxSkip) ∧
    ((advanceWalk P chainKey generation base target maxSkip).isOk = true ↔ n ≤ maxSkip) ∧
    ∀ s : DoubleRatchetState K C,
      (tentativeWalk P chainKey 0 target s.maxSkip).isOk = true →
        (s.deliverPending P target).1 = .ok () := by
  have hprevious : previousWalk P chainKey base target =
      P.chain.keyAt chainKey (target - base) := by
    rw [previousWalk, stepLoop_eq]
    rfl
  refine ⟨hprevious, fun hn => ?_, ?_, fun e key => ⟨exists_of_lookup_deriveSkipKeys, ?_⟩, ?_, ?_,
    fun s hs => ?_⟩
  · have hgap : ¬maxSkip < target - base := Nat.not_lt.2 hn
    simp only [tentativeWalk, advanceWalk, chainWalk, gap_exceeds_iff, if_neg hgap, stepLoop_eq,
      skipLoop_eq, deriveSkipKeys_fst, KeyChain.out_stateAt, KeyChain.step_stateAt, and_self]
  · rw [resyncWalk, skipLoop_eq]
    exact Prod.ext (deriveSkipKeys_fst _ _ _ _) rfl
  · rintro ⟨j, hj, rfl, rfl⟩
    exact lookup_deriveSkipKeys hj
  · simp only [tentativeWalk, gap_exceeds_iff]
    split_ifs with hgap <;> simp [Except.isOk, Except.toBool] <;> omega
  · simp only [advanceWalk, gap_exceeds_iff]
    split_ifs with hgap <;> simp [Except.isOk, Except.toBool] <;> omega
  · have hgap : ¬s.maxSkip < target - 0 := by
      intro hlt
      rw [tentativeWalk, if_pos ((gap_exceeds_iff 0 target s.maxSkip).2 hlt)] at hs
      cases hs
    rw [DoubleRatchetState.deliverPending_eq (by omega)]

end KyberPipe
