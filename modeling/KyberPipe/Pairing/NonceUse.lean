import KyberPipe.Pairing.Symbolic

/-!
# Use of the nonces from the QR code

A request compares its nonce with the pending one in one critical section and empties the slot in
another, after the key exchange. If a request only reads the slot while no other request has read
the same nonce and not yet emptied the slot, no nonce is accepted more often than it was issued.
-/

namespace KyberPipe

variable {K C : Type}

/-- The nonce of a request that has passed the check and has not emptied the slot. -/
def RequestPoint.heldNonce : RequestPoint → Option String
  | keypair fields | sessionKey fields _ | sharedSecret fields _ | initiatorPk fields _
  | initiatorX25519Pk fields _ => some fields.suppliedNonce
  | sasCode _ supplied | promote supplied | readNonce supplied | clearNonce supplied =>
    some supplied
  | _ => none

/-- The nonce of a request that has emptied the slot. -/
def RequestPoint.spentNonce : RequestPoint → Option String
  | sasReady supplied | accepted supplied => some supplied
  | _ => none

namespace PairingThread

def heldNonce : PairingThread → Option String
  | .request t => t.point.heldNonce
  | _ => none

def spentNonce : PairingThread → Option String
  | .request t => t.point.spentNonce
  | _ => none

/-- The nonce of a request that was answered `pairing_pending_sas`. -/
def acceptedNonce : PairingThread → Option String
  | .request ⟨_, .accepted nonce⟩ => some nonce
  | _ => none

/-- The nonce that the thread has issued. -/
def issuedNonce : PairingThread → Option String
  | .issue nonce true => some nonce
  | _ => none

/-- The next section of the thread is `get_pending_pairing_nonce` of a request. -/
def readsNonce : PairingThread → Bool
  | .request ⟨_, .nonce⟩ => true
  | _ => false

end PairingThread

/-- What a critical section can do to the pending nonce and to the thread that has the turn. -/
inductive NonceStep : String → PairingThread → String → PairingThread → Prop where
  /-- The section leaves the slot alone or empties it, and the thread at most gives up. -/
  | keep {pending pending' : String} {t t' : PairingThread}
      (hslot : pending' = pending ∨ pending' = "")
      (hheld : t'.heldNonce = t.heldNonce ∨ t'.heldNonce = none)
      (hspent : t'.spentNonce = t.spentNonce) (hissued : t'.issuedNonce = t.issuedNonce) :
      NonceStep pending t pending' t'
  /-- The request has found its nonce in the slot. -/
  | read {pending : String} {t t' : PairingThread} (hreads : t.readsNonce = true)
      (hheld : t'.heldNonce = some pending) : NonceStep pending t pending t'
  /-- The request empties the slot. -/
  | spend {pending nonce : String} {t t' : PairingThread} (hheld : t.heldNonce = some nonce)
      (hspent : t'.spentNonce = some nonce) : NonceStep pending t "" t'
  | issue {pending nonce : String} :
      NonceStep pending (.issue nonce false) nonce (.issue nonce true)

/-! ### Sections -/

namespace RequestPoint

/-- After the decapsulation a request holds its nonce or gives up, and has not spent it. -/
theorem Continues.nonce {fields : PairingFields} {kem : KemOutcome} {point : RequestPoint}
    (h : Continues fields kem point) :
    (point.heldNonce = some fields.suppliedNonce ∨ point.heldNonce = none) ∧
      point.spentNonce = none := by
  cases h with
  | initiatorPk => exact ⟨.inl rfl, rfl⟩
  | initiatorX25519Pk => exact ⟨.inl rfl, rfl⟩
  | sasCode => exact ⟨.inl rfl, rfl⟩
  | fail _ => exact ⟨.inr rfl, rfl⟩

/-- Past the check, the nonce of the request is the pending one. -/
theorem heldNonce_afterNonce (parseJson : Bytes → Option PairingRequest) (body : Bytes)
    (pending : String) :
    ((afterNonce parseJson body pending).heldNonce = some pending ∨
      (afterNonce parseJson body pending).heldNonce = none) ∧
      (afterNonce parseJson body pending).spentNonce = none := by
  unfold afterNonce
  split_ifs
  · exact ⟨.inr rfl, rfl⟩
  · split
    · exact ⟨.inr rfl, rfl⟩
    · split_ifs with hmismatch _
      · exact ⟨.inr rfl, rfl⟩
      · exact ⟨.inr rfl, rfl⟩
      · exact ⟨.inl (congrArg some (not_not.1 (not_or.1 hmismatch).2)), rfl⟩

end RequestPoint

section Sections

variable {P : PairingPrimitives K C} {s : AppState K C}

theorem nonceStep_requestStep (t : RequestThread) :
    NonceStep s.pairing.pendingPairingNonce (.request t)
      (requestStep P s t.call t.point).2.1.pairing.pendingPairingNonce
      (.request ⟨t.call, (requestStep P s t.call t.point).2.2⟩) := by
  obtain ⟨call, point⟩ := t
  cases point with
  | limiter =>
    simp only [requestStep]
    split_ifs <;> exact .keep (.inl rfl) (.inl rfl) rfl rfl
  | settings =>
    simp only [requestStep]
    split_ifs <;> exact .keep (.inl rfl) (.inl rfl) rfl rfl
  | phase =>
    simp only [requestStep]
    split_ifs <;> exact .keep (.inl rfl) (.inl rfl) rfl rfl
  | pending =>
    simp only [requestStep]
    split_ifs <;> exact .keep (.inl rfl) (.inl rfl) rfl rfl
  | certificate =>
    simp only [requestStep]
    cases call.peerIp <;> exact .keep (.inl rfl) (.inl rfl) rfl rfl
  | nonce =>
    obtain ⟨hheld | hheld, hspent⟩ := RequestPoint.heldNonce_afterNonce P.parsePairingJson
      call.body s.pairing.pendingPairingNonce
    · exact .read rfl hheld
    · exact .keep (.inl rfl) (.inr hheld) hspent rfl
  | keypair fields =>
    simp only [requestStep]
    cases kemOutcome P s.keypair fields with
    | none => exact .keep (.inl rfl) (.inr rfl) rfl rfl
    | some kem => exact .keep (.inl rfl) (.inl rfl) rfl rfl
  | sharedSecret fields kem =>
    have hcontinues := RequestPoint.continues_afterSecrets call.peerCertHash fields kem
    obtain ⟨hheld, hspent⟩ := hcontinues.nonce
    exact .keep (.inl rfl) hheld hspent rfl
  | initiatorPk fields kem =>
    obtain ⟨hheld, hspent⟩ := (RequestPoint.continues_afterInitiatorPk fields kem).nonce
    exact .keep (.inl rfl) hheld hspent rfl
  | initiatorX25519Pk fields kem =>
    obtain ⟨hheld, hspent⟩ := (RequestPoint.continues_afterKeys fields kem).nonce
    exact .keep (.inl rfl) hheld hspent rfl
  | promote nonce =>
    refine .keep (.inl ?_) (.inl rfl) rfl rfl
    simp only [requestStep, AppState.onPairing, PairingState.promoteToSasPending]
    split_ifs <;> rfl
  | clearNonce nonce => exact .spend rfl rfl
  | _ => exact .keep (.inl rfl) (.inl rfl) rfl rfl

theorem pendingPairingNonce_confirmStep (call : ConfirmCall) (promoted : Promotion)
    (point : ConfirmPoint) :
    (confirmStep P s call promoted point).2.1.pairing.pendingPairingNonce =
        s.pairing.pendingPairingNonce ∨
      (confirmStep P s call promoted point).2.1.pairing.pendingPairingNonce = "" := by
  cases point with
  | clear => exact .inr rfl
  | initSession key seed own =>
    simp only [confirmStep]
    split <;> exact .inl rfl
  | route cert peer =>
    simp only [confirmStep, AppState.onPairing, PairingState.registerPeerCertMapping]
    split_ifs <;> exact .inl rfl
  | _ => exact .inl rfl

theorem pendingPairingNonce_timeoutStep (index : ℕ) (point : TimeoutPoint) :
    (timeoutStep s index point).1.pairing.pendingPairingNonce =
      s.pairing.pendingPairingNonce := by
  cases point with
  | generation =>
    simp only [timeoutStep]
    split <;> rfl
  | timeout =>
    simp only [timeoutStep, AppState.onPairing, PairingState.timeoutPairing]
    split_ifs <;> rfl
  | _ => rfl

/-- Every section of every thread is one of the four kinds. -/
theorem nonceStep_pairingProgram (P : PairingPrimitives K C) (s : AppState K C)
    (t : PairingThread) :
    NonceStep s.pairing.pendingPairingNonce t
      ((pairingProgram P).step s t).2.1.pairing.pendingPairingNonce
      ((pairingProgram P).step s t).2.2 := by
  cases t with
  | request t => exact nonceStep_requestStep t
  | confirm t =>
    exact .keep (pendingPairingNonce_confirmStep t.call t.promoted t.point) (.inl rfl) rfl rfl
  | timeout index point =>
    exact .keep (.inl (pendingPairingNonce_timeoutStep index point)) (.inl rfl) rfl rfl
  | issue nonce issued =>
    cases issued
    · exact .issue
    · exact .keep (.inl rfl) (.inl rfl) rfl rfl
  | forget forgotten =>
    cases forgotten
    · exact .keep (.inr rfl) (.inl rfl) rfl rfl
    · exact .keep (.inl rfl) (.inl rfl) rfl rfl

end Sections

/-! ### Runs -/

/-- How many threads have a nonce, in the sense of `of`. -/
def nonceCount (of : PairingThread → Option String) (nonce : String)
    (threads : List PairingThread) : ℕ :=
  Pool.countAt of (some nonce) threads

variable {t : PairingThread} {threads : List PairingThread}

theorem nonceCount_set_add {i : ℕ} (of : PairingThread → Option String) (nonce : String)
    (t' : PairingThread) (h : threads[i]? = some t) :
    nonceCount of nonce (threads.set i t') + (of t == some nonce).toNat =
      nonceCount of nonce threads + (of t' == some nonce).toNat :=
  Pool.countAt_set_add of (some nonce) t' h

/-- A nonce is spent, or held by requests, at most as often as it was issued, where `before` counts
the issues before the run. While it is pending, one more request may spend it. -/
structure NonceBudget (nonce : String) (before : ℕ) (pending : String)
    (threads : List PairingThread) : Prop where
  spent : nonceCount (·.spentNonce) nonce threads + nonceCount (·.heldNonce) nonce threads ≤
    nonceCount (·.issuedNonce) nonce threads + before
  pending : pending = nonce →
    nonceCount (·.spentNonce) nonce threads + 1 ≤ nonceCount (·.issuedNonce) nonce threads + before

/-- Requests read the nonce one at a time: a request reads the pending nonce only while no request
has read the same nonce and not yet emptied the slot or given up. -/
def NonceReadAlone (pool : Pool (AppState K C) PairingThread) (i : ℕ) : Prop :=
  ∀ t ∈ pool.threads[i]?, t.readsNonce = true →
    ∀ t' ∈ pool.threads, t'.heldNonce ≠ some pool.shared.pairing.pendingPairingNonce

instance (pool : Pool (AppState K C) PairingThread) (i : ℕ) : Decidable (NonceReadAlone pool i) :=
  inferInstanceAs (Decidable (∀ t ∈ pool.threads[i]?, _))

/-- A request that is about to read the nonce holds none and has spent none. -/
theorem PairingThread.nonces_of_readsNonce (h : t.readsNonce = true) :
    t.heldNonce = none ∧ t.spentNonce = none ∧ t.issuedNonce = none := by
  cases t with
  | request t =>
    obtain ⟨call, point⟩ := t
    cases point with
    | nonce => exact ⟨rfl, rfl, rfl⟩
    | _ => cases h
  | _ => cases h

variable {nonce : String}

theorem PairingThread.nonces_of_heldNonce (h : t.heldNonce = some nonce) :
    t.spentNonce = none ∧ t.issuedNonce = none := by
  cases t with
  | request t =>
    obtain ⟨call, point⟩ := t
    cases point with
    | sasReady _ => cases h
    | accepted _ => cases h
    | _ => exact ⟨rfl, rfl⟩
  | _ => cases h

/-- A request that has spent a nonce no longer holds one. -/
theorem PairingThread.nonces_of_spentNonce (h : t.spentNonce = some nonce) :
    t.heldNonce = none ∧ t.issuedNonce = none := by
  cases t with
  | request t =>
    obtain ⟨call, point⟩ := t
    cases point with
    | sasReady _ => exact ⟨rfl, rfl⟩
    | accepted _ => exact ⟨rfl, rfl⟩
    | _ => cases h
  | _ => cases h

/-- The four kinds of sections keep the budget of a nonce. -/
theorem NonceBudget.of_nonceStep {nonce pending pending' : String} {before i : ℕ}
    {t t' : PairingThread} (hne : nonce ≠ "") (h : NonceBudget nonce before pending threads)
    (hi : threads[i]? = some t) (hkind : NonceStep pending t pending' t')
    (halone : t.readsNonce = true → ∀ q ∈ threads, q.heldNonce ≠ some pending) :
    NonceBudget nonce before pending' (threads.set i t') := by
  obtain ⟨hspent, hpending⟩ := h
  -- the counts after the turn, by what the thread had before and has now
  have hs := nonceCount_set_add (·.spentNonce) nonce t' hi
  have hh := nonceCount_set_add (·.heldNonce) nonce t' hi
  have hd := nonceCount_set_add (·.issuedNonce) nonce t' hi
  cases hkind with
  | keep hslot hheld hsame hissued =>
    simp only [hsame, hissued] at hs hd
    have hheld' : (t'.heldNonce == some nonce).toNat ≤ (t.heldNonce == some nonce).toNat := by
      rcases hheld with hheld | hheld <;> simp [hheld]
    refine ⟨by omega, fun hnow => ?_⟩
    rcases hslot with rfl | rfl
    · have := hpending hnow
      omega
    · exact absurd hnow.symm hne
  | read hreads hheld =>
    obtain ⟨hheld₀, hspent₀, hissued₀⟩ := t.nonces_of_readsNonce hreads
    obtain ⟨hspent', hissued'⟩ := t'.nonces_of_heldNonce hheld
    simp only [hheld, hheld₀, hspent₀, hspent', hissued₀, hissued'] at hs hh hd
    refine ⟨?_, fun hnow => ?_⟩
    · by_cases hnow : pending = nonce
      · -- nobody else holds the nonce, so that the one use it is good for is still left
        have hnobody : nonceCount (·.heldNonce) nonce threads = 0 := by
          refine Pool.countAt_eq_zero.2 fun q hq => ?_
          rw [← hnow]
          exact halone hreads q hq
        have := hpending hnow
        simp [hnow] at hs hh hd
        omega
      · have hother : (some pending == some nonce) = false := by simpa using hnow
        simp [hother] at hs hh hd
        omega
    · have := hpending hnow
      simp at hs hd
      omega
  | spend hheld hspent' =>
    obtain ⟨hspent₀, hissued₀⟩ := t.nonces_of_heldNonce hheld
    obtain ⟨hheld', hissued'⟩ := t'.nonces_of_spentNonce hspent'
    simp only [hheld, hheld', hspent₀, hspent', hissued₀, hissued'] at hs hh hd
    refine ⟨?_, fun hnow => absurd hnow.symm hne⟩
    simp at hs hh hd
    omega
  | issue =>
    have hs' : nonceCount (·.spentNonce) nonce (threads.set i _) =
        nonceCount (·.spentNonce) nonce threads := hs
    have hh' : nonceCount (·.heldNonce) nonce (threads.set i _) =
        nonceCount (·.heldNonce) nonce threads := hh
    have hd' : nonceCount (·.issuedNonce) nonce (threads.set i _) =
        nonceCount (·.issuedNonce) nonce threads + (some pending' == some nonce).toNat := hd
    refine ⟨by omega, fun hnow => ?_⟩
    have hone : (some pending' == some nonce).toNat = 1 := by simp [hnow]
    omega

/-- A turn that reads the nonce alone keeps the budget of every nonce. -/
theorem NonceBudget.step {P : PairingPrimitives K C} {before : ℕ}
    {pool : Pool (AppState K C) PairingThread} {i : ℕ} (hne : nonce ≠ "")
    (h : NonceBudget nonce before pool.shared.pairing.pendingPairingNonce pool.threads)
    (halone : NonceReadAlone pool i) :
    let pool' := ((pairingProgram P).machine.step pool i).2
    NonceBudget nonce before pool'.shared.pairing.pendingPairingNonce pool'.threads := by
  intro pool'
  cases hi : pool.threads[i]? with
  | none =>
    simp only [pool', Program.machine_step_of_none hi]
    exact h
  | some t =>
    simp only [pool', Program.machine_step_of_some hi]
    exact h.of_nonceStep hne hi (nonceStep_pairingProgram P pool.shared t) (halone t hi)

theorem PairingThread.Fresh.nonces (h : t.Fresh) : t.heldNonce = none ∧ t.spentNonce = none := by
  cases t with
  | request t =>
    obtain ⟨call, point⟩ := t
    obtain rfl : point = call.start := h
    simp only [heldNonce, spentNonce, PairingCall.start]
    split_ifs <;> exact ⟨rfl, rfl⟩
  | _ => exact ⟨rfl, rfl⟩

theorem PairingThread.spentNonce_of_acceptedNonce (h : t.acceptedNonce = some nonce) :
    t.spentNonce = some nonce := by
  cases t with
  | request t =>
    obtain ⟨call, point⟩ := t
    cases point with
    | accepted _ => exact h
    | _ => cases h
  | _ => cases h

/-- Let requests read the nonce one at a time. In every interleaving of pairing requests, SAS
confirmations, timeouts and nonce issues, at most as many requests are answered
`pairing_pending_sas` for a nonce as it was issued, counting one that is pending at the start. -/
theorem accepted_nonces_le_issued (P : PairingPrimitives K C)
    {pool : Pool (AppState K C) PairingThread} (hfresh : ∀ t ∈ pool.threads, t.Fresh)
    {schedule : List ℕ}
    (halone : (pairingProgram P).machine.Follows NonceReadAlone pool schedule)
    {nonce : String} (hne : nonce ≠ "") :
    let final := ((pairingProgram P).machine.run pool schedule).2
    nonceCount (·.acceptedNonce) nonce final.threads ≤
      nonceCount (·.issuedNonce) nonce final.threads +
        if pool.shared.pairing.pendingPairingNonce = nonce then 1 else 0 := by
  intro final
  let before := if pool.shared.pairing.pendingPairingNonce = nonce then 1 else 0
  have hstart : NonceBudget nonce before pool.shared.pairing.pendingPairingNonce pool.threads := by
    have hheld : nonceCount (·.heldNonce) nonce pool.threads = 0 :=
      Pool.countAt_eq_zero.2 fun t ht => by simp [(hfresh t ht).nonces.1]
    have hspent : nonceCount (·.spentNonce) nonce pool.threads = 0 :=
      Pool.countAt_eq_zero.2 fun t ht => by simp [(hfresh t ht).nonces.2]
    refine ⟨by omega, fun hnow => ?_⟩
    simp only [before, hspent, if_pos hnow]
    omega
  have hend : NonceBudget nonce before final.shared.pairing.pendingPairingNonce final.threads :=
    Machine.run_invariant_of_follows
      (fun pool => NonceBudget nonce before pool.shared.pairing.pendingPairingNonce pool.threads)
      (fun _ _ h => h.step hne) hstart halone
  have haccepted : nonceCount (·.acceptedNonce) nonce final.threads ≤
      nonceCount (·.spentNonce) nonce final.threads :=
    List.countP_mono_left fun t _ ht => by
      simpa using t.spentNonce_of_acceptedNonce (by simpa using ht)
  have hbudget := hend.spent
  omega

open Symbolic in
/-- Two phones that read the same QR code one after the other: only the first is accepted. -/
theorem accepted_nonces_le_issued_of_two_phones :
    let pool : Pool (AppState Key Ciphertext) PairingThread :=
      ⟨pairingDesktop "", [.request (phoneCall 3 "0a" 5).thread,
        .request (phoneCall 4 "0a" 6).thread, .issue "0a" false]⟩
    let schedule := 2 :: List.replicate 20 0 ++ List.replicate 20 1
    let final := ((pairingProgram pairingPrimitives).machine.run pool schedule).2
    nonceCount (·.issuedNonce) "0a" final.threads = 1 ∧
      nonceCount (·.acceptedNonce) "0a" final.threads = 1 ∧
      nonceCount (·.acceptedNonce) "0a" final.threads ≤
        nonceCount (·.issuedNonce) "0a" final.threads := by
  intro pool schedule final
  have hfresh : ∀ t ∈ pool.threads, t.Fresh := by
    simp [pool, PairingThread.Fresh, PairingCall.thread]
  have halone :
      (pairingProgram pairingPrimitives).machine.Follows NonceReadAlone pool schedule := by
    decide +kernel
  have hcounts : nonceCount (·.issuedNonce) "0a" final.threads = 1 ∧
      nonceCount (·.acceptedNonce) "0a" final.threads = 1 := by
    decide +kernel
  have hbound : nonceCount (·.acceptedNonce) "0a" final.threads ≤
      nonceCount (·.issuedNonce) "0a" final.threads +
        if pool.shared.pairing.pendingPairingNonce = "0a" then 1 else 0 :=
    accepted_nonces_le_issued pairingPrimitives hfresh halone (by decide)
  have hbefore : pool.shared.pairing.pendingPairingNonce ≠ "0a" := by decide
  rw [if_neg hbefore, Nat.add_zero] at hbound
  exact ⟨hcounts.1, hcounts.2, hbound⟩

open Symbolic in
/-- The first phone waits for its key exchange while a second one is refused, which fails the
attempt, and a third one is accepted. The first phone is then accepted with the same nonce. -/
theorem nonce_accepted_twice :
    let pool : Pool (AppState Key Ciphertext) PairingThread :=
      ⟨pairingDesktop "", [.request (phoneCall 3 "0a" 5).thread,
        .request (phoneCall 4 "0a" 6).thread, .request (phoneCall 5 "0a" 7).thread,
        .issue "0a" false]⟩
    let schedule := 3 :: List.replicate 9 0 ++ List.replicate 4 1 ++ List.replicate 18 2 ++
      List.replicate 11 0
    let final := ((pairingProgram pairingPrimitives).machine.run pool schedule).2
    nonceCount (·.issuedNonce) "0a" final.threads = 1 ∧
      nonceCount (·.acceptedNonce) "0a" final.threads = 2 := by
  decide +kernel

end KyberPipe
