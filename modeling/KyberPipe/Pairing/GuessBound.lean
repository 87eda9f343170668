import KyberPipe.Pairing.Symbolic

/-!
# The bound on SAS guesses

A confirmation reads the attempt counter in one critical section, increments it in a second one and
compares the code in a third one. The bound of three comparisons per attempt only holds if
confirmations run one at a time and attempts do not begin in between. The threads are counted by
stage.
-/

namespace KyberPipe

variable {K C : Type}

/-- How far a thread is, as far as the attempt counter and the stored code are concerned. -/
inductive GuessStage where
  /-- Neither in the middle of an attempt nor in the middle of a confirmation. -/
  | idle
  /-- A request before `begin_pairing_attempt`. -/
  | ready
  /-- A request that has begun an attempt and has not stored its code. -/
  | writing
  /-- `clear_all_pairing` is next, for a phone that is forgotten. -/
  | forgetting
  /-- A confirmation before it reads the counter. -/
  | asked
  /-- A confirmation that has found too many attempts. -/
  | clearing
  /-- A confirmation that has read the counter and not incremented it. -/
  | counted
  /-- A confirmation that has incremented the counter and not compared the code. -/
  | guessing
  /-- A confirmation with the right code, before it empties the stored one. -/
  | promoting
  /-- A confirmation after it has emptied the stored code. -/
  | closing
  deriving DecidableEq

def RequestPoint.stage (point : RequestPoint) : GuessStage :=
  if point = .start then .ready else if point.writes then .writing else .idle

def ConfirmPoint.stage : ConfirmPoint → GuessStage
  | count => .asked
  | clear => .clearing
  | increment => .counted
  | read => .guessing
  | settings | resetCount => .closing
  | returned _ => .idle
  | _ => .promoting

def PairingThread.stage : PairingThread → GuessStage
  | .request t => t.point.stage
  | .confirm t => t.point.stage
  | .forget false => .forgetting
  | _ => .idle

/-- How many threads of a pool are at a stage. -/
abbrev stageCount (threads : List PairingThread) (g : GuessStage) : ℕ :=
  Pool.countAt PairingThread.stage g threads

/-- How many confirmations are running. -/
def confirming (n : GuessStage → ℕ) : ℕ :=
  n .clearing + n .counted + n .guessing + n .promoting + n .closing

/-- A confirmation starts, and all pairings are forgotten, only while no confirmation is running,
and an attempt begins only while in addition no other request is writing its slots. -/
def SasGuarded (pool : Pool (AppState K C) PairingThread) (i : ℕ) : Prop :=
  ∀ t ∈ pool.threads[i]?,
    (t.stage = .asked ∨ t.stage = .forgetting ∨ t.stage = .ready →
      confirming (stageCount pool.threads) = 0) ∧
    (t.stage = .ready → stageCount pool.threads .writing = 0)

instance (pool : Pool (AppState K C) PairingThread) (i : ℕ) : Decidable (SasGuarded pool i) :=
  inferInstanceAs (Decidable (∀ t ∈ pool.threads[i]?, _))

/-- A section that compares a typed code with the stored one. -/
def comparesSas : Option (Option PairingEvent) → Bool
  | some (some (.sasCompared _ _)) => true
  | _ => false

/-- A section that begins an attempt or forgets all pairings. -/
def startsOver : Option (Option PairingEvent) → Bool
  | some (some .attemptBegun) | some (some .pairingCleared) => true
  | _ => false

/-- What a critical section can do to the stored code, to the attempt counter and to the stage of
the thread that has the turn. -/
inductive GuessStep (p p' : PairingState) :
    Option PairingEvent → GuessStage → GuessStage → Prop where
  /-- `begin_pairing_attempt` -/
  | attempt (hsas : p'.sasCode = "") (hcount : p'.attemptCount = 0) :
      GuessStep p p' (some .attemptBegun) .ready .writing
  /-- `clear_all_pairing` -/
  | forget {g : GuessStage} (hg : g = .clearing ∨ g = .forgetting) (hsas : p'.sasCode = "")
      (hcount : p'.attemptCount = 0) : GuessStep p p' (some .pairingCleared) g .idle
  /-- The code is kept or dropped, and the thread goes on with its stage or is done with it. -/
  | keep {e : Option PairingEvent} {g g' : GuessStage} (he : comparesSas (some e) = false)
      (hsas : p'.sasCode = p.sasCode ∨ p'.sasCode = "")
      (hcount : p'.attemptCount = p.attemptCount)
      (hg : g' = g ∨ g' = .idle ∨ g = .idle ∧ g' = .ready) : GuessStep p p' e g g'
  /-- The request stores its code. -/
  | offer (hcount : p'.attemptCount = p.attemptCount) : GuessStep p p' none .writing .idle
  /-- The confirmation reads the counter. -/
  | count (hp : p' = p) :
      GuessStep p p' none .asked (if 3 ≤ p.attemptCount then .clearing else .counted)
  | increment (hsas : p'.sasCode = p.sasCode)
      (hcount : p'.attemptCount = (p.attemptCount + 1) % 2 ^ 32) :
      GuessStep p p' none .counted .guessing
  /-- The confirmation reads the stored code, and compares it if there is one. -/
  | compare {e : Option PairingEvent} {g' : GuessStage} (hp : p' = p)
      (he : p.sasCode = "" → comparesSas (some e) = false)
      (hg : g' = .idle ∨ p.sasCode ≠ "" ∧ g' = .promoting) : GuessStep p p' e .guessing g'
  /-- `confirm_pairing` -/
  | close (hsas : p'.sasCode = "") : GuessStep p p' none .promoting .closing
  /-- `reset_sas_attempt_count` -/
  | reset (hsas : p'.sasCode = p.sasCode) : GuessStep p p' none .closing .idle

/-! ### Sections -/

section Sections

variable {P : PairingPrimitives K C} {s : AppState K C}

/-- After the decapsulation a request writes or is refused. -/
theorem RequestPoint.Continues.stage {fields : PairingFields} {kem : KemOutcome}
    {point : RequestPoint} (h : Continues fields kem point) :
    point.stage = .writing ∨ point.stage = .idle := by
  cases h with
  | initiatorPk => exact .inl rfl
  | initiatorX25519Pk => exact .inl rfl
  | sasCode => exact .inl rfl
  | fail _ => exact .inr rfl

theorem RequestPoint.stage_afterNonce (parseJson : Bytes → Option PairingRequest) (body : Bytes)
    (expected : String) :
    (afterNonce parseJson body expected).stage = .writing ∨
      (afterNonce parseJson body expected).stage = .idle := by
  unfold afterNonce
  split_ifs
  · exact .inr rfl
  · split
    · exact .inr rfl
    · split_ifs
      · exact .inr rfl
      · exact .inr rfl
      · exact .inl rfl

theorem guessStep_requestStep (call : PairingCall) (point : RequestPoint) :
    GuessStep s.pairing (requestStep P s call point).2.1.pairing (requestStep P s call point).1
      point.stage (requestStep P s call point).2.2.stage := by
  cases point with
  | limiter =>
    simp only [requestStep]
    split_ifs <;> exact .keep rfl (.inl rfl) rfl (.inl rfl)
  | settings =>
    simp only [requestStep]
    split_ifs <;> exact .keep rfl (.inl rfl) rfl (.inl rfl)
  | phase =>
    simp only [requestStep]
    split_ifs <;> exact .keep rfl (.inl rfl) rfl (.inl rfl)
  | pending =>
    simp only [requestStep]
    split_ifs
    · exact .keep rfl (.inl rfl) rfl (.inl rfl)
    · exact .keep rfl (.inl rfl) rfl (.inr (.inr ⟨rfl, rfl⟩))
  | start => exact .attempt rfl rfl
  | certificate =>
    simp only [requestStep]
    cases call.peerIp <;> exact .keep rfl (.inl rfl) rfl (.inl rfl)
  | nonce =>
    exact .keep rfl (.inl rfl) rfl
      ((RequestPoint.stage_afterNonce _ _ _).imp_right .inl)
  | keypair fields =>
    simp only [requestStep]
    cases kemOutcome P s.keypair fields with
    | none => exact .keep rfl (.inl rfl) rfl (.inr (.inl rfl))
    | some kem => exact .keep rfl (.inl rfl) rfl (.inl rfl)
  | sharedSecret fields kem =>
    exact .keep rfl (.inl rfl) rfl
      ((RequestPoint.continues_afterSecrets _ fields kem).stage.imp_right .inl)
  | initiatorPk fields kem =>
    exact .keep rfl (.inl rfl) rfl
      ((RequestPoint.continues_afterInitiatorPk fields kem).stage.imp_right .inl)
  | initiatorX25519Pk fields kem =>
    exact .keep rfl (.inl rfl) rfl
      ((RequestPoint.continues_afterKeys fields kem).stage.imp_right .inl)
  | sasCode kem nonce => exact .offer rfl
  | promote nonce =>
    simp only [requestStep, AppState.onPairing, PairingState.promoteToSasPending]
    split_ifs <;> exact .keep rfl (.inl rfl) rfl (.inl rfl)
  | fail reason => exact .keep rfl (.inr rfl) rfl (.inl rfl)
  | _ => exact .keep rfl (.inl rfl) rfl (.inl rfl)

theorem ConfirmPoint.stage_afterSession (key : String) : (afterSession key).stage = .promoting := by
  unfold afterSession
  split <;> rfl

theorem ConfirmPoint.stage_afterPeerId (key secretHex peer : String) :
    (afterPeerId key secretHex peer).stage = .promoting := by
  unfold afterPeerId
  split_ifs
  · exact stage_afterSession key
  · split
    · exact stage_afterSession key
    · rfl

theorem ConfirmPoint.stage_afterRead (verified stored key : String) :
    (afterRead verified stored key).stage = .idle ∨
      stored ≠ "" ∧ (afterRead verified stored key).stage = .promoting := by
  unfold afterRead
  split_ifs with hempty
  · exact .inl rfl
  · exact .inl rfl
  · exact .inl rfl
  · exact .inr ⟨hempty, rfl⟩

theorem guessStep_confirmStep (call : ConfirmCall) (promoted : Promotion) (point : ConfirmPoint) :
    GuessStep s.pairing (confirmStep P s call promoted point).2.1.pairing
      (confirmStep P s call promoted point).1 point.stage
      (confirmStep P s call promoted point).2.2.1.stage := by
  -- within a stage most sections touch neither the code nor the counter
  have hsame {p : PairingState} {g g' : GuessStage} (h : g' = g ∨ g' = .idle) :
      GuessStep p p none g g' := .keep rfl (.inl rfl) rfl (h.imp_right .inl)
  cases point with
  | count =>
    simp only [confirmStep]
    have hcount : GuessStep s.pairing s.pairing none .asked _ := .count rfl
    split_ifs with h
    · rwa [if_pos h] at hcount
    · rwa [if_neg h] at hcount
  | clear => exact .forget (.inl rfl) rfl rfl
  | increment => exact .increment rfl rfl
  | read =>
    refine .compare rfl (fun hempty => ?_) (ConfirmPoint.stage_afterRead _ _ _)
    simp [confirmStep, hempty, comparesSas]
  | sharedSecret key =>
    simp only [confirmStep]
    split_ifs <;> exact hsame (.inl rfl)
  | peerId key secretHex => exact hsame (.inl (ConfirmPoint.stage_afterPeerId _ _ _))
  | keypair key seed =>
    simp only [confirmStep]
    cases s.keypair with
    | none => exact hsame (.inr rfl)
    | some own => exact hsame (.inl rfl)
  | initSession key seed own =>
    simp only [confirmStep]
    split
    · exact hsame (.inr rfl)
    · exact hsame (.inl (ConfirmPoint.stage_afterSession key))
  | createHandle keyBytes =>
    simp only [confirmStep]
    split
    · exact hsame (.inr rfl)
    · exact hsame (.inr rfl)
    · exact hsame (.inl rfl)
  | certificate =>
    simp only [confirmStep]
    split_ifs <;> exact hsame (.inl rfl)
  | routedPeer cert =>
    simp only [confirmStep]
    split_ifs <;> exact hsame (.inl rfl)
  | route cert peer =>
    simp only [confirmStep, AppState.onPairing, PairingState.registerPeerCertMapping]
    split_ifs <;> exact .keep rfl (.inl rfl) rfl (.inl rfl)
  | confirm => exact .close rfl
  | resetCount => exact .reset rfl
  | _ => exact .keep rfl (.inl rfl) rfl (.inl rfl)

theorem guessStep_timeoutStep (index : ℕ) (point : TimeoutPoint) :
    GuessStep s.pairing (timeoutStep s index point).1.pairing none .idle .idle := by
  cases point with
  | generation =>
    simp only [timeoutStep]
    split <;> exact .keep rfl (.inl rfl) rfl (.inl rfl)
  | timeout =>
    simp only [timeoutStep, AppState.onPairing, PairingState.timeoutPairing]
    split_ifs
    · exact .keep rfl (.inr rfl) rfl (.inl rfl)
    · exact .keep rfl (.inl rfl) rfl (.inl rfl)
  | _ => exact .keep rfl (.inl rfl) rfl (.inl rfl)

/-- Every section of every thread is of one of these kinds. -/
theorem guessStep_pairingProgram (P : PairingPrimitives K C) (s : AppState K C)
    (t : PairingThread) :
    GuessStep s.pairing ((pairingProgram P).step s t).2.1.pairing ((pairingProgram P).step s t).1
      t.stage ((pairingProgram P).step s t).2.2.stage := by
  cases t with
  | request t => exact guessStep_requestStep t.call t.point
  | confirm t => exact guessStep_confirmStep t.call t.promoted t.point
  | timeout index point => exact guessStep_timeoutStep index point
  | issue nonce issued => cases issued <;> exact .keep rfl (.inl rfl) rfl (.inl rfl)
  | forget forgotten =>
    cases forgotten
    · exact .forget (.inr rfl) rfl rfl
    · exact .keep rfl (.inl rfl) rfl (.inl rfl)

end Sections

/-! ### Stages -/

section Stages

variable {p p' : PairingState} {n n' : GuessStage → ℕ} {e : Option PairingEvent}
variable {g g' : GuessStage}

/-- At most one request writes and at most one confirmation runs. While a code is stored, or a
confirmation has found one, no request writes. -/
structure GuessInv (p : PairingState) (n : GuessStage → ℕ) : Prop where
  oneWriter : n .writing ≤ 1
  oneConfirm : confirming n ≤ 1
  sas : p.sasCode ≠ "" → n .writing = 0
  counted : 0 < n .counted → p.attemptCount < 3
  guessing : 0 < n .guessing → 1 ≤ p.attemptCount ∧ p.attemptCount ≤ 3
  promoting : 0 < n .promoting → n .writing = 0
  closing : 0 < n .closing → n .writing = 0 ∧ p.sasCode = ""

/-- How many comparisons the attempt still allows: none without a code and without a request that
could store one. A confirmation that has been counted may still compare. -/
def guessBudget (p : PairingState) (n : GuessStage → ℕ) : ℕ :=
  if p.sasCode = "" ∧ n .writing = 0 then 0 else 3 - p.attemptCount + n .guessing

theorem GuessInv.guessBudget_le (h : GuessInv p n) : guessBudget p n ≤ 3 := by
  have hone := h.oneConfirm
  have hguessing := h.guessing
  unfold confirming at hone
  unfold guessBudget
  split_ifs <;> omega

/-- The invariant does not mind if threads give up or the code is dropped. -/
theorem GuessInv.of_le (h : GuessInv p n) (hsas : p'.sasCode = p.sasCode ∨ p'.sasCode = "")
    (hcount : p'.attemptCount = p.attemptCount)
    (hle : ∀ x, x ≠ .idle → x ≠ .ready → n' x ≤ n x) :
    GuessInv p' n' ∧ guessBudget p' n' ≤ guessBudget p n := by
  obtain ⟨hwriter, hconfirm, hcode, hcounted, hguessing, hpromoting, hclosing⟩ := h
  have hw := hle .writing nofun nofun
  have hg := hle .guessing nofun nofun
  have hcl := hle .clearing nofun nofun
  have hco := hle .counted nofun nofun
  have hpr := hle .promoting nofun nofun
  have hcs := hle .closing nofun nofun
  have hdropped : p.sasCode = "" → p'.sasCode = "" := fun h => hsas.elim (·.trans h) id
  unfold confirming at hconfirm
  refine ⟨⟨by omega, by unfold confirming; omega, fun hne => ?_, by omega, by omega, by omega,
    fun hpos => ?_⟩, ?_⟩
  · have := hcode fun hempty => hne (hdropped hempty)
    omega
  · obtain ⟨hnone, hempty⟩ := hclosing (by omega)
    exact ⟨by omega, hdropped hempty⟩
  · unfold guessBudget
    split_ifs with hnow hbefore hbefore
    · exact Nat.le_refl 0
    · exact Nat.zero_le _
    · exact absurd ⟨hdropped hbefore.1, by omega⟩ hnow
    · omega

/-- Every kind of section keeps the invariant, and pays for a comparison out of the budget. -/
theorem GuessInv.step (h : GuessInv p n)
    (hn : ∀ x, n' x + (decide (g = x)).toNat = n x + (decide (g' = x)).toNat)
    (hkind : GuessStep p p' e g g')
    (hguard : g = .asked ∨ g = .forgetting ∨ g = .ready → confirming n = 0)
    (hwrite : g = .ready → n .writing = 0) :
    GuessInv p' n' ∧ (startsOver (some e) = false →
      (comparesSas (some e)).toNat + guessBudget p' n' ≤ guessBudget p n) := by
  have hall := h
  obtain ⟨hwriter, hconfirm, hcode, hcounted, hguessing, hpromoting, hclosing⟩ := h
  have hw := hn .writing
  have hg := hn .guessing
  have hcl := hn .clearing
  have hco := hn .counted
  have hpr := hn .promoting
  have hcs := hn .closing
  unfold confirming at hconfirm hguard
  cases hkind with
  | keep he hsas hcount hstage =>
    have hle : ∀ x, x ≠ .idle → x ≠ .ready → n' x ≤ n x := by
      intro x hidle hready
      have hx := hn x
      rcases hstage with rfl | rfl | ⟨rfl, rfl⟩
      · omega
      · simp only [hidle.symm, decide_false, Bool.toNat_false] at hx
        omega
      · simp only [hready.symm, decide_false, Bool.toNat_false] at hx
        omega
    obtain ⟨hinv, hbudget⟩ := hall.of_le hsas hcount hle
    refine ⟨hinv, fun _ => ?_⟩
    rw [he]
    simpa using hbudget
  | attempt hsas hcount =>
    have hnone := hguard (.inr (.inr rfl))
    have hfirst := hwrite rfl
    simp at hw hg hcl hco hpr hcs
    exact ⟨⟨by omega, by unfold confirming; omega, fun hne => absurd hsas hne, by omega, by omega,
      by omega, by omega⟩, nofun⟩
  | forget hstage hsas hcount =>
    refine ⟨?_, nofun⟩
    rcases hstage with rfl | rfl
    · simp at hw hg hcl hco hpr hcs
      exact ⟨by omega, by unfold confirming; omega, fun hne => absurd hsas hne, by omega, by omega,
        by omega, by omega⟩
    · have hnone := hguard (.inr (.inl rfl))
      simp at hw hg hcl hco hpr hcs
      exact ⟨by omega, by unfold confirming; omega, fun hne => absurd hsas hne, by omega, by omega,
        by omega, by omega⟩
  | offer hcount =>
    simp at hw hg hcl hco hpr hcs
    refine ⟨⟨by omega, by unfold confirming; omega, by omega, by omega, by omega, by omega,
      by omega⟩, fun _ => ?_⟩
    -- the attempt was open already, because the request was still writing
    have hopen : ¬ (p.sasCode = "" ∧ n .writing = 0) := by omega
    simp only [guessBudget, if_neg hopen, comparesSas, Bool.toNat_false]
    split_ifs <;> omega
  | count hp =>
    subst hp
    have hnone := hguard (.inl rfl)
    have hsame : n' .writing = n .writing ∧ n' .guessing = n .guessing := by
      split_ifs at hw hg <;> simp at hw hg <;> exact ⟨hw, hg⟩
    refine ⟨?_, fun _ => by simp [guessBudget, hsame, comparesSas]⟩
    split_ifs at hw hg hcl hco hpr hcs with h3
    · simp at hw hg hcl hco hpr hcs
      exact ⟨by omega, by unfold confirming; omega, fun hne => hw.trans (hcode hne), by omega,
        by omega, by omega, by omega⟩
    · simp at hw hg hcl hco hpr hcs
      exact ⟨by omega, by unfold confirming; omega, fun hne => hw.trans (hcode hne), by omega,
        by omega, by omega, by omega⟩
  | increment hsas hcount =>
    simp at hw hg hcl hco hpr hcs
    have hlt := hcounted (by omega)
    rw [Nat.mod_eq_of_lt (by omega)] at hcount
    refine ⟨⟨by omega, by unfold confirming; omega, fun hne => ?_, by omega, by omega, by omega,
      by omega⟩, fun _ => ?_⟩
    · rw [hsas] at hne
      exact hw.trans (hcode hne)
    · simp only [guessBudget, hsas, hw, comparesSas, Bool.toNat_false]
      split_ifs <;> omega
  | compare hp he hstage =>
    subst hp
    have hnow : 0 < n .guessing := by
      rcases hstage with rfl | ⟨_, rfl⟩ <;> simp at hg <;> omega
    have hafter : n' .guessing = 0 ∧ n' .writing = n .writing := by
      rcases hstage with rfl | ⟨_, rfl⟩ <;> simp at hg hw <;> omega
    refine ⟨?_, fun _ => ?_⟩
    · rcases hstage with rfl | ⟨hstored, rfl⟩
      · simp at hw hg hcl hco hpr hcs
        exact ⟨by omega, by unfold confirming; omega, fun hne => hw.trans (hcode hne), by omega,
          by omega, by omega, by omega⟩
      · have hnobody := hcode hstored
        simp at hw hg hcl hco hpr hcs
        exact ⟨by omega, by unfold confirming; omega, fun hne => hw.trans (hcode hne), by omega,
          by omega, by omega, by omega⟩
    · by_cases hempty : p'.sasCode = ""
      · simp only [guessBudget, he hempty, hafter, Bool.toNat_false]
        split_ifs <;> omega
      · have hle := Bool.toNat_le (comparesSas (some e))
        simp only [guessBudget, hempty, false_and, if_false, hafter]
        omega
  | close hsas =>
    simp at hw hg hcl hco hpr hcs
    have hnobody := hpromoting (by omega)
    refine ⟨⟨by omega, by unfold confirming; omega, fun hne => absurd hsas hne, by omega, by omega,
      by omega, fun _ => ⟨by omega, hsas⟩⟩, fun _ => ?_⟩
    have hclosed : p'.sasCode = "" ∧ n' .writing = 0 := ⟨hsas, by omega⟩
    simp [guessBudget, hclosed, comparesSas]
  | reset hsas =>
    simp at hw hg hcl hco hpr hcs
    obtain ⟨hnobody, hempty⟩ := hclosing (by omega)
    have hempty' : p'.sasCode = "" := hsas.trans hempty
    refine ⟨⟨by omega, by unfold confirming; omega, fun hne => absurd hempty' hne, by omega,
      by omega, by omega, by omega⟩, fun _ => ?_⟩
    have hclosed : p'.sasCode = "" ∧ n' .writing = 0 := ⟨hempty', by omega⟩
    simp [guessBudget, hclosed, comparesSas]

end Stages

/-! ### Runs -/

section Runs

variable {P : PairingPrimitives K C} {pool : Pool (AppState K C) PairingThread} {i : ℕ}

/-- A guarded turn keeps the invariant and pays for a comparison. -/
theorem guessInv_machine_step (h : GuessInv pool.shared.pairing (stageCount pool.threads))
    (hguard : SasGuarded pool i) :
    let r := (pairingProgram P).machine.step pool i
    GuessInv r.2.shared.pairing (stageCount r.2.threads) ∧ (startsOver r.1 = false →
      (comparesSas r.1).toNat + guessBudget r.2.shared.pairing (stageCount r.2.threads) ≤
        guessBudget pool.shared.pairing (stageCount pool.threads)) := by
  intro r
  cases hi : pool.threads[i]? with
  | none =>
    simp only [r, Program.machine_step_of_none hi]
    exact ⟨h, fun _ => by simp [comparesSas]⟩
  | some t =>
    simp only [r, Program.machine_step_of_some hi]
    obtain ⟨hconfirm, hwrite⟩ := hguard t hi
    exact h.step (fun x => Pool.countAt_set_add PairingThread.stage x _ hi)
      (guessStep_pairingProgram P pool.shared t) hconfirm hwrite

/-- Fresh threads are not in the middle of anything. -/
theorem PairingThread.Fresh.stage {t : PairingThread} (h : t.Fresh) :
    t.stage = .idle ∨ t.stage = .asked ∨ t.stage = .forgetting := by
  cases t with
  | request t =>
    obtain ⟨call, point⟩ := t
    obtain rfl : point = call.start := h
    simp only [PairingThread.stage, PairingCall.start]
    split_ifs <;> exact .inl rfl
  | confirm t =>
    obtain ⟨call, point, promoted⟩ := t
    obtain rfl : point = .count := h.1
    exact .inr (.inl rfl)
  | forget forgotten =>
    obtain rfl : forgotten = false := h
    exact .inr (.inr rfl)
  | _ => exact .inl rfl

theorem guessInv_of_fresh (hfresh : ∀ t ∈ pool.threads, t.Fresh) :
    GuessInv pool.shared.pairing (stageCount pool.threads) := by
  have hnone (g : GuessStage) (hidle : g ≠ .idle) (hasked : g ≠ .asked)
      (hforgetting : g ≠ .forgetting) : stageCount pool.threads g = 0 := by
    refine Pool.countAt_eq_zero.2 fun t ht hstage => ?_
    rcases (hfresh t ht).stage with h | h | h
    · exact hidle (hstage.symm.trans h)
    · exact hasked (hstage.symm.trans h)
    · exact hforgetting (hstage.symm.trans h)
  have hwriting := hnone .writing nofun nofun nofun
  have hclearing := hnone .clearing nofun nofun nofun
  have hcounted := hnone .counted nofun nofun nofun
  have hguessing := hnone .guessing nofun nofun nofun
  have hpromoting := hnone .promoting nofun nofun nofun
  have hclosing := hnone .closing nofun nofun nofun
  exact ⟨by omega, by unfold confirming; omega, fun _ => hwriting, by omega, by omega, by omega,
    by omega⟩

/-- Let confirmations and attempts take turns. In every interleaving of pairing requests, SAS
confirmations and timeouts from any state, at most three codes are compared while no attempt begins
and `clear_all_pairing` is not called. -/
theorem sas_comparisons_le_three (P : PairingPrimitives K C)
    {pool : Pool (AppState K C) PairingThread} (hfresh : ∀ t ∈ pool.threads, t.Fresh)
    {before attempt : List ℕ}
    (hguard : (pairingProgram P).machine.Follows SasGuarded pool (before ++ attempt))
    (hattempt : ∀ turn ∈ ((pairingProgram P).machine.run
      ((pairingProgram P).machine.run pool before).2 attempt).1, startsOver turn.2 = false) :
    ((pairingProgram P).machine.run ((pairingProgram P).machine.run pool before).2
      attempt).1.countP (fun turn => comparesSas turn.2) ≤ 3 := by
  obtain ⟨hbefore, hrest⟩ := Machine.follows_append.1 hguard
  let Inv : Pool (AppState K C) PairingThread → Prop :=
    fun pool => GuessInv pool.shared.pairing (stageCount pool.threads)
  have hstart : Inv ((pairingProgram P).machine.run pool before).2 :=
    Machine.run_invariant_of_follows Inv (fun _ _ h hg => (guessInv_machine_step h hg).1)
      (guessInv_of_fresh hfresh) hbefore
  have hcost := Machine.run_countP_add_le Inv
    (fun pool => guessBudget pool.shared.pairing (stageCount pool.threads))
    (fun _ _ h hg => (guessInv_machine_step h hg).1)
    (fun _ _ h hg => (guessInv_machine_step h hg).2) hstart hrest hattempt
  have hbudget := hstart.guessBudget_le
  omega

end Runs

open Symbolic in
/-- A desktop that waits for the users and confirmations that wait for a turn. -/
def guessers (n : ℕ) : Pool (AppState Key Ciphertext) PairingThread :=
  ⟨awaitingUsers, List.replicate n (.confirm (ConfirmCall.mk "000000" "phone" true).thread)⟩

open Symbolic in
/-- Four wrong codes one after the other: three are compared, the fourth one forgets the attempt. -/
theorem sas_comparisons_le_three_of_four_in_turn :
    let attempt := List.replicate 4 0 ++ List.replicate 4 1 ++ List.replicate 4 2 ++ [3]
    let trace := ((pairingProgram pairingPrimitives).machine.run (guessers 4) attempt).1
    trace.countP (fun turn => comparesSas turn.2) = 3 ∧
      trace.countP (fun turn => comparesSas turn.2) ≤ 3 := by
  intro attempt trace
  have hfresh : ∀ t ∈ (guessers 4).threads, t.Fresh := by
    simp [guessers, PairingThread.Fresh, ConfirmCall.thread]
  have hruns : (pairingProgram pairingPrimitives).machine.Follows SasGuarded (guessers 4)
        ([] ++ attempt) ∧
      (∀ turn ∈ trace, startsOver turn.2 = false) ∧
      trace.countP (fun turn => comparesSas turn.2) = 3 := by
    decide +kernel
  have hbound := sas_comparisons_le_three pairingPrimitives hfresh hruns.1
  rw [Machine.run_nil] at hbound
  exact ⟨hruns.2.2, hbound hruns.2.1⟩

open Symbolic in
/-- Four confirmations that all read the counter before one of them increments it. -/
theorem four_concurrent_sas_comparisons :
    let trace := ((pairingProgram pairingPrimitives).machine.run (guessers 4)
      ([0, 1, 2, 3] ++ [0, 1, 2, 3] ++ [0, 1, 2, 3])).1
    (∀ turn ∈ trace, startsOver turn.2 = false) ∧
      trace.countP (fun turn => comparesSas turn.2) = 4 := by
  decide +kernel

end KyberPipe
