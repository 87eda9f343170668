import KyberPipe.Pairing.GuessBound

/-!
# Promotion needs a matching code

Whatever the interleaving of the pairing threads, nothing is promoted until a confirmation has found
the code that its user typed equal to the stored one.
-/

namespace KyberPipe

variable {K C : Type}

/-- Nothing was promoted: all but the state of the attempt is as it was, and the paired certificate
and its route are kept or forgotten. -/
structure AppState.Unpromoted (s s' : AppState K C) : Prop where
  frame : s' = { s with pairing := s'.pairing, limiter := s'.limiter, timeouts := s'.timeouts }
  certificate : s'.pairing.pairedClientCertHash = s.pairing.pairedClientCertHash ∨
    s'.pairing.pairedClientCertHash = ""
  routes : s'.pairing.peerByCertHash = s.pairing.peerByCertHash ∨ s'.pairing.peerByCertHash = ∅

theorem AppState.Unpromoted.refl (s : AppState K C) : s.Unpromoted s := ⟨rfl, .inl rfl, .inl rfl⟩

theorem AppState.Unpromoted.trans {s s' t : AppState K C} (h : s.Unpromoted s')
    (h' : s'.Unpromoted t) : s.Unpromoted t where
  frame := by rw [h'.frame, h.frame]
  certificate := h'.certificate.elim (fun heq => heq ▸ h.certificate) .inr
  routes := h'.routes.elim (fun heq => heq ▸ h.routes) .inr

/-- A confirmation at this point has not found its code equal to the stored one. -/
def ConfirmPoint.Unverified : ConfirmPoint → Prop
  | .count | .clear | .increment | .read | .returned _ => True
  | _ => False

def PairingThread.Unverified : PairingThread → Prop
  | .confirm t => t.point.Unverified
  | _ => True

/-- A section that finds a typed code equal to the stored one. -/
def matchesSas : Option (Option PairingEvent) → Bool
  | some (some (.sasCompared stored verified)) => stored == verified
  | _ => false

section Steps

variable (P : PairingPrimitives K C) (s : AppState K C)

theorem unpromoted_requestStep (call : PairingCall) (point : RequestPoint) :
    s.Unpromoted (requestStep P s call point).2.1 := by
  cases point with
  | promote nonce =>
    simp only [requestStep, AppState.onPairing, PairingState.promoteToSasPending]
    split_ifs <;> exact ⟨rfl, .inl rfl, .inl rfl⟩
  | _ => exact ⟨rfl, .inl rfl, .inl rfl⟩

theorem unpromoted_timeoutStep (index : ℕ) (point : TimeoutPoint) :
    s.Unpromoted (timeoutStep s index point).1 := by
  cases point with
  | generation =>
    simp only [timeoutStep]
    split <;> exact .refl s
  | timeout =>
    simp only [timeoutStep, AppState.onPairing, PairingState.timeoutPairing]
    split_ifs <;> exact ⟨rfl, .inl rfl, .inl rfl⟩
  | _ => exact .refl s

/-- A confirmation that has verified no code promotes nothing, and verifies none unless it compares
equal codes. -/
theorem unpromoted_confirmStep (call : ConfirmCall) (promoted : Promotion) {point : ConfirmPoint}
    (h : point.Unverified)
    (hcode : matchesSas (some (confirmStep P s call promoted point).1) = false) :
    s.Unpromoted (confirmStep P s call promoted point).2.1 ∧
      (confirmStep P s call promoted point).2.2.1.Unverified := by
  cases point with
  | count =>
    refine ⟨.refl s, ?_⟩
    simp only [confirmStep]
    split_ifs <;> trivial
  | clear => exact ⟨⟨rfl, .inr rfl, .inr rfl⟩, trivial⟩
  | increment => exact ⟨⟨rfl, .inl rfl, .inl rfl⟩, trivial⟩
  | read =>
    refine ⟨.refl s, ?_⟩
    simp only [confirmStep, ConfirmPoint.afterRead] at hcode ⊢
    split_ifs with hempty hother
    · trivial
    · trivial
    · trivial
    · rw [if_neg hempty, ← not_not.1 hother] at hcode
      simp [matchesSas] at hcode
  | returned r => exact ⟨.refl s, trivial⟩
  | _ => exact h.elim

theorem unpromoted_pairingProgram {t : PairingThread} (h : t.Unverified)
    (hcode : matchesSas (some ((pairingProgram P).step s t).1) = false) :
    s.Unpromoted ((pairingProgram P).step s t).2.1 ∧
      ((pairingProgram P).step s t).2.2.Unverified := by
  cases t with
  | request t => exact ⟨unpromoted_requestStep P s t.call t.point, trivial⟩
  | confirm t => exact unpromoted_confirmStep P s t.call t.promoted h hcode
  | timeout index point => exact ⟨unpromoted_timeoutStep s index point, trivial⟩
  | issue nonce issued => cases issued <;> exact ⟨⟨rfl, .inl rfl, .inl rfl⟩, trivial⟩
  | forget forgotten =>
    cases forgotten with
    | false => exact ⟨⟨rfl, .inr rfl, .inr rfl⟩, trivial⟩
    | true => exact ⟨.refl s, trivial⟩

end Steps

/-- In every interleaving of pairing threads in which no confirmation compares a typed code with an
equal stored one, nothing is promoted. -/
theorem promotion_needs_matching_code (P : PairingPrimitives K C)
    {pool : Pool (AppState K C) PairingThread} (hfresh : ∀ t ∈ pool.threads, t.Fresh)
    {schedule : List ℕ} (hcodes : (pairingProgram P).machine.Follows
      (fun q i => matchesSas ((pairingProgram P).machine.step q i).1 = false) pool schedule) :
    pool.shared.Unpromoted ((pairingProgram P).machine.run pool schedule).2.shared := by
  refine (Machine.run_invariant_of_follows (fun q : Pool (AppState K C) PairingThread =>
    pool.shared.Unpromoted q.shared ∧ ∀ t ∈ q.threads, t.Unverified) ?_
      ⟨.refl _, fun t ht => ?_⟩ hcodes).1
  · rintro q i ⟨hkept, hall⟩ hcode
    cases hi : q.threads[i]? with
    | none =>
      rw [Program.machine_step_of_none hi]
      exact ⟨hkept, hall⟩
    | some t =>
      rw [Program.machine_step_of_some hi] at hcode ⊢
      obtain ⟨hnext, hthread⟩ :=
        unpromoted_pairingProgram P q.shared (hall t (List.mem_of_getElem? hi)) hcode
      refine ⟨hkept.trans hnext, fun t' ht' => ?_⟩
      rcases List.mem_or_eq_of_mem_set ht' with hold | rfl
      · exact hall t' hold
      · exact hthread
  · cases t with
    | confirm t =>
      rw [PairingThread.Unverified, (hfresh _ ht).1]
      trivial
    | _ => trivial

open Symbolic in
/-- Two confirmations with a wrong code, both of which count before one compares. -/
theorem wrong_codes_promote_nothing :
    (guessers 2).shared.Unpromoted ((pairingProgram pairingPrimitives).machine.run (guessers 2)
      [0, 1, 0, 1, 0, 1]).2.shared := by
  refine promotion_needs_matching_code pairingPrimitives ?_ (by decide +kernel)
  simp [guessers, PairingThread.Fresh, ConfirmCall.thread]

end KyberPipe
