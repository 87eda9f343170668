import KyberPipe.Pairing.Confirm

/-!
# The threads of pairing

Pairing requests, SAS confirmations, the timeout tasks of the requests, and the commands that issue
a nonce or forget a pairing, as threads over one desktop state.
-/

namespace KyberPipe

variable {K C : Type}

/-- The program points of a SAS timeout task. -/
inductive TimeoutPoint where
  /-- `get_pairing_generation`, after the window. -/
  | generation
  /-- `pairing_phase` -/
  | phase
  /-- `timeout_pairing` -/
  | timeout
  | finished
  deriving DecidableEq

/-- The threads of pairing. -/
inductive PairingThread where
  /-- `handle_pairing` -/
  | request (thread : RequestThread)
  /-- `perform_sas_confirmation` -/
  | confirm (thread : ConfirmThread)
  /-- The timeout task of the request that was the `index`-th to begin an attempt. -/
  | timeout (index : ℕ) (point : TimeoutPoint)
  /-- `issue_fresh_nonce` with the nonce it draws. -/
  | issue (nonce : String) (issued : Bool)
  /-- The call of `clear_all_pairing` when a phone is forgotten. -/
  | forget (forgotten : Bool)

/-- The thread has not had a turn yet. -/
def PairingThread.Fresh : PairingThread → Prop
  | .request t => t.point = t.call.start
  | .confirm t => t.point = .count ∧ t.promoted = {}
  | .timeout _ point => point = .generation
  | .issue _ issued => issued = false
  | .forget forgotten => forgotten = false

/-- One critical section of a SAS timeout task. A task that has not been spawned waits. -/
def timeoutStep (s : AppState K C) (index : ℕ) : TimeoutPoint → AppState K C × TimeoutPoint
  | .generation =>
    match s.timeouts[index]? with
    | none => (s, .generation)
    | some generation => (s, if s.pairing.attemptGeneration = generation then .phase else .finished)
  | .phase => (s, if s.pairing.phase = .sasPending then .timeout else .finished)
  | .timeout => (s.onPairing (·.timeoutPairing), .finished)
  | .finished => (s, .finished)

/-- The timeout task of the request that was the `index`-th to begin an attempt. -/
def sasTimeout (index : ℕ) : Program (AppState K C) TimeoutPoint (Option PairingEvent) where
  step s point := (none, timeoutStep s index point)

/-- The critical sections of the pairing threads. -/
def pairingProgram (P : PairingPrimitives K C) :
    Program (AppState K C) PairingThread (Option PairingEvent) where
  step s
    | .request t =>
      let r := requestStep P s t.call t.point
      (r.1, r.2.1, .request ⟨t.call, r.2.2⟩)
    | .confirm t =>
      let r := confirmStep P s t.call t.promoted t.point
      (r.1, r.2.1, .confirm ⟨t.call, r.2.2.1, r.2.2.2⟩)
    | .timeout index point =>
      let r := timeoutStep s index point
      (none, r.1, .timeout index r.2)
    | .issue nonce issued =>
      (none, if issued then s else s.onPairing ({ · with pendingPairingNonce := nonce }),
        .issue nonce true)
    | .forget forgotten =>
      (if forgotten then none else some .pairingCleared,
        if forgotten then s else s.onPairing (·.clearAllPairing), .forget true)

end KyberPipe
