import KyberPipe.Lib.Machine

/-!
# The pool of script workers

`run_boa_sandboxed_script` of `worker.rs` takes a worker process from a pool, writes one request
line, waits for one response line and puts the worker back. Requests and responses are matched by
their order in the pipes alone. Callers, workers and deaths of workers interleave freely.
-/

namespace KyberPipe.ScriptWorkers

/-- `MAX_POOL_SIZE` -/
def maxPoolSize : ℕ := 4

/-- What the protocol of the workers needs to know of its texts. -/
structure Protocol (Request Line Result : Type) where
  /-- The request of `BoaWorker::spawn`. -/
  ping : Request
  /-- The line that `run_boa_worker_loop` answers a request with. -/
  respond : Request → Line
  /-- `serde_json::from_str` on the trimmed line. -/
  parse : Line → Option Result

variable {Request Line Result : Type}

/-- A worker process with its pipes. -/
structure Worker (Request Line : Type) where
  /-- Written and not answered. -/
  requests : List Request := []
  /-- Answered and not read. -/
  lines : List Line := []
  alive : Bool := true

/-- The two attempts of a call. -/
inductive Attempt where
  | first
  | second

/-- A call of `run_boa_sandboxed_script`, before its next step. -/
inductive Point (Request Line Result : Type) where
  | checkout
  | spawn (attempt : Attempt)
  /-- Waiting for the answer to the startup ping. -/
  | pinged (attempt : Attempt) (worker : Worker Request Line)
  /-- At the start of `execute`. -/
  | write (attempt : Attempt) (worker : Worker Request Line)
  /-- Waiting for the response. -/
  | wait (attempt : Attempt) (worker : Worker Request Line)
  | checkin (worker : Worker Request Line) (result : Result)
  | returned (result : Result)
  /-- In `fallback_in_process`, which uses no worker of the pool. -/
  | fallback

/-- A call with the request for its own script. -/
structure Caller (Request Line Result : Type) where
  request : Request
  point : Point Request Line Result := .checkout

structure State (Request Line Result : Type) where
  pool : List (Worker Request Line) := []
  callers : List (Caller Request Line Result) := []

inductive Event (Request : Type) where
  | call (request : Request)
  /-- A step of a caller; the flag says whether the spawn, the write or the wait succeeds. -/
  | turn (i : ℕ) (ok : Bool)
  /-- The worker of a caller, or one in the pool, answers its next request. -/
  | answer (i : ℕ)
  | answerPooled (k : ℕ)
  | die (i : ℕ)
  | diePooled (k : ℕ)

/-- One round of `run_boa_worker_loop`. -/
def Worker.answer (X : Protocol Request Line Result) (w : Worker Request Line) :
    Worker Request Line :=
  match w.alive, w.requests with
  | true, r :: rest => { w with requests := rest, lines := w.lines ++ [X.respond r] }
  | _, _ => w

def Worker.die (w : Worker Request Line) : Worker Request Line := { w with alive := false }

namespace Point

/-- What follows an attempt that failed. The worker is dropped. -/
def failed : Attempt → Point Request Line Result
  | .first => .spawn .second
  | .second => .fallback

/-- Something happens to the worker that the caller has. -/
def mapWorker (f : Worker Request Line → Worker Request Line) :
    Point Request Line Result → Point Request Line Result
  | .pinged a w => .pinged a (f w)
  | .write a w => .write a (f w)
  | .wait a w => .wait a (f w)
  | .checkin w result => .checkin (f w) result
  | p => p

end Point

/-- A step of a caller on the pool. A wait without a line goes on. -/
def turn (X : Protocol Request Line Result) (pool : List (Worker Request Line))
    (request : Request) (ok : Bool) :
    Point Request Line Result → List (Worker Request Line) × Point Request Line Result
  | .checkout =>
    match pool with
    | w :: rest => (rest, if w.alive then .write .first w else .spawn .first)
    | [] => (pool, .spawn .first)
  | .spawn a => (pool, if ok then .pinged a { requests := [X.ping] } else .fallback)
  | .pinged a w =>
    match ok, w.lines with
    | true, _ :: rest => (pool, .write a { w with lines := rest })
    | true, [] => (pool, .pinged a w)
    | false, _ => (pool, .fallback)
  | .write a w =>
    (pool, if ok then .wait a { w with requests := w.requests ++ [request] } else .failed a)
  | .wait a w =>
    match ok, w.lines with
    | true, line :: rest =>
      (pool, (X.parse line).elim (.failed a) (.checkin { w with lines := rest }))
    | true, [] => (pool, .wait a w)
    | false, _ => (pool, .failed a)
  | .checkin w result =>
    (if maxPoolSize ≤ pool.length then pool else pool ++ [w], .returned result)
  | .returned result => (pool, .returned result)
  | .fallback => (pool, .fallback)

/-- The calls and the workers, in any interleaving. -/
def machine (X : Protocol Request Line Result) :
    Machine (State Request Line Result) (Event Request) Unit where
  step s e :=
    ((), match e with
    | .call request => { s with callers := s.callers ++ [{ request }] }
    | .turn i ok =>
      match s.callers[i]? with
      | none => s
      | some c =>
        let r := turn X s.pool c.request ok c.point
        ⟨r.1, s.callers.set i { c with point := r.2 }⟩
    | .answer i =>
      { s with callers := s.callers.modify i fun c =>
          { c with point := c.point.mapWorker (·.answer X) } }
    | .answerPooled k => { s with pool := s.pool.modify k (·.answer X) }
    | .die i =>
      { s with callers := s.callers.modify i fun c =>
          { c with point := c.point.mapWorker (·.die) } }
    | .diePooled k => { s with pool := s.pool.modify k (·.die) })

/-! ## The balance of requests and responses -/

variable (X : Protocol Request Line Result)

/-- No request is on its way and no response is unread. -/
def Worker.Balanced (w : Worker Request Line) : Prop := w.requests = [] ∧ w.lines = []

/-- Exactly the response to `r` is still to be read. -/
def Worker.Owes (w : Worker Request Line) (r : Request) : Prop :=
  w.requests = [r] ∧ w.lines = [] ∨ w.requests = [] ∧ w.lines = [X.respond r]

/-- What is known of a call at each of its points. -/
def Point.Fits (request : Request) : Point Request Line Result → Prop
  | .pinged _ w => w.Owes X X.ping
  | .write _ w => w.Balanced
  | .wait _ w => w.Owes X request
  | .checkin w result => w.Balanced ∧ X.parse (X.respond request) = some result
  | .returned result => X.parse (X.respond request) = some result
  | .checkout | .spawn _ | .fallback => True

/-- The invariant of the pool. -/
structure State.Fits (s : State Request Line Result) : Prop where
  size : s.pool.length ≤ maxPoolSize
  pool : ∀ w ∈ s.pool, w.Balanced
  callers : ∀ c ∈ s.callers, c.point.Fits X c.request

variable {X} {s : State Request Line Result} {w : Worker Request Line} {r request : Request}

/-- A change to a worker that a caller or the pool does not see: the worker dies or answers. -/
def Silent (X : Protocol Request Line Result) (f : Worker Request Line → Worker Request Line) :
    Prop :=
  (∀ w, w.Balanced → (f w).Balanced) ∧ ∀ w r, w.Owes X r → (f w).Owes X r

theorem silent_answer : Silent X (·.answer X) := by
  refine ⟨fun w h => ?_, fun w r h => ?_⟩
  · obtain ⟨requests, lines, alive⟩ := w
    obtain ⟨rfl, rfl⟩ : requests = [] ∧ lines = [] := h
    cases alive <;> exact ⟨rfl, rfl⟩
  · obtain ⟨requests, lines, alive⟩ := w
    rcases (h : requests = [r] ∧ lines = [] ∨ requests = [] ∧ lines = [X.respond r]) with
      ⟨rfl, rfl⟩ | ⟨rfl, rfl⟩
    · cases alive
      · exact .inl ⟨rfl, rfl⟩
      · exact .inr ⟨rfl, rfl⟩
    · cases alive <;> exact .inr ⟨rfl, rfl⟩

theorem silent_die : Silent X (·.die) := ⟨fun _ h => h, fun _ _ h => h⟩

variable {p : Point Request Line Result}

theorem Silent.fits_mapWorker {f : Worker Request Line → Worker Request Line} (hf : Silent X f)
    (h : p.Fits X request) : (p.mapWorker f).Fits X request := by
  cases p with
  | pinged a w => exact hf.2 w _ h
  | write a w => exact hf.1 w h
  | wait a w => exact hf.2 w _ h
  | checkin w result => exact ⟨hf.1 w h.1, h.2⟩
  | checkout | spawn a | returned result | fallback => exact h

theorem fits_failed (a : Attempt) :
    (Point.failed a : Point Request Line Result).Fits X request := by
  cases a <;> trivial

/-- A read of what a worker owes is the response, and leaves the worker balanced. -/
theorem Worker.Owes.read {line : Line} {rest : List Line} (h : w.Owes X r)
    (hlines : w.lines = line :: rest) :
    line = X.respond r ∧ ({ w with lines := rest } : Worker Request Line).Balanced := by
  rcases h with ⟨_, hnone⟩ | ⟨hrequests, hone⟩
  · rw [hnone] at hlines
    cases hlines
  · rw [hone] at hlines
    obtain ⟨rfl, rfl⟩ := List.cons.inj hlines
    exact ⟨rfl, hrequests, rfl⟩

/-- A step of a caller keeps the pool balanced and within its size. -/
theorem turn_fits {pool : List (Worker Request Line)} (ok : Bool)
    (hsize : pool.length ≤ maxPoolSize) (hpool : ∀ w ∈ pool, w.Balanced) (hp : p.Fits X request) :
    (turn X pool request ok p).1.length ≤ maxPoolSize ∧
      (∀ w ∈ (turn X pool request ok p).1, w.Balanced) ∧
      (turn X pool request ok p).2.Fits X request := by
  cases p with
  | checkout =>
    cases pool with
    | nil => exact ⟨hsize, hpool, trivial⟩
    | cons w rest =>
      rw [List.forall_mem_cons] at hpool
      refine ⟨Nat.le_of_succ_le hsize, hpool.2, ?_⟩
      dsimp only [turn]
      split_ifs
      · exact hpool.1
      · trivial
  | spawn a =>
    refine ⟨hsize, hpool, ?_⟩
    cases ok
    · trivial
    · exact .inl ⟨rfl, rfl⟩
  | pinged a w =>
    cases ok with
    | false => exact ⟨hsize, hpool, trivial⟩
    | true =>
      cases hlines : w.lines with
      | nil => simpa [turn, hlines] using ⟨hsize, hpool, hp⟩
      | cons line rest => simpa [turn, hlines] using ⟨hsize, hpool, (Worker.Owes.read hp hlines).2⟩
  | write a w =>
    refine ⟨hsize, hpool, ?_⟩
    obtain ⟨hrequests, hlines⟩ := hp
    cases ok
    · exact fits_failed a
    · exact .inl ⟨by simp [hrequests], hlines⟩
  | wait a w =>
    cases ok with
    | false => exact ⟨hsize, hpool, fits_failed a⟩
    | true =>
      cases hlines : w.lines with
      | nil => simpa [turn, hlines] using ⟨hsize, hpool, hp⟩
      | cons line rest =>
        -- the only line is the response to the caller's own request
        obtain ⟨rfl, hbalanced⟩ := Worker.Owes.read hp hlines
        simp only [turn, hlines]
        refine ⟨hsize, hpool, ?_⟩
        cases hparse : X.parse (X.respond request) with
        | none => exact fits_failed a
        | some result => exact ⟨hbalanced, hparse⟩
  | checkin w result =>
    refine ⟨?_, ?_, hp.2⟩
    · dsimp only [turn]
      split_ifs with hfull
      · exact hsize
      · simp only [List.length_append, List.length_singleton]
        omega
    · dsimp only [turn]
      split_ifs
      · exact hpool
      · simpa [or_imp, forall_and] using ⟨hpool, hp.1⟩
  | returned result => exact ⟨hsize, hpool, hp⟩
  | fallback => exact ⟨hsize, hpool, trivial⟩

theorem forall_mem_modify {α : Type} {good : α → Prop} {f : α → α} (hf : ∀ a, good a → good (f a))
    {l : List α} (h : ∀ a ∈ l, good a) (i : ℕ) : ∀ a ∈ l.modify i f, good a := by
  intro a ha
  obtain ⟨k, hk⟩ := List.mem_iff_getElem?.1 ha
  rw [List.getElem?_modify] at hk
  obtain ⟨b, hb, rfl⟩ := Option.map_eq_some_iff.1 hk
  have hold := h b (List.mem_of_getElem? hb)
  split_ifs
  · exact hf b hold
  · exact hold

theorem State.Fits.step (h : s.Fits X) (e : Event Request) : ((machine X).step s e).2.Fits X := by
  have hmap {f : Worker Request Line → Worker Request Line} (hf : Silent X f) :
      ∀ c : Caller Request Line Result, c.point.Fits X c.request →
        (c.point.mapWorker f).Fits X c.request := fun _ => hf.fits_mapWorker
  cases e with
  | call request =>
    exact ⟨h.size, h.pool, by simpa [machine, or_imp, forall_and] using ⟨h.callers, trivial⟩⟩
  | turn i ok =>
    cases hi : s.callers[i]? with
    | none => simpa [machine, hi] using h
    | some c =>
      obtain ⟨hsize, hpool, hpoint⟩ :=
        turn_fits ok h.size h.pool (h.callers c (List.mem_of_getElem? hi))
      simp only [machine, hi]
      refine ⟨hsize, hpool, fun c' hc' => ?_⟩
      rcases List.mem_or_eq_of_mem_set hc' with hc' | rfl
      · exact h.callers c' hc'
      · exact hpoint
  | answer i =>
    exact ⟨h.size, h.pool, forall_mem_modify (hmap silent_answer) h.callers i⟩
  | answerPooled k =>
    exact ⟨by simpa [machine] using h.size, forall_mem_modify silent_answer.1 h.pool k, h.callers⟩
  | die i => exact ⟨h.size, h.pool, forall_mem_modify (hmap silent_die) h.callers i⟩
  | diePooled k =>
    exact ⟨by simpa [machine] using h.size, forall_mem_modify (silent_die (X := X)).1 h.pool k,
      h.callers⟩

/-- In every interleaving of calls and workers, the pool keeps its size, no worker in it has an
unread response or an unanswered request, and a call returns the response to its own request. -/
theorem script_results_not_mixed (X : Protocol Request Line Result)
    (events : List (Event Request)) :
    let s := ((machine X).run {} events).2
    s.pool.length ≤ maxPoolSize ∧ (∀ w ∈ s.pool, w.requests = [] ∧ w.lines = []) ∧
      ∀ c ∈ s.callers, ∀ result, c.point = .returned result →
        X.parse (X.respond c.request) = some result := by
  have hfits := Machine.run_invariant (State.Fits X) (fun _ e h => h.step e)
    (⟨by simp, by simp, by simp⟩ : ({} : State Request Line Result).Fits X) events
  refine ⟨hfits.size, hfits.pool, fun c hc result hreturned => ?_⟩
  have hpoint := hfits.callers c hc
  rwa [hreturned] at hpoint

end KyberPipe.ScriptWorkers
