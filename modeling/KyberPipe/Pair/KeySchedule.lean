import KyberPipe.Pair.Ledger
import KyberPipe.Pair.Protocol

/-!
# The key schedule of a protocol run

The winning proposals determine the root key of every generation and the seeds of the two sending
chains in it. All seeds are different, and one that was derived from a proposal tells which
proposal and in which generation.
-/

namespace KyberPipe

variable {K C : Type}

namespace RekeyProtocol

/-- The secret of the proposal by which generation `n` was left. -/
def secret (A : RekeyProtocol Offer) (n : ℕ) : Bytes := (A.winner n).elim [] (·.2.secret)

/-- The end by whose proposal generation `n` was left. -/
def proposer (A : RekeyProtocol Offer) (n : ℕ) : Role := (A.winner n).elim .initiator (·.1)

/-- The root key of generation `n`. -/
def root (P : Primitives K C) (base : K) (A : RekeyProtocol Offer) : ℕ → K
  | 0 => base
  | n + 1 => P.nextRootKey (A.root P base n) (A.secret n)

/-- The seed of the sending chain of `x` in generation `n`. -/
def seed (P : Primitives K C) (base : K) (A : RekeyProtocol Offer) (x : Role) : ℕ → K
  | 0 => P.hkdf .chainSalt (.key base) (if x = .initiator then .sendChain else .recvChain)
  | n + 1 =>
    if A.proposer n = x then P.nextSendChain (A.root P base n) (A.secret n)
    else P.nextRecvChain (A.root P base n) (A.secret n)

variable {P : Primitives K C} {base : K} {A B : RekeyProtocol Offer} {x : Role} {n : ℕ}

/-! ## What the schedule depends on -/

/-- The root of a generation depends on the generations before it. -/
theorem root_congr (h : ∀ m < n, B.winner m = A.winner m) :
    B.root P base n = A.root P base n := by
  induction n with
  | zero => rfl
  | succ n ih =>
    rw [root, root, ih fun m hm => h m (by omega), secret, secret, h n (by omega)]

theorem seed_congr (h : ∀ m < n, B.winner m = A.winner m) (x : Role) :
    B.seed P base x n = A.seed P base x n := by
  cases n with
  | zero => rfl
  | succ n =>
    rw [seed, seed, root_congr fun m hm => h m (by omega), proposer, proposer, secret, secret,
      h n (by omega)]

@[simp]
theorem root_set (A : RekeyProtocol Offer) (x : Role) (a : RekeyEnd Offer) (n : ℕ) :
    (A.set x a).root P base n = A.root P base n :=
  root_congr fun _ _ => rfl

@[simp]
theorem seed_set (A : RekeyProtocol Offer) (x y : Role) (a : RekeyEnd Offer) (n : ℕ) :
    (A.set x a).seed P base y n = A.seed P base y n :=
  seed_congr (A := A) (B := A.set x a) (fun _ _ => rfl) y

variable {o : Offer}

section

variable (h : A.winner n = some (x, o))
include h

theorem root_succ_of_winner : A.root P base (n + 1) = P.nextRootKey (A.root P base n) o.secret := by
  rw [root, secret, h]
  rfl

theorem seed_succ_of_winner :
    A.seed P base x (n + 1) = P.nextSendChain (A.root P base n) o.secret := by
  simp [seed, proposer, secret, h]

theorem seed_succ_of_winner_ne {y : Role} (hne : x ≠ y) :
    A.seed P base y (n + 1) = P.nextRecvChain (A.root P base n) o.secret := by
  simp [seed, proposer, secret, h, hne]

end

/-- A commit leaves the schedule of the generations up to the current one as it is. -/
theorem root_commit_of_le (h : n ≤ (A.ends x).generation) :
    (A.commit x o).root P base n = A.root P base n :=
  root_congr fun _ hm => Function.update_of_ne (hm.trans_le h).ne ..

theorem seed_commit_of_le (h : n ≤ (A.ends x).generation) (y : Role) :
    (A.commit x o).seed P base y n = A.seed P base y n :=
  seed_congr (fun _ hm => Function.update_of_ne (hm.trans_le h).ne ..) y

theorem winner_commit_self (A : RekeyProtocol Offer) (x : Role) (o : Offer) :
    (A.commit x o).winner (A.ends x).generation = some (x, o) :=
  Function.update_self ..

/-! ## Separation -/

section Ideal

variable (ideal : P.Ideal)
include ideal

/-- No two generations have the same root. -/
theorem root_injective : Function.Injective (A.root P base) := by
  obtain ⟨rank, hrank⟩ := ideal.exists_rank
  have hmono : StrictMono fun n => rank (A.root P base n) :=
    strictMono_nat_of_lt_succ fun n => hrank _ _ _
  intro m n h
  exact hmono.injective (congrArg rank h)

theorem isSeed_seed (x : Role) (n : ℕ) : P.chain.IsSeed (A.seed P base x n) := by
  cases n with
  | zero =>
    rw [seed]
    refine ideal.isSeed_of_info_ne ?_
    split_ifs <;> decide
  | succ n =>
    rw [seed]
    split_ifs
    · exact ideal.isSeed_nextSendChain _ _
    · exact ideal.isSeed_nextRecvChain _ _

/-- A seed that is the proposer's chain over a root of the run was installed by the proposal
that won the root's generation. -/
theorem eq_of_seed_eq_nextSendChain {m : ℕ} {ss : Bytes}
    (h : A.seed P base x m = P.nextSendChain (A.root P base n) ss) :
    m = n + 1 ∧ A.proposer n = x ∧ A.secret n = ss := by
  cases m with
  | zero => cases (ideal.hkdf_inj h).1
  | succ m =>
    rw [seed] at h
    split_ifs at h with hx
    · obtain ⟨hroot, rfl⟩ := nextSendChain_inj ideal h
      obtain rfl := root_injective ideal hroot
      exact ⟨rfl, hx, rfl⟩
    · exact absurd h.symm (nextSendChain_ne_nextRecvChain ideal _ _ _ _)

/-- The sending chains of one end have different seeds in different generations. -/
theorem seed_injective (x : Role) : Function.Injective (A.seed P base x) := by
  have hsucc : ∀ m n, A.seed P base x (m + 1) = A.seed P base x (n + 1) → m = n := by
    intro m n h
    rw [seed, seed] at h
    split_ifs at h
    · exact root_injective ideal (nextSendChain_inj ideal h).1
    · exact absurd h (nextSendChain_ne_nextRecvChain ideal _ _ _ _)
    · exact absurd h.symm (nextSendChain_ne_nextRecvChain ideal _ _ _ _)
    · exact root_injective ideal (nextRecvChain_inj ideal h).1
  have hzero : ∀ n, A.seed P base x 0 ≠ A.seed P base x (n + 1) := by
    intro n h
    rw [seed, seed] at h
    split_ifs at h <;> cases (ideal.hkdf_inj h).1
  intro m n h
  cases m with
  | zero =>
    cases n with
    | zero => rfl
    | succ n => exact absurd h (hzero n)
  | succ m =>
    cases n with
    | zero => exact absurd h.symm (hzero m)
    | succ n => rw [hsucc m n h]

end Ideal

end RekeyProtocol

end KyberPipe
