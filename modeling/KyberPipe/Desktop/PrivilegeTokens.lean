import KyberPipe.Crypto.Primitives
import KyberPipe.Lib.Hex
import KyberPipe.Lib.Interleaving

/-!
# Privilege tokens

Privileged commands of the desktop need a token from `request_privilege_token`, which the user
confirms in a native dialog. A token is for one action, expires after 30 seconds and is used up by
`consume_privilege_token`. The queue of tokens is behind a mutex, which a request takes only after
the dialog.

The clock is read once for every token in the queue and once for a new token; the delays before the
readings are an argument of a call. Times are in nanoseconds.
-/

namespace KyberPipe

/-- `TOKEN_TTL` -/
def tokenTtl : ℕ := 30 * 10 ^ 9

/-- `TOKEN_MAX_OUTSTANDING_PER_ACTION` -/
def tokenMaxOutstandingPerAction : ℕ := 4

/-- `ALLOWED_TOKEN_ACTIONS` -/
def allowedTokenActions : List String :=
  ["get_pairing_config", "get_pairing_nonce", "delete_connection", "trigger_panic_self_destruct",
    "grant_file_access", "open_local_file", "request_firewall_open", "create_tor_onion",
    "execute_boa_script", "execute_fallback_script", "read_real_clipboard", "write_real_clipboard",
    "open_external_url", "store_key_in_secure_enclave", "generate_shamir_recovery_shares",
    "reconstruct_key_from_shamir_shares", "bind_pkcs11_yubikey_hardware_token"]

/-- A token in the queue. -/
structure PrivilegeToken where
  action : String
  token : String
  issuedAt : ℕ
  deriving DecidableEq

/-- The queue of tokens, oldest first, and the last reading of the clock. -/
structure TokenState where
  tokens : List PrivilegeToken := []
  clock : ℕ := 0
  deriving DecidableEq

/-- The tokens whose age is below the limit when the clock is read for them, the delays that are
left, and the clock. -/
def retainFresh : List PrivilegeToken → List ℕ → ℕ → List PrivilegeToken × List ℕ × ℕ
  | [], delays, clock => ([], delays, clock)
  | token :: rest, delays, clock =>
    let reading := clock + delays.headD 0
    let (kept, delays, clock) := retainFresh rest delays.tail reading
    (if reading - token.issuedAt < tokenTtl then token :: kept else kept, delays, clock)

namespace TokenState

variable (s : TokenState)

/-- The part of `request_privilege_token` under the lock, for a token that was drawn. -/
def mint (action token : String) (delays : List ℕ) : Except String String × TokenState :=
  let (kept, delays, clock) := retainFresh s.tokens delays s.clock
  let outstanding := (kept.filter (·.action = action)).length
  if tokenMaxOutstandingPerAction ≤ outstanding then
    (.error (s!"Too many outstanding tokens for '{action}' ({outstanding}) — " ++
      "reuse or wait for expiry (audit #15)"), ⟨kept, clock⟩)
  else
    let now := clock + delays.headD 0
    (.ok token, ⟨kept ++ [⟨action, token, now⟩], now⟩)

/-- Use up a token, if it is in the queue for this action. -/
def consumePrivilegeToken (action token : String) (delays : List ℕ) : Bool × TokenState :=
  let (kept, _, clock) := retainFresh s.tokens delays s.clock
  match kept.findIdx? (fun t => t.action = action ∧ t.token = token) with
  | some pos => (true, ⟨kept.eraseIdx pos, clock⟩)
  | none => (false, ⟨kept, clock⟩)

end TokenState

/-- A call of one of the two functions, with the answer of the user in the dialog and the bytes
that are drawn for the token. -/
inductive TokenCall where
  | request (action : String) (confirmed : Bool) (tokenBytes : Bytes) (delays : List ℕ)
  | consume (action token : String) (delays : List ℕ)

/-- Where a call is. -/
inductive TokenThread where
  | requesting (action : String) (confirmed : Bool) (tokenBytes : Bytes) (delays : List ℕ)
  /-- The native dialog is open. -/
  | asking (action : String) (confirmed : Bool) (tokenBytes : Bytes) (delays : List ℕ)
  | minting (action : String) (tokenBytes : Bytes) (delays : List ℕ)
  | consuming (action token : String) (delays : List ℕ)
  | returned

/-- What happens in a section: nothing that is seen from outside, or a call returns. -/
inductive TokenEvent where
  | silent
  | requested (action : String) (result : Except String String) (time : ℕ)
  | consumed (action token : String) (result : Bool) (started ended : ℕ)

/-- Where a call starts. -/
def TokenCall.start : TokenCall → TokenThread
  | request action confirmed tokenBytes delays => .requesting action confirmed tokenBytes delays
  | consume action token delays => .consuming action token delays

/-- The sections of the two functions. -/
def tokenProgram : Program TokenState TokenThread TokenEvent where
  step s
    | .requesting action confirmed tokenBytes delays =>
      if allowedTokenActions.contains action then
        (.silent, s, .asking action confirmed tokenBytes delays)
      else
        (.requested action (.error (s!"Privileged action '{action}' is not in the allowlist — " ++
          "token refused (audit F15)")) s.clock, s, .returned)
    | .asking action confirmed tokenBytes delays =>
      if confirmed then (.silent, s, .minting action tokenBytes delays)
      else
        (.requested action (.error (s!"Privileged action '{action}' was not confirmed by the " ++
          "user in the native dialog")) s.clock, s, .returned)
    | .minting action tokenBytes delays =>
      let (result, s) := s.mint action (Hex.encode tokenBytes) delays
      (.requested action result s.clock, s, .returned)
    | .consuming action token delays =>
      let (result, s') := s.consumePrivilegeToken action token delays
      (.consumed action token result s.clock s'.clock, s', .returned)
    | .returned => (.silent, s, .returned)

/-- The calls before any of them has run. -/
def tokenPool (calls : List TokenCall) : Pool TokenState TokenThread :=
  ⟨{}, calls.map TokenCall.start⟩

/-! ## What the sections do -/

/-- What remains of a queue after the clock was read for each of its tokens. -/
structure Retains (s s' : TokenState) : Prop where
  sublist : s'.tokens.Sublist s.tokens
  clock_le : s.clock ≤ s'.clock
  kept : ∀ t ∈ s'.tokens,
    ∃ reading, s.clock ≤ reading ∧ reading ≤ s'.clock ∧ reading - t.issuedAt < tokenTtl
  dropped : ∀ t ∈ s.tokens, t ∉ s'.tokens → tokenTtl ≤ s'.clock - t.issuedAt

theorem retainFresh_retains (tokens : List PrivilegeToken) (delays : List ℕ) (clock : ℕ) :
    Retains ⟨tokens, clock⟩
      ⟨(retainFresh tokens delays clock).1, (retainFresh tokens delays clock).2.2⟩ := by
  induction tokens generalizing delays clock with
  | nil => exact ⟨.slnil, Nat.le_refl _, by rintro _ ⟨⟩, by rintro _ ⟨⟩⟩
  | cons token rest ih =>
    have hrest := ih delays.tail (clock + delays.headD 0)
    simp only [retainFresh]
    generalize retainFresh rest delays.tail (clock + delays.headD 0) = result at hrest ⊢
    obtain ⟨kept, delays', clock'⟩ := result
    obtain ⟨hsub, hle, hkept, hdropped⟩ := hrest
    dsimp only at hsub hle hkept hdropped ⊢
    have hkept' : ∀ t ∈ kept,
        ∃ reading, clock ≤ reading ∧ reading ≤ clock' ∧ reading - t.issuedAt < tokenTtl := by
      intro t ht
      obtain ⟨reading, hlow, hhigh, hfresh⟩ := hkept t ht
      exact ⟨reading, by omega, hhigh, hfresh⟩
    have hclock : clock ≤ clock' := by omega
    split_ifs with hfresh
    · refine ⟨hsub.cons_cons token, hclock, ?_, ?_⟩
      · intro t ht
        rcases List.mem_cons.1 ht with rfl | ht
        · exact ⟨_, Nat.le_add_right _ _, hle, hfresh⟩
        · exact hkept' t ht
      · intro t ht hnot
        rw [List.mem_cons, not_or] at hnot
        exact hdropped t ((List.mem_cons.1 ht).resolve_left hnot.1) hnot.2
    · refine ⟨hsub.cons token, hclock, hkept', ?_⟩
      intro t ht hnot
      rcases List.mem_cons.1 ht with rfl | ht
      · show tokenTtl ≤ clock' - t.issuedAt
        omega
      · exact hdropped t ht hnot

/-- What a request does under the lock. -/
inductive Mints (s : TokenState) (action token : String) :
    Except String String → TokenState → Prop
  | refused {s' : TokenState} {error : String} (hretains : Retains s s') :
      Mints s action token (.error error) s'
  | issued {s' : TokenState} {now : ℕ} (hretains : Retains s s')
      (hroom : (s'.tokens.filter (·.action = action)).length < tokenMaxOutstandingPerAction)
      (hnow : s'.clock ≤ now) :
      Mints s action token (.ok token) ⟨s'.tokens ++ [⟨action, token, now⟩], now⟩

/-- What the use of a token does. -/
inductive Consumes (s : TokenState) (action token : String) : Bool → TokenState → Prop
  | rejected {s' : TokenState} (hretains : Retains s s') : Consumes s action token false s'
  | accepted {s' : TokenState} {front back : List PrivilegeToken} {t : PrivilegeToken}
      (hretains : Retains s s') (hsplit : s'.tokens = front ++ t :: back)
      (haction : t.action = action) (htoken : t.token = token) :
      Consumes s action token true ⟨front ++ back, s'.clock⟩

section Sections

variable (s : TokenState) (action token : String) (delays : List ℕ)

theorem TokenState.mint_mints :
    Mints s action token (s.mint action token delays).1 (s.mint action token delays).2 := by
  have hretains := retainFresh_retains s.tokens delays s.clock
  simp only [TokenState.mint]
  generalize retainFresh s.tokens delays s.clock = result at hretains ⊢
  obtain ⟨kept, delays', clock⟩ := result
  dsimp only at hretains ⊢
  split_ifs with hfull
  · exact .refused hretains
  · exact .issued hretains (Nat.lt_of_not_le hfull) (Nat.le_add_right _ _)

theorem TokenState.consumePrivilegeToken_consumes :
    Consumes s action token (s.consumePrivilegeToken action token delays).1
      (s.consumePrivilegeToken action token delays).2 := by
  have hretains := retainFresh_retains s.tokens delays s.clock
  simp only [TokenState.consumePrivilegeToken]
  generalize retainFresh s.tokens delays s.clock = result at hretains ⊢
  obtain ⟨kept, delays', clock⟩ := result
  dsimp only at hretains ⊢
  have herase := @List.eraseP_eq_eraseIdx _ kept
    (fun t => decide (t.action = action ∧ t.token = token))
  cases hfind : kept.findIdx? (fun t => decide (t.action = action ∧ t.token = token)) with
  | none => exact .rejected hretains
  | some pos =>
    rw [hfind] at herase
    have hany : kept.any (fun t => decide (t.action = action ∧ t.token = token)) = true := by
      rw [← List.findIdx?_isSome, hfind]
      rfl
    obtain ⟨t, hmem, ht⟩ := List.any_eq_true.1 hany
    obtain ⟨t, front, back, -, hmatch, hsplit, hrest⟩ :=
      List.exists_of_eraseP (p := fun t => decide (t.action = action ∧ t.token = token)) hmem ht
    dsimp only at herase ⊢
    rw [← herase, hrest]
    rw [decide_eq_true_eq] at hmatch
    exact .accepted hretains hsplit hmatch.1 hmatch.2

end Sections

/-! ## What a run leaves behind -/

/-- A use of a token, with the readings of the clock before and after it. -/
structure Acceptance where
  action : String
  token : String
  started : ℕ
  ended : ℕ

/-- The token that an event issues. -/
def TokenEvent.issued : TokenEvent → Option PrivilegeToken
  | requested action (.ok token) time => some ⟨action, token, time⟩
  | _ => none

/-- The acceptance that an event reports. -/
def TokenEvent.accepted : TokenEvent → Option Acceptance
  | consumed action token true started ended => some ⟨action, token, started, ended⟩
  | _ => none

/-- The use is for the action of the token, and at some moment of it the token is younger than
the limit. -/
def Acceptance.Uses (a : Acceptance) (t : PrivilegeToken) : Prop :=
  t.action = a.action ∧ t.token = a.token ∧ ∃ reading, a.started ≤ reading ∧ reading ≤ a.ended ∧
    t.issuedAt ≤ reading ∧ reading < t.issuedAt + tokenTtl

/-- How the queue stands to the tokens that were issued and the uses that were accepted. -/
structure Tracks (s : TokenState) (issued : List PrivilegeToken) (accepted : List Acceptance) :
    Prop where
  queue : s.tokens.Sublist issued
  tokens_nodup : (issued.map (·.token)).Nodup
  issued_le : ∀ t ∈ issued, t.issuedAt ≤ s.clock
  origin : ∀ a ∈ accepted, ∃ t ∈ issued, a.Uses t
  accepted_nodup : (accepted.map (·.token)).Nodup
  used_up : ∀ a ∈ accepted, ∀ t ∈ s.tokens, t.token ≠ a.token
  outstanding : ∀ t ∈ issued, t.token ∉ accepted.map (·.token) →
    s.clock < t.issuedAt + tokenTtl → t ∈ s.tokens
  bounded : ∀ action,
    (s.tokens.filter (·.action = action)).length ≤ tokenMaxOutstandingPerAction

namespace Tracks

variable {s s' : TokenState} {issued : List PrivilegeToken} {accepted : List Acceptance}

theorem retains (h : Tracks s issued accepted) (hretains : Retains s s') :
    Tracks s' issued accepted where
  queue := hretains.sublist.trans h.queue
  tokens_nodup := h.tokens_nodup
  issued_le t ht := (h.issued_le t ht).trans hretains.clock_le
  origin := h.origin
  accepted_nodup := h.accepted_nodup
  used_up a ha t ht := h.used_up a ha t (hretains.sublist.subset ht)
  outstanding t ht hunused hfresh := by
    have hmem := h.outstanding t ht hunused (hretains.clock_le.trans_lt hfresh)
    by_contra hdropped
    -- a token leaves only when it is too old, and it stays so
    have hold := hretains.dropped t hmem hdropped
    have hpast := (h.issued_le t ht).trans hretains.clock_le
    omega
  bounded action := ((hretains.sublist.filter _).length_le).trans (h.bounded action)

theorem mint (h : Tracks s issued accepted) {action token : String} {now : ℕ}
    (hfresh : token ∉ issued.map (·.token)) (hnow : s.clock ≤ now)
    (hroom : (s.tokens.filter (·.action = action)).length < tokenMaxOutstandingPerAction) :
    Tracks ⟨s.tokens ++ [⟨action, token, now⟩], now⟩ (issued ++ [⟨action, token, now⟩])
      accepted where
  queue := h.queue.append (.refl _)
  tokens_nodup := by
    rw [List.map_append, List.map_singleton, List.nodup_append_comm, List.singleton_append]
    exact List.nodup_cons.2 ⟨hfresh, h.tokens_nodup⟩
  issued_le t ht := by
    rcases List.mem_append.1 ht with ht | ht
    · exact (h.issued_le t ht).trans hnow
    · rw [List.mem_singleton.1 ht]
  origin a ha := by
    obtain ⟨t, ht, huses⟩ := h.origin a ha
    exact ⟨t, List.mem_append_left _ ht, huses⟩
  accepted_nodup := h.accepted_nodup
  used_up a ha t ht := by
    rcases List.mem_append.1 ht with ht | ht
    · exact h.used_up a ha t ht
    · obtain ⟨t', ht', huses⟩ := h.origin a ha
      rw [List.mem_singleton.1 ht, ← huses.2.1]
      rintro rfl
      exact hfresh (List.mem_map_of_mem ht')
  outstanding t ht hunused hyoung := by
    rcases List.mem_append.1 ht with ht | ht
    · exact List.mem_append_left _ (h.outstanding t ht hunused (hnow.trans_lt hyoung))
    · exact List.mem_append_right _ ht
  bounded other := by
    rw [List.filter_append, List.length_append]
    by_cases hsame : action = other
    · subst hsame
      exact (Nat.add_le_add_left (List.length_filter_le _ _) _).trans hroom
    · rw [List.filter_cons_of_neg (by simpa using hsame), List.filter_nil]
      exact h.bounded other

theorem accept {clock : ℕ} {front back : List PrivilegeToken} {t : PrivilegeToken}
    {a : Acceptance} (h : Tracks ⟨front ++ t :: back, clock⟩ issued accepted) (huses : a.Uses t) :
    Tracks ⟨front ++ back, clock⟩ issued (accepted ++ [a]) := by
  have hsub : (front ++ back).Sublist (front ++ t :: back) :=
    (List.Sublist.refl front).append (List.sublist_cons_self t back)
  have hmem : t ∈ front ++ t :: back := List.mem_append_right _ List.mem_cons_self
  -- the tokens in the queue are pairwise different
  have hothers : ∀ t' ∈ front ++ back, t'.token ≠ t.token := by
    intro t' ht' heq
    have hnodup : ((front ++ t :: back).map (·.token)).Nodup :=
      h.tokens_nodup.sublist (h.queue.map _)
    rw [List.map_append, List.map_cons, List.nodup_middle, List.nodup_cons, ← List.map_append]
      at hnodup
    exact hnodup.1 (heq ▸ List.mem_map_of_mem ht')
  refine ⟨hsub.trans h.queue, h.tokens_nodup, h.issued_le, ?_, ?_, ?_, ?_, ?_⟩
  · intro b hb
    rcases List.mem_append.1 hb with hb | hb
    · exact h.origin b hb
    · rw [List.mem_singleton.1 hb]
      exact ⟨t, h.queue.subset hmem, huses⟩
  · rw [List.map_append, List.map_singleton, List.nodup_append_comm, List.singleton_append]
    refine List.nodup_cons.2 ⟨fun hused => ?_, h.accepted_nodup⟩
    obtain ⟨b, hb, heq⟩ := List.mem_map.1 hused
    exact h.used_up b hb t hmem (huses.2.1.trans heq.symm)
  · intro b hb t' ht'
    rcases List.mem_append.1 hb with hb | hb
    · exact h.used_up b hb t' (hsub.subset ht')
    · rw [List.mem_singleton.1 hb, ← huses.2.1]
      exact hothers t' ht'
  · intro t' ht' hunused hfresh
    rw [List.map_append, List.mem_append, not_or] at hunused
    have hin := h.outstanding t' ht' hunused.1 hfresh
    have hne : t' ≠ t := by
      rintro rfl
      exact hunused.2 (by simp [huses.2.1])
    rcases List.mem_append.1 hin with hin | hin
    · exact List.mem_append_left _ hin
    · exact List.mem_append_right _ ((List.mem_cons.1 hin).resolve_left hne)
  · intro action
    exact ((hsub.filter _).length_le).trans (h.bounded action)

/-- No more tokens than the limit are neither used nor expired. -/
theorem length_outstanding_le (h : Tracks s issued accepted) (action : String) {now : ℕ}
    (hnow : s.clock ≤ now) :
    (issued.filter fun t => t.action = action ∧ t.token ∉ accepted.map (·.token) ∧
      now < t.issuedAt + tokenTtl).length ≤ tokenMaxOutstandingPerAction := by
  refine le_trans ?_ (h.bounded action)
  have hnodup : issued.Nodup := .of_map _ h.tokens_nodup
  refine (List.subperm_of_subset (hnodup.filter _) fun t ht => ?_).length_le
  rw [List.mem_filter, decide_eq_true_eq] at ht ⊢
  exact ⟨h.outstanding t ht.1 ht.2.2.1 (hnow.trans_lt ht.2.2.2), ht.2.1⟩

end Tracks

/-! ## Every interleaving -/

/-- The bytes that a call will use for its token. -/
def TokenThread.drawn : TokenThread → Option Bytes
  | requesting _ _ tokenBytes _ | asking _ _ tokenBytes _ | minting _ tokenBytes _ =>
    some tokenBytes
  | consuming _ _ _ | returned => none

/-- The bytes that a call draws if it issues a token. -/
def TokenCall.drawn : TokenCall → Option Bytes
  | request _ _ tokenBytes _ => some tokenBytes
  | consume _ _ _ => none

/-- The bytes that will be used are distinct and those of no token that was issued. -/
structure Drawn (threads : List TokenThread) (issued : List PrivilegeToken) : Prop where
  nodup : (threads.filterMap TokenThread.drawn).Nodup
  fresh : ∀ bytes ∈ threads.filterMap TokenThread.drawn,
    Hex.encode bytes ∉ issued.map (·.token)

namespace Drawn

variable {threads : List TokenThread} {issued : List PrivilegeToken} {i : ℕ} {p p' : TokenThread}

theorem keep (h : Drawn threads issued) (hp : threads[i]? = some p) (hdrawn : p'.drawn = p.drawn) :
    Drawn (threads.set i p') issued := by
  obtain ⟨hnodup, hfresh⟩ := h
  rw [← Pool.filterMap_set_of_eq hp hdrawn] at hnodup hfresh
  exact ⟨hnodup, hfresh⟩

theorem finish (h : Drawn threads issued) (hp : threads[i]? = some p) {bytes : Bytes}
    (hdrawn : p.drawn = some bytes) :
    Drawn (threads.set i .returned) issued ∧
      bytes ∉ (threads.set i .returned).filterMap TokenThread.drawn ∧
      Hex.encode bytes ∉ issued.map (·.token) := by
  have hperm : (threads.filterMap TokenThread.drawn).Perm
      (bytes :: (threads.set i .returned).filterMap TokenThread.drawn) :=
    Pool.perm_filterMap_set hp hdrawn rfl
  have hnodup := hperm.nodup_iff.1 h.nodup
  rw [List.nodup_cons] at hnodup
  refine ⟨⟨hnodup.2, fun b hb => h.fresh b ?_⟩, hnodup.1, h.fresh bytes ?_⟩
  · exact hperm.mem_iff.2 (List.mem_cons_of_mem _ hb)
  · exact hperm.mem_iff.2 List.mem_cons_self

theorem issue (h : Drawn threads issued) {bytes : Bytes} {action : String} {now : ℕ}
    (hbytes : bytes ∉ threads.filterMap TokenThread.drawn) :
    Drawn threads (issued ++ [⟨action, Hex.encode bytes, now⟩]) := by
  refine ⟨h.nodup, fun b hb hmem => ?_⟩
  rw [List.map_append, List.mem_append, List.map_singleton, List.mem_singleton] at hmem
  rcases hmem with hmem | heq
  · exact h.fresh b hb hmem
  · have hdecode := congrArg Hex.decode heq
    rw [Hex.decode_encode, Hex.decode_encode, Option.some_inj] at hdecode
    exact hbytes (hdecode ▸ hb)

end Drawn

/-- The queue, the tokens that are still to be drawn and the events of a run so far. -/
structure TokenInv (pool : Pool TokenState TokenThread) (log : List TokenEvent) : Prop where
  tracks : Tracks pool.shared (log.filterMap TokenEvent.issued)
    (log.filterMap TokenEvent.accepted)
  drawn : Drawn pool.threads (log.filterMap TokenEvent.issued)

section Step

variable {pool : Pool TokenState TokenThread} {log : List TokenEvent} {s : TokenState}
  {threads : List TokenThread}

theorem TokenInv.concat {e : TokenEvent}
    (htracks : Tracks s (log.filterMap TokenEvent.issued ++ e.issued.toList)
      (log.filterMap TokenEvent.accepted ++ e.accepted.toList))
    (hdrawn : Drawn threads (log.filterMap TokenEvent.issued ++ e.issued.toList)) :
    TokenInv ⟨s, threads⟩ (log ++ [e]) := by
  have hsingle : ∀ {β : Type} (f : TokenEvent → Option β), [e].filterMap f = (f e).toList := by
    intro β f
    cases hf : f e <;> simp [hf]
  refine ⟨?_, ?_⟩ <;> rw [List.filterMap_append, hsingle]
  · rw [List.filterMap_append, hsingle]
    exact htracks
  · exact hdrawn

/-- An event that issues nothing and accepts nothing. -/
theorem TokenInv.quiet {e : TokenEvent} (hissued : e.issued = none) (haccepted : e.accepted = none)
    (htracks : Tracks s (log.filterMap TokenEvent.issued) (log.filterMap TokenEvent.accepted))
    (hdrawn : Drawn threads (log.filterMap TokenEvent.issued)) :
    TokenInv ⟨s, threads⟩ (log ++ [e]) := by
  refine .concat ?_ ?_ <;> rw [hissued, Option.toList_none, List.append_nil]
  · rw [haccepted, Option.toList_none, List.append_nil]
    exact htracks
  · exact hdrawn

theorem TokenInv.step (h : TokenInv pool log) (i : ℕ) :
    TokenInv (tokenProgram.machine.step pool i).2
      (log ++ (tokenProgram.machine.step pool i).1.toList) := by
  obtain ⟨htracks, hdrawn⟩ := h
  cases hp : pool.threads[i]? with
  | none =>
    rw [Program.machine_step_of_none hp, Option.toList_none, List.append_nil]
    exact ⟨htracks, hdrawn⟩
  | some p =>
    rw [Program.machine_step_of_some hp, Option.toList_some]
    cases p with
    | requesting action confirmed tokenBytes delays =>
      simp only [tokenProgram]
      split_ifs
      · exact .quiet rfl rfl htracks (hdrawn.keep hp rfl)
      · exact .quiet rfl rfl htracks (hdrawn.finish hp rfl).1
    | asking action confirmed tokenBytes delays =>
      simp only [tokenProgram]
      split_ifs
      · exact .quiet rfl rfl htracks (hdrawn.keep hp rfl)
      · exact .quiet rfl rfl htracks (hdrawn.finish hp rfl).1
    | minting action tokenBytes delays =>
      obtain ⟨hrest, hbytes, hfresh⟩ := hdrawn.finish hp rfl
      have hmints := pool.shared.mint_mints action (Hex.encode tokenBytes) delays
      simp only [tokenProgram]
      generalize pool.shared.mint action (Hex.encode tokenBytes) delays = result at hmints ⊢
      obtain ⟨answer, after⟩ := result
      dsimp only at hmints ⊢
      cases hmints with
      | refused hretains => exact .quiet rfl rfl (htracks.retains hretains) hrest
      | issued hretains hroom hnow =>
        refine .concat ?_ (hrest.issue hbytes)
        show Tracks _ (_ ++ [_]) (log.filterMap TokenEvent.accepted ++ [])
        rw [List.append_nil]
        exact (htracks.retains hretains).mint hfresh hnow hroom
    | consuming action token delays =>
      have hconsumes := pool.shared.consumePrivilegeToken_consumes action token delays
      simp only [tokenProgram]
      generalize pool.shared.consumePrivilegeToken action token delays = result at hconsumes ⊢
      obtain ⟨answer, after⟩ := result
      dsimp only at hconsumes ⊢
      cases hconsumes with
      | rejected hretains =>
        exact .quiet rfl rfl (htracks.retains hretains) (hdrawn.keep hp rfl)
      | @accepted s' front back t hretains hsplit haction htoken =>
        have hkept := htracks.retains hretains
        have hmem : t ∈ s'.tokens := hsplit ▸ List.mem_append_right _ List.mem_cons_self
        obtain ⟨reading, hlow, hhigh, hyoung⟩ := hretains.kept t hmem
        have hpast := htracks.issued_le t (hkept.queue.subset hmem)
        obtain ⟨tokens, clock⟩ := s'
        obtain rfl : tokens = front ++ t :: back := hsplit
        refine .concat ?_ ?_
        · show Tracks _ (log.filterMap TokenEvent.issued ++ []) (_ ++ [_])
          rw [List.append_nil]
          exact hkept.accept ⟨haction, htoken, reading, hlow, hhigh, by omega, by omega⟩
        · show Drawn _ (log.filterMap TokenEvent.issued ++ [])
          rw [List.append_nil]
          exact hdrawn.keep hp rfl
    | returned =>
      exact .quiet rfl rfl htracks (hdrawn.keep hp rfl)

end Step

/-- The events of the first sections of a schedule. -/
def tokenLog (calls : List TokenCall) (schedule : List ℕ) : List TokenEvent :=
  Machine.emitted (fun _ e => e) (tokenProgram.machine.run (tokenPool calls) schedule).1

theorem tokenInv_run {calls : List TokenCall} (hdistinct : (calls.filterMap TokenCall.drawn).Nodup)
    (schedule : List ℕ) :
    TokenInv (tokenProgram.machine.run (tokenPool calls) schedule).2 (tokenLog calls schedule) := by
  have hdrawn : (calls.map TokenCall.start).filterMap TokenThread.drawn =
      calls.filterMap TokenCall.drawn := by
    rw [List.filterMap_map]
    refine List.filterMap_congr fun call _ => ?_
    cases call <;> rfl
  have hstart : TokenInv (tokenPool calls) [] := by
    refine ⟨⟨.slnil, .nil, by rintro _ ⟨⟩, by rintro _ ⟨⟩, .nil, by rintro _ ⟨⟩,
      by rintro _ ⟨⟩, fun _ => Nat.zero_le _⟩, ⟨?_, by rintro _ _ ⟨⟩⟩⟩
    rw [tokenPool, hdrawn]
    exact hdistinct
  have hall : tokenProgram.machine.Follows (fun _ _ => True) (tokenPool calls) schedule :=
    Machine.follows_of_forall fun _ _ => trivial
  show TokenInv _ ([] ++ Machine.emitted (fun _ e => e) _)
  exact Machine.run_emitted_of_follows TokenInv (fun pool i log h _ => h.step i) hstart hall

/-- In every interleaving of calls with distinct tokens and any delays, no token is accepted twice,
what is accepted was issued for that action and is younger than the limit at some moment of the
call, and no action ever has more tokens than the limit that are neither used nor expired. -/
theorem privilege_tokens_single_use (calls : List TokenCall)
    (hdistinct : (calls.filterMap TokenCall.drawn).Nodup) (schedule : List ℕ) :
    let issued := (tokenLog calls schedule).filterMap TokenEvent.issued
    let accepted := (tokenLog calls schedule).filterMap TokenEvent.accepted
    (accepted.map (·.token)).Nodup ∧
      (∀ a ∈ accepted, ∃ t ∈ issued, a.Uses t) ∧
      ∀ action now,
        (tokenProgram.machine.run (tokenPool calls) schedule).2.shared.clock ≤ now →
        (issued.filter fun t => t.action = action ∧ t.token ∉ accepted.map (·.token) ∧
          now < t.issuedAt + tokenTtl).length ≤ tokenMaxOutstandingPerAction := by
  have hinv := tokenInv_run hdistinct schedule
  exact ⟨hinv.tracks.accepted_nodup, hinv.tracks.origin,
    fun action now hnow => hinv.tracks.length_outstanding_le action hnow⟩

/-- A token that two calls try to use, the second of them for another action in between. -/
theorem privilege_tokens_single_use_reused :
    let calls : List TokenCall :=
      [.request "open_external_url" true [1, 171] [5, 7], .consume "open_local_file" "01ab" [1],
        .consume "open_external_url" "01ab" [2], .consume "open_external_url" "01ab" [3]]
    let accepted := (tokenLog calls [0, 0, 0, 1, 2, 3]).filterMap TokenEvent.accepted
    (calls.filterMap TokenCall.drawn).Nodup ∧ accepted.map (·.token) = ["01ab"] ∧
      (accepted.map (·.token)).Nodup :=
  ⟨by decide, by decide +kernel, (privilege_tokens_single_use _ (by decide) _).1⟩

end KyberPipe
