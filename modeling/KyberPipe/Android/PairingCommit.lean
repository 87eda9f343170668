import KyberPipe.Pairing.Streams
import KyberPipe.Pairing.Symbolic

/-!
# The two-phase commit of a pairing

The phone confirms the SAS first and then polls until the desktop reports that it is paired. A phone
that waits takes every error for a rejection, also the `Not paired` of a desktop whose user has not
confirmed yet, and stops polling.
-/

namespace KyberPipe

variable {K C : Type}

/-! ### The phone -/

/-- The settings of the phone that the two-phase commit reads and writes. -/
structure PhoneSettings where
  isPaired : Bool := false
  pendingPairingConfirmation : Bool := false
  pairedHostIp : String := ""
  /-- When the phone began to wait, in milliseconds. The screen keeps it and 0 stands for none. -/
  pairingPendingStartedAt : ℕ := 0
  deriving DecidableEq

/-- The part of a poll result that concerns the pairing. -/
structure PollUpdate where
  isPaired : Bool
  pairingConfirmed : Bool := false
  unpairSignal : Bool := false
  deriving DecidableEq

/-- How long the screen lets a pairing wait for the desktop. -/
def pairingPendingTimeout : ℕ := 60000

/-- `respContainsNotPaired` -/
def StreamAnswer.containsNotPaired (json : StreamAnswer) : Bool :=
  json.reason != "" || json.status == "error"

/-- Whether a text contains `Not paired` in any case. -/
def mentionsNotPaired (text : String) : Bool :=
  decide ("not paired".toList <:+: text.toList.map Char.toLower)

namespace PhoneSettings

variable (p : PhoneSettings)

/-- The settings that the user's confirmation of the SAS leaves behind. Without an address of the
desktop nothing happens. -/
def confirmSasAndCommit (tempHostIp : String) (now : ℕ) : PhoneSettings :=
  let realIp := if tempHostIp = "" then p.pairedHostIp else tempHostIp
  if realIp = "" then p
  else
    { isPaired := false
      pendingPairingConfirmation := true
      pairedHostIp := realIp
      pairingPendingStartedAt := now }

/-- The guard of `pollOnce`. -/
def polls : Bool := p.pairedHostIp != "" && (p.isPaired || p.pendingPairingConfirmation)

/-- The first part of `processResponse`: commit or give up a pairing that waits. The answer says
whether the pairing was committed. -/
def commitPairing (json : StreamAnswer) : Bool × PhoneSettings :=
  if p.pendingPairingConfirmation then
    if json.isPaired = some true then
      (true, { p with isPaired := true, pendingPairingConfirmation := false })
    else if mentionsNotPaired json.reason || json.containsNotPaired then
      (false, { p with pendingPairingConfirmation := false })
    else (false, p)
  else (false, p)

/-- What `processResponse` does to the pairing, and the update that it emits. -/
def processResponse (json : StreamAnswer) : PollUpdate × PhoneSettings :=
  let committed := p.commitPairing json
  -- Only an explicit report counts as an unpair; a missing field is read as paired.
  let unpairSignal := json.isPaired == some false
  let p := if unpairSignal then { committed.2 with isPaired := false } else committed.2
  ({ isPaired := p.isPaired, pairingConfirmed := committed.1, unpairSignal }, p)

/-- What the screen does to the pairing when it collects an update. -/
def onPollUpdate (update : PollUpdate) (now : ℕ) : PhoneSettings :=
  let p :=
    if p.pendingPairingConfirmation ∧ 0 < p.pairingPendingStartedAt ∧
        pairingPendingTimeout < now - p.pairingPendingStartedAt then
      { p with pendingPairingConfirmation := false, pairingPendingStartedAt := 0 }
    else p
  let p := if update.pairingConfirmed then { p with pairingPendingStartedAt := 0 } else p
  if update.unpairSignal then { p with isPaired := false } else p

/-- The phone is paired, or it waits for the desktop. -/
def PairedOrWaiting : Prop := p.isPaired = true ∨ p.pendingPairingConfirmation = true

instance : Decidable p.PairedOrWaiting := inferInstanceAs (Decidable (_ ∨ _))

variable {p}

theorem polls_eq_true (hhost : p.pairedHostIp ≠ "") (h : p.PairedOrWaiting) : p.polls = true := by
  simp only [polls, Bool.and_eq_true, bne_iff_ne, Bool.or_eq_true]
  exact ⟨hhost, h⟩

/-- The report of a paired desktop commits a pairing that waits. An answer without a report leaves a
phone alone that is paired already. -/
theorem processResponse_isPaired {json : StreamAnswer}
    (h : json.isPaired = some true ∧ p.PairedOrWaiting ∨ json.isPaired = none ∧ p.isPaired = true) :
    (p.processResponse json).2.isPaired = true := by
  rcases h with ⟨hreport, hphone⟩ | ⟨hreport, hpaired⟩
  · cases hpending : p.pendingPairingConfirmation with
    | true => simp [processResponse, commitPairing, hreport, hpending]
    | false =>
      have hpaired : p.isPaired = true := by simpa [PairedOrWaiting, hpending] using hphone
      simp [processResponse, commitPairing, hreport, hpending, hpaired]
  · simp only [processResponse, commitPairing, hreport]
    split_ifs <;> simp_all

theorem commitPairing_pairedHostIp (json : StreamAnswer) :
    (p.commitPairing json).2.pairedHostIp = p.pairedHostIp := by
  unfold commitPairing
  split_ifs <;> rfl

theorem processResponse_pairedHostIp (json : StreamAnswer) :
    (p.processResponse json).2.pairedHostIp = p.pairedHostIp := by
  simp only [processResponse]
  split_ifs
  · exact commitPairing_pairedHostIp json
  · exact commitPairing_pairedHostIp json

theorem processResponse_unpairSignal {json : StreamAnswer} (h : json.isPaired ≠ some false) :
    (p.processResponse json).1.unpairSignal = false := by
  simpa [processResponse] using h

/-- An update that the screen collects in time and that does not unpair the phone changes nothing
but the start of the waiting. -/
theorem onPollUpdate_of_timely {update : PollUpdate} {now : ℕ}
    (hsignal : update.unpairSignal = false)
    (htime : p.pendingPairingConfirmation = true → 0 < p.pairingPendingStartedAt →
      now - p.pairingPendingStartedAt ≤ pairingPendingTimeout) :
    (p.onPollUpdate update now).isPaired = p.isPaired ∧
      (p.onPollUpdate update now).pendingPairingConfirmation = p.pendingPairingConfirmation ∧
      (p.onPollUpdate update now).pairedHostIp = p.pairedHostIp := by
  have hlate : ¬(p.pendingPairingConfirmation = true ∧ 0 < p.pairingPendingStartedAt ∧
      pairingPendingTimeout < now - p.pairingPendingStartedAt) := fun ⟨hpending, hstarted, hlt⟩ =>
    absurd (htime hpending hstarted) (Nat.not_le_of_lt hlt)
  simp only [onPollUpdate, if_neg hlate, hsignal, Bool.false_eq_true, if_false]
  split_ifs
  · exact ⟨rfl, rfl, rfl⟩
  · exact ⟨rfl, rfl, rfl⟩

end PhoneSettings

/-! ### What the desktop does in the meantime -/

section Desktop

variable (P : PairingPrimitives K C) {s : AppState K C}

theorem requestStep_settings (s : AppState K C) (call : PairingCall) (point : RequestPoint) :
    (requestStep P s call point).2.1.settings = s.settings := by
  cases point <;> rfl

/-- No section of a confirmation takes the pairing back. -/
theorem confirmStep_isPaired (h : s.settings.isPaired = true) (call : ConfirmCall)
    (promoted : Promotion) (point : ConfirmPoint) :
    (confirmStep P s call promoted point).2.1.settings.isPaired = true := by
  cases point with
  | initSession key seed pair =>
    simp only [confirmStep]
    split
    · exact h
    · exact h
  | settings => rfl
  | _ => exact h

theorem timeoutStep_settings (s : AppState K C) (index : ℕ) (point : TimeoutPoint) :
    (timeoutStep s index point).1.settings = s.settings := by
  cases point with
  | generation =>
    simp only [timeoutStep]
    split
    · rfl
    · rfl
  | _ => rfl

/-- A desktop that is paired stays so, whatever its pairing threads do. -/
theorem isPaired_of_turn {pool : Pool (AppState K C) PairingThread}
    (h : pool.shared.settings.isPaired = true) (thread : ℕ) :
    ((pairingProgram P).machine.step pool thread).2.shared.settings.isPaired = true := by
  cases hthread : pool.threads[thread]? with
  | none => rwa [Program.machine_step_of_none hthread]
  | some t =>
    rw [Program.machine_step_of_some hthread]
    cases t with
    | request t => exact (congrArg _ (requestStep_settings P _ t.call t.point)).trans h
    | confirm t => exact confirmStep_isPaired P h t.call t.promoted t.point
    | timeout index point => exact (congrArg _ (timeoutStep_settings _ index point)).trans h
    | issue nonce issued =>
      cases issued with
      | false => exact h
      | true => exact h
    | forget forgotten =>
      cases forgotten with
      | false => exact h
      | true => exact h

end Desktop

/-! ### The phone and the desktop -/

/-- Where the one poll that the phone may have in flight is. -/
inductive PollFlight where
  | idle
  /-- The request is on its way over a connection with a client certificate. -/
  | sent (peerCertHash : String)
  /-- The desktop has let the stream in and has not handled it yet. -/
  | authorized
  /-- The answer is on its way. -/
  | answered (json : StreamAnswer)
  deriving DecidableEq

/-- A phone and a desktop that take part in one pairing. -/
structure PairingParties (K C : Type) where
  desktop : Pool (AppState K C) PairingThread
  phone : PhoneSettings
  poll : PollFlight := .idle
  /-- The updates that the screen has not collected yet. -/
  updates : List PollUpdate := []

/-- What happens to the two. -/
inductive CommitEvent where
  /-- A thread of the desktop takes a turn. -/
  | turn (thread : ℕ)
  /-- The phone polls over a connection with a client certificate. -/
  | send (peerCertHash : String)
  /-- The desktop reads the header of the poll. -/
  | authorize
  /-- The desktop handles the poll. -/
  | handle
  /-- The phone gets the answer. -/
  | deliver
  /-- The round trip fails. -/
  | fail
  /-- The screen collects the next update. -/
  | collect (now : ℕ)
  /-- There is no screen that collects the next update. -/
  | discard
  deriving DecidableEq

namespace PairingParties

/-- The phone, the desktop and the network between them. -/
def machine (P : PairingPrimitives K C) : Machine (PairingParties K C) CommitEvent Unit where
  step s event :=
    match event with
    | .turn thread =>
      ((), { s with desktop := ((pairingProgram P).machine.step s.desktop thread).2 })
    | .send peerCertHash =>
      -- `pollMutex` admits one poll at a time.
      ((), if s.phone.polls ∧ s.poll = .idle then { s with poll := .sent peerCertHash } else s)
    | .authorize =>
      match s.poll with
      | .sent peerCertHash =>
        match s.desktop.shared.authorizeStream peerCertHash .poll with
        | .error reason => ((), { s with poll := .answered (.refusal reason) })
        | .ok () => ((), { s with poll := .authorized })
      | _ => ((), s)
    | .handle =>
      ((), if s.poll = .authorized then { s with poll := .answered s.desktop.shared.handlePoll }
        else s)
    | .deliver =>
      match s.poll with
      | .answered json =>
        let res := s.phone.processResponse json
        ((), { s with phone := res.2, poll := .idle, updates := s.updates ++ [res.1] })
      | _ => ((), s)
    | .fail =>
      if s.poll = .idle then ((), s)
      else
        ((), { s with
          poll := .idle
          updates := s.updates ++ [{ isPaired := s.phone.isPaired }] })
    | .collect now =>
      match s.updates with
      | update :: rest =>
        ((), { s with phone := s.phone.onPollUpdate update now, updates := rest })
      | [] => ((), s)
    | .discard => ((), { s with updates := s.updates.tail })

/-- The phone has just confirmed the SAS and waits, with no poll in flight and no unpair signal
left over. -/
structure Waiting (s : PairingParties K C) : Prop where
  pending : s.phone.pendingPairingConfirmation = true
  notPaired : s.phone.isPaired = false
  host : s.phone.pairedHostIp ≠ ""
  poll : s.poll = .idle
  updates : ∀ update ∈ s.updates, update.unpairSignal = false

/-- What keeps a waiting phone from giving up: its polls get to the desktop after the desktop is
paired with its certificate, and its screen collects updates within the time limit. -/
def Timely (s : PairingParties K C) : CommitEvent → Prop
  | .authorize =>
    match s.poll with
    | .sent peerCertHash =>
      s.phone.pendingPairingConfirmation = true →
        s.desktop.shared.settings.isPaired = true ∧
          s.desktop.shared.pairing.isAuthorizedPeerCert peerCertHash = true
    | _ => True
  | .collect now =>
    s.phone.pendingPairingConfirmation = true → 0 < s.phone.pairingPendingStartedAt →
      now - s.phone.pairingPendingStartedAt ≤ pairingPendingTimeout
  | _ => True

instance (s : PairingParties K C) : ∀ event, Decidable (s.Timely event)
  | .authorize =>
    match h : s.poll with
    | .sent _ => decidable_of_iff (_ → _) (by simp only [Timely, h]; rfl)
    | .idle | .authorized | .answered _ => .isTrue (by simp only [Timely, h])
  | .collect _ => inferInstanceAs (Decidable (_ → _))
  | .turn _ | .send _ | .handle | .deliver | .fail | .discard => .isTrue trivial

/-! ### Agreement -/

/-- An answer on its way is harmless: it reports a paired desktop, or it is a refusal that reaches a
phone which is paired already. -/
def Harmless (s : PairingParties K C) : PollFlight → Prop
  | .idle | .sent _ => True
  | .authorized => s.desktop.shared.settings.isPaired = true
  | .answered json =>
    json.isPaired = some true ∧ s.desktop.shared.settings.isPaired = true ∨
      json.isPaired = none ∧ s.phone.isPaired = true

/-- The two parties agree: the phone has not given up, and it is only paired with a desktop that is
paired. -/
structure Agree (s : PairingParties K C) : Prop where
  phone : s.phone.PairedOrWaiting
  host : s.phone.pairedHostIp ≠ ""
  desktop : s.phone.isPaired = true → s.desktop.shared.settings.isPaired = true
  poll : s.Harmless s.poll
  updates : ∀ update ∈ s.updates, update.unpairSignal = false

theorem Waiting.agree {s : PairingParties K C} (h : s.Waiting) : s.Agree where
  phone := .inr h.pending
  host := h.host
  desktop hpaired := absurd (h.notPaired.symm.trans hpaired) (by decide)
  poll := by
    rw [h.poll]
    trivial
  updates := h.updates

variable {P : PairingPrimitives K C} {s : PairingParties K C}

/-- What a poll in flight may still do does not get worse when the desktop moves on. -/
theorem Harmless.of_desktop {flight : PollFlight} {desktop : Pool (AppState K C) PairingThread}
    (h : s.Harmless flight)
    (hkept : s.desktop.shared.settings.isPaired = true → desktop.shared.settings.isPaired = true) :
    Harmless { s with desktop } flight := by
  cases flight with
  | idle => trivial
  | sent cert => trivial
  | authorized => exact hkept h
  | answered json => exact h.imp_left fun ⟨hreport, hpaired⟩ => ⟨hreport, hkept hpaired⟩

/-- The answer of an authorized poll is that of a paired desktop. Any other poll is only sent by a
phone that is paired already. -/
theorem Agree.authorize (h : s.Agree) (htimely : s.Timely .authorize) :
    ((machine P).step s .authorize).2.Agree := by
  simp only [machine]
  split
  case h_2 => exact h
  case h_1 cert hsent =>
    simp only [Timely, hsent] at htimely
    split
    case h_2 hok =>
      refine { h with poll := ?_ }
      exact (AppState.authorizeStream_poll_eq_ok.1 hok).1
    case h_1 reason herror =>
      refine { h with poll := .inr ⟨rfl, ?_⟩ }
      rcases h.phone with hpaired | hpending
      · exact hpaired
      · -- A phone that waits has its poll authorized, since the desktop is paired.
        have hok := AppState.authorizeStream_poll_eq_ok.2 (htimely hpending)
        exact absurd (herror.symm.trans hok) (by rintro ⟨⟩)

/-- An answer that gets to the phone leaves both sides paired. -/
theorem Agree.paired_of_answered (h : s.Agree) {json : StreamAnswer}
    (hjson : s.poll = .answered json) :
    (s.phone.processResponse json).2.isPaired = true ∧
      s.desktop.shared.settings.isPaired = true := by
  have hharmless := h.poll
  rw [hjson] at hharmless
  rcases hharmless with ⟨hreport, hdesktop⟩ | ⟨hreport, hphone⟩
  · exact ⟨PhoneSettings.processResponse_isPaired (.inl ⟨hreport, h.phone⟩), hdesktop⟩
  · exact ⟨PhoneSettings.processResponse_isPaired (.inr ⟨hreport, hphone⟩), h.desktop hphone⟩

theorem Agree.deliver (h : s.Agree) : ((machine P).step s .deliver).2.Agree := by
  simp only [machine]
  split
  case h_2 => exact h
  case h_1 json hjson =>
    obtain ⟨hphone, hdesktop⟩ := h.paired_of_answered hjson
    have hharmless := h.poll
    rw [hjson] at hharmless
    have hreport : json.isPaired ≠ some false := by
      rcases hharmless with ⟨hreport, -⟩ | ⟨hreport, -⟩
      · simp [hreport]
      · simp [hreport]
    refine ⟨.inl hphone, ?_, fun _ => hdesktop, trivial, ?_⟩
    · rw [PhoneSettings.processResponse_pairedHostIp]
      exact h.host
    · simp only [List.forall_mem_append, List.forall_mem_singleton]
      exact ⟨h.updates, PhoneSettings.processResponse_unpairSignal hreport⟩

theorem Agree.collect (h : s.Agree) {now : ℕ} (htimely : s.Timely (.collect now)) :
    ((machine P).step s (.collect now)).2.Agree := by
  simp only [machine]
  split
  case h_2 => exact h
  case h_1 update rest hupdates =>
    have hsignals := h.updates
    rw [hupdates, List.forall_mem_cons] at hsignals
    obtain ⟨hpaired, hpending, hhost⟩ :=
      PhoneSettings.onPollUpdate_of_timely hsignals.1 htimely
    have hpoll := h.poll
    refine ⟨?_, ?_, ?_, ?_, hsignals.2⟩
    · simp only [PhoneSettings.PairedOrWaiting, hpaired, hpending]
      exact h.phone
    · rw [hhost]
      exact h.host
    · rw [hpaired]
      exact h.desktop
    · cases hflight : s.poll with
      | idle => trivial
      | sent cert => trivial
      | authorized =>
        rw [hflight] at hpoll
        exact hpoll
      | answered json =>
        rw [hflight] at hpoll
        simp only [Harmless, hpaired]
        exact hpoll

theorem Agree.step (h : s.Agree) {event : CommitEvent} (htimely : s.Timely event) :
    ((machine P).step s event).2.Agree := by
  cases event with
  | turn thread =>
    have hkept : s.desktop.shared.settings.isPaired = true →
        ((pairingProgram P).machine.step s.desktop thread).2.shared.settings.isPaired = true :=
      fun hpaired => isPaired_of_turn P hpaired thread
    exact { h with
      desktop := fun hpaired => hkept (h.desktop hpaired)
      poll := h.poll.of_desktop hkept }
  | send cert =>
    simp only [machine]
    split_ifs
    · exact { h with poll := trivial }
    · exact h
  | authorize => exact h.authorize htimely
  | handle =>
    simp only [machine]
    split_ifs with hpoll
    · have hpaired := h.poll
      rw [hpoll] at hpaired
      exact { h with poll := .inl ⟨congrArg some hpaired, hpaired⟩ }
    · exact h
  | deliver => exact h.deliver
  | fail =>
    simp only [machine]
    split_ifs
    · exact h
    · refine { h with poll := trivial, updates := ?_ }
      simp only [List.forall_mem_append, List.forall_mem_singleton]
      exact ⟨h.updates, trivial⟩
  | collect now => exact h.collect htimely
  | discard => exact { h with updates := fun u hu => h.updates u (List.mem_of_mem_tail hu) }

/-! ### A phone that has given up -/

/-- The phone is not paired, does not wait, and has no poll in flight. -/
structure GaveUp (s : PairingParties K C) : Prop where
  notPaired : s.phone.isPaired = false
  notPending : s.phone.pendingPairingConfirmation = false
  poll : s.poll = .idle

theorem GaveUp.step (h : s.GaveUp) (event : CommitEvent) :
    ((machine P).step s event).2.GaveUp := by
  cases event with
  | turn thread => exact ⟨h.notPaired, h.notPending, h.poll⟩
  | send cert =>
    have hpolls : s.phone.polls = false := by
      simp [PhoneSettings.polls, h.notPaired, h.notPending]
    simpa [machine, hpolls] using h
  | authorize => simpa [machine, h.poll] using h
  | handle => simpa [machine, h.poll] using h
  | deliver => simpa [machine, h.poll] using h
  | fail => simpa [machine, h.poll] using h
  | collect now =>
    simp only [machine]
    split
    · refine ⟨?_, ?_, h.poll⟩
      · simp only [PhoneSettings.onPollUpdate]
        split_ifs <;> first | rfl | exact h.notPaired
      · simp only [PhoneSettings.onPollUpdate]
        split_ifs <;> first | rfl | exact h.notPending
    · exact h
  | discard => exact ⟨h.notPaired, h.notPending, h.poll⟩

theorem GaveUp.run (h : s.GaveUp) (events : List CommitEvent) :
    ((machine P).run s events).2.GaveUp :=
  Machine.run_invariant GaveUp (fun _ event h => h.step event) h events

end PairingParties

/-! ### Runs -/

open PairingParties

/-- While the users confirm a pairing and all events are timely, the phone is paired or waits, and
polls. Any answer that reaches it then leaves both sides paired. -/
theorem phone_paired_or_waiting (P : PairingPrimitives K C) {start : PairingParties K C}
    (hstart : start.Waiting) {events : List CommitEvent}
    (hevents : (machine P).Follows Timely start events) (n : ℕ) :
    let s := ((machine P).run start (events.take n)).2
    s.phone.PairedOrWaiting ∧ s.phone.polls = true ∧
      ∀ json, s.poll = .answered json →
        ((machine P).step s .deliver).2.phone.isPaired = true ∧
          ((machine P).step s .deliver).2.desktop.shared.settings.isPaired = true := by
  intro s
  have htake : (machine P).Follows Timely start (events.take n) := by
    rw [← List.take_append_drop n events, Machine.follows_append] at hevents
    exact hevents.1
  have hagree : s.Agree :=
    Machine.run_invariant_of_follows Agree (fun _ _ h htimely => h.step htimely) hstart.agree htake
  refine ⟨hagree.phone, PhoneSettings.polls_eq_true hagree.host hagree.phone, ?_⟩
  intro json hjson
  have hpaired := hagree.paired_of_answered hjson
  simpa only [machine, hjson] using hpaired

section Symbolic

open Symbolic

/-- The phone has confirmed the SAS, and the user of the desktop is about to. -/
def bothUsersAsked : PairingParties Key Ciphertext where
  desktop := ⟨awaitingUsers, [.confirm rightConfirmation.thread]⟩
  phone := ({} : PhoneSettings).confirmSasAndCommit "10.0.0.2" 1000

theorem bothUsersAsked_waiting : bothUsersAsked.Waiting :=
  ⟨rfl, rfl, by decide, rfl, (by rintro _ ⟨⟩)⟩

/-- The user of the desktop confirms, and then the phone polls. -/
def confirmThenPoll : List CommitEvent :=
  List.replicate 30 (.turn 0) ++ [.send (phoneCert 3), .authorize, .handle, .deliver]

/-- A poll that gets to the desktop after the confirmation leaves both sides paired. -/
theorem phone_paired_after_confirmation :
    let s := ((machine pairingPrimitives).run bothUsersAsked (confirmThenPoll.take 33)).2
    bothUsersAsked.Waiting ∧
      (machine pairingPrimitives).Follows Timely bothUsersAsked confirmThenPoll ∧
      s.poll = .answered { isPaired := some true } ∧
      ((machine pairingPrimitives).step s .deliver).2.phone.isPaired = true ∧
      ((machine pairingPrimitives).step s .deliver).2.desktop.shared.settings.isPaired = true := by
  have hevents : (machine pairingPrimitives).Follows Timely bothUsersAsked confirmThenPoll := by
    decide +kernel
  have hpoll : ((machine pairingPrimitives).run bothUsersAsked (confirmThenPoll.take 33)).2.poll =
      .answered { isPaired := some true } := by
    decide +kernel
  exact ⟨bothUsersAsked_waiting, hevents, hpoll,
    (phone_paired_or_waiting pairingPrimitives bothUsersAsked_waiting hevents 33).2.2 _ hpoll⟩

/-- The phone polls once before the user of the desktop confirms. -/
def pollThenConfirm : List CommitEvent :=
  [.send (phoneCert 3), .authorize, .deliver] ++ List.replicate 30 (.turn 0)

/-- The phone takes the answer of a desktop that has not confirmed yet for a rejection. The desktop
is paired in the end, the phone never. -/
theorem phone_gives_up_on_early_poll :
    let s := ((machine pairingPrimitives).run bothUsersAsked pollThenConfirm).2
    bothUsersAsked.Waiting ∧ bothUsersAsked.desktop.shared.pairing.phase = .sasPending ∧
      s.desktop.shared.settings.isPaired = true ∧
      s.desktop.shared.pairing.isAuthorizedPeerCert (phoneCert 3) = true ∧
      ∀ later, ¬((machine pairingPrimitives).run s later).2.phone.PairedOrWaiting := by
  intro s
  have hend : bothUsersAsked.desktop.shared.pairing.phase = .sasPending ∧
      s.desktop.shared.settings.isPaired = true ∧
      s.desktop.shared.pairing.isAuthorizedPeerCert (phoneCert 3) = true ∧
      s.phone.isPaired = false ∧ s.phone.pendingPairingConfirmation = false ∧ s.poll = .idle := by
    decide +kernel
  obtain ⟨hphase, hdesktop, hcert, hpaired, hpending, hpoll⟩ := hend
  refine ⟨bothUsersAsked_waiting, hphase, hdesktop, hcert, fun later hphone => ?_⟩
  have hgave : s.GaveUp := ⟨hpaired, hpending, hpoll⟩
  obtain ⟨hpaired', hpending', -⟩ := hgave.run (P := pairingPrimitives) later
  rcases hphone with h | h
  · exact absurd (hpaired'.symm.trans h) (by decide)
  · exact absurd (hpending'.symm.trans h) (by decide)

end Symbolic

end KyberPipe
