import KyberPipe.Desktop.Persist

/-!
# Saving the settings

`save_settings` serializes the settings under their lock, gives the lock back, and then enqueues the
text for the coalescing writer. In between, another thread can enqueue a newer text, which the older
one then replaces. Nothing is lost if the texts are enqueued in the order of their serialization.
-/

namespace KyberPipe

variable {S : Type}

/-- Where a thread is in `save_settings`. -/
inductive SaveCall where
  /-- The settings are serialized, and their lock is free again. -/
  | serialized (text : String) (version : ℕ)
  /-- The text is enqueued, and the call is about to return. -/
  | enqueued (version : ℕ)

/-- The settings of a process, its writer, and the calls of its threads. A version of the settings
is the number of modifications that led to it. -/
structure SettingsProcess (S : Type) where
  settings : S
  queue : PersistState String
  calls : AList (fun _ : ℕ => SaveCall) := ∅
  /-- The earlier values of the settings, the first one first. -/
  past : List S := []
  /-- The versions that were enqueued, in order. -/
  queued : List ℕ := []
  /-- The versions that the completed calls have saved, in order. -/
  returned : List ℕ := []

/-- The critical sections of the threads and the steps of the writer. -/
inductive SaveEvent (S : Type) where
  | modify (edit : S → S)
  | serialize (thread : ℕ)
  | enqueue (thread : ℕ)
  | ret (thread : ℕ)
  | drain
  | write

namespace SettingsProcess

variable (serialize : S → String) (path : String) (p : SettingsProcess S)

/-- The settings after a number of modifications. -/
def valueAt (version : ℕ) : Option S := (p.past ++ [p.settings])[version]?

/-- One turn of a thread or of the writer. A thread that is not at the step stays where it is. -/
def step : SaveEvent S → SettingsProcess S
  | .modify edit => { p with settings := edit p.settings, past := p.past ++ [p.settings] }
  | .serialize thread =>
    match p.calls.lookup thread with
    | some _ => p
    | none =>
      { p with
        calls := p.calls.insert thread (.serialized (serialize p.settings) p.past.length) }
  | .enqueue thread =>
    match p.calls.lookup thread with
    | some (.serialized text version) =>
      { p with
        queue := p.queue.persist path text
        calls := p.calls.insert thread (.enqueued version)
        queued := p.queued ++ [version] }
    | _ => p
  | .ret thread =>
    match p.calls.lookup thread with
    | some (.enqueued version) =>
      { p with calls := p.calls.erase thread, returned := p.returned ++ [version] }
    | _ => p
  | .drain => { p with queue := p.queue.drain }
  | .write => { p with queue := (p.queue.write path).2 }

/-- Threads that modify and save the settings, interleaved with the writer. -/
def machine : Machine (SettingsProcess S) (SaveEvent S) Unit where
  step p event := ((), p.step serialize path event)

/-- Nobody is in `save_settings`, the slot is empty and the writer idle. -/
structure Drained (p : SettingsProcess S) : Prop where
  calls : p.calls = ∅
  slot : p.queue.slot = []
  latest : p.queue.latest = ∅

/-- The file holds the settings with all of the first `version` modifications. -/
def Kept (version : ℕ) : Prop :=
  ∃ k s, version ≤ k ∧ p.valueAt k = some s ∧ p.queue.files path = some (serialize s)

/-- A text that is enqueued is not older than those that were enqueued before. -/
def InOrder (p : SettingsProcess S) : SaveEvent S → Prop
  | .enqueue thread =>
    match p.calls.lookup thread with
    | some (.serialized _ version) => ∀ earlier ∈ p.queued, earlier ≤ version
    | _ => True
  | _ => True

instance (p : SettingsProcess S) : ∀ event : SaveEvent S, Decidable (p.InOrder event)
  | .enqueue thread =>
    match h : p.calls.lookup thread with
    | some (.serialized _ version) =>
      decidable_of_iff (∀ earlier ∈ p.queued, earlier ≤ version) (by simp [InOrder, h])
    | some (.enqueued _) => .isTrue (by simp [InOrder, h])
    | none => .isTrue (by simp [InOrder, h])
  | .modify _ | .serialize _ | .ret _ | .drain | .write => .isTrue trivial

/-! ## What is enqueued last -/

/-- The last text that was enqueued is the one of the newest version, and every call is on its way
to the file with the text it has serialized. -/
structure Saves (files : String → Option String) (p : SettingsProcess S) : Prop where
  refines : ∃ enqueued written, PersistState.Refines files {path} p.queue enqueued written ∧
    ∀ v ∈ p.queued.getLast?, ∃ s, p.valueAt v = some s ∧
      (enqueued path).getLast? = some (serialize s)
  serialized : ∀ thread text v, p.calls.lookup thread = some (.serialized text v) →
    ∃ s, p.valueAt v = some s ∧ serialize s = text
  enqueued : ∀ thread v, p.calls.lookup thread = some (.enqueued v) → v ∈ p.queued
  returned : ∀ v ∈ p.returned, v ∈ p.queued
  newest : ∀ v ∈ p.queued, ∀ last ∈ p.queued.getLast?, v ≤ last

variable {serialize path} {p} {files : String → Option String}

theorem valueAt_modify {edit : S → S} {v : ℕ} {s : S} (h : p.valueAt v = some s) :
    (p.step serialize path (.modify edit)).valueAt v = some s := by
  have hlt : v < (p.past ++ [p.settings]).length := (List.getElem?_eq_some_iff.1 h).1
  show (p.past ++ [p.settings] ++ [edit p.settings])[v]? = some s
  rw [List.getElem?_append_left hlt]
  exact h

theorem card_singleton_le (path : String) : ({path} : Finset String).card ≤ maxPendingPaths :=
  (Finset.card_singleton path).trans_le (by decide)

section

variable (h : Saves serialize path files p)
include h

theorem Saves.modify (edit : S → S) :
    Saves serialize path files (p.step serialize path (.modify edit)) where
  refines := by
    obtain ⟨enqueued, written, hrefines, hlast⟩ := h.refines
    refine ⟨enqueued, written, hrefines, fun v hv => ?_⟩
    obtain ⟨s, hs, htext⟩ := hlast v hv
    exact ⟨s, valueAt_modify hs, htext⟩
  serialized := by
    intro thread text v hcall
    obtain ⟨s, hs, htext⟩ := h.serialized thread text v hcall
    exact ⟨s, valueAt_modify hs, htext⟩
  enqueued := h.enqueued
  returned := h.returned
  newest := h.newest

theorem Saves.call {thread : ℕ} (hidle : p.calls.lookup thread = none) :
    Saves serialize path files
      { p with
        calls := p.calls.insert thread (.serialized (serialize p.settings) p.past.length) } where
  refines := h.refines
  serialized := by
    intro t text v hcall
    by_cases ht : t = thread
    · subst ht
      rw [AList.lookup_insert] at hcall
      obtain ⟨rfl, rfl⟩ := SaveCall.serialized.inj (Option.some.inj hcall)
      exact ⟨p.settings, List.getElem?_concat_length, rfl⟩
    · rw [AList.lookup_insert_ne ht] at hcall
      exact h.serialized t text v hcall
  enqueued := by
    intro t v hcall
    by_cases ht : t = thread
    · subst ht
      rw [AList.lookup_insert] at hcall
      cases hcall
    · rw [AList.lookup_insert_ne ht] at hcall
      exact h.enqueued t v hcall
  returned := h.returned
  newest := h.newest

/-- A text that is enqueued in order is the newest one from then on. -/
theorem Saves.enqueue {thread : ℕ} {text : String} {version : ℕ}
    (hthread : p.calls.lookup thread = some (.serialized text version))
    (horder : ∀ earlier ∈ p.queued, earlier ≤ version) :
    Saves serialize path files
      { p with
        queue := p.queue.persist path text
        calls := p.calls.insert thread (.enqueued version)
        queued := p.queued ++ [version] } where
  refines := by
    obtain ⟨enqueued, written, hrefines, -⟩ := h.refines
    have hpath : ∀ q data, WriterEvent.persist path text = .persist q data →
        q ∈ ({path} : Finset String) :=
      fun q data hevent => Finset.mem_singleton.2 (WriterEvent.persist.inj hevent).1.symm
    have hstep := hrefines.step (card_singleton_le path) hpath
    refine ⟨_, _, hstep, fun v hv => ?_⟩
    obtain rfl : version = v := by simpa using hv
    obtain ⟨s, hs, htext⟩ := h.serialized thread text version hthread
    exact ⟨s, hs, by simp [WriterEvent.enqueues, htext]⟩
  serialized := by
    intro t text' v hcall
    by_cases ht : t = thread
    · subst ht
      rw [AList.lookup_insert] at hcall
      cases hcall
    · rw [AList.lookup_insert_ne ht] at hcall
      exact h.serialized t text' v hcall
  enqueued := by
    intro t v hcall
    by_cases ht : t = thread
    · subst ht
      rw [AList.lookup_insert] at hcall
      obtain rfl := SaveCall.enqueued.inj (Option.some.inj hcall)
      exact List.mem_append_right _ (List.mem_singleton.2 rfl)
    · rw [AList.lookup_insert_ne ht] at hcall
      exact List.mem_append_left _ (h.enqueued t v hcall)
  returned := fun v hv => List.mem_append_left _ (h.returned v hv)
  newest := by
    intro v hv last hlast
    obtain rfl : version = last := by simpa using hlast
    rcases List.mem_append.1 hv with hold | hnew
    · exact horder v hold
    · exact (List.mem_singleton.1 hnew).le

theorem Saves.ret {thread version : ℕ}
    (hthread : p.calls.lookup thread = some (.enqueued version)) :
    Saves serialize path files
      { p with calls := p.calls.erase thread, returned := p.returned ++ [version] } where
  refines := h.refines
  serialized := fun t text v hcall =>
    h.serialized t text v (AList.lookup_of_lookup_erase hcall)
  enqueued := fun t v hcall => h.enqueued t v (AList.lookup_of_lookup_erase hcall)
  returned := by
    intro v hv
    rcases List.mem_append.1 hv with hold | hnew
    · exact h.returned v hold
    · rw [List.mem_singleton.1 hnew]
      exact h.enqueued thread version hthread
  newest := h.newest

/-- Steps of the writer change nothing but where the texts are. -/
theorem Saves.writer (event : WriterEvent String) (hidle : ∀ q, event.enqueues q = none) :
    Saves serialize path files
      { p with queue := (PersistState.machine.step p.queue event).2 } where
  refines := by
    obtain ⟨enqueued, written, hrefines, hlast⟩ := h.refines
    have hpath : ∀ q data, event = .persist q data → q ∈ ({path} : Finset String) := by
      intro q data hevent
      have hnone := hidle q
      rw [hevent, WriterEvent.enqueues, if_pos rfl] at hnone
      cases hnone
    have hstep := hrefines.step (card_singleton_le path) hpath
    simp only [hidle, Option.toList_none, List.append_nil] at hstep
    exact ⟨enqueued, _, hstep, hlast⟩
  serialized := h.serialized
  enqueued := h.enqueued
  returned := h.returned
  newest := h.newest

theorem Saves.step {event : SaveEvent S} (horder : p.InOrder event) :
    Saves serialize path files (p.step serialize path event) := by
  cases event with
  | modify edit => exact h.modify edit
  | serialize thread =>
    cases hcall : p.calls.lookup thread with
    | none => simpa only [SettingsProcess.step, hcall] using h.call hcall
    | some call => simpa only [SettingsProcess.step, hcall] using h
  | enqueue thread =>
    rcases hcall : p.calls.lookup thread with _ | ⟨text, version⟩ | version
    · simpa only [SettingsProcess.step, hcall] using h
    · simp only [InOrder, hcall] at horder
      simpa only [SettingsProcess.step, hcall] using h.enqueue hcall horder
    · simpa only [SettingsProcess.step, hcall] using h
  | ret thread =>
    rcases hcall : p.calls.lookup thread with _ | ⟨text, version⟩ | version
    · simpa only [SettingsProcess.step, hcall] using h
    · simpa only [SettingsProcess.step, hcall] using h
    · simpa only [SettingsProcess.step, hcall] using h.ret hcall
  | drain => exact h.writer .drain fun _ => rfl
  | write => exact h.writer (.write path) fun _ => rfl

end

/-- No save is lost if the texts are enqueued in order: once all calls have returned and the queue
has drained, the file holds every modification that was made before some completed call serialized
the settings. -/
theorem kept_of_inOrder (serialize : S → String) (path : String) (settings : S)
    (files : String → Option String) {events : List (SaveEvent S)}
    (horder : (machine serialize path).Follows InOrder { settings, queue := { files } } events) :
    let p := ((machine serialize path).run { settings, queue := { files } } events).2
    p.Drained → ∀ version ∈ p.returned, p.Kept serialize path version := by
  intro p hdrained version hreturned
  have hstart : Saves serialize path files
      ({ settings, queue := { files } } : SettingsProcess S) :=
    { refines := ⟨_, _, PersistState.refines_initial files {path}, by rintro v ⟨⟩⟩
      serialized := by rintro thread text v ⟨⟩
      enqueued := by rintro thread v ⟨⟩
      returned := by rintro v ⟨⟩
      newest := by rintro v ⟨⟩ }
  have hsaves : Saves serialize path files p := Machine.run_invariant_of_follows
    (Saves serialize path files) (fun p event h hevent => h.step hevent) hstart horder
  have hqueued := hsaves.returned version hreturned
  -- the last text that was enqueued has reached the file
  have hlast : p.queued.getLast? = some (p.queued.getLast (List.ne_nil_of_mem hqueued)) :=
    List.getLast?_eq_some_getLast _
  obtain ⟨enqueued, written, hrefines, htext⟩ := hsaves.refines
  obtain ⟨s, hvalue, htext⟩ := htext _ hlast
  have hcoalesces := hrefines.coalesces path
  have hpassing : p.queue.passing path (written path) = written path := by
    simp [PersistState.passing, hdrained.slot, hdrained.latest]
  refine ⟨_, s, hsaves.newest version hqueued _ hlast, hvalue, ?_⟩
  rw [hcoalesces.file, ← hpassing, hcoalesces.last, htext]
  rfl

/-- Two settings that can be switched on, one digit each. -/
def switches (s : Bool × Bool) : String := (if s.1 then "1" else "0") ++ if s.2 then "1" else "0"

/-- Two threads save one after the other while the writer works. -/
theorem kept_of_inOrder_two_threads :
    let p := ((machine switches "settings.json").run
      { settings := (false, false), queue := { files := fun _ => none } }
      [.modify fun s => (true, s.2), .serialize 1, .enqueue 1, .drain, .modify fun s => (s.1, true),
        .serialize 2, .enqueue 2, .ret 1, .write, .ret 2, .drain, .write]).2
    p.returned = [1, 2] ∧ p.Kept switches "settings.json" 2 := by
  intro p
  have hfacts : p.returned = [1, 2] ∧ p.calls.entries = [] ∧ p.queue.slot = [] ∧
      p.queue.latest.entries = [] := by decide +kernel
  refine ⟨hfacts.1, ?_⟩
  refine kept_of_inOrder switches "settings.json" (false, false) (fun _ => none)
    (by decide +kernel) ⟨AList.ext hfacts.2.1, hfacts.2.2.1, AList.ext hfacts.2.2.2⟩ 2 ?_
  show 2 ∈ p.returned
  rw [hfacts.1]
  decide

/-- The first thread serializes, and before it enqueues its text the second one modifies, saves and
enqueues. The file ends without the modification of the second thread, whose call is the last one to
return. -/
theorem save_lost :
    let p := ((machine switches "settings.json").run
      { settings := (false, false), queue := { files := fun _ => none } }
      [.modify fun s => (true, s.2), .serialize 1, .modify fun s => (s.1, true), .serialize 2,
        .enqueue 2, .enqueue 1, .ret 1, .ret 2, .drain, .write]).2
    p.Drained ∧ p.returned.getLast? = some 2 ∧ p.settings = (true, true) ∧
      p.queue.files "settings.json" = some (switches (true, false)) ∧
      ¬p.Kept switches "settings.json" 2 := by
  intro p
  have hfacts : p.calls.entries = [] ∧ p.queue.slot = [] ∧ p.queue.latest.entries = [] ∧
      p.returned.getLast? = some 2 ∧ p.settings = (true, true) ∧
      p.queue.files "settings.json" = some (switches (true, false)) ∧
      p.past = [(false, false), (true, false)] := by decide +kernel
  obtain ⟨hcalls, hslot, hlatest, hlast, hsettings, hfile, hpast⟩ := hfacts
  refine ⟨⟨AList.ext hcalls, hslot, AList.ext hlatest⟩, hlast, hsettings, hfile, ?_⟩
  rintro ⟨k, s, hk, hvalue, htext⟩
  rw [valueAt, hpast, hsettings] at hvalue
  -- there are three versions, and only the last one has both modifications
  have hlt : k < 3 := (List.getElem?_eq_some_iff.1 hvalue).1
  obtain rfl : k = 2 := by omega
  obtain rfl : (true, true) = s := Option.some.inj hvalue
  rw [hfile] at htext
  exact absurd htext (by decide +kernel)

end SettingsProcess

end KyberPipe
