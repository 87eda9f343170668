import KyberPipe.Lib.AssocMap
import KyberPipe.Lib.Machine
import Mathlib.Data.Finset.Card

/-!
# The coalescing writer

`persist.rs`: callers put values into a slot with one entry per path, and a writer thread drains the
slot into a batch and writes it, while new values enter the slot. What is written of a path, what is
left of it in the batch and what waits in the slot are, in this order, some of the values that were
enqueued, and the last of them is the last one enqueued.
-/

namespace KyberPipe

variable {δ : Type}

/-- The paths that may wait in the slot. -/
def maxPendingPaths : ℕ := 32

/-- The slot, the batch of the writer, and the files. -/
structure PersistState (δ : Type) where
  /-- What waits for the writer, the oldest entry first. -/
  slot : List (String × δ) := []
  /-- What the writer has drained and not yet written. -/
  latest : AList (fun _ : String => δ) := ∅
  files : String → Option δ

/-- The steps of the callers and of the writer. -/
inductive WriterEvent (δ : Type) where
  | persist (path : String) (data : δ)
  | drain
  /-- The writer writes the entry of a path. The batch is a hash map, so its order is arbitrary. -/
  | write (path : String)

namespace PersistState

variable (st : PersistState δ)

/-- The slot with a new value: in place of the pending one of the path, or at the end. A crowded
slot drops its oldest entries. -/
def enqueue (slot : List (String × δ)) (path : String) (data : δ) : List (String × δ) :=
  match slot.findIdx? fun e => e.1 == path with
  | some pos => slot.set pos (path, data)
  | none =>
    let slot := slot ++ [(path, data)]
    -- the source removes the first entry as long as there are too many
    slot.drop (slot.length - maxPendingPaths)

/-- Enqueue a value. -/
def persist (path : String) (data : δ) : PersistState δ :=
  { st with slot := enqueue st.slot path data }

/-- The writer takes everything out of the slot, once it has written its last batch. -/
def drain : PersistState δ :=
  if st.latest.entries.isEmpty then
    { st with slot := [], latest := st.slot.foldl (fun latest e => latest.insert e.1 e.2) ∅ }
  else st

/-- The writer writes one entry of its batch. -/
def write (path : String) : Option (String × δ) × PersistState δ :=
  match st.latest.lookup path with
  | none => (none, st)
  | some data =>
    (some (path, data),
      { st with
        latest := st.latest.erase path
        files := Function.update st.files path (some data) })

/-- Callers and writer take turns. The answer is what was written. -/
def machine : Machine (PersistState δ) (WriterEvent δ) (Option (String × δ)) where
  step st
    | .persist path data => (none, st.persist path data)
    | .drain => (none, st.drain)
    | .write path => st.write path

end PersistState

/-- The value that an event enqueues for a path. -/
def WriterEvent.enqueues (q : String) : WriterEvent δ → Option δ
  | .persist path data => if path = q then some data else none
  | _ => none

/-- The values that are enqueued for a path. -/
def enqueuedValues (q : String) (events : List (WriterEvent δ)) : List δ :=
  events.filterMap (WriterEvent.enqueues q)

/-- The values that are written to a path. -/
def writtenValues (q : String) (trace : List (WriterEvent δ × Option (String × δ))) : List δ :=
  trace.filterMap fun e => e.2.bind fun w => if w.1 = q then some w.2 else none

/-- An event if every caller wrote its value itself. -/
def directWrite (files : String → Option δ) : WriterEvent δ → String → Option δ
  | .persist path data => Function.update files path (some data)
  | _ => files

/-- The files if every caller wrote its value itself. -/
def directWrites (files : String → Option δ) (events : List (WriterEvent δ)) :
    String → Option δ :=
  events.foldl directWrite files

theorem enqueuedValues_concat (q : String) (events : List (WriterEvent δ)) (event : WriterEvent δ) :
    enqueuedValues q (events ++ [event]) =
      enqueuedValues q events ++ (event.enqueues q).toList := by
  rw [enqueuedValues, List.filterMap_append]
  cases h : event.enqueues q <;> simp [enqueuedValues, h]

/-- Direct writes leave the last value of every path in its file. -/
theorem directWrites_apply (files : String → Option δ) (events : List (WriterEvent δ))
    (q : String) :
    directWrites files events q = (enqueuedValues q events).getLast?.or (files q) := by
  -- the last event decides, so the induction is on the end of the list
  induction events using List.reverseRecOn with
  | nil => rfl
  | append_singleton events event ih =>
    have hstep : directWrites files (events ++ [event]) =
        directWrite (directWrites files events) event := List.foldl_append
    rw [hstep, enqueuedValues_concat]
    cases event with
    | persist path data =>
      show Function.update (directWrites files events) path (some data) q = _
      by_cases hq : path = q
      · subst hq
        simp [WriterEvent.enqueues]
      · rw [Function.update_of_ne (Ne.symm hq), ih]
        simp [WriterEvent.enqueues, hq]
    | drain => simpa [directWrite, WriterEvent.enqueues] using ih
    | write path => simpa [directWrite, WriterEvent.enqueues] using ih

/-! ## The slot -/

namespace PersistState

variable {st : PersistState δ} {slot : List (String × δ)} {path q : String} {data : δ}

theorem lookup_cons_ite (p q : String) (v : δ) (slot : List (String × δ)) :
    ((p, v) :: slot).lookup q = if q = p then some v else slot.lookup q := by
  rw [List.lookup_cons]
  by_cases hq : q = p
  · simp [hq]
  · simp [hq, beq_eq_false_iff_ne.2 hq]

theorem lookup_eq_none_of_notMem (h : q ∉ slot.map (·.1)) : slot.lookup q = none := by
  induction slot with
  | nil => rfl
  | cons e slot ih =>
    rw [List.map_cons, List.mem_cons, not_or] at h
    rw [show e = (e.1, e.2) from rfl, lookup_cons_ite, if_neg h.1, ih h.2]

theorem set_of_findIdx {pos : ℕ} (h : slot.findIdx? (fun e => e.1 == path) = some pos) (data : δ) :
    (slot.set pos (path, data)).map (·.1) = slot.map (·.1) ∧
      ∀ q, (slot.set pos (path, data)).lookup q =
        if q = path then some data else slot.lookup q := by
  induction slot generalizing pos with
  | nil => cases h
  | cons e slot ih =>
    obtain ⟨p, v⟩ := e
    rw [List.findIdx?_cons] at h
    by_cases hp : p = path
    · subst hp
      obtain rfl : 0 = pos := by simpa using h
      refine ⟨rfl, fun q => ?_⟩
      rw [List.set_cons_zero, lookup_cons_ite, lookup_cons_ite]
      split_ifs <;> rfl
    · obtain ⟨pos', hpos', rfl⟩ : ∃ pos', slot.findIdx? (fun e => e.1 == path) = some pos' ∧
          pos' + 1 = pos := by simpa [hp] using h
      obtain ⟨hkeys, hlookup⟩ := ih hpos'
      refine ⟨by simpa using hkeys, fun q => ?_⟩
      rw [List.set_cons_succ, lookup_cons_ite, lookup_cons_ite, hlookup]
      by_cases hq : q = p
      · rw [if_pos hq, if_pos hq, if_neg (fun h => hp (hq.symm.trans h))]
      · rw [if_neg hq, if_neg hq]

/-- What the slot holds after a call that drops nothing. -/
structure Enqueues (slot : List (String × δ)) (path : String) (data : δ)
    (slot' : List (String × δ)) : Prop where
  lookup : ∀ q, slot'.lookup q = if q = path then some data else slot.lookup q
  nodup : (slot.map (·.1)).Nodup → (slot'.map (·.1)).Nodup
  mem : ∀ p ∈ slot'.map (·.1), p = path ∨ p ∈ slot.map (·.1)

/-- With room for a new path, nothing is dropped. -/
theorem enqueues (hroom : path ∉ slot.map (·.1) → slot.length < maxPendingPaths) :
    Enqueues slot path data (enqueue slot path data) := by
  unfold enqueue
  cases hpos : slot.findIdx? fun e => e.1 == path with
  | some pos =>
    obtain ⟨hkeys, hlookup⟩ := set_of_findIdx hpos data
    dsimp only
    refine ⟨hlookup, ?_, ?_⟩
    · rw [hkeys]
      exact fun h => h
    · rw [hkeys]
      exact fun p hp => .inr hp
  | none =>
    have hnew : path ∉ slot.map (·.1) := by
      intro hmem
      obtain ⟨e, he, rfl⟩ := List.mem_map.1 hmem
      have hother := List.findIdx?_eq_none_iff.1 hpos e he
      rw [beq_self_eq_true] at hother
      cases hother
    -- there is room, so the new entry pushes no old one out
    have hdrop : (slot ++ [(path, data)]).length - maxPendingPaths = 0 := by
      have := hroom hnew
      rw [List.length_append, List.length_singleton]
      omega
    dsimp only
    rw [hdrop, List.drop_zero]
    refine ⟨fun q => ?_, fun hnodup => ?_, fun p hp => ?_⟩
    · rw [List.lookup_append, lookup_cons_ite]
      by_cases hq : q = path
      · subst hq
        rw [lookup_eq_none_of_notMem hnew, if_pos rfl, if_pos rfl, Option.none_or]
      · rw [if_neg hq, if_neg hq]
        exact Option.or_none
    · rw [List.map_append, List.map_singleton, ← List.concat_eq_append]
      exact hnodup.concat hnew
    · simpa [or_comm] using hp

theorem lookup_foldl_insert (hnodup : (slot.map (·.1)).Nodup)
    (latest : AList fun _ : String => δ) (q : String) :
    (slot.foldl (fun latest e => latest.insert e.1 e.2) latest).lookup q =
      (slot.lookup q).or (latest.lookup q) := by
  induction slot generalizing latest with
  | nil => rfl
  | cons e slot ih =>
    obtain ⟨p, v⟩ := e
    rw [List.map_cons, List.nodup_cons] at hnodup
    rw [List.foldl_cons, ih hnodup.2, lookup_cons_ite]
    by_cases hq : q = p
    · subst hq
      rw [if_pos rfl, lookup_eq_none_of_notMem hnodup.1, AList.lookup_insert]
      rfl
    · rw [if_neg hq, AList.lookup_insert_ne hq]

/-! ## Slot, batch and file of a path -/

/-- What was written to a path, what the batch holds for it and what waits in the slot. -/
def passing (st : PersistState δ) (q : String) (written : List δ) : List δ :=
  written ++ ((st.latest.lookup q).toList ++ (st.slot.lookup q).toList)

/-- The values of a path on their way to its file, against the values that were enqueued. -/
structure Coalesces (file : Option δ) (st : PersistState δ) (q : String)
    (enqueued written : List δ) : Prop where
  sublist : (st.passing q written).Sublist enqueued
  last : (st.passing q written).getLast? = enqueued.getLast?
  file : st.files q = written.getLast?.or file

variable {file : Option δ} {enqueued written : List δ}

section

variable (h : Coalesces file st q enqueued written)
include h

/-- A new value waits in the slot in place of the old one. -/
theorem Coalesces.persist {slot' : List (String × δ)} (hslot : Enqueues st.slot path data slot') :
    Coalesces file { st with slot := slot' } q
      (enqueued ++ ((WriterEvent.persist path data).enqueues q).toList) written := by
  by_cases hq : q = path
  · -- the value that waited before is skipped, which a sublist allows
    subst hq
    have hnew : passing { st with slot := slot' } q written =
        written ++ (st.latest.lookup q).toList ++ [data] := by
      simp [passing, hslot.lookup]
    have hold : (written ++ (st.latest.lookup q).toList).Sublist enqueued := by
      refine List.Sublist.trans ?_ h.sublist
      rw [passing, ← List.append_assoc]
      exact List.sublist_append_left _ _
    refine ⟨?_, ?_, h.file⟩
    · rw [hnew]
      simpa [WriterEvent.enqueues] using hold.append (List.Sublist.refl [data])
    · rw [hnew]
      simp [WriterEvent.enqueues]
  · have hsame : passing { st with slot := slot' } q written = st.passing q written := by
      simp [passing, hslot.lookup, hq]
    have hnone : (WriterEvent.persist path data).enqueues q = none := if_neg (Ne.symm hq)
    rw [hnone, Option.toList_none, List.append_nil]
    exact ⟨hsame ▸ h.sublist, hsame ▸ h.last, h.file⟩

/-- Draining moves the value from the slot to the batch. -/
theorem Coalesces.drain (hnodup : (st.slot.map (·.1)).Nodup) :
    Coalesces file st.drain q enqueued written := by
  unfold PersistState.drain
  split_ifs with hempty
  · have hlatest : st.latest = ∅ := AList.ext (List.isEmpty_iff.1 hempty)
    have hsame : passing { st with
        slot := []
        latest := st.slot.foldl (fun latest e => latest.insert e.1 e.2) ∅ } q written =
          st.passing q written := by
      simp [passing, lookup_foldl_insert hnodup, hlatest]
    exact ⟨hsame ▸ h.sublist, hsame ▸ h.last, h.file⟩
  · exact h

/-- Writing moves the value from the batch to the file. -/
theorem Coalesces.write (path : String) :
    Coalesces file (st.write path).2 q enqueued
      (written ++ ((st.write path).1.bind fun w => if w.1 = q then some w.2 else none).toList) := by
  unfold PersistState.write
  cases hbatch : st.latest.lookup path with
  | none => simpa using h
  | some data =>
    by_cases hq : path = q
    · subst hq
      have hsame : passing { st with
          latest := st.latest.erase path
          files := Function.update st.files path (some data) } path (written ++ [data]) =
            st.passing path written := by
        simp [passing, hbatch]
      simp only [Option.bind_some, if_pos, Option.toList_some]
      exact ⟨hsame ▸ h.sublist, hsame ▸ h.last, by simp⟩
    · have hsame : passing { st with
          latest := st.latest.erase path
          files := Function.update st.files path (some data) } q written =
            st.passing q written := by
        simp [passing, AList.lookup_erase_ne (Ne.symm hq)]
      simp only [Option.bind_some, if_neg hq, Option.toList_none, List.append_nil]
      exact ⟨hsame ▸ h.sublist, hsame ▸ h.last,
        (Function.update_of_ne (Ne.symm hq) _ _).trans h.file⟩

end

/-! ## Runs -/

/-- The invariant of a run. The slot has one entry for each path, all of them among `paths`. -/
structure Refines (files : String → Option δ) (paths : Finset String) (st : PersistState δ)
    (enqueued written : String → List δ) : Prop where
  nodup : (st.slot.map (·.1)).Nodup
  mem : ∀ p ∈ st.slot.map (·.1), p ∈ paths
  coalesces : ∀ q, Coalesces (files q) st q (enqueued q) (written q)

variable {files : String → Option δ} {paths : Finset String}

theorem refines_initial (files : String → Option δ) (paths : Finset String) :
    Refines files paths { files } (fun _ => []) fun _ => [] :=
  ⟨List.nodup_nil, by simp, fun _ => ⟨List.Sublist.refl _, rfl, rfl⟩⟩

/-- There is room for every path that does not wait. -/
theorem Refines.room {enqueued written : String → List δ}
    (h : Refines files paths st enqueued written) (hcard : paths.card ≤ maxPendingPaths)
    (hpath : path ∈ paths) (hnew : path ∉ st.slot.map (·.1)) :
    st.slot.length < maxPendingPaths := by
  -- the waiting paths and the new one are different elements of `paths`
  have hnodup : (path :: st.slot.map (·.1)).Nodup := List.nodup_cons.2 ⟨hnew, h.nodup⟩
  have hsub : (path :: st.slot.map (·.1)).toFinset ⊆ paths := by
    intro p hp
    rw [List.mem_toFinset, List.mem_cons] at hp
    rcases hp with rfl | hp
    · exact hpath
    · exact h.mem p hp
  have hle := (Finset.card_le_card hsub).trans hcard
  rw [List.toFinset_card_of_nodup hnodup, List.length_cons, List.length_map] at hle
  exact hle

theorem Refines.step {enqueued written : String → List δ}
    (h : Refines files paths st enqueued written) (hcard : paths.card ≤ maxPendingPaths)
    {event : WriterEvent δ} (hpath : ∀ path data, event = .persist path data → path ∈ paths) :
    Refines files paths (machine.step st event).2
      (fun q => enqueued q ++ (event.enqueues q).toList)
      fun q => written q ++ ((machine.step st event).1.bind fun w =>
        if w.1 = q then some w.2 else none).toList := by
  cases event with
  | persist path data =>
    have hslot : Enqueues st.slot path data (enqueue st.slot path data) :=
      enqueues (h.room hcard (hpath path data rfl))
    refine ⟨hslot.nodup h.nodup, fun p hp => ?_, fun q => ?_⟩
    · rcases hslot.mem p hp with rfl | hold
      · exact hpath p data rfl
      · exact h.mem p hold
    · simpa [machine, PersistState.persist] using (h.coalesces q).persist hslot
  | drain =>
    have hslot : st.drain.slot = [] ∨ st.drain.slot = st.slot := by
      unfold PersistState.drain
      split_ifs
      · exact .inl rfl
      · exact .inr rfl
    refine ⟨?_, ?_, fun q => ?_⟩
    · show (st.drain.slot.map (·.1)).Nodup
      rcases hslot with hslot | hslot
      · rw [hslot]
        exact List.nodup_nil
      · rw [hslot]
        exact h.nodup
    · show ∀ p ∈ st.drain.slot.map (·.1), p ∈ paths
      rcases hslot with hslot | hslot
      · rw [hslot]
        rintro p ⟨⟩
      · rw [hslot]
        exact h.mem
    · simpa [machine, WriterEvent.enqueues] using (h.coalesces q).drain h.nodup
  | write path =>
    have hslot : (st.write path).2.slot = st.slot := by
      unfold PersistState.write
      split <;> rfl
    refine ⟨?_, ?_, fun q => ?_⟩
    · show ((st.write path).2.slot.map (·.1)).Nodup
      rw [hslot]
      exact h.nodup
    · show ∀ p ∈ (st.write path).2.slot.map (·.1), p ∈ paths
      rw [hslot]
      exact h.mem
    · simpa [machine, WriterEvent.enqueues] using (h.coalesces q).write path

theorem refines_run (files : String → Option δ) (hcard : paths.card ≤ maxPendingPaths)
    (events : List (WriterEvent δ))
    (hpaths : ∀ path data, .persist path data ∈ events → path ∈ paths) :
    Refines files paths (machine.run { files } events).2 (fun q => enqueuedValues q events)
      fun q => writtenValues q (machine.run { files } events).1 := by
  induction events using List.reverseRecOn with
  | nil => exact refines_initial files paths
  | append_singleton events event ih =>
    have hbefore := ih fun path data hmem => hpaths path data (List.mem_append_left _ hmem)
    have hstep := hbefore.step hcard fun path data hevent =>
      hpaths path data (List.mem_append_right _ (List.mem_singleton.2 hevent.symm))
    have hwritten : ∀ q, writtenValues q (machine.run { files } (events ++ [event])).1 =
        writtenValues q (machine.run { files } events).1 ++
          ((machine.step (machine.run { files } events).2 event).1.bind fun w =>
            if w.1 = q then some w.2 else none).toList := by
      intro q
      rw [Machine.run_append, writtenValues, List.filterMap_append]
      congr 1
    simp only [enqueuedValues_concat, hwritten]
    rw [Machine.run_append]
    exact hstep

/-- In every interleaving of calls over at most 32 paths with the steps of the writer, the slot has
at most one entry for each path, the values written to a path are some of those enqueued for it, in
order, and once the slot is empty and the writer idle, every file holds the last value enqueued for
it. -/
theorem persist_refines_directWrites (files : String → Option δ) {paths : Finset String}
    (hcard : paths.card ≤ 32) {events : List (WriterEvent δ)}
    (hpaths : ∀ path data, .persist path data ∈ events → path ∈ paths) :
    let r := machine.run { files } events
    (r.2.slot.map (·.1)).Nodup ∧
      (∀ q, (writtenValues q r.1).Sublist (enqueuedValues q events)) ∧
      (r.2.slot = [] → r.2.latest = ∅ → r.2.files = directWrites files events) := by
  intro r
  have h := refines_run files hcard events hpaths
  refine ⟨h.nodup, fun q => ?_, fun hslot hlatest => ?_⟩
  · exact (List.sublist_append_left _ _).trans (h.coalesces q).sublist
  · funext q
    have hlast := (h.coalesces q).last
    have hpassing : r.2.passing q (writtenValues q r.1) = writtenValues q r.1 := by
      simp [passing, hslot, hlatest]
    rw [(h.coalesces q).file, directWrites_apply, ← hlast, hpassing]

/-- A value that is replaced in the slot, and one that is enqueued while the batch is written. -/
theorem persist_refines_directWrites_two_files :
    let events : List (WriterEvent ℕ) := [.persist "a" 1, .persist "b" 2, .persist "a" 3, .drain,
      .write "b", .persist "a" 4, .write "a", .drain, .write "a"]
    let r := machine.run { files := fun _ => none } events
    writtenValues "a" r.1 = [3, 4] ∧ r.2.files = directWrites (fun _ => none) events := by
  intro events r
  have hpaths : ∀ path data, .persist path data ∈ events → path ∈ ({"a", "b"} : Finset String) := by
    intro path data hmem
    simp only [events, List.mem_cons, WriterEvent.persist.injEq] at hmem
    simp only [Finset.mem_insert, Finset.mem_singleton]
    tauto
  exact ⟨by decide +kernel,
    (persist_refines_directWrites _ (by decide) hpaths).2.2 (by decide +kernel)
      (AList.ext (by decide +kernel))⟩

end PersistState

end KyberPipe
