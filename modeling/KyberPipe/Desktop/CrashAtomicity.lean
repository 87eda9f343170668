import KyberPipe.Desktop.StoreSpec

/-!
# Crash atomicity of the store

A crash in the middle of persisting leaves the entries of the old store or those of the new one
for the next restore, except between the two renames. There the old store is already the
backup, the new one is still the temporary file, and a restore that finds no store looks at
neither.
-/

namespace KyberPipe

open Symbolic

variable {K C B W T : Type}

namespace StoreFormat

/-- A crash after `n` operations of persisting leaves the entries of the old store or those of the
new one for the next restore, exactly if it does not fall between the two renames or there is
nothing to lose. -/
theorem crash_atomicity_iff {F : StoreFormat K B W T} (lawful : F.Lawful)
    {snapshotKeyHex : String} {wk : K} (hkey : F.wrapKey snapshotKeyHex = some wk)
    (nonces : String → Nonce) (r : RatchetRegistry K C) (d : Disk T) (n : ℕ) :
    let crashed := (F.persistAllRatchetSessions snapshotKeyHex nonces r).crashAfter
      StorageOp.apply n d
    (∃ map, (map = F.recovered d ∨ F.ReadsBack (F.sealedSessions wk nonces r) map) ∧
        (F.recovered d ≠ ∅ → map ≠ ∅) ∧ F.recovered crashed = map ∧
        ∀ (now : Clock) (live : RatchetRegistry K C),
          F.restoreAllRatchetSessions snapshotKeyHex now crashed live =
            F.restoreEntries wk (F.loadWatermarks crashed) now map live) ↔
      ¬(n = 3 ∧ r.sessions ≠ ∅ ∧ (d .store).isSome) ∨ F.recovered d = ∅ := by
  intro crashed
  have hrestore := fun map (h : F.recovered crashed = map) (now : Clock)
    (live : RatchetRegistry K C) => h ▸ F.restoreAllRatchetSessions_eq hkey now crashed live
  by_cases hne : r.sessions = ∅
  · -- without sessions nothing is written
    have hcrashed : crashed = d := by
      simp only [crashed, persistAllRatchetSessions_of_empty hkey nonces hne, Script.crashAfter]
    have hsame : F.recovered crashed = F.recovered d := by rw [hcrashed]
    exact ⟨fun _ => .inl fun h => h.2.1 hne, fun _ => ⟨_, .inl rfl, id, hsame, hrestore _ hsame⟩⟩
  · rcases recovered_crashAfter lawful hkey nonces hne n d with
      ⟨hn, hold⟩ | ⟨hn, hsome, hnone⟩ | ⟨hn, hstore, hnew⟩
    · exact ⟨fun _ => .inl fun h => by omega,
        fun _ => ⟨_, .inl rfl, id, hold, hrestore _ hold⟩⟩
    · constructor
      · rintro ⟨map, _, hlost, hmap, _⟩
        refine .inr (by_contra fun hold => hlost hold ?_)
        rw [← hmap]
        exact hnone
      · rintro (hwindow | hold)
        · exact absurd ⟨hn, hne, hsome⟩ hwindow
        · have hsame := hnone.trans hold.symm
          exact ⟨_, .inl rfl, id, hsame, hrestore _ hsame⟩
    · have hfull : F.recovered crashed ≠ ∅ := fun hempty =>
        hne ((sealedSessions_eq_empty_iff lawful wk nonces r).1
          (AList.eq_empty_of_lookup_eq_none fun peer => by
            rw [← hnew.2, hempty, AList.lookup_empty]))
      refine ⟨fun _ => .inl fun h => ?_,
        fun _ => ⟨_, .inr hnew, fun _ => hfull, rfl, hrestore _ rfl⟩⟩
      rw [hstore h.1] at h
      cases h.2.2

end StoreFormat

/-- A crash after the first operation keeps the old store. -/
theorem StoreFormat.crash_atomicity_iff_first_operation :
    ∃ map, (map = storeFormat.recovered persisted ∨
        storeFormat.ReadsBack
          (storeFormat.sealedSessions .absent (fun _ => ⟨0, 0⟩) registry) map) ∧
      storeFormat.recovered
        ((persist registry).crashAfter StorageOp.apply 1 persisted) =
          map := by
  obtain ⟨map, hmap, _, hrecovered, _⟩ := (StoreFormat.crash_atomicity_iff
    storeFormat_lawful (rfl : storeFormat.wrapKey "00" = some .absent)
    (fun _ => ⟨0, 0⟩) registry persisted 1).2
    (.inl fun h => absurd h.1 (by decide))
  exact ⟨map, hmap, hrecovered⟩

/-- After a crash between the two renames the restore finds neither the old session nor the new
one, although both files are on disk. -/
theorem StoreFormat.crash_atomicity_fails_between_renames :
    let crashed := (persist registry).crashAfter StorageOp.apply 3
      persisted
    ("phone" ∈ storeFormat.recovered persisted) ∧
      (crashed .bak).isSome ∧ (crashed .tmp).isSome ∧
      "phone" ∉ storeFormat.recovered crashed ∧
      (storeFormat.restoreAllRatchetSessions (C := Symbolic.Ciphertext) "00" ⟨0, 0⟩
        crashed {}).1 = 0 ∧
      "phone" ∉ (storeFormat.restoreAllRatchetSessions (C := Symbolic.Ciphertext) "00"
        ⟨0, 0⟩ crashed {}).2.sessions := by
  decide +kernel

end KyberPipe
