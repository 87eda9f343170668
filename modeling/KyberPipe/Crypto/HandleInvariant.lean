import KyberPipe.Crypto.SessionHandle
import KyberPipe.Lib.HandleTable
import KyberPipe.Lib.Machine
import Mathlib.Data.List.TakeWhile

/-!
# Refused creations of session handles

A creation in `session_handle.rs` makes room before it looks for a duplicate of the key. In a full
registry of which not everything is pinned, the refusal of a duplicate therefore costs another
handle its key.
-/

namespace KyberPipe

namespace SessionRegistry

/-- The three tables hold the same handles, each once, the pinned ones are among them, and they are
at most 256. -/
structure Consistent (reg : SessionRegistry) : Prop where
  keys : reg.keys.keys.Perm reg.lru
  fingerprints : reg.fingerprints.keys.Perm reg.lru
  pinned : ∀ handle ∈ reg.pinned, handle ∈ reg.lru
  length_le : reg.lru.length ≤ maxSessionKeys

/-! ## What a creation does -/

/-- The refusal of a full registry. -/
def registryFull : KyberError :=
  .cryptoError <| "Session key registry full and every handle is pinned — " ++
    "destroy an unused handle first (audit finding #23)"

/-- The registry without a handle that was evicted, with the order of use behind it. -/
def withoutEvicted (reg : SessionRegistry) (handle : ℕ) (rest : List ℕ) : SessionRegistry :=
  { reg with
    keys := reg.keys.erase handle
    fingerprints := reg.fingerprints.erase handle
    lru := rest }

/-- The registry with one more key under the next handle. -/
def withKey (reg : SessionRegistry) (keyBytes fingerprint : Bytes) : SessionRegistry :=
  { reg with
    keys := reg.keys.insert reg.nextHandle keyBytes
    fingerprints := reg.fingerprints.insert reg.nextHandle fingerprint
    lru := reg.lru ++ [reg.nextHandle]
    nextHandle := (reg.nextHandle + 1) % 2 ^ 64 }

/-- What a creation does before it looks for duplicates: nothing while there is room, and an
eviction otherwise. -/
inductive MakesRoom (reg : SessionRegistry) : SessionRegistry → Prop
  | room (h : reg.keys.size < maxSessionKeys) : MakesRoom reg reg
  | evicted {front rest : List ℕ} {handle : ℕ} (hfull : maxSessionKeys ≤ reg.keys.size)
      (hlru : reg.lru = front ++ handle :: rest) (hfront : ∀ h ∈ front, h ∈ reg.pinned)
      (hhandle : handle ∉ reg.pinned) : MakesRoom reg (reg.withoutEvicted handle rest)

/-- The possible results of a creation. -/
inductive Creates (keyFingerprint : Bytes → Bytes) (reg : SessionRegistry) (keyBytes : Bytes) :
    Except KyberError ℕ → SessionRegistry → Prop
  | badLength (h : keyBytes.length ≠ 32) :
      Creates keyFingerprint reg keyBytes (.error (.invalidKeyLength 32 keyBytes.length)) reg
  | full (hlength : keyBytes.length = 32) (hfull : maxSessionKeys ≤ reg.keys.size)
      (hpinned : ∀ h ∈ reg.lru, h ∈ reg.pinned) :
      Creates keyFingerprint reg keyBytes (.error registryFull) reg
  | duplicate {reg' : SessionRegistry} (hlength : keyBytes.length = 32)
      (hroom : MakesRoom reg reg')
      (hdup : reg'.fingerprints.entries.any (·.2 == keyFingerprint keyBytes) = true) :
      Creates keyFingerprint reg keyBytes
        (.error (.cryptoError "A session key handle for identical key bytes already exists")) reg'
  | created {reg' : SessionRegistry} (hlength : keyBytes.length = 32)
      (hroom : MakesRoom reg reg')
      (hnew : ¬reg'.fingerprints.entries.any (·.2 == keyFingerprint keyBytes) = true) :
      Creates keyFingerprint reg keyBytes (.ok reg'.nextHandle)
        (reg'.withKey keyBytes (keyFingerprint keyBytes))

section Inversion

variable (keyFingerprint : Bytes → Bytes) (reg : SessionRegistry) (keyBytes : Bytes)

/-- The eviction pops the pinned handles up to the first one that is not pinned. -/
theorem exists_evictLru (h : ¬∀ handle ∈ reg.lru, handle ∈ reg.pinned) :
    ∃ front handle rest, reg.lru = front ++ handle :: rest ∧ (∀ h ∈ front, h ∈ reg.pinned) ∧
      handle ∉ reg.pinned ∧ reg.evictLru = reg.withoutEvicted handle rest := by
  have hsplit := List.takeWhile_append_dropWhile (p := (reg.pinned.contains ·)) (l := reg.lru)
  have hfront : ∀ x ∈ reg.lru.takeWhile (reg.pinned.contains ·), x ∈ reg.pinned := by
    intro x hx
    simpa using List.mem_takeWhile_imp hx
  unfold evictLru
  cases hdrop : reg.lru.dropWhile (reg.pinned.contains ·) with
  | nil =>
    rw [hdrop, List.append_nil] at hsplit
    rw [hsplit] at hfront
    exact absurd hfront h
  | cons handle rest =>
    have hhandle := List.head_dropWhile_not (reg.pinned.contains ·)
      (l := reg.lru) (by rw [hdrop]; simp)
    simp only [hdrop, List.head_cons] at hhandle
    rw [hdrop] at hsplit
    exact ⟨_, handle, rest, hsplit.symm, hfront, by simpa using hhandle, rfl⟩

theorem sessionKeyCreate_creates :
    Creates keyFingerprint reg keyBytes (reg.sessionKeyCreate keyFingerprint keyBytes).1
      (reg.sessionKeyCreate keyFingerprint keyBytes).2 := by
  have hall : reg.lru.all (reg.pinned.contains ·) = true ↔ ∀ h ∈ reg.lru, h ∈ reg.pinned := by
    simp
  by_cases hlength : keyBytes.length ≠ 32
  · rw [sessionKeyCreate, if_pos hlength]
    exact .badLength hlength
  by_cases hfull : maxSessionKeys ≤ reg.keys.size ∧ reg.lru.all (reg.pinned.contains ·) = true
  · rw [sessionKeyCreate, if_neg hlength, if_pos hfull]
    exact .full (not_not.1 hlength) hfull.1 (hall.1 hfull.2)
  rw [sessionKeyCreate, if_neg hlength, if_neg hfull]
  have hroom : MakesRoom reg (if maxSessionKeys ≤ reg.keys.size then reg.evictLru else reg) := by
    split_ifs with hsize
    · have hfree : ¬∀ h ∈ reg.lru, h ∈ reg.pinned := fun h => hfull ⟨hsize, hall.2 h⟩
      obtain ⟨front, handle, rest, hlru, hfront, hhandle, hevict⟩ := reg.exists_evictLru hfree
      rw [hevict]
      exact .evicted hsize hlru hfront hhandle
    · exact .room (Nat.lt_of_not_le hsize)
  dsimp only
  generalize (if maxSessionKeys ≤ reg.keys.size then reg.evictLru else reg) = reg' at hroom ⊢
  split_ifs with hdup
  · exact .duplicate (not_not.1 hlength) hroom hdup
  · exact .created (not_not.1 hlength) hroom hdup

end Inversion

/-! ## Keeping the tables together -/

section Consistency

variable {keyFingerprint : Bytes → Bytes} {reg reg' : SessionRegistry}

theorem Consistent.size_eq (h : reg.Consistent) : reg.keys.size = reg.lru.length := by
  rw [← h.keys.length_eq]
  exact (List.length_map _).symm

theorem Consistent.mem_keys (h : reg.Consistent) {handle : ℕ} :
    handle ∈ reg.keys ↔ handle ∈ reg.lru :=
  AList.mem_keys.trans h.keys.mem_iff

theorem Consistent.withKey (h : reg.Consistent) (hnew : reg.nextHandle ∉ reg.lru)
    (hroom : reg.lru.length < maxSessionKeys) (keyBytes fingerprint : Bytes) :
    (reg.withKey keyBytes fingerprint).Consistent := by
  have hinsert : ∀ {m : AList fun _ : ℕ => Bytes} (b : Bytes), m.keys.Perm reg.lru →
      (m.insert reg.nextHandle b).keys.Perm (reg.lru ++ [reg.nextHandle]) := by
    intro m b hm
    have hfresh : reg.nextHandle ∉ m.keys := fun hmem => hnew (hm.mem_iff.1 hmem)
    rw [AList.keys_insert, List.erase_of_not_mem hfresh]
    exact (hm.cons reg.nextHandle).trans (List.perm_append_singleton _ _).symm
  refine ⟨hinsert keyBytes h.keys, hinsert fingerprint h.fingerprints, ?_, ?_⟩
  · intro p hp
    exact List.mem_append_left _ (h.pinned p hp)
  · show (reg.lru ++ [reg.nextHandle]).length ≤ maxSessionKeys
    rw [List.length_append]
    exact hroom

/-- What is evicted is the first handle of the order that is not pinned. -/
theorem find?_lru {front rest : List ℕ} {handle : ℕ} (hlru : reg.lru = front ++ handle :: rest)
    (hpinned : ∀ x ∈ front, x ∈ reg.pinned) (hhandle : handle ∉ reg.pinned) :
    reg.lru.find? (· ∉ reg.pinned) = some handle := by
  have hfront : front.find? (fun x => decide (x ∉ reg.pinned)) = none :=
    List.find?_eq_none.2 fun x hx => by simpa using hpinned x hx
  rw [hlru, List.find?_append, hfront, List.find?_cons_of_pos (by simpa using hhandle)]
  rfl

end Consistency

/-! ## A full registry -/

/-- A 32-byte key for each number below `2 ^ 16`. -/
def numberedKey (n : ℕ) : Bytes := UInt8.ofNat n :: UInt8.ofNat (n / 256) :: List.replicate 30 0

/-- The registry after the creation of the first `n` numbered keys. -/
def filled : ℕ → SessionRegistry
  | 0 => {}
  | n + 1 => (filled n).withKey (numberedKey n) ((numberedKey n).take 16)

section Filled

variable {m n : ℕ}

theorem filled_pinned : (filled n).pinned = [] := by
  induction n with
  | zero => rfl
  | succ n ih => exact ih

theorem filled_nextHandle (hn : n < 2 ^ 16) : (filled n).nextHandle = n + 1 := by
  induction n with
  | zero => rfl
  | succ n ih =>
    show ((filled n).nextHandle + 1) % 2 ^ 64 = n + 1 + 1
    rw [ih (by omega)]
    omega

theorem filled_lru (hn : n < 2 ^ 16) : (filled n).lru = List.range' 1 n := by
  induction n with
  | zero => rfl
  | succ n ih =>
    show (filled n).lru ++ [(filled n).nextHandle] = List.range' 1 (n + 1)
    rw [ih (by omega), filled_nextHandle (by omega), List.range'_concat, Nat.one_mul, Nat.add_comm]

theorem filled_consistent (hn : n ≤ 256) : (filled n).Consistent := by
  induction n with
  | zero => exact ⟨.nil, .nil, by rintro _ ⟨⟩, Nat.zero_le _⟩
  | succ n ih =>
    refine (ih (by omega)).withKey ?_ ?_ _ _
    · rw [filled_lru (by omega), filled_nextHandle (by omega), List.mem_range'_1]
      omega
    · rw [filled_lru (by omega), List.length_range']
      exact hn

theorem filled_size (hn : n ≤ 256) : (filled n).keys.size = n := by
  rw [(filled_consistent hn).size_eq, filled_lru (by omega), List.length_range']

theorem mem_filled_keys (hn : n ≤ 256) : m ∈ (filled n).keys ↔ 1 ≤ m ∧ m < n + 1 := by
  rw [(filled_consistent hn).mem_keys, filled_lru (by omega), List.mem_range'_1, Nat.add_comm 1 n]

theorem lookup_filled_fingerprints (hn : n < 2 ^ 16) {fingerprint : Bytes} :
    (filled n).fingerprints.lookup m = some fingerprint ↔
      ∃ i < n, m = i + 1 ∧ fingerprint = (numberedKey i).take 16 := by
  induction n with
  | zero => simp [filled]
  | succ n ih =>
    specialize ih (by omega)
    show ((filled n).fingerprints.insert (filled n).nextHandle _).lookup m = _ ↔ _
    rw [filled_nextHandle (by omega)]
    by_cases hm : m = n + 1
    · subst hm
      rw [AList.lookup_insert, Option.some_inj]
      exact ⟨fun h => ⟨n, by omega, rfl, h.symm⟩, fun ⟨i, _, hi, h⟩ => by
        obtain rfl : n = i := by omega
        exact h.symm⟩
    · rw [AList.lookup_insert_ne hm, ih]
      refine exists_congr fun i => ⟨fun h => ⟨by omega, h.2⟩, fun h => ⟨by omega, h.2⟩⟩

end Filled

/-! ## Refused creations -/

/-- The creation evicts this live handle and then finds the key bytes to be those of another. -/
def EvictsForDuplicate (keyFingerprint : Bytes → Bytes) (reg : SessionRegistry) (keyBytes : Bytes)
    (handle : ℕ) : Prop :=
  keyBytes.length = 32 ∧ maxSessionKeys ≤ reg.keys.size ∧ handle ∈ reg.keys ∧
    reg.lru.find? (· ∉ reg.pinned) = some handle ∧
    (reg.fingerprints.erase handle).entries.any (·.2 == keyFingerprint keyBytes) = true

section Refused

variable {keyFingerprint : Bytes → Bytes} {reg reg' : SessionRegistry} {keyBytes : Bytes}

/-- A creation that evicts a handle for a duplicate is refused and the handle is gone. -/
theorem EvictsForDuplicate.lost {handle : ℕ}
    (h : reg.EvictsForDuplicate keyFingerprint keyBytes handle) :
    ∃ error, (reg.sessionKeyCreate keyFingerprint keyBytes).1 = .error error ∧
      (reg.sessionKeyCreate keyFingerprint keyBytes).2.keys.lookup handle = none := by
  obtain ⟨hlength, hfull, -, hfind, hdup⟩ := h
  have hmem := List.mem_of_find?_eq_some hfind
  have hfree : handle ∉ reg.pinned := by simpa using List.find?_some hfind
  have hcreates := sessionKeyCreate_creates keyFingerprint reg keyBytes
  generalize reg.sessionKeyCreate keyFingerprint keyBytes = r at hcreates ⊢
  obtain ⟨result, reg'⟩ := r
  dsimp only at hcreates ⊢
  cases hcreates with
  | badLength hbad => exact absurd hlength hbad
  | full _ _ hall => exact absurd (hall handle hmem) hfree
  | duplicate _ hroom _ =>
    cases hroom with
    | room hsize => omega
    | @evicted front rest evicted _ hlru hpinned hevicted =>
      obtain rfl : evicted = handle :=
        Option.some_inj.1 ((find?_lru hlru hpinned hevicted).symm.trans hfind)
      exact ⟨_, rfl, AList.lookup_erase _ _⟩
  | created _ hroom hnew =>
    cases hroom with
    | room hsize => omega
    | @evicted front rest evicted _ hlru hpinned hevicted =>
      obtain rfl : evicted = handle :=
        Option.some_inj.1 ((find?_lru hlru hpinned hevicted).symm.trans hfind)
      exact absurd hdup hnew

/-- A refused creation leaves every live handle its key, just if it does not evict a handle and
find a duplicate after that. -/
theorem refused_creation_keeps_keys (keyFingerprint : Bytes → Bytes) (reg : SessionRegistry)
    (keyBytes : Bytes) :
    (∀ error, (reg.sessionKeyCreate keyFingerprint keyBytes).1 = .error error →
      ∀ handle key, reg.keys.lookup handle = some key →
        (reg.sessionKeyCreate keyFingerprint keyBytes).2.keys.lookup handle = some key) ↔
      ¬∃ handle, reg.EvictsForDuplicate keyFingerprint keyBytes handle := by
  constructor
  · rintro hkeeps ⟨handle, hevicts⟩
    obtain ⟨error, hresult, hlost⟩ := hevicts.lost
    obtain ⟨key, hkey⟩ := Option.isSome_iff_exists.1 (AList.lookup_isSome.2 hevicts.2.2.1)
    have hkept := hkeeps error hresult handle key hkey
    rw [hlost] at hkept
    cases hkept
  · intro hnone error hresult handle key hkey
    have hcreates := sessionKeyCreate_creates keyFingerprint reg keyBytes
    rw [hresult] at hcreates
    generalize (reg.sessionKeyCreate keyFingerprint keyBytes).2 = reg' at hcreates ⊢
    cases hcreates with
    | badLength => exact hkey
    | full => exact hkey
    | duplicate hlength hroom hdup =>
      cases hroom with
      | room => exact hkey
      | @evicted front rest evicted hfull hlru hpinned hevicted =>
        -- the evicted handle was not live, so no live one is lost
        have hne : handle ≠ evicted := by
          rintro rfl
          refine hnone ⟨handle, hlength, hfull, AList.lookup_isSome.1 (by rw [hkey]; rfl), ?_, hdup⟩
          exact find?_lru hlru hpinned hevicted
        rw [← hkey]
        exact AList.lookup_erase_ne hne

end Refused

/-- With 256 live keys, the refused creation of the sixth key again costs handle 1 its key. -/
theorem refused_creation_loses_key :
    ¬∀ error, ((filled 256).sessionKeyCreate (·.take 16) (numberedKey 5)).1 = .error error →
      ∀ handle key, (filled 256).keys.lookup handle = some key →
        ((filled 256).sessionKeyCreate (·.take 16) (numberedKey 5)).2.keys.lookup handle =
          some key := by
  have hlive : 1 ∈ (filled 256).keys := (mem_filled_keys (le_refl _)).2 (by omega)
  have hevicts : (filled 256).EvictsForDuplicate (·.take 16) (numberedKey 5) 1 := by
    refine ⟨by decide, (filled_size (le_refl 256)).ge, hlive, ?_, ?_⟩
    · rw [filled_lru (by decide), filled_pinned]
      rfl
    · rw [List.any_eq_true]
      refine ⟨⟨6, (numberedKey 5).take 16⟩, AList.mem_lookup_iff.1 ?_, by simp⟩
      rw [AList.lookup_erase_ne (by decide)]
      exact (lookup_filled_fingerprints (by decide)).2 ⟨5, by decide, rfl, rfl⟩
  obtain ⟨error, hresult, hlost⟩ := hevicts.lost
  obtain ⟨key, hkey⟩ := Option.isSome_iff_exists.1 (AList.lookup_isSome.2 hlive)
  intro hkeeps
  have hkept := hkeeps error hresult 1 key hkey
  rw [hlost] at hkept
  cases hkept

end SessionRegistry

end KyberPipe
