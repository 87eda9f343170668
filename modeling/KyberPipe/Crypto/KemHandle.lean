import KyberPipe.Crypto.Symbolic
import KyberPipe.Lib.HandleTable
import KyberPipe.Lib.Machine

/-!
# Key pair and KEM secret handles

The two registries of `kem_handle.rs`: pairing key pairs and KEM shared secrets stay in the core
crate, and callers hold numbers. A registry at its cap is meant to drop its oldest entry, but drops
the entry that its hash map lists first. Randomness and that order are arguments.
-/

namespace KyberPipe

open Machine

variable {K C : Type}

/-- The most key pairs that are held at a time. -/
def maxKeypairHandles : ℕ := 64

/-- The most KEM secrets that are held at a time. -/
def maxKemHandles : ℕ := 256

/-- The two registries. -/
structure KemHandles where
  keypairs : HandleTable HybridKeyPair := {}
  secrets : HandleTable Bytes := {}

namespace KemHandles

section Functions

variable (P : Primitives K C) (s : KemHandles)

/-- Generate a key pair and hold it. -/
def generatePqKeypairHandle (seed : KeygenSeed) (it : Iteration) : ℕ × KemHandles :=
  let (handle, keypairs) := s.keypairs.add maxKeypairHandles it (generateHybridKeypair P seed)
  (handle, { s with keypairs })

/-- The key pair behind a handle. -/
def keypairSecret (handle : ℕ) : Except KyberError HybridKeyPair :=
  match s.keypairs.entries.lookup handle with
  | some pair => .ok pair
  | none => .error (.cryptoError s!"Invalid keypair handle {handle}")

/-- The KEM secret behind a handle. -/
def kemSecret (handle : ℕ) : Except KyberError Bytes :=
  match s.secrets.entries.lookup handle with
  | some secret => .ok secret
  | none => .error (.cryptoError s!"Invalid KEM secret handle {handle}")

/-- Hold a KEM secret. -/
def holdSecret (secret : Bytes) (it : Iteration) : ℕ × KemHandles :=
  let (handle, secrets) := s.secrets.add maxKemHandles it secret
  (handle, { s with secrets })

/-- Encapsulate to the public keys of the peer and hold the secret. -/
def encapsulatePqSecretHandle (peerX25519Pk peerMlkemPk : Bytes) (seed : EncapsulationSeed)
    (it : Iteration) : Except KyberError (ℕ × Bytes) × KemHandles :=
  if peerX25519Pk.length ≠ 32 then (.error (.invalidKeyLength 32 peerX25519Pk.length), s)
  else if !P.mlkemPublicKeyValid peerMlkemPk then
    (.error (.invalidKeyLength 1184 peerMlkemPk.length), s)
  else
    match encapsulateHybrid P peerX25519Pk peerMlkemPk seed with
    | .error e => (.error e, s)
    | .ok res =>
      let (handle, s) := s.holdSecret res.combinedSharedSecret it
      (.ok (handle, res.ciphertextBytes), s)

/-- Decapsulate with a held key pair and hold the secret. -/
def decapsulatePqSecretHandle (ciphertext : Bytes) (keypairHandle : ℕ) (it : Iteration) :
    Except KyberError ℕ × KemHandles :=
  match s.keypairSecret keypairHandle with
  | .error e => (.error e, s)
  | .ok pair =>
    match decapsulateHybrid P ciphertext pair.x25519Sk pair.mlkemSk with
    | .error e => (.error e, s)
    | .ok secret =>
      let (handle, s) := s.holdSecret secret it
      (.ok handle, s)

/-- Destroy a key pair and say whether it existed. -/
def destroyPqKeypairHandle (handle : ℕ) : Bool × KemHandles :=
  let (existed, keypairs) := s.keypairs.remove handle
  (existed, { s with keypairs })

/-- Destroy all key pairs. -/
def destroyAllPqKeypairHandles : KemHandles := { s with keypairs := s.keypairs.clear }

/-- Destroy a KEM secret and say whether it existed. -/
def destroyKemHandle (handle : ℕ) : Bool × KemHandles :=
  let (existed, secrets) := s.secrets.remove handle
  (existed, { s with secrets })

/-- Destroy all KEM secrets. -/
def destroyAllKemHandles : KemHandles := { s with secrets := s.secrets.clear }

end Functions

/-- The calls of the two registries. -/
inductive Call where
  | generate (seed : KeygenSeed) (it : Iteration)
  | encapsulate (peerX25519Pk peerMlkemPk : Bytes) (seed : EncapsulationSeed) (it : Iteration)
  | decapsulate (ciphertext : Bytes) (keypairHandle : ℕ) (it : Iteration)
  | destroyKeypair (handle : ℕ)
  | destroyAllKeypairs
  | destroyKem (handle : ℕ)
  | destroyAllKem

/-- What a call returns. -/
inductive Answer where
  | generated (handle : ℕ)
  | encapsulated (result : Except KyberError (ℕ × Bytes))
  | decapsulated (result : Except KyberError ℕ)
  | destroyed (existed : Bool)
  | done

/-- Perform a call. -/
def call (P : Primitives K C) (s : KemHandles) : Call → Answer × KemHandles
  | .generate seed it =>
    let (handle, s) := s.generatePqKeypairHandle P seed it
    (.generated handle, s)
  | .encapsulate peerX25519Pk peerMlkemPk seed it =>
    let (result, s) := s.encapsulatePqSecretHandle P peerX25519Pk peerMlkemPk seed it
    (.encapsulated result, s)
  | .decapsulate ciphertext keypairHandle it =>
    let (result, s) := s.decapsulatePqSecretHandle P ciphertext keypairHandle it
    (.decapsulated result, s)
  | .destroyKeypair handle =>
    let (existed, s) := s.destroyPqKeypairHandle handle
    (.destroyed existed, s)
  | .destroyAllKeypairs => (.done, s.destroyAllPqKeypairHandles)
  | .destroyKem handle =>
    let (existed, s) := s.destroyKemHandle handle
    (.destroyed existed, s)
  | .destroyAllKem => (.done, s.destroyAllKemHandles)

/-- The registries as a machine over their calls. -/
def machine (P : Primitives K C) : Machine KemHandles Call Answer where
  step := call P

/-! ## One registry -/

/-- Which of the two registries. -/
inductive Registry where
  | keypairs
  | secrets

namespace Registry

/-- The most handles that a registry holds. -/
def cap : Registry → ℕ
  | keypairs => maxKeypairHandles
  | secrets => maxKemHandles

/-- The valid handles of a registry. -/
def live (s : KemHandles) : Registry → List ℕ
  | keypairs => s.keypairs.live
  | secrets => s.secrets.live

/-- The handle that a call creates in a registry. -/
def created : Registry → Call → Answer → Option ℕ
  | keypairs, _, .generated handle => some handle
  | secrets, _, .encapsulated (.ok (handle, _)) => some handle
  | secrets, _, .decapsulated (.ok handle) => some handle
  | _, _, _ => none

/-- The call destroys a handle of a registry. -/
def Destroys : Registry → Call → ℕ → Prop
  | keypairs, .destroyKeypair destroyed, handle => destroyed = handle
  | keypairs, .destroyAllKeypairs, _ => True
  | secrets, .destroyKem destroyed, handle => destroyed = handle
  | secrets, .destroyAllKem, _ => True
  | _, _, _ => False

end Registry

/-- The order in which the hash map lists its keys in this call. -/
def Call.iteration : Call → Option Iteration
  | .generate _ it | .encapsulate _ _ _ it | .decapsulate _ _ it => some it
  | .destroyKeypair _ | .destroyAllKeypairs | .destroyKem _ | .destroyAllKem => none

/-- What a call does to the handles of one registry: it creates one, after room was made, or it
removes those it destroys. -/
inductive Registry.Effect (r : Registry) (c : Call) (before : List ℕ) : Option ℕ → List ℕ → Prop
  | created {handle : ℕ} {it : Iteration} {after : List ℕ} (hit : c.iteration = some it)
      (h : ∀ x, x ∈ after ↔ x = handle ∨ x ∈ it.makeRoom r.cap before) :
      Effect r c before (some handle) after
  | kept {after : List ℕ} (h : ∀ x, x ∈ after ↔ x ∈ before ∧ ¬r.Destroys c x) :
      Effect r c before none after

section Effects

variable {P : Primitives K C} {s : KemHandles} {r : Registry} {c : Call}

theorem Registry.Effect.unchanged {before : List ℕ} (h : ∀ x, ¬r.Destroys c x) :
    r.Effect c before none before :=
  .kept fun x => (and_iff_left (h x)).symm

variable (P s r c) in
theorem call_effect :
    r.Effect c (r.live s) (r.created c (s.call P c).1) (r.live (s.call P c).2) := by
  cases c with
  | generate seed it =>
    cases r with
    | keypairs => exact .created rfl fun x => HandleTable.mem_live_add
    | secrets => exact .unchanged fun _ => id
  | encapsulate peerX25519Pk peerMlkemPk seed it =>
    simp only [call, encapsulatePqSecretHandle]
    split_ifs
    · cases r <;> exact .unchanged fun _ => id
    · cases r <;> exact .unchanged fun _ => id
    · cases encapsulateHybrid P peerX25519Pk peerMlkemPk seed with
      | error e => cases r <;> exact .unchanged fun _ => id
      | ok res =>
        cases r with
        | keypairs => exact .unchanged fun _ => id
        | secrets => exact .created rfl fun x => HandleTable.mem_live_add
  | decapsulate ciphertext keypairHandle it =>
    simp only [call, decapsulatePqSecretHandle]
    cases s.keypairSecret keypairHandle with
    | error e => cases r <;> exact .unchanged fun _ => id
    | ok pair =>
      dsimp only
      cases decapsulateHybrid P ciphertext pair.x25519Sk pair.mlkemSk with
      | error e => cases r <;> exact .unchanged fun _ => id
      | ok secret =>
        cases r with
        | keypairs => exact .unchanged fun _ => id
        | secrets => exact .created rfl fun x => HandleTable.mem_live_add
  | destroyKeypair handle =>
    cases r with
    | keypairs => exact .kept fun x => HandleTable.mem_live_remove
    | secrets => exact .unchanged fun _ => id
  | destroyAllKeypairs =>
    cases r with
    | keypairs =>
      refine .kept fun x => iff_of_false HandleTable.not_mem_live_clear fun h => h.2 trivial
    | secrets => exact .unchanged fun _ => id
  | destroyKem handle =>
    cases r with
    | keypairs => exact .unchanged fun _ => id
    | secrets => exact .kept fun x => HandleTable.mem_live_remove
  | destroyAllKem =>
    cases r with
    | keypairs => exact .unchanged fun _ => id
    | secrets =>
      refine .kept fun x => iff_of_false HandleTable.not_mem_live_clear fun h => h.2 trivial

theorem Registry.cap_pos : 0 < r.cap := by
  cases r <;> decide

theorem Registry.nodup_live : (r.live s).Nodup := by
  cases r <;> exact HandleTable.nodup_live

/-- What makes room in a full registry. -/
theorem Registry.mem_makeRoom (it : Iteration) (hcap : r.cap ≤ (r.live s).length) :
    ∃ first ∈ r.live s, (it.order (r.live s)).head? = some first ∧
      ∀ x, x ∈ it.makeRoom r.cap (r.live s) ↔ x ∈ r.live s ∧ x ≠ first :=
  HandleTable.mem_makeRoom Registry.nodup_live Registry.cap_pos hcap

end Effects

/-! ## The oldest handle -/

section Oldest

variable (P : Primitives K C) (r : Registry)

/-- If the call adds a handle to the registry at its cap, the handle removed is the one created
earliest. The second part of the state is the log of the handles created. -/
def EvictsOldest (s : KemHandles × List ℕ) (c : Call) : Prop :=
  ∀ handle, r.created c (s.1.call P c).1 = some handle → r.cap ≤ (r.live s.1).length →
    ∃ oldest, s.2.dedup.find? (· ∈ r.live s.1) = some oldest ∧
      ∀ x ≠ handle, x ∈ r.live (s.1.call P c).2 ↔ x ∈ r.live s.1 ∧ x ≠ oldest

/-- If the call adds a handle to the registry at its cap, the hash map lists the handle first that
was created earliest. -/
def OldestFirst (s : KemHandles × List ℕ) (c : Call) : Prop :=
  ∀ handle it, r.created c (s.1.call P c).1 = some handle → c.iteration = some it →
    r.cap ≤ (r.live s.1).length →
    (it.order (r.live s.1)).head? = s.2.dedup.find? (· ∈ r.live s.1)

variable {P r} {s : KemHandles × List ℕ} {c : Call}

theorem evictsOldest_iff : EvictsOldest P r s c ↔ OldestFirst P r s c := by
  obtain ⟨s, log⟩ := s
  have heffect := call_effect P s r c
  unfold EvictsOldest OldestFirst
  dsimp only
  generalize r.live (s.call P c).2 = after at heffect ⊢
  generalize r.created c (s.call P c).1 = created at heffect ⊢
  cases heffect with
  | kept => exact ⟨fun _ _ _ h => (nomatch h), fun _ _ h => (nomatch h)⟩
  | @created handle it after hit hafter =>
    constructor
    · rintro hevicts handle' it' ⟨⟩ hit' hcap
      obtain rfl : it = it' := Option.some_inj.1 (hit.symm.trans hit')
      obtain ⟨oldest, hfind, hkept⟩ := hevicts handle rfl hcap
      obtain ⟨first, hfirst, hhead, hroom⟩ :=
        Registry.mem_makeRoom it hcap
      have holdest : oldest ∈ r.live s := by simpa using List.find?_some hfind
      rw [hhead, hfind]
      by_contra hne
      have hne : first ≠ oldest := fun heq => hne (heq ▸ rfl)
      -- one of the two is not the new handle, and only one of them was removed
      by_cases hnew : oldest = handle
      · have hfirst' := (hkept first (hnew ▸ hne)).2 ⟨hfirst, hne⟩
        rw [hafter, hroom] at hfirst'
        exact hfirst'.elim (hnew ▸ hne) fun h => h.2 rfl
      · have hmem := (hafter oldest).2 (.inr ((hroom oldest).2 ⟨holdest, hne.symm⟩))
        exact ((hkept oldest hnew).1 hmem).2 rfl
    · rintro hfirst handle' ⟨⟩ hcap
      obtain ⟨first, -, hhead, hroom⟩ :=
        Registry.mem_makeRoom it hcap
      refine ⟨first, ?_, fun x hx => ?_⟩
      · rw [← hfirst handle it rfl hit hcap, hhead]
      · rw [hafter, or_iff_right hx, hroom]

/-- The valid handles are among those created. -/
def Logged (r : Registry) (s : KemHandles × List ℕ) : Prop := ∀ x ∈ r.live s.1, x ∈ s.2

theorem makeRoom_subset {it : Iteration} {cap : ℕ} {keys : List ℕ} {x : ℕ}
    (h : x ∈ it.makeRoom cap keys) : x ∈ keys := by
  unfold Iteration.makeRoom at h
  split_ifs at h
  · split at h
    · exact List.mem_of_mem_erase h
    · exact h
  · exact h

theorem Logged.step (h : Logged r s) (c : Call) :
    Logged r (((machine P).logged r.created).step s c).2 := by
  obtain ⟨s, log⟩ := s
  have heffect := call_effect P s r c
  show ∀ x ∈ r.live (s.call P c).2, x ∈ log ++ (r.created c (s.call P c).1).toList
  generalize r.live (s.call P c).2 = after at heffect ⊢
  generalize r.created c (s.call P c).1 = created at heffect ⊢
  intro x hx
  cases heffect with
  | created _ hafter =>
    rcases (hafter x).1 hx with rfl | hx
    · exact List.mem_append_right _ (List.mem_singleton_self x)
    · exact List.mem_append_left _ (h x (makeRoom_subset hx))
  | kept hafter => exact List.mem_append_left _ (h x ((hafter x).1 hx).1)

/-- The handle is valid unless the cap is reached by the handles created after it. -/
def Survives (r : Registry) (earlier : List ℕ) (handle : ℕ) (s : KemHandles × List ℕ) : Prop :=
  ∃ later, s.2 = earlier ++ handle :: later ∧ (later.length < r.cap → handle ∈ r.live s.1)

variable {handle : ℕ}

theorem Survives.step {earlier : List ℕ} (h : Survives r earlier handle s) (hlogged : Logged r s)
    (hfirst : OldestFirst P r s c) (hkeep : ¬r.Destroys c handle) :
    Survives r earlier handle (((machine P).logged r.created).step s c).2 := by
  obtain ⟨s, log⟩ := s
  obtain ⟨later, rfl, hlive⟩ := h
  have heffect := call_effect P s r c
  show ∃ later', earlier ++ handle :: later ++ (r.created c (s.call P c).1).toList =
    earlier ++ handle :: later' ∧ (later'.length < r.cap → handle ∈ r.live (s.call P c).2)
  unfold OldestFirst at hfirst
  dsimp only at hfirst hlive
  generalize r.live (s.call P c).2 = after at heffect ⊢
  generalize r.created c (s.call P c).1 = created at heffect hfirst ⊢
  cases heffect with
  | kept hafter =>
    refine ⟨later, by simp, fun hlater => ?_⟩
    exact (hafter handle).2 ⟨hlive hlater, hkeep⟩
  | @created new it after hit hafter =>
    refine ⟨later ++ [new], by simp, fun hlater => (hafter handle).2 (.inr ?_)⟩
    rw [List.length_append, List.length_singleton] at hlater
    have hmem := hlive (Nat.lt_of_succ_lt hlater)
    by_cases hcap : r.cap ≤ (r.live s).length
    · obtain ⟨first, -, hhead, hroom⟩ :=
        Registry.mem_makeRoom it hcap
      refine (hroom handle).2 ⟨hmem, ?_⟩
      rintro rfl
      -- the earliest of the valid handles has all others after it, so they are fewer than the cap
      have hfind := hfirst new it rfl hit hcap
      rw [hhead] at hfind
      have hlength : (r.live s).length ≤ later.length + 1 :=
        List.length_le_of_find?_dedup Registry.nodup_live hlogged hfind.symm
      omega
    · rw [Iteration.makeRoom, if_neg hcap]
      exact hmem

theorem mem_live_of_created {s : KemHandles} (h : r.created c (s.call P c).1 = some handle) :
    handle ∈ r.live (s.call P c).2 := by
  have heffect := call_effect P s r c
  rw [h] at heffect
  generalize r.live (s.call P c).2 = after at heffect ⊢
  cases heffect with
  | created _ hafter => exact (hafter handle).2 (.inl rfl)

theorem emitted_concat {before : List Call}
    (h : r.created c (((machine P).run {} before).2.call P c).1 = some handle) :
    emitted r.created ((machine P).run {} (before ++ [c])).1 =
      emitted r.created ((machine P).run {} before).1 ++ [handle] := by
  rw [run_append, emitted, List.filterMap_append]
  exact congrArg _ (List.filterMap_cons_some h)

/-- The handles of a run in which the earliest handle is always listed first. -/
theorem Survives.run {s : KemHandles} {earlier : List ℕ} {after : List Call}
    (h : Survives r earlier handle (s, earlier ++ [handle]))
    (hlogged : Logged r (s, earlier ++ [handle]))
    (hfirst : ((machine P).logged r.created).Follows (OldestFirst P r)
      (s, earlier ++ [handle]) after) (hkeep : ∀ d ∈ after, ¬r.Destroys d handle)
    (hcount : (emitted r.created ((machine P).run s after).1).length < r.cap) :
    handle ∈ r.live ((machine P).run s after).2 := by
  have hend := run_invariant_of_follows (fun t => Logged r t ∧ Survives r earlier handle t)
    (fun t d hinv hd => ⟨hinv.1.step d, hinv.2.step hinv.1 hd.1 hd.2⟩) ⟨hlogged, h⟩
    (hfirst.and (follows_of_forall hkeep))
  rw [logged_run] at hend
  obtain ⟨-, later, hlater, hlive⟩ := hend
  -- what was created since is what the run logged
  rw [List.append_assoc, List.append_cancel_left_eq, List.singleton_append] at hlater
  obtain rfl := (List.cons.inj hlater).2
  exact hlive hcount

end Oldest

/-- A registry at its cap removes the handle created earliest, and a handle is valid until it is
destroyed or a cap of handles was created after it, just if every call that adds a handle at the cap
finds the earliest one first in the hash map. -/
theorem registries_evict_oldest (P : Primitives K C) (r : Registry) (ops : List Call) :
    (((machine P).logged r.created).Follows (EvictsOldest P r) ({}, []) ops ∧
      ∀ before c after rest handle, ops = before ++ c :: (after ++ rest) →
        r.created c (((machine P).run {} before).2.call P c).1 = some handle →
        (∀ d ∈ after, ¬r.Destroys d handle) → (emitted r.created
          ((machine P).run ((machine P).run {} (before ++ [c])).2 after).1).length < r.cap →
        handle ∈ r.live ((machine P).run {} (before ++ c :: after)).2) ↔
      ((machine P).logged r.created).Follows (OldestFirst P r) ({}, []) ops := by
  refine ⟨fun h => h.1.mono fun _ _ => evictsOldest_iff.1, fun hfirst => ⟨?_, ?_⟩⟩
  · exact hfirst.mono fun _ _ => evictsOldest_iff.2
  · rintro before c after rest handle rfl hcreated hkeep hcount
    rw [List.append_cons, ← List.append_assoc, follows_append, follows_append]
      at hfirst
    have hafter := hfirst.1.2
    have hlogged := run_invariant (m := (machine P).logged r.created) (Logged r)
      (fun s d h => h.step d) (s := ({}, [])) (by cases r <;> rintro _ ⟨⟩) (before ++ [c])
    rw [logged_run, List.nil_append, emitted_concat hcreated] at hafter hlogged
    rw [List.append_cons, run_append]
    refine Survives.run ⟨[], rfl, fun _ => ?_⟩ hlogged hafter hkeep hcount
    rw [run_append]
    exact mem_live_of_created hcreated

/-- A hash map may list its newest key first. The 65th key pair then costs the 64th handle its
validity, after one further creation. -/
theorem newest_keypair_evicted :
    let generate := Call.generate ⟨[], []⟩ ⟨id, fun _ => .refl _⟩
    Registry.keypairs.created generate
        (((machine Symbolic.primitives).run {} (List.replicate 63 generate)).2.call
          Symbolic.primitives generate).1 = some 64 ∧
      64 ∉ Registry.keypairs.live
        ((machine Symbolic.primitives).run {} (List.replicate 65 generate)).2 := by
  decide +kernel

end KemHandles

end KyberPipe
