import KyberPipe.Crypto.ShamirSharing

/-!
# Shamir reconstruction on arbitrary input

What the two reconstruction functions do with lists that no split has produced, and with a number of
shares that is not the threshold of the split. Shares of less than two bytes each pass all checks
and panic. With fewer shares than the threshold the result is wrong for some split of every secret.
-/

namespace KyberPipe

open Polynomial SecretSharing

/-! ### The checks -/

/-- In a sorted list equal bytes are neighbours. -/
theorem nodup_of_any_adjacent_eq_false {l : List UInt8} (hsorted : l.Pairwise (· ≤ ·))
    (h : ((l.zip l.tail).any fun pair => pair.1 = pair.2) = false) : l.Nodup := by
  induction l with
  | nil => exact .nil
  | cons a l ih =>
    cases l with
    | nil => exact List.nodup_singleton a
    | cons b l =>
      rw [List.pairwise_cons] at hsorted
      have hhead : a ≠ b ∧ ((b :: l).zip l).any (fun pair => pair.1 = pair.2) = false := by
        simpa using h
      refine List.nodup_cons.2 ⟨fun hmem => ?_, ih hsorted.2 hhead.2⟩
      have hle : b ≤ a := by
        rcases List.mem_cons.1 hmem with rfl | hmem
        · exact UInt8.le_refl a
        · exact (List.pairwise_cons.1 hsorted.2).1 a hmem
      exact hhead.1 (UInt8.le_antisymm (hsorted.1 b List.mem_cons_self) hle)

/-- The test for equal x coordinates finds them all. -/
theorem any_adjacent_mergeSort (l : List UInt8) :
    ((l.mergeSort.zip l.mergeSort.tail).any fun pair => pair.1 = pair.2) = false ↔ l.Nodup := by
  have hsorted : l.mergeSort.Pairwise (· ≤ ·) := by
    have h := @List.pairwise_mergeSort _ (fun a b : UInt8 => decide (a ≤ b))
      (fun a b c hab hbc => by
        rw [decide_eq_true_iff] at hab hbc ⊢
        exact UInt8.le_trans hab hbc)
      (fun a b => by simpa using UInt8.le_total a b) l
    exact h.imp of_decide_eq_true
  rw [← (List.mergeSort_perm l _).nodup_iff]
  exact ⟨nodup_of_any_adjacent_eq_false hsorted, any_adjacent_eq_false⟩

/-- The x coordinates of shares. -/
def xCoords (shares : List Bytes) : List UInt8 := shares.map (·.headD 0)

/-- The shares pass the checks of their number and of their lengths, and have `m` bytes each. -/
structure Comparable (shares : List Bytes) (k m : ℕ) : Prop where
  nonempty : shares ≠ []
  enough : k ≤ shares.length
  lengths : ∀ share ∈ shares, share.length = m

section Plain

variable {shares : List Bytes} {k m : ℕ}

/-- How a reconstruction from comparable shares ends. -/
theorem Comparable.reconstructSecretShamir (h : Comparable shares k m) :
    KyberPipe.reconstructSecretShamir shares k =
      if m = 2 then .error (.error (.cryptoError "Share data too short"))
      else if m = 0 then .error .panicked
      else if ¬(xCoords (shares.take k)).Nodup then
        .error (.error (.cryptoError "Duplicate x coordinate in shares — share set is invalid"))
      else if m < 2 then .error .panicked
      else
        .ok ((List.range (m - 2)).map fun byteIdx =>
          gf256LagrangeInterpolate
            ((shares.take k).map fun share => (share.headD 0, share.getD (byteIdx + 2) 0)) 0) := by
  obtain ⟨hnonempty, henough, hlengths⟩ := h
  obtain ⟨first, rest, rfl⟩ := List.exists_cons_of_ne_nil hnonempty
  have hfirst : first.length = m := hlengths first List.mem_cons_self
  have hsame : (first :: rest).any (·.length ≠ m) = false := by
    rw [List.any_eq_false]
    intro share hmem
    simp [hlengths share hmem]
  have hadjacent := any_adjacent_mergeSort (xCoords ((first :: rest).take k))
  unfold xCoords at hadjacent ⊢
  simp only [KyberPipe.reconstructSecretShamir, hfirst, hsame, Bool.false_eq_true, if_false,
    if_neg (Nat.not_lt.2 henough)]
  by_cases htwo : m = 2
  · rw [if_pos htwo, if_pos htwo]
  rw [if_neg htwo, if_neg htwo]
  by_cases hzero : m = 0
  · -- a share without bytes is indexed, or the capacity of the secret is exceeded
    rw [if_pos hzero]
    cases k with
    | zero =>
      rw [hadjacent.2 .nil]
      simp [hzero]
    | succ k => simp [List.length_eq_zero_iff.1 (hfirst.trans hzero)]
  have hread : ((first :: rest).take k).any (·.isEmpty) = false := by
    rw [List.any_eq_false]
    intro share hmem hempty
    have hlength := hlengths share (List.mem_of_mem_take hmem)
    rw [List.isEmpty_iff.1 hempty] at hlength
    exact hzero hlength.symm
  rw [if_neg hzero, hread, if_neg Bool.false_ne_true]
  by_cases hnodup : (((first :: rest).take k).map (·.headD 0)).Nodup
  · rw [hadjacent.2 hnodup, if_neg Bool.false_ne_true, if_neg (not_not.2 hnodup)]
  · rw [Bool.of_not_eq_false (mt hadjacent.1 hnodup), if_pos rfl, if_pos hnodup]

/-- Without comparable shares a reconstruction reports an error. -/
theorem reconstructSecretShamir_of_not_comparable (h : ∀ m, ¬Comparable shares k m) :
    ∃ e, reconstructSecretShamir shares k = .error (.error e) := by
  unfold reconstructSecretShamir
  cases shares with
  | nil => exact ⟨_, rfl⟩
  | cons first rest =>
    by_cases henough : (first :: rest).length < k
    · exact ⟨_, if_pos henough⟩
    have hdiffer : ((first :: rest).any (·.length ≠ first.length)) = true := by
      by_contra hsame
      refine h first.length ⟨List.cons_ne_nil first rest, Nat.not_lt.1 henough, ?_⟩
      simpa using hsame
    dsimp only
    rw [if_neg henough, hdiffer, if_pos rfl]
    split_ifs
    · exact ⟨_, rfl⟩
    · exact ⟨_, rfl⟩

end Plain

/-! ### Robustness -/

/-- What a reconstruction needs to be meaningful: distinct nonzero x coordinates and equal lengths
above 2 in the first `k` entries. -/
structure WellFormedEntries (entries : List Bytes) (k : ℕ) : Prop where
  pos : 1 ≤ k
  enough : k ≤ entries.length
  distinct : (xCoords (entries.take k)).Nodup
  nonzero : 0 ∉ xCoords (entries.take k)
  lengths : ∃ m > 2, ∀ entry ∈ entries.take k, entry.length = m

/-- The reconstruction returns without a panic, and with a secret only for well-formed entries. -/
def Robust (result : Except ReconstructFailure Bytes) (entries : List Bytes) (k : ℕ) : Prop :=
  result ≠ .error .panicked ∧ ∀ secret, result = .ok secret → WellFormedEntries entries k

theorem robust_of_error {entries : List Bytes} {k : ℕ} (e : KyberError) :
    Robust (.error (.error e)) entries k :=
  ⟨fun h => (nomatch h), fun _ h => (nomatch h)⟩

/-- The plain reconstruction is robust just on lists whose shares, if they are comparable, can be
read and are well-formed. -/
theorem robust_reconstructSecretShamir_iff {shares : List Bytes} {k : ℕ} :
    Robust (reconstructSecretShamir shares k) shares k ↔
      ∀ m, Comparable shares k m → m ≠ 2 → m ≠ 0 ∧
        ((xCoords (shares.take k)).Nodup → 2 < m ∧ 1 ≤ k ∧ 0 ∉ xCoords (shares.take k)) := by
  by_cases hcomparable : ∃ m, Comparable shares k m
  · obtain ⟨m, h⟩ := hcomparable
    have hunique : ∀ m', Comparable shares k m' → m' = m := by
      intro m' h'
      obtain ⟨first, rest, rfl⟩ := List.exists_cons_of_ne_nil h.nonempty
      rw [← h.lengths first List.mem_cons_self, ← h'.lengths first List.mem_cons_self]
    rw [h.reconstructSecretShamir]
    by_cases htwo : m = 2
    · rw [if_pos htwo]
      refine iff_of_true (robust_of_error _) fun m' h' hne => ?_
      exact absurd ((hunique m' h').trans htwo) hne
    have hiff : (∀ m', Comparable shares k m' → m' ≠ 2 → m' ≠ 0 ∧ ((xCoords (shares.take k)).Nodup →
          2 < m' ∧ 1 ≤ k ∧ 0 ∉ xCoords (shares.take k))) ↔
        m ≠ 0 ∧ ((xCoords (shares.take k)).Nodup →
          2 < m ∧ 1 ≤ k ∧ 0 ∉ xCoords (shares.take k)) := by
      refine ⟨fun hall => hall m h htwo, fun hm m' h' _ => ?_⟩
      rw [hunique m' h']
      exact hm
    rw [hiff, if_neg htwo]
    by_cases hzero : m = 0
    · rw [if_pos hzero]
      exact iff_of_false (fun hrobust => hrobust.1 rfl) fun hm => hm.1 hzero
    rw [if_neg hzero, and_iff_right hzero]
    by_cases hnodup : (xCoords (shares.take k)).Nodup
    · rw [if_neg (not_not.2 hnodup)]
      by_cases hone : m < 2
      · rw [if_pos hone]
        refine iff_of_false (fun hrobust => hrobust.1 rfl) fun hm => ?_
        have := (hm hnodup).1
        omega
      · rw [if_neg hone]
        constructor
        · intro hrobust _
          have hentries := hrobust.2 _ rfl
          exact ⟨by omega, hentries.pos, hentries.nonzero⟩
        · intro hm
          obtain ⟨hlong, hpos, hnonzero⟩ := hm hnodup
          refine ⟨fun heq => (nomatch heq), fun _ _ => ?_⟩
          refine ⟨hpos, h.enough, hnodup, hnonzero, m, hlong, ?_⟩
          exact fun entry hmem => h.lengths entry (List.mem_of_mem_take hmem)
    · rw [if_pos hnodup]
      exact iff_of_true (robust_of_error _) fun h => absurd h hnodup
  · obtain ⟨e, he⟩ := reconstructSecretShamir_of_not_comparable (not_exists.1 hcomparable)
    rw [he]
    exact iff_of_true (robust_of_error e) fun m h => absurd ⟨m, h⟩ hcomparable

section WithMeta

variable {P : IntegrityPrimitives} {records : List ShamirShare} {k : ℕ}

/-- The x coordinate of a share that is verified is not zero. -/
theorem headD_ne_zero_of_checkShare {first share : ShamirShare}
    (h : checkShare P first share = .ok ()) : share.data.headD 0 ≠ 0 := by
  have hverified : verifySharePublic P share = true := by
    unfold checkShare at h
    split_ifs at h with _ _ hverified
    exact Bool.of_not_eq_false hverified
  have hx : share.data.headD 0 = UInt8.ofNat (min (share.index.toNat + 1) 255) := by
    by_contra hne
    rw [verifySharePublic, if_pos hne] at hverified
    cases hverified
  intro hzero
  have hnat := congrArg UInt8.toNat (hx.symm.trans hzero)
  rw [UInt8.toNat_ofNat', Nat.mod_eq_of_lt (by omega)] at hnat
  exact absurd hnat (by simp)

/-- The records are verified, and their data is an x coordinate each and nothing else. -/
structure Hollow (P : IntegrityPrimitives) (records : List ShamirShare) (k : ℕ) : Prop where
  pos : 1 ≤ k
  enough : k ≤ records.length
  verified : ∃ first, records.head? = some first ∧
    ∀ share ∈ records.take k, checkShare P first share = .ok ()
  lengths : ∀ share ∈ records.take k, share.data.length = 1
  distinct : (xCoords ((records.take k).map (·.data))).Nodup

/-- The reconstruction with metadata, once the records are verified. -/
theorem reconstructShamirWithMeta_of_verified {first : ShamirShare} (hpos : 1 ≤ k)
    (henough : k ≤ records.length) (hfirst : records.head? = some first)
    (hchecks : ∀ share ∈ records.take k, checkShare P first share = .ok ()) :
    reconstructShamirWithMeta P records k =
      match reconstructSecretShamir ((records.take k).map (·.data)) k with
      | .error e => .error e
      | .ok recovered =>
        if computeSecretHash P recovered = first.secretHash then .ok recovered
        else .error (.error (.cryptoError
          "Reconstructed secret failed hash verification — a share was corrupted or substituted"))
    := by
  obtain ⟨rest, hcons⟩ : ∃ rest, records.take k = first :: rest := by
    obtain ⟨j, rfl⟩ := Nat.exists_eq_add_of_le' hpos
    cases records with
    | nil => cases hfirst
    | cons a l => exact ⟨l.take j, by rw [List.take_succ_cons, Option.some.inj hfirst]⟩
  rw [hcons] at hchecks
  cases hrec : reconstructSecretShamir ((first :: rest).map (·.data)) k <;>
    simp only [reconstructShamirWithMeta, hcons, if_neg (Nat.not_lt.2 henough),
      forM_eq_ok.2 hchecks, hrec]

/-- Records that are not verified are refused. -/
theorem reconstructShamirWithMeta_of_not_verified
    (h : ¬(1 ≤ k ∧ k ≤ records.length ∧ ∃ first, records.head? = some first ∧
      ∀ share ∈ records.take k, checkShare P first share = .ok ())) :
    ∃ e, reconstructShamirWithMeta P records k = .error (.error e) := by
  unfold reconstructShamirWithMeta
  cases htake : records.take k with
  | nil => exact ⟨_, rfl⟩
  | cons first rest =>
    dsimp only
    by_cases henough : records.length < k
    · exact ⟨_, if_pos henough⟩
    rw [if_neg henough]
    cases hchecks : (first :: rest).forM (checkShare P first) with
    | error e => exact ⟨e, rfl⟩
    | ok =>
      refine absurd ⟨?_, Nat.not_lt.1 henough, first, ?_, ?_⟩ h
      · exact Nat.pos_of_ne_zero fun hzero => by simp [hzero] at htake
      · cases records with
        | nil => simp at htake
        | cons a l =>
          cases k with
          | zero => cases htake
          | succ k => rw [List.head?_cons, (List.cons.inj htake).1]
      · rw [htake]
        exact forM_eq_ok.1 hchecks

/-- The reconstruction with metadata is robust but for hollow records. -/
theorem robust_reconstructShamirWithMeta_iff :
    Robust (reconstructShamirWithMeta P records k) (records.map (·.data)) k ↔
      ¬Hollow P records k := by
  by_cases hverified : 1 ≤ k ∧ k ≤ records.length ∧ ∃ first, records.head? = some first ∧
      ∀ share ∈ records.take k, checkShare P first share = .ok ()
  · obtain ⟨hpos, henough, first, hfirst, hchecks⟩ := hverified
    have htake : (records.take k).map (·.data) = (records.map (·.data)).take k := List.map_take
    have hcount : ((records.take k).map (·.data)).length = k := by
      rw [List.length_map, List.length_take, min_eq_left henough]
    have hne : (records.take k).map (·.data) ≠ [] := by
      rw [← List.length_pos_iff, hcount]
      exact hpos
    have hnonzero : 0 ∉ xCoords ((records.take k).map (·.data)) := by
      simp only [xCoords, List.map_map, List.mem_map, not_exists, not_and]
      exact fun share hmem => headD_ne_zero_of_checkShare (hchecks share hmem)
    have hall : ((records.take k).map (·.data)).take k = (records.take k).map (·.data) :=
      List.take_of_length_le hcount.le
    rw [reconstructShamirWithMeta_of_verified hpos henough hfirst hchecks]
    constructor
    · -- hollow records reach the panic of the plain reconstruction
      rintro hrobust ⟨-, -, -, hlengths, hdistinct⟩
      have hcomparable : Comparable ((records.take k).map (·.data)) k 1 :=
        ⟨hne, hcount.ge, List.forall_mem_map.2 hlengths⟩
      have hpanic : reconstructSecretShamir ((records.take k).map (·.data)) k =
          .error .panicked := by
        rw [hcomparable.reconstructSecretShamir, hall, if_neg (by decide), if_neg (by decide),
          if_neg (not_not.2 hdistinct), if_pos (by decide)]
      rw [hpanic] at hrobust
      exact hrobust.1 rfl
    · intro hhollow
      have hrobust : Robust (reconstructSecretShamir ((records.take k).map (·.data)) k)
          ((records.take k).map (·.data)) k := by
        refine robust_reconstructSecretShamir_iff.2 fun m hcomparable htwo => ?_
        have hlengths := List.forall_mem_map.1 hcomparable.lengths
        have hzero : m ≠ 0 := by
          rintro rfl
          obtain ⟨share, hshare⟩ := List.exists_mem_of_ne_nil _ (mt List.map_eq_nil_iff.2 hne)
          have hempty := List.length_eq_zero_iff.1 (hlengths share hshare)
          exact headD_ne_zero_of_checkShare (hchecks share hshare) (by rw [hempty]; rfl)
        rw [hall]
        refine ⟨hzero, fun hdistinct => ⟨?_, hpos, hnonzero⟩⟩
        by_contra hshort
        obtain rfl : m = 1 := by omega
        exact hhollow ⟨hpos, henough, ⟨first, hfirst, hchecks⟩, hlengths, hdistinct⟩
      cases hplain : reconstructSecretShamir ((records.take k).map (·.data)) k with
      | error e =>
        rw [hplain] at hrobust
        exact ⟨fun h => hrobust.1 h, fun _ h => (nomatch h)⟩
      | ok recovered =>
        dsimp only
        split_ifs
        · refine ⟨fun h => (nomatch h), fun _ _ => ?_⟩
          obtain ⟨_, _, hdistinct, hzero, m, hm, hlengths⟩ := hrobust.2 _ hplain
          rw [hall, htake] at hdistinct hzero hlengths
          exact ⟨hpos, by rwa [List.length_map], hdistinct, hzero, m, hm, hlengths⟩
        · exact robust_of_error _
  · obtain ⟨e, he⟩ := reconstructShamirWithMeta_of_not_verified hverified
    rw [he]
    exact iff_of_true (robust_of_error e) fun h => hverified ⟨h.pos, h.enough, h.verified⟩

end WithMeta

/-- The plain reconstruction panics on comparable shares of less than two bytes, and returns a
secret for no shares and for an x coordinate zero. The one with metadata panics on hollow records
and does nothing else amiss. -/
theorem shamir_reconstruction_robust (P : IntegrityPrimitives) (shares : List Bytes)
    (records : List ShamirShare) (k : ℕ) :
    (Robust (reconstructSecretShamir shares k) shares k ↔
      ∀ m, Comparable shares k m → m ≠ 2 → m ≠ 0 ∧
        ((xCoords (shares.take k)).Nodup → 2 < m ∧ 1 ≤ k ∧ 0 ∉ xCoords (shares.take k))) ∧
    (Robust (reconstructShamirWithMeta P records k) (records.map (·.data)) k ↔
      ¬Hollow P records k) :=
  ⟨robust_reconstructSecretShamir_iff, robust_reconstructShamirWithMeta_iff⟩

/-- A share of one byte with metadata. The hash is the secret itself, and the code of a share is
what it authenticates. -/
def hollowRecord : ShamirShare where
  index := 0
  threshold := 1
  total := 1
  timestamp := 0
  data := [1]
  mac := [1, 0, 1, 1, 0, 0, 0, 0, 0, 0, 0, 0, 1]
  verifyKey := [1]
  secretHash := [1]

/-- A panic on one byte, with and without metadata, a secret from no share, and one from a share at
zero. -/
theorem malformed_shares_accepted :
    reconstructSecretShamir [[1]] 1 = .error .panicked ∧
      reconstructSecretShamir [[1, 1, 5]] 0 = .ok [0] ∧
      reconstructSecretShamir [[0, 1, 5]] 1 = .ok [5] ∧
      reconstructShamirWithMeta ⟨id, fun _ key _ => key, fun key message => key ++ message⟩
        [hollowRecord] 1 = .error .panicked := by
  have hone : reconstructSecretShamir [[1]] 1 = .error .panicked := by
    rw [Comparable.reconstructSecretShamir ⟨by decide, by decide, by decide⟩ (m := 1)]
    decide
  refine ⟨hone, ?_, ?_, ?_⟩
  · rw [Comparable.reconstructSecretShamir ⟨by decide, by decide, by decide⟩ (m := 3)]
    decide
  · rw [Comparable.reconstructSecretShamir ⟨by decide, by decide, by decide⟩ (m := 3)]
    decide +kernel
  · rw [reconstructShamirWithMeta_of_verified (by decide) (by decide) rfl (by decide)]
    change (match reconstructSecretShamir [[1]] 1 with
      | .error e => _
      | .ok recovered => _) = _
    rw [hone]

/-! ### Shares of a split -/

section Genuine

variable {secret : Bytes} {t k : ℕ} {random : ℕ → ℕ → UInt8} {chosen : List ℕ}
variable {idxs : List ℕ}

/-- Interpolation through values at shares of a polynomial of low degree. -/
theorem interpolate_xCoords (hidxs : ∀ idx ∈ idxs, idx < 255) (hnodup : idxs.Nodup) {p : Gf256[X]}
    (hp : p.degree < idxs.length) {value : ℕ → UInt8}
    (hvalue : ∀ idx ∈ idxs, p.eval ⟨xCoord idx⟩ = ⟨value idx⟩) :
    (⟨gf256LagrangeInterpolate (idxs.map fun idx => (xCoord idx, value idx)) 0⟩ : Gf256) =
      p.eval 0 := by
  refine Gf256.mk_gf256LagrangeInterpolate_eq_eval 0 ?_ ?_ (List.forall_mem_map.2 hvalue)
  · rwa [List.length_map]
  · rw [List.map_map]
    refine hnodup.map_on fun idx hidx idx' hidx' heq => ?_
    exact xCoord_inj (hidxs idx hidx) (hidxs idx' hidx') heq

/-- What is reconstructed from the shares at some indices, without repetition among the first. -/
theorem reconstructSecretShamir_shareAt (hsecret : secret ≠ []) (hchosen : chosen ≠ [])
    (henough : k ≤ chosen.length) (hidxs : ∀ idx ∈ chosen, idx < 255)
    (hnodup : (chosen.take k).Nodup) :
    reconstructSecretShamir (chosen.map (shareAt secret t random)) k =
      .ok (secret.mapIdx fun i byte =>
        gf256LagrangeInterpolate ((chosen.take k).map fun idx =>
          (xCoord idx, shareValue t byte (random i) idx)) 0) := by
  have hpositive : 0 < secret.length := List.length_pos_iff.2 hsecret
  have hcomparable : Comparable (chosen.map (shareAt secret t random)) k (secret.length + 2) :=
    ⟨mt List.map_eq_nil_iff.1 hchosen, by rwa [List.length_map],
      List.forall_mem_map.2 fun idx _ => length_shareAt idx⟩
  have hdistinct : (xCoords ((chosen.map (shareAt secret t random)).take k)).Nodup := by
    rw [xCoords, ← List.map_take, List.map_map]
    refine hnodup.map_on fun idx hidx idx' hidx' heq => ?_
    exact xCoord_inj (hidxs idx (List.mem_of_mem_take hidx))
      (hidxs idx' (List.mem_of_mem_take hidx')) heq
  rw [hcomparable.reconstructSecretShamir, if_neg (by omega), if_neg (by omega),
    if_neg (not_not.2 hdistinct), if_neg (by omega), Nat.add_sub_cancel]
  refine congrArg Except.ok (List.ext_getElem (by simp) fun i hi hi' => ?_)
  have hi : i < secret.length := by simpa using hi'
  have hbyte : secret[i]? = some secret[i] := List.getElem?_eq_getElem hi
  rw [List.getElem_map, List.getElem_range, List.getElem_mapIdx, ← List.map_take, List.map_map]
  congr 1
  refine List.map_congr_left fun idx _ => Prod.ext rfl ?_
  show (shareAt secret t random idx).getD (i + 2) 0 = _
  rw [List.getD_eq_getElem?_getD, getElem?_shareAt, hbyte]
  rfl

/-- A reconstruction from shares of a split that is not refused. -/
theorem chosen_of_reconstructSecretShamir {recovered : Bytes}
    (h : reconstructSecretShamir (chosen.map (shareAt secret t random)) k = .ok recovered) :
    chosen ≠ [] ∧ k ≤ chosen.length ∧ (chosen.take k).Nodup := by
  by_cases hcomparable : ∃ m, Comparable (chosen.map (shareAt secret t random)) k m
  · obtain ⟨m, hm⟩ := hcomparable
    refine ⟨mt List.map_eq_nil_iff.2 hm.nonempty, by simpa using hm.enough, ?_⟩
    rw [hm.reconstructSecretShamir] at h
    split_ifs at h with _ _ hnodup
    rw [xCoords, ← List.map_take, List.map_map] at hnodup
    exact hnodup.of_map
  · obtain ⟨e, he⟩ := reconstructSecretShamir_of_not_comparable (not_exists.1 hcomparable)
    rw [he] at h
    cases h

/-- With as many shares as the threshold the byte comes back. -/
theorem interpolate_shareValue (hpos : 1 ≤ t) (hidxs : ∀ idx ∈ idxs, idx < 255)
    (hnodup : idxs.Nodup) (ht : t ≤ idxs.length) (byte : UInt8) (row : ℕ → UInt8) :
    gf256LagrangeInterpolate (idxs.map fun idx => (xCoord idx, shareValue t byte row idx)) 0 =
      byte := by
  have hdegree : (bytePoly t byte row).degree < idxs.length :=
    (degree_bytePoly hpos byte row).trans_le (by exact_mod_cast ht)
  have heval := interpolate_xCoords hidxs hnodup hdegree
    fun idx _ => (mk_shareValue byte row idx).symm
  rw [bytePoly, eval_zero_ofCoeffs_cons] at heval
  exact congrArg Gf256.byte heval

/-- With fewer shares than the threshold, but at least one, another byte comes back for some
coefficients. -/
theorem exists_interpolate_shareValue_ne (hidxs : ∀ idx ∈ idxs, idx < 255) (hnodup : idxs.Nodup)
    (hne : idxs ≠ []) (ht : idxs.length < t) (byte : UInt8) :
    ∃ row : ℕ → UInt8,
      gf256LagrangeInterpolate (idxs.map fun idx => (xCoord idx, shareValue t byte row idx)) 0 ≠
        byte := by
  have hinj : Function.Injective fun i : Fin idxs.length => (⟨xCoord (idxs.get i)⟩ : Gf256) := by
    intro i j hij
    refine List.nodup_iff_injective_get.1 hnodup ?_
    exact xCoord_inj (hidxs _ (List.get_mem _ _)) (hidxs _ (List.get_mem _ _))
      (congrArg Gf256.byte hij)
  obtain ⟨c, hc, -⟩ := existsUnique_coeffs (Fintype.card_fin idxs.length) hinj
    (fun i => mk_xCoord_ne_zero (hidxs _ (List.get_mem idxs i))) (⟨byte⟩ : Gf256)
    fun _ => ⟨byte ^^^ 1⟩
  let row : ℕ → UInt8 := fun j => if h : j < idxs.length then (c ⟨j, h⟩).byte else 0
  -- the coefficients beyond those that are needed are zero
  have hpoly : bytePoly t byte row = ofCoeffs (⟨byte⟩ :: List.ofFn c) := by
    ext j
    rw [bytePoly, coeff_ofCoeffs, coeff_ofCoeffs]
    cases j with
    | zero => rfl
    | succ j =>
      by_cases hj : j < idxs.length
      · have hj' : j < t - 1 := by omega
        simp [row, hj, hj']
      · by_cases hj' : j < t - 1
        · simp [row, hj, hj', Gf256.mk_zero]
        · simp [hj, hj']
  have hconst : ∀ idx ∈ idxs, shareValue t byte row idx = byte ^^^ 1 := by
    intro idx hidx
    obtain ⟨i, rfl⟩ := List.get_of_mem hidx
    refine congrArg Gf256.byte ((mk_shareValue byte row _).trans ?_)
    rw [hpoly]
    exact hc i
  refine ⟨row, fun heq => ?_⟩
  have hdegree : (C (⟨byte ^^^ 1⟩ : Gf256)).degree < idxs.length :=
    degree_C_le.trans_lt (by exact_mod_cast List.length_pos_iff.2 hne)
  have hvalue : ∀ idx ∈ idxs, (C (⟨byte ^^^ 1⟩ : Gf256)).eval ⟨xCoord idx⟩ =
      ⟨shareValue t byte row idx⟩ := fun idx hidx => by rw [eval_C, hconst idx hidx]
  have heval := interpolate_xCoords hidxs hnodup hdegree hvalue
  rw [heq, eval_C] at heval
  have hbyte : byte = byte ^^^ 1 := congrArg Gf256.byte heval
  have hzero : byte ^^^ byte = byte ^^^ (byte ^^^ 1) := congrArg (byte ^^^ ·) hbyte
  rw [UInt8.xor_self, ← UInt8.xor_assoc, UInt8.xor_self, UInt8.zero_xor] at hzero
  exact absurd hzero (by decide)

end Genuine

/-- Reconstruction from shares of a split gives the secret whatever the coefficients are, with at
least as many shares as the threshold, if the call is refused, and for no shares if all bytes of the
secret are zero. -/
theorem reconstruct_genuine_shares {secret : Bytes} (hsecret : secret ≠ []) {t n : ℕ}
    (hvalid : ValidThreshold t n) {chosen : List ℕ} (hchosen : ∀ idx ∈ chosen, idx < n) (k : ℕ) :
    (∀ random split recovered, splitSecretShamir secret t n random = .ok split →
        reconstructSecretShamir (chosen.filterMap (split[·]?)) k = .ok recovered →
        recovered = secret) ↔
      t ≤ k ∨ chosen = [] ∨ chosen.length < k ∨ ¬(chosen.take k).Nodup ∨
        (k = 0 ∧ ∀ byte ∈ secret, byte = 0) := by
  have hidxs : ∀ idx ∈ chosen, idx < 255 := fun idx hidx =>
    (hchosen idx hidx).trans_le hvalid.le_max
  have hidxs' : ∀ idx ∈ chosen.take k, idx < 255 := fun idx hidx =>
    hidxs idx (List.mem_of_mem_take hidx)
  have hshares : ∀ random : ℕ → ℕ → UInt8,
      chosen.filterMap (((List.range n).map (shareAt secret t random))[·]?) =
        chosen.map (shareAt secret t random) := by
    intro random
    rw [← List.filterMap_eq_map]
    refine List.filterMap_congr fun idx hidx => ?_
    simp [hchosen idx hidx]
  constructor
  · intro hall
    by_contra hnot
    simp only [not_or, not_not, not_le, not_lt] at hnot
    obtain ⟨hfew, hne, henough, hnodup, hzero⟩ := hnot
    have hresult := fun random => hall random _ _ (splitSecretShamir_eq hvalid) (by
      rw [hshares, reconstructSecretShamir_shareAt hsecret hne henough hidxs hnodup])
    by_cases hk : k = 0
    · -- through no points the interpolation is zero
      refine hzero ⟨hk, fun byte hbyte => ?_⟩
      rw [← hresult fun _ _ => 0, hk, List.mem_mapIdx] at hbyte
      obtain ⟨_, _, rfl⟩ := hbyte
      rfl
    · obtain ⟨byte, rest, rfl⟩ := List.exists_cons_of_ne_nil hsecret
      have hcount : (chosen.take k).length = k := List.length_take_of_le henough
      have hpoints : chosen.take k ≠ [] := by
        rw [← List.length_pos_iff, hcount]
        exact Nat.pos_of_ne_zero hk
      obtain ⟨row, hrow⟩ := exists_interpolate_shareValue_ne hidxs' hnodup hpoints
        (hcount.trans_lt hfew) byte
      have hhead := hresult fun _ => row
      rw [List.mapIdx_cons] at hhead
      exact hrow (List.cons.inj hhead).1
  · intro hcases random split recovered hsplit hok
    obtain rfl := Except.ok.inj ((splitSecretShamir_eq hvalid).symm.trans hsplit)
    rw [hshares] at hok
    obtain ⟨hne, henough, hnodup⟩ := chosen_of_reconstructSecretShamir hok
    have hcount : (chosen.take k).length = k := List.length_take_of_le henough
    rw [reconstructSecretShamir_shareAt hsecret hne henough hidxs hnodup] at hok
    obtain rfl := Except.ok.inj hok
    refine List.ext_getElem (by simp) fun i hi hi' => ?_
    rw [List.getElem_mapIdx]
    rcases hcases with ht | hnil | hless | hdup | ⟨rfl, hzeros⟩
    · exact interpolate_shareValue hvalid.pos hidxs' hnodup (ht.trans_eq hcount.symm) _ _
    · exact absurd hnil hne
    · exact absurd hless (Nat.not_lt.2 henough)
    · exact absurd hnodup hdup
    · exact (hzeros _ (List.getElem_mem hi')).symm

/-- Two of three shares are enough for threshold two. -/
theorem reconstruct_genuine_shares_two_of_three :
    ValidThreshold 2 3 ∧ ∀ random split recovered, splitSecretShamir [7] 2 3 random = .ok split →
      reconstructSecretShamir ([2, 0].filterMap (split[·]?)) 2 = .ok recovered →
      recovered = [7] := by
  have hvalid : ValidThreshold 2 3 := ⟨by decide, by decide, by decide⟩
  exact ⟨hvalid, (reconstruct_genuine_shares (by decide) hvalid (by decide) 2).2
    (.inl (Nat.le_refl 2))⟩

/-- One of two shares that are needed gives another secret. -/
theorem too_few_shares_reconstruct_other :
    ∃ split, splitSecretShamir [7] 2 3 (fun _ _ => 1) = .ok split ∧
      reconstructSecretShamir (split.take 1) 1 = .ok [6] := by
  refine ⟨[[1, 2, 6], [2, 2, 5], [3, 2, 4]], by decide +kernel, ?_⟩
  rw [Comparable.reconstructSecretShamir ⟨by decide, by decide, by decide⟩ (m := 3)]
  decide +kernel

end KyberPipe
