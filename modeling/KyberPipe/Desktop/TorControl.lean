import Mathlib.Data.List.DropRight
import KyberPipe.Crypto.Primitives

/-!
# Tor control replies

`read_control_reply` of `tor.rs` reads until the text so far has a final line: three digits and a
space. It does not wait for the end of that line. A reply is returned complete if and only if no
read but the last one reaches past the space of the final line.
-/

namespace KyberPipe.Tor

/-- `String::from_utf8_lossy`, as the bytes of its result: ASCII bytes stay, and anything between
them becomes text without ASCII bytes. -/
structure LossyUtf8 where
  decode : Bytes → Bytes
  decode_nil : decode [] = []
  decode_ascii : ∀ a x b, x < 128 → decode (a ++ x :: b) = decode a ++ x :: decode b
  decode_other : ∀ a, a ≠ [] → (∀ x ∈ a, 128 ≤ x) → decode a ≠ [] ∧ ∀ y ∈ decode a, 128 ≤ y

/-- `u8::is_ascii_digit` -/
def isDigit (x : UInt8) : Bool := 48 ≤ x && x ≤ 57

/-- `str::lines`: cut at each line feed, without the carriage return before it. -/
def lines : Bytes → List Bytes
  | [] => []
  | x :: rest =>
    let line := (x :: rest).takeWhile (· ≠ 10)
    (if line.getLast? = some 13 then line.dropLast else line) ::
      lines (((x :: rest).dropWhile (· ≠ 10)).drop 1)
termination_by text => text.length
decreasing_by
  have := (List.dropWhile_sublist (fun y : UInt8 => decide (y ≠ 10)) (l := x :: rest)).length_le
  simp only [List.length_drop, List.length_cons] at *
  omega

/-- The test for a final line, after `trim_end_matches('\r')`. -/
def isFinalLine (line : Bytes) : Bool :=
  let trimmed := line.rdropWhile (· = 13)
  4 ≤ trimmed.length && (trimmed.take 3).all isDigit && trimmed[3]? == some 32

section

variable (D : LossyUtf8)

/-- The text so far has a final line. -/
def sawFinal (acc : Bytes) : Bool := (lines (D.decode acc)).any isFinalLine

/-- The loop of `read_control_reply` over what the reads return. An empty read, the end of the
stream and an error all end it. -/
def readLoop (acc : Bytes) : List Bytes → Bytes
  | [] => acc
  | chunk :: reads =>
    if chunk = [] then acc
    else if sawFinal D (acc ++ chunk) then acc ++ chunk
    else readLoop (acc ++ chunk) reads

/-- `read_control_reply` -/
def readControlReply (reads : List Bytes) : Bytes := D.decode (readLoop D [] reads)

end

/-- What a line of a reply has before and after its separator. -/
structure ReplyLine where
  status : Bytes
  text : Bytes
  digits : status.length = 3 ∧ ∀ d ∈ status, isDigit d = true
  no_lf : 10 ∉ text

/-- The line on the wire. -/
def ReplyLine.wire (l : ReplyLine) (sep : UInt8) : Bytes := l.status ++ sep :: (l.text ++ [13, 10])

/-- A reply: continuation lines with a dash and one final line with a space. -/
def reply (continuation : List ReplyLine) (final : ReplyLine) : Bytes :=
  continuation.flatMap (·.wire 45) ++ final.wire 32

/-! ## Where a final line starts -/

/-- The text starts with bytes that pass the given tests. -/
def startsWith : List (UInt8 → Bool) → Bytes → Bool
  | [], _ => true
  | _ :: _, [] => false
  | p :: ps, x :: rest => p x && startsWith ps rest

/-- The text starts with three digits and a space. -/
def startsFinal (text : Bytes) : Bool := startsWith [isDigit, isDigit, isDigit, (· == 32)] text

/-- Some line starts like a final one; the flag says whether the text is at the start of a line. -/
def scan : Bool → Bytes → Bool
  | _, [] => false
  | start, x :: rest => (start && startsFinal (x :: rest)) || scan (x = 10) rest

variable {ps : List (UInt8 → Bool)}

/-- A byte that no test passes ends the match. -/
theorem startsWith_append_cons {z : UInt8} (hz : ∀ p ∈ ps, p z = false) (l t : Bytes) :
    startsWith ps (l ++ z :: t) = startsWith ps l := by
  induction ps generalizing l with
  | nil => simp [startsWith]
  | cons p ps ih =>
    cases l with
    | nil => simp [startsWith, hz p List.mem_cons_self]
    | cons x l =>
      simp only [List.cons_append, startsWith, ih (fun q hq => hz q (List.mem_cons_of_mem _ hq))]

theorem isFinalLine_eq (line : Bytes) : isFinalLine line = startsFinal line := by
  have hsplit : line.rdropWhile (· = 13) ++ line.rtakeWhile (· = 13) = line :=
    List.rdropWhile_append_rtakeWhile
  have htail : ∀ x ∈ line.rtakeWhile (· = 13), x = 13 := fun x hx => by
    simpa using List.mem_rtakeWhile_imp hx
  have hfront : isFinalLine line = startsFinal (line.rdropWhile (· = 13)) := by
    unfold isFinalLine
    dsimp only
    generalize List.rdropWhile _ line = front
    match front with
    | [] | [_] | [_, _] | [_, _, _] => simp [startsFinal, startsWith]
    | _ :: _ :: _ :: _ :: _ => simp [startsFinal, startsWith, Bool.and_assoc]
  rw [hfront]
  cases hcr : line.rtakeWhile (· = 13) with
  | nil =>
    rw [hcr, List.append_nil] at hsplit
    rw [hsplit]
  | cons z t =>
    obtain rfl := htail z (by rw [hcr]; exact List.mem_cons_self)
    rw [hcr] at hsplit
    unfold startsFinal
    rw [← startsWith_append_cons (z := 13) (by simp [isDigit]) _ t, hsplit]

variable {l : Bytes}

theorem scan_false_append (hl : 10 ∉ l) (t : Bytes) : scan false (l ++ t) = scan false t := by
  induction l with
  | nil => rfl
  | cons x l ih =>
    rw [List.mem_cons, not_or] at hl
    simp [scan, Ne.symm hl.1, ih hl.2]

/-- Only the start of the first line and the later lines matter. -/
theorem scan_line (hl : 10 ∉ l) (t : Bytes) :
    scan true (l ++ 10 :: t) = (startsFinal l || scan true t) := by
  have hstart : startsFinal (l ++ 10 :: t) = startsFinal l :=
    startsWith_append_cons (by simp [isDigit]) l t
  cases l with
  | nil => simpa [scan] using congrArg (· || scan true t) hstart
  | cons x l =>
    rw [List.mem_cons, not_or] at hl
    rw [List.cons_append, scan, ← List.cons_append, hstart]
    simp [Ne.symm hl.1, scan_false_append hl.2, scan]

theorem scan_of_notMem (hl : 10 ∉ l) : scan true l = startsFinal l := by
  cases l with
  | nil => rfl
  | cons x l =>
    rw [List.mem_cons, not_or] at hl
    have hrest : scan false l = false := by simpa [scan] using scan_false_append hl.2 []
    simp [scan, Ne.symm hl.1, hrest]

theorem head_of_dropWhile {p : UInt8 → Bool} {l t : Bytes} {z : UInt8}
    (h : l.dropWhile p = z :: t) : p z = false := by
  have hne : l.dropWhile p ≠ [] := by
    rw [h]
    exact List.cons_ne_nil z t
  simpa only [h, List.head_cons] using List.head_dropWhile_not p hne

/-- The loop's test looks at the starts of the lines. -/
theorem any_isFinalLine_lines (text : Bytes) : (lines text).any isFinalLine = scan true text := by
  induction text using lines.induct with
  | case1 => simp [lines, scan]
  | case2 x rest ih =>
    have hsplit := List.takeWhile_append_dropWhile (p := fun y => decide (y ≠ 10)) (l := x :: rest)
    have hline : 10 ∉ (x :: rest).takeWhile (· ≠ 10) := fun h => by
      simpa using List.mem_takeWhile_imp h
    rw [lines, List.any_cons, ih]
    generalize (x :: rest).takeWhile (· ≠ 10) = line at *
    have hstrip : isFinalLine (if line.getLast? = some 13 then line.dropLast else line) =
        startsFinal line := by
      rw [← isFinalLine_eq]
      split_ifs with hcr
      · obtain ⟨front, rfl⟩ := List.getLast?_eq_some_iff.1 hcr
        simp [isFinalLine, List.rdropWhile_concat_pos]
      · rfl
    rw [hstrip]
    cases hafter : (x :: rest).dropWhile (· ≠ 10) with
    | nil =>
      rw [hafter, List.append_nil] at hsplit
      rw [← hsplit, scan_of_notMem hline]
      simp [scan]
    | cons z after =>
      have hz : z = 10 := by simpa using head_of_dropWhile hafter
      subst hz
      rw [hafter] at hsplit
      rw [← hsplit, scan_line hline]
      rfl

/-! ## The lossy conversion -/

namespace LossyUtf8

variable (D : LossyUtf8)

/-- A text is read byte by byte where it is ASCII, and run by run where it is not. -/
theorem induction {motive : Bytes → Prop} (nil : motive [])
    (ascii : ∀ x s, x < 128 → D.decode (x :: s) = x :: D.decode s → motive s → motive (x :: s))
    (other : ∀ a s, a ≠ [] → (∀ x ∈ a, 128 ≤ x) → D.decode (a ++ s) = D.decode a ++ D.decode s →
      motive s → motive (a ++ s)) (s : Bytes) : motive s := by
  induction hn : s.length using Nat.strong_induction_on generalizing s with
  | _ n ih =>
    cases s with
    | nil => exact nil
    | cons x s =>
      rcases UInt8.lt_or_le x 128 with hx | hx
      · exact ascii x s hx (by simpa [D.decode_nil] using D.decode_ascii [] x s hx)
          (ih s.length (by simp at hn; omega) s rfl)
      · have hsplit :=
          List.takeWhile_append_dropWhile (p := fun y => decide (128 ≤ y)) (l := x :: s)
        have hrun : ∀ y ∈ (x :: s).takeWhile (128 ≤ ·), 128 ≤ y := fun y hy => by
          simpa using List.mem_takeWhile_imp hy
        have hne : (x :: s).takeWhile (128 ≤ ·) ≠ [] := by simp [hx]
        have hshort : ((x :: s).dropWhile (128 ≤ ·)).length < n := by
          have := congrArg List.length hsplit
          have := List.length_pos_iff.2 hne
          simp only [List.length_append] at *
          omega
        rw [← hsplit]
        refine other _ _ hne hrun ?_ (ih _ hshort _ rfl)
        cases hafter : (x :: s).dropWhile (128 ≤ ·) with
        | nil => simp [D.decode_nil]
        | cons z after =>
          have hz : z < 128 := by simpa using head_of_dropWhile hafter
          have htail : D.decode (z :: after) = z :: D.decode after := by
            simpa [D.decode_nil] using D.decode_ascii [] z after hz
          rw [D.decode_ascii _ z after hz, htail]

/-- No test that refuses the bytes above ASCII sees the conversion. -/
theorem startsWith_decode (hps : ∀ p ∈ ps, ∀ x, 128 ≤ x → p x = false) (s : Bytes) :
    startsWith ps (D.decode s) = startsWith ps s := by
  induction s using D.induction generalizing ps with
  | nil => rw [D.decode_nil]
  | ascii x s _ hdecode ih =>
    rw [hdecode]
    cases ps with
    | nil => rfl
    | cons p ps => simp only [startsWith, ih fun q hq => hps q (List.mem_cons_of_mem _ hq)]
  | other a s hne ha hdecode ih =>
    obtain ⟨hne', ha'⟩ := D.decode_other a hne ha
    have hrun : ∀ (b t : Bytes), b ≠ [] → (∀ x ∈ b, 128 ≤ x) →
        startsWith ps (b ++ t) = startsWith ps [] := by
      intro b t hb hhigh
      obtain ⟨y, b, rfl⟩ := List.exists_cons_of_ne_nil hb
      exact startsWith_append_cons (fun p hp => hps p hp y (hhigh y List.mem_cons_self)) [] _
    rw [hdecode, hrun _ _ hne' ha', hrun _ _ hne ha]

theorem scan_decode (start : Bool) (s : Bytes) : scan start (D.decode s) = scan start s := by
  have hhigh : ∀ p ∈ [isDigit, isDigit, isDigit, (· == 32)], ∀ x, 128 ≤ x → p x = false := by
    have hdigit : ∀ x : UInt8, 128 ≤ x → isDigit x = false := fun x hx => by
      have hgt : ¬x ≤ 57 := fun h => absurd (UInt8.le_trans hx h) (by decide)
      simp [isDigit, hgt]
    have hspace : ∀ x : UInt8, 128 ≤ x → ¬x = 32 := by
      rintro x hx rfl
      exact absurd hx (by decide)
    simpa using ⟨hdigit, hspace⟩
  have hstarts (s : Bytes) : startsFinal (D.decode s) = startsFinal s :=
    D.startsWith_decode hhigh s
  induction s using D.induction generalizing start with
  | nil => rw [D.decode_nil]
  | ascii x s _ hdecode ih => rw [scan, ← ih, ← hstarts (x :: s), hdecode, scan]
  | other a s hne ha hdecode ih =>
    have hrun : ∀ (b t : Bytes), b ≠ [] → (∀ x ∈ b, 128 ≤ x) →
        scan start (b ++ t) = scan false t := by
      intro b t hb hbytes
      obtain ⟨y, b, rfl⟩ := List.exists_cons_of_ne_nil hb
      have hlf : 10 ∉ y :: b := fun h => absurd (hbytes 10 h) (by decide)
      rw [List.mem_cons, not_or] at hlf
      have hstart : startsFinal (y :: (b ++ t)) = false :=
        startsWith_append_cons (fun p hp => hhigh p hp y (hbytes y List.mem_cons_self)) [] _
      rw [List.cons_append, scan, hstart]
      simp [Ne.symm hlf.1, scan_false_append hlf.2]
    obtain ⟨hne', ha'⟩ := D.decode_other a hne ha
    rw [hdecode, hrun _ _ hne' ha', hrun _ _ hne ha, ih]

theorem count_decode (s : Bytes) : (D.decode s).count 10 = s.count 10 := by
  induction s using D.induction with
  | nil => rw [D.decode_nil]
  | ascii x s _ hdecode ih => rw [hdecode, List.count_cons, List.count_cons, ih]
  | other a s hne ha hdecode ih =>
    have hnone : ∀ b : Bytes, (∀ x ∈ b, 128 ≤ x) → b.count 10 = 0 := fun b hb =>
      List.count_eq_zero.2 fun h => absurd (hb 10 h) (by decide)
    rw [hdecode, List.count_append, List.count_append, ih, hnone _ ha,
      hnone _ (D.decode_other a hne ha).2]

end LossyUtf8

/-! ## Replies -/

variable {continuation : List ReplyLine} {final : ReplyLine}

theorem ReplyLine.wire_eq (l : ReplyLine) (sep : UInt8) (hsep : sep ≠ 10) :
    ∃ a b c, isDigit a = true ∧ isDigit b = true ∧ isDigit c = true ∧
      l.wire sep = (a :: b :: c :: sep :: (l.text ++ [13])) ++ [10] ∧
      10 ∉ a :: b :: c :: sep :: (l.text ++ [13]) := by
  obtain ⟨status, text, ⟨hlen, hdigits⟩, hlf⟩ := l
  obtain ⟨a, b, c, rfl⟩ := List.length_eq_three.1 hlen
  have ha := hdigits a (by simp)
  have hb := hdigits b (by simp)
  have hc := hdigits c (by simp)
  refine ⟨a, b, c, ha, hb, hc, by simp [wire], ?_⟩
  have hne : ∀ d, isDigit d = true → (10 : UInt8) ≠ d := by rintro d hd rfl; cases hd
  simp [hne a ha, hne b hb, hne c hc, hsep.symm, hlf]

/-- A beginning of a reply has a final line as soon as it has the space of that line. -/
theorem scan_take_reply (continuation : List ReplyLine) (final : ReplyLine) (n : ℕ) :
    scan true ((reply continuation final).take n) =
      decide ((continuation.flatMap (·.wire 45)).length + 4 ≤ n) := by
  induction continuation generalizing n with
  | nil =>
    obtain ⟨a, b, c, ha, hb, hc, hwire, hlf⟩ := final.wire_eq 32 (by decide)
    simp only [reply, List.flatMap_nil, List.nil_append, hwire, List.length_nil, Nat.zero_add]
    match n with
    | 0 | 1 | 2 | 3 => simp_all [scan, startsFinal, startsWith]
    | n + 4 => simp [scan, startsFinal, startsWith, ha, hb, hc]
  | cons l continuation ih =>
    obtain ⟨a, b, c, ha, hb, hc, hwire, hlf⟩ := l.wire_eq 45 (by decide)
    have hstart : ∀ m, startsFinal ((a :: b :: c :: 45 :: (l.text ++ [13])).take m) = false := by
      intro m
      match m with
      | 0 | 1 | 2 | 3 => simp [startsFinal, startsWith]
      | m + 4 => simp [startsFinal, startsWith]
    have hsplit : reply (l :: continuation) final =
        (a :: b :: c :: 45 :: (l.text ++ [13])) ++ 10 :: reply continuation final := by
      simp [reply, hwire]
    have hlen : ((l :: continuation).flatMap (·.wire 45)).length =
        (a :: b :: c :: 45 :: (l.text ++ [13])).length + 1 +
          (continuation.flatMap (·.wire 45)).length := by
      simp [hwire]
      omega
    rw [hsplit, hlen]
    generalize a :: b :: c :: 45 :: (l.text ++ [13]) = body at *
    rcases Nat.lt_or_ge body.length n with hn | hn
    · obtain ⟨m, rfl⟩ := Nat.exists_eq_add_of_lt hn
      have htake : (body ++ 10 :: reply continuation final).take (body.length + m + 1) =
          body ++ 10 :: (reply continuation final).take m := by
        rw [Nat.add_assoc, List.take_length_add_append, List.take_succ_cons]
      have hbody := hstart body.length
      rw [List.take_length] at hbody
      rw [htake, scan_line hlf, ih, hbody, Bool.false_or]
      congr 1
      rw [eq_iff_iff]
      omega
    · rw [List.take_append_of_le_length hn,
        scan_of_notMem fun h => hlf (List.mem_of_mem_take h), hstart]
      simp only [Bool.false_eq, decide_eq_false_iff_not]
      omega

section

variable {D : LossyUtf8}

/-- Where the loop has not seen a final line yet, it returns the whole reply if and only if no read
but the last one gets to the space of the final line. -/
theorem readLoop_eq_iff (acc : Bytes) {reads : List Bytes}
    (hreply : acc ++ reads.flatten = reply continuation final) (hne : ∀ r ∈ reads, r ≠ [])
    (hacc : acc.length < (continuation.flatMap (·.wire 45)).length + 4) :
    readLoop D acc reads = reply continuation final ↔
      ∀ k < reads.length, acc.length + (reads.take k).flatten.length <
        (continuation.flatMap (·.wire 45)).length + 4 := by
  induction reads generalizing acc with
  | nil => simpa [readLoop] using hreply
  | cons c reads ih =>
    rw [List.forall_mem_cons] at hne
    rw [List.flatten_cons, ← List.append_assoc] at hreply
    have hsaw : sawFinal D (acc ++ c) =
        decide ((continuation.flatMap (·.wire 45)).length + 4 ≤ (acc ++ c).length) := by
      rw [sawFinal, any_isFinalLine_lines, D.scan_decode, ← scan_take_reply continuation final,
        ← hreply, List.take_left]
    rw [readLoop, if_neg hne.1, hsaw]
    by_cases hfinal : (continuation.flatMap (·.wire 45)).length + 4 ≤ (acc ++ c).length
    · rw [if_pos (decide_eq_true hfinal), ← hreply]
      constructor
      · -- the rest of the reply is empty, so this was the last read
        intro hlast
        have hnil : reads = [] := by
          cases reads with
          | nil => rfl
          | cons r reads =>
            have hflat := List.self_eq_append_right.1 hlast
            exact absurd (List.append_eq_nil_iff.1 hflat).1 (hne.2 r List.mem_cons_self)
        simpa [hnil] using hacc
      · intro hall
        cases reads with
        | nil => simp
        | cons r reads =>
          have hone := hall 1 (by simp)
          simp only [List.take_succ_cons, List.take_zero, List.flatten_cons, List.flatten_nil,
            List.append_nil, List.length_append] at hone hfinal
          omega
    · rw [if_neg (by simpa using hfinal), ih (acc ++ c) hreply hne.2 (Nat.lt_of_not_le hfinal)]
      constructor
      · rintro hall (_ | k) hk
        · simpa using hacc
        · have := hall k (by simpa using hk)
          simp only [List.take_succ_cons, List.flatten_cons, List.length_append] at *
          omega
      · intro hall k hk
        have := hall (k + 1) (by simpa using hk)
        simp only [List.take_succ_cons, List.flatten_cons, List.length_append] at *
        omega

theorem exists_readLoop (acc : Bytes) (reads : List Bytes) :
    ∃ rest, readLoop D acc reads ++ rest = acc ++ reads.flatten := by
  induction reads generalizing acc with
  | nil => exact ⟨[], by simp [readLoop]⟩
  | cons c reads ih =>
    rw [readLoop]
    split_ifs
    · exact ⟨c ++ reads.flatten, rfl⟩
    · exact ⟨reads.flatten, by simp⟩
    · obtain ⟨rest, hrest⟩ := ih (acc ++ c)
      exact ⟨rest, by simp [hrest]⟩

/-- However a reply is cut into reads, it is returned complete if and only if every read but the
last one ends before the fourth byte of the final line. -/
theorem control_reply_complete_iff {reads : List Bytes}
    (hreply : reads.flatten = reply continuation final) (hne : ∀ r ∈ reads, r ≠ []) :
    readControlReply D reads = D.decode (reply continuation final) ↔
      ∀ k < reads.length, (reads.take k).flatten.length <
        (continuation.flatMap (·.wire 45)).length + 4 := by
  have hloop := readLoop_eq_iff (D := D) [] hreply hne (by simp)
  simp only [List.length_nil, Nat.zero_add] at hloop
  rw [← hloop]
  refine ⟨fun h => ?_, fun h => by rw [readControlReply, h]⟩
  -- a reply that was cut short lacks the line feed at its end
  obtain ⟨rest, hrest⟩ := exists_readLoop (D := D) [] reads
  rw [List.nil_append, hreply] at hrest
  have hcount := congrArg (List.count 10) h
  rw [readControlReply, D.count_decode, D.count_decode, ← hrest, List.count_append] at hcount
  cases hend : rest.getLast? with
  | none =>
    rw [List.getLast?_eq_none_iff.1 hend, List.append_nil] at hrest
    exact hrest
  | some z =>
    obtain ⟨front, rfl⟩ := List.getLast?_eq_some_iff.1 hend
    have hreply' : reply continuation final =
        continuation.flatMap (·.wire 45) ++ final.status ++ 32 :: final.text ++ [13] ++ [10] := by
      simp [reply, ReplyLine.wire]
    obtain rfl : z = 10 := by
      rw [hreply', ← List.append_assoc] at hrest
      exact List.singleton_inj.1 (List.append_inj' hrest rfl).2
    simp at hcount

end

/-- A conversion that replaces every byte above ASCII. -/
def LossyUtf8.replacing : LossyUtf8 where
  decode bytes := bytes.flatMap fun x => if x < 128 then [x] else [0xef, 0xbf, 0xbd]
  decode_nil := rfl
  decode_ascii a x b hx := by simp [hx]
  decode_other a hne ha := by
    obtain ⟨x, a, rfl⟩ := List.exists_cons_of_ne_nil hne
    have hall : ∀ y ∈ x :: a, ¬y < 128 := fun y hy => UInt8.not_lt.2 (ha y hy)
    refine ⟨by simp [hall x List.mem_cons_self], fun y hy => ?_⟩
    obtain ⟨z, hz, hy⟩ := List.mem_flatMap.1 hy
    rw [if_neg (hall z hz)] at hy
    simp only [List.mem_cons, List.not_mem_nil, or_false] at hy
    rcases hy with rfl | rfl | rfl <;> decide

/-- `250 OK` -/
def okLine : ReplyLine := ⟨[50, 53, 48], [79, 75], by simp [isDigit], by simp⟩

/-- A reply that comes in one read. -/
theorem control_reply_complete_iff_of_one_read :
    readControlReply .replacing [reply [] okLine] = [50, 53, 48, 32, 79, 75, 13, 10] ∧
      ∀ k < 1, (([reply [] okLine].take k).flatten).length < 4 := by
  have hreply : [reply [] okLine].flatten = reply [] okLine := by simp
  have hiff := control_reply_complete_iff (D := .replacing) hreply (by decide)
  have hcut : ∀ k < 1, (([reply [] okLine].take k).flatten).length < 4 := by decide
  exact ⟨hiff.2 hcut, hcut⟩

/-- A first read that ends behind the space of the final line is taken for the whole reply. -/
theorem control_reply_cut_short :
    readControlReply .replacing [[50, 53, 48, 32], [79, 75, 13, 10]] = [50, 53, 48, 32] ∧
      [[50, 53, 48, 32], [79, 75, 13, 10]].flatten = reply [] okLine := by
  have hfirst : sawFinal .replacing [50, 53, 48, 32] = true := by
    rw [sawFinal, any_isFinalLine_lines, LossyUtf8.scan_decode]
    decide
  refine ⟨?_, by decide⟩
  simp only [readControlReply, readLoop, List.nil_append, hfirst]
  decide

end KyberPipe.Tor
