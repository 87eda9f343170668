import KyberPipe.Crypto.Aead
import KyberPipe.Lib.Machine
import KyberPipe.Lib.Recent
import KyberPipe.Lib.Text
import Mathlib.Data.List.DropRight

/-!
# The clipboard deduplicator

`normalize_clipboard_text` and `ClipboardDeduplicator` of `utils.rs`. A text is normalised by line
endings and by the white space at its end, and the hashes of the last five texts are kept. SHA-256
is a parameter.

A text with CR CR LF inside keeps a CR LF and is changed by a second normalisation. A text that is
recorded again is not moved to the end of the history.
-/

namespace KyberPipe

open Text

namespace Clipboard

/-- `replace("\r\n", "\n")`. -/
def replaceCrlf : List Char → List Char
  | '\r' :: '\n' :: rest => '\n' :: replaceCrlf rest
  | c :: rest => c :: replaceCrlf rest
  | [] => []

variable (text : List Char)

/-- `str::trim_end`. -/
def trimEnd : List Char := text.rdropWhile isWhitespace

/-- `normalize_clipboard_text`. -/
def normalizeClipboardText (text : String) : String :=
  String.ofList (trimEnd (replaceCrlf text.toList))

/-- Every lone LF becomes CR LF. -/
def crlfLines : List Char → List Char
  | '\r' :: '\n' :: rest => '\r' :: '\n' :: crlfLines rest
  | '\n' :: rest => '\r' :: '\n' :: crlfLines rest
  | c :: rest => c :: crlfLines rest
  | [] => []

/-- A text with every lone LF rewritten to CR LF. -/
def crlfForm (text : String) : String := String.ofList (crlfLines text.toList)

/-! ### The normal form -/

variable {rest : List Char} {c : Char}

theorem replaceCrlf_cons (h : c = '\r' → rest.head? ≠ some '\n') :
    replaceCrlf (c :: rest) = c :: replaceCrlf rest := by
  refine replaceCrlf.eq_2 c rest ?_
  rintro rest' rfl rfl
  exact h rfl rfl

theorem head?_crlfLines_ne : (crlfLines text).head? ≠ some '\n' := by
  fun_cases crlfLines text with
  | case1 rest => simp
  | case2 rest => simp
  | case3 c rest hcrlf hlf => simpa using hlf
  | case4 => simp

theorem replaceCrlf_crlfLines : replaceCrlf (crlfLines text) = replaceCrlf text := by
  fun_induction crlfLines text with
  | case1 rest ih => rw [replaceCrlf, replaceCrlf, ih]
  | case2 rest ih =>
    have hne : '\n' ≠ '\r' := by decide
    rw [replaceCrlf, ih, replaceCrlf_cons fun h => absurd h hne]
  | case3 c rest hcrlf hlf ih =>
    rw [replaceCrlf_cons fun _ => head?_crlfLines_ne rest, ih, replaceCrlf_cons]
    rintro rfl hhead
    obtain ⟨rest', rfl⟩ := List.head?_eq_some_iff.1 hhead
    exact hcrlf rest' rfl rfl
  | case4 => rfl

theorem replaceCrlf_eq_self_iff : replaceCrlf text = text ↔ ¬['\r', '\n'] <:+: text := by
  fun_induction replaceCrlf text with
  | case1 rest ih =>
    refine iff_of_false (by simp) (not_not.2 ?_)
    exact (List.prefix_append ['\r', '\n'] rest).isInfix
  | case2 c rest hcrlf ih =>
    have hhead : ¬['\r', '\n'] <+: c :: rest := by
      rintro ⟨rest', heq⟩
      obtain ⟨rfl, rfl⟩ := List.cons.inj heq
      exact hcrlf rest' rfl rfl
    rw [List.infix_cons_iff, or_iff_right hhead, ← ih, List.cons_eq_cons, and_iff_right rfl]
  | case3 => simp

theorem getLast?_replaceCrlf : (replaceCrlf text).getLast? = text.getLast? := by
  fun_induction replaceCrlf text with
  | case1 rest ih => simp [List.getLast?_cons, ih]
  | case2 c rest hcrlf ih => rw [List.getLast?_cons, List.getLast?_cons, ih]
  | case3 => rfl

/-- What a text without white space at its end looks like does not change there. -/
theorem trimEnd_replaceCrlf_trimEnd :
    trimEnd (replaceCrlf (trimEnd text)) = replaceCrlf (trimEnd text) := by
  refine List.rdropWhile_eq_self_iff.2 fun hne hspace => ?_
  have hlast : (trimEnd text).getLast? = some ((replaceCrlf (trimEnd text)).getLast hne) := by
    rw [← getLast?_replaceCrlf, List.getLast?_eq_some_getLast hne]
  have hne' : trimEnd text ≠ [] := fun hnil => by simp [hnil] at hlast
  rw [List.getLast?_eq_some_getLast hne', Option.some.injEq] at hlast
  rw [← hlast] at hspace
  exact List.rdropWhile_last_not isWhitespace text hne' hspace

theorem mem_of_mem_replaceCrlf (h : c ∈ replaceCrlf text) : c ∈ text := by
  fun_induction replaceCrlf text with
  | case1 rest ih => grind
  | case2 d rest hcrlf ih => grind
  | case3 => exact h

/-- Behind anything but a CR the replacement starts afresh. -/
theorem replaceCrlf_append (back : List Char) (h : text.getLast? ≠ some '\r') :
    replaceCrlf (text ++ back) = replaceCrlf text ++ replaceCrlf back := by
  fun_induction replaceCrlf text with
  | case1 rest ih =>
    have hrest : rest.getLast? ≠ some '\r' := fun hcr => h (by simp [List.getLast?_cons, hcr])
    rw [List.cons_append, List.cons_append, replaceCrlf, ih hrest, List.cons_append]
  | case2 c rest hcrlf ih =>
    have hrest : rest.getLast? ≠ some '\r' := fun hcr => h (by simp [List.getLast?_cons, hcr])
    rw [List.cons_append, replaceCrlf_cons, ih hrest, List.cons_append]
    rintro rfl hlf
    cases rest with
    | nil => exact h rfl
    | cons d rest' => exact hcrlf rest' rfl (congrArg (· :: rest') (Option.some.inj hlf))
  | case3 => rfl

/-- The replacement does not change what is white space at the end. -/
theorem trimEnd_replaceCrlf : trimEnd (replaceCrlf text) = replaceCrlf (trimEnd text) := by
  have hsplit : text = trimEnd text ++ (text.reverse.takeWhile isWhitespace).reverse := by
    rw [trimEnd, List.rdropWhile, ← List.reverse_append, List.takeWhile_append_dropWhile,
      List.reverse_reverse]
  have hlast : (trimEnd text).getLast? ≠ some '\r' := by
    intro hcr
    have hne : trimEnd text ≠ [] := fun hnil => by simp [hnil] at hcr
    rw [List.getLast?_eq_some_getLast hne, Option.some.injEq] at hcr
    have hfull := List.rdropWhile_last_not isWhitespace text hne
    exact hfull ((congrArg isWhitespace hcr).trans rfl)
  have hblank : ∀ d ∈ (replaceCrlf (text.reverse.takeWhile isWhitespace).reverse).reverse,
      isWhitespace d = true := fun d hd =>
    List.mem_takeWhile_imp (List.mem_reverse.1 (mem_of_mem_replaceCrlf _ (List.mem_reverse.1 hd)))
  conv_lhs => rw [hsplit, replaceCrlf_append _ _ hlast, trimEnd, List.rdropWhile,
    List.reverse_append, List.dropWhile_append_of_pos hblank]
  exact trimEnd_replaceCrlf_trimEnd text

/-- The replacement begins with an LF exactly if the text begins with LF or CR LF. -/
theorem head?_replaceCrlf :
    (replaceCrlf text).head? = some '\n' ↔ text.head? = some '\n' ∨ ['\r', '\n'] <+: text := by
  fun_cases replaceCrlf text with
  | case1 rest => simp
  | case2 c rest hcrlf =>
    refine (or_iff_left ?_).symm
    rintro ⟨rest', heq⟩
    obtain ⟨rfl, rfl⟩ := List.cons.inj heq
    exact hcrlf rest' rfl rfl
  | case3 => simp

theorem crlf_prefix_cons : ['\r', '\n'] <+: c :: rest ↔ c = '\r' ∧ rest.head? = some '\n' := by
  rw [List.cons_prefix_cons, List.singleton_prefix_iff_head?_eq_some, eq_comm]

/-- A CR LF is left by the replacement exactly where a CR CR LF was. -/
theorem crlf_infix_replaceCrlf_iff :
    ['\r', '\n'] <:+: replaceCrlf text ↔ ['\r', '\r', '\n'] <:+: text := by
  fun_induction replaceCrlf text with
  | case1 rest ih => simp [List.infix_cons_iff, ih]
  | case2 c rest hcrlf ih =>
    rw [List.infix_cons_iff, List.infix_cons_iff, ih, crlf_prefix_cons, List.cons_prefix_cons,
      @eq_comm _ '\r' c]
    refine or_congr_left (and_congr_right fun hcr => ?_)
    subst hcr
    -- the LF behind the CR comes from a CR LF, as the CR stands before no LF
    rw [head?_replaceCrlf, or_iff_right]
    intro hlf
    obtain ⟨rest', rfl⟩ := List.head?_eq_some_iff.1 hlf
    exact hcrlf rest' rfl rfl
  | case3 => simp

/-- A second normalisation changes a text exactly if it has a CR CR LF before the white space at
its end. -/
theorem normalizeClipboardText_idem_iff (text : String) :
    normalizeClipboardText (normalizeClipboardText text) = normalizeClipboardText text ↔
      ¬['\r', '\r', '\n'] <:+: trimEnd text.toList := by
  have htoList : (normalizeClipboardText text).toList = replaceCrlf (trimEnd text.toList) := by
    rw [normalizeClipboardText, String.toList_ofList, trimEnd_replaceCrlf]
  rw [← crlf_infix_replaceCrlf_iff, ← replaceCrlf_eq_self_iff, ← String.toList_inj,
    normalizeClipboardText, String.toList_ofList, htoList, trimEnd_replaceCrlf,
    trimEnd_replaceCrlf_trimEnd]

theorem normalizeClipboardText_crlfForm (text : String) :
    normalizeClipboardText (crlfForm text) = normalizeClipboardText text := by
  rw [normalizeClipboardText, crlfForm, String.toList_ofList, replaceCrlf_crlfLines]
  rfl

/-! ### The deduplicator -/

/-- `max_history`. -/
def maxHistory : ℕ := 5

/-- `hash_clipboard_text`. -/
def hashClipboardText (sha256 : Bytes → Bytes) (text : String) : String :=
  Hex.encode (sha256 (utf8 (normalizeClipboardText text)))

/-- `ClipboardDeduplicator`. -/
structure ClipboardDeduplicator where
  history : List String := []
  isProcessingRemoteUpdate : Bool := false

/-- What can happen to a deduplicator. The mutex makes each of them one step. -/
inductive ClipboardEvent where
  /-- `record_text` -/
  | recordText (text : String)
  /-- `check_and_record` -/
  | checkAndRecord (text : String)
  /-- `is_suppressed` -/
  | isSuppressed (text : String)
  /-- The start of `with_remote_update`. -/
  | acquireRemoteUpdate
  /-- The drop of `RemoteUpdateGuard`. -/
  | dropRemoteUpdate

/-- The text that an event records. -/
def ClipboardEvent.recorded : ClipboardEvent → Option String
  | .recordText text => some text
  | .checkAndRecord text => some text
  | _ => none

namespace ClipboardDeduplicator

variable (sha256 : Bytes → Bytes) (d : ClipboardDeduplicator)

/-- `is_suppressed`. -/
def isSuppressed (text : String) : Bool :=
  if d.isProcessingRemoteUpdate then true
  else d.history.any (· == hashClipboardText sha256 text)

/-- `record_text`. -/
def recordText (text : String) : ClipboardDeduplicator :=
  let hash := hashClipboardText sha256 text
  if d.history.contains hash then d
  else
    let kept := if d.history.length ≥ maxHistory then d.history.tail else d.history
    { d with history := kept ++ [hash] }

/-- `check_and_record`: whether the text was newly recorded. -/
def checkAndRecord (text : String) : Bool × ClipboardDeduplicator :=
  let hash := hashClipboardText sha256 text
  if d.history.any (· == hash) then (false, d)
  else
    let kept := if d.history.length ≥ maxHistory then d.history.tail else d.history
    (true, { d with history := kept ++ [hash] })

/-- A deduplicator under calls from any threads. -/
def machine : Machine ClipboardDeduplicator ClipboardEvent Bool where
  step d
    | .recordText text => (true, d.recordText sha256 text)
    | .checkAndRecord text => d.checkAndRecord sha256 text
    | .isSuppressed text => (d.isSuppressed sha256 text, d)
    | .acquireRemoteUpdate =>
      (!d.isProcessingRemoteUpdate, { d with isProcessingRemoteUpdate := true })
    | .dropRemoteUpdate => (true, { d with isProcessingRemoteUpdate := false })

/-- The hashes that a sequence of events records. -/
def recordedHashes (events : List ClipboardEvent) : List String :=
  (events.filterMap ClipboardEvent.recorded).map (hashClipboardText sha256)

theorem history_recordText (text : String) :
    (d.recordText sha256 text).history =
      Recent.push maxHistory d.history (hashClipboardText sha256 text) := by
  unfold recordText Recent.push
  simp only [List.contains_iff_mem, ge_iff_le]
  split_ifs <;> rfl

theorem checkAndRecord_snd (text : String) :
    (d.checkAndRecord sha256 text).2 = d.recordText sha256 text := by
  unfold checkAndRecord recordText
  dsimp only
  rw [List.any_beq']
  split_ifs <;> rfl

variable {d}

/-- One step pushes the hash of the recorded text, if there is one. -/
theorem history_step (event : ClipboardEvent) :
    ((machine sha256).step d event).2.history =
      (recordedHashes sha256 [event]).foldl (Recent.push maxHistory) d.history := by
  cases event with
  | recordText text => exact history_recordText sha256 d text
  | checkAndRecord text =>
    exact (congrArg history (checkAndRecord_snd sha256 d text)).trans
      (history_recordText sha256 d text)
  | isSuppressed text => rfl
  | acquireRemoteUpdate => rfl
  | dropRemoteUpdate => rfl

/-- A run pushes the hashes of the recorded texts in their order. -/
theorem history_run (d : ClipboardDeduplicator) (events : List ClipboardEvent) :
    ((machine sha256).run d events).2.history =
      (recordedHashes sha256 events).foldl (Recent.push maxHistory) d.history := by
  induction events generalizing d with
  | nil => rfl
  | cons event events ih =>
    have hsplit : recordedHashes sha256 (event :: events) =
        recordedHashes sha256 [event] ++ recordedHashes sha256 events := by
      rw [recordedHashes, ← List.singleton_append, List.filterMap_append, List.map_append]
      rfl
    rw [Machine.run_cons_snd, ih, hsplit, List.foldl_append, history_step]

theorem isSuppressed_of_mem {text : String}
    (h : hashClipboardText sha256 text ∈ d.history) : d.isSuppressed sha256 text = true := by
  unfold isSuppressed
  split_ifs
  · rfl
  · exact List.any_eq_true.2 ⟨_, h, beq_self_eq_true _⟩

/-- A text that was stored is suppressed as long as fewer than five other hashes are recorded. -/
theorem mem_history_run {event : ClipboardEvent} {text : String}
    (hevent : event.recorded = some text) (hnew : hashClipboardText sha256 text ∉ d.history)
    {since : List ClipboardEvent}
    (hfew : ((recordedHashes sha256 since).toFinset.erase
      (hashClipboardText sha256 text)).card < maxHistory) :
    hashClipboardText sha256 text ∈ ((machine sha256).run d (event :: since)).2.history := by
  have hone : recordedHashes sha256 [event] = [hashClipboardText sha256 text] := by
    rw [recordedHashes, List.filterMap_cons_some hevent]
    rfl
  rw [Machine.run_cons_snd, history_run, history_step, hone]
  exact Recent.mem_foldl_push hnew hfew

end ClipboardDeduplicator

open ClipboardDeduplicator in
/-- The normalisation is idempotent on a text exactly if no CR CR LF stands before a character other
than white space, and does not tell LF and CR LF apart. A stored text is suppressed in its CR LF
form as long as fewer than five other distinct texts are recorded, and in its normalised form if it
has no such CR CR LF. -/
theorem clipboard_normal_form (sha256 : Bytes → Bytes) :
    (∀ text, normalizeClipboardText (normalizeClipboardText text) = normalizeClipboardText text ↔
        ¬['\r', '\r', '\n'] <:+: trimEnd text.toList) ∧
      (∀ text, normalizeClipboardText (crlfForm text) = normalizeClipboardText text) ∧
      ∀ (d : ClipboardDeduplicator) (event : ClipboardEvent) (text : String)
        (since : List ClipboardEvent), event.recorded = some text →
        hashClipboardText sha256 text ∉ d.history →
        ((recordedHashes sha256 since).toFinset.erase
          (hashClipboardText sha256 text)).card < maxHistory →
        (((machine sha256).run d (event :: since)).2.isSuppressed sha256 (crlfForm text) ∧
          (¬['\r', '\r', '\n'] <:+: trimEnd text.toList →
            ((machine sha256).run d (event :: since)).2.isSuppressed sha256
              (normalizeClipboardText text))) := by
  refine ⟨normalizeClipboardText_idem_iff, normalizeClipboardText_crlfForm, ?_⟩
  intro d event text since hevent hnew hfew
  have hmem := mem_history_run sha256 hevent hnew hfew
  constructor
  · refine isSuppressed_of_mem sha256 ?_
    rwa [hashClipboardText, normalizeClipboardText_crlfForm]
  · intro hcrlf
    refine isSuppressed_of_mem sha256 ?_
    rwa [hashClipboardText, (normalizeClipboardText_idem_iff text).2 hcrlf]

open ClipboardDeduplicator in
/-- A text of two lines, after four other texts. -/
theorem clipboard_normal_form_two_lines :
    let since := [.recordText "1", .checkAndRecord "2", .recordText "3", .recordText "4"]
    let d := ((machine id).run {} (.recordText "a\nb " :: since)).2
    d.isSuppressed id (crlfForm "a\nb ") ∧ d.isSuppressed id (normalizeClipboardText "a\nb ") :=
  ((clipboard_normal_form id).2.2 {} (.recordText "a\nb ") "a\nb "
    [.recordText "1", .checkAndRecord "2", .recordText "3", .recordText "4"] rfl
    (by decide +kernel) (by decide +kernel)).imp_right fun h => h (by decide +kernel)

open ClipboardDeduplicator in
/-- The normalisation of CR CR LF is normalised further, and not suppressed. A text that is recorded
a second time is pushed out by one more text. -/
theorem clipboard_normal_form_fails :
    normalizeClipboardText "a\r\r\nb" = "a\r\nb" ∧ normalizeClipboardText "a\r\nb" = "a\nb" ∧
      (((machine id).run {} [.recordText "a\r\r\nb"]).2.isSuppressed id "a\r\nb" = false) ∧
      (((machine id).run {} [.recordText "t", .recordText "1", .recordText "2", .recordText "3",
        .recordText "4", .recordText "t", .recordText "5"]).2.isSuppressed id "t" = false) := by
  decide +kernel

end Clipboard

end KyberPipe
