import KyberPipe.Desktop.PrivilegeTokens
import KyberPipe.Lib.Text

/-!
# Opening external URLs

`open_external_url` of `open.rs` hands a URL to the system opener if the user has confirmed it and
it is of one of three kinds, chosen by what stands before the first `://`. A mail link has no `://`,
so no kind is found for it. Base64, zlib, JSON and case tables are parameters.
-/

namespace KyberPipe

open Text

/-- The parts of other crates that the checks of a URL use. -/
structure UrlCodecs where
  caseMapping : Text.CaseMapping
  base64Decode : List Char → Option Bytes
  zlibDecode : Bytes → Option Bytes
  /-- The text values at the top level of a JSON document, by key. -/
  jsonTexts : Bytes → Option (String → Option String)

/-- An https URL with a host, without credentials, whitespace and control characters. -/
def validateHttpsUrl (url : List Char) : Bool :=
  match stripPrefix "https://".toList url with
  | none => false
  | some rest =>
    if rest.isEmpty || rest.contains '@' || rest.any isWhitespace ||
        rest.any isControl then
      false
    else !(rest.takeWhile (fun c => c ≠ '/' ∧ c ≠ '?' ∧ c ≠ '#')).isEmpty

/-- A mail link with an address. -/
def validateMailtoUrl (url : List Char) : Bool :=
  let addr := ((stripPrefix "mailto:".toList url).getD []).takeWhile (· ≠ '?')
  match addr.findIdx? (· == '@') with
  | some i => 0 < i && i < addr.length - 1 && (addr.drop (i + 1)).contains '.'
  | none => false

/-- Whether a text has a given number of characters, all of them hexadecimal digits. -/
def isHexOfLength (n : ℕ) (text : String) : Bool :=
  !text.isEmpty && text.utf8ByteSize == n &&
    text.toList.all fun c => c.isDigit || ('a' ≤ c ∧ c ≤ 'f') || ('A' ≤ c ∧ c ≤ 'F')

variable (X : UrlCodecs)

/-- The payload of a pairing link: a compressed document with a nonce and a certificate hash. -/
def validatePairingPayload (data : List Char) : Bool :=
  match X.base64Decode data with
  | none => false
  | some decoded =>
    match X.zlibDecode decoded with
    | none => false
    | some out =>
      match X.jsonTexts out with
      | none => false
      | some texts =>
        isHexOfLength 32 ((texts "pairing_nonce_hex").getD "") &&
          isHexOfLength 64 ((texts "server_cert_hash").getD "")

/-- A pairing link. -/
def validatePairingDeepLink (url : List Char) : Bool :=
  match stripPrefix "kyberpipe://".toList url with
  | none => false
  | some rest =>
    let host := rest.takeWhile (· ≠ '?')
    let query := (rest.dropWhile (· ≠ '?')).tail
    if host ≠ "pair".toList then false
    else
      let data := ((query.splitOn '&').findSome? (stripPrefix "data=".toList)).getD []
      if data.isEmpty then false else validatePairingPayload X data

/-- The part before the first `://`, in lower case. -/
def urlScheme (url : List Char) : List Char :=
  X.caseMapping.toLowercase (before "://".toList url)

/-- The check that the scheme selects. -/
def urlAllowed (url : List Char) : Bool :=
  if urlScheme X url = "https".toList then validateHttpsUrl url
  else if urlScheme X url = "mailto".toList then validateMailtoUrl url
  else if urlScheme X url = "kyberpipe".toList then validatePairingDeepLink X url
  else false

/-- What a call of `open_external_url` returns, what it hands to the system opener, and the queue
of tokens after it. -/
structure OpenOutcome where
  result : Except String Unit
  opened : Option String
  tokens : TokenState

/-- Open a URL. `spawn` is the result of starting the opener. -/
def openExternalUrl (s : TokenState) (delays : List ℕ) (spawn : Except String Unit)
    (url token : String) : OpenOutcome :=
  let (confirmed, s) := s.consumePrivilegeToken "open_external_url" token delays
  if !confirmed then
    ⟨.error "Opening external URLs requires a fresh user-gesture token", none, s⟩
  else if url.isEmpty || 2048 < url.length then
    ⟨.error "URL must be non-empty and bounded in length", none, s⟩
  else if !urlAllowed X url.toList then
    ⟨.error ("URL scheme/content not permitted (AUDIT F17 allowlist: https, mailto, " ++
      "kyberpipe://pair): " ++ String.ofList (urlScheme X url.toList)), none, s⟩
  else
    ⟨spawn.mapError ("Failed to open URL: " ++ ·), some url, s⟩

/-! ## The scheme of an accepted URL -/

section Scheme

variable {X} {url : List Char}

/-- The scheme of a URL that starts with letters and `://`. -/
theorem urlScheme_append {scheme rest : List Char} (hascii : ∀ c ∈ scheme, c.toNat < 128)
    (hcolon : ∀ c ∈ scheme, c ≠ ':') :
    urlScheme X (scheme ++ "://".toList ++ rest) = scheme.map Char.toLower := by
  have hbefore : before "://".toList (scheme ++ ("://".toList ++ rest)) = scheme := by
    rw [before_append_of_head_notMem (by decide) fun c hc h => hcolon c hc ?_]
    · show scheme ++ [] = scheme
      exact List.append_nil scheme
    · exact (Option.some_inj.1 h).symm
  have hlower := X.caseMapping.toLowercase_append_of_ascii hascii []
  rw [List.append_nil] at hlower
  rw [urlScheme, List.append_assoc, hbefore, hlower]
  exact List.append_nil _

theorem urlScheme_of_https (h : validateHttpsUrl url = true) :
    urlScheme X url = "https".toList := by
  unfold validateHttpsUrl at h
  cases hrest : stripPrefix "https://".toList url with
  | none =>
    rw [hrest] at h
    cases h
  | some rest =>
    rw [stripPrefix_eq_some.1 hrest]
    show urlScheme X ("https".toList ++ "://".toList ++ rest) = _
    exact urlScheme_append (by simp) (by simp)

theorem urlScheme_of_pairing (h : validatePairingDeepLink X url = true) :
    urlScheme X url = "kyberpipe".toList := by
  unfold validatePairingDeepLink at h
  cases hrest : stripPrefix "kyberpipe://".toList url with
  | none =>
    rw [hrest] at h
    cases h
  | some rest =>
    rw [stripPrefix_eq_some.1 hrest]
    show urlScheme X ("kyberpipe".toList ++ "://".toList ++ rest) = _
    exact urlScheme_append (by simp) (by simp)

theorem exists_of_mailto (h : validateMailtoUrl url = true) :
    ∃ rest, url = "mailto:".toList ++ rest := by
  unfold validateMailtoUrl at h
  cases hrest : stripPrefix "mailto:".toList url with
  | none =>
    rw [hrest] at h
    cases h
  | some rest => exact ⟨rest, stripPrefix_eq_some.1 hrest⟩

/-- A mail link without `://` right after its scheme keeps the colon and more in front of the first
`://`. -/
theorem exists_urlScheme_of_mailto {rest : List Char}
    (h : ¬"mailto://".toList <+: "mailto:".toList ++ rest) :
    ∃ more, urlScheme X ("mailto:".toList ++ rest) = "mailto:".toList ++ more := by
  have hcolon : before "://".toList (':' :: rest) = ':' :: before "://".toList rest := by
    rw [before, if_neg]
    rintro hpre
    obtain ⟨tail, htail⟩ := List.isPrefixOf_iff_prefix.1 hpre
    refine h ⟨tail, ?_⟩
    show "mailto".toList ++ ("://".toList ++ tail) = "mailto".toList ++ (':' :: rest)
    rw [htail]
  have hbefore : before "://".toList ("mailto".toList ++ (':' :: rest)) =
      "mailto:".toList ++ before "://".toList rest := by
    rw [before_append_of_head_notMem (by decide) (by simp), hcolon]
    rfl
  refine ⟨X.caseMapping.lowerFrom "mailto:".toList (before "://".toList rest), ?_⟩
  show X.caseMapping.toLowercase (before "://".toList ("mailto".toList ++ (':' :: rest))) = _
  rw [hbefore, X.caseMapping.toLowercase_append_of_ascii (by simp)]
  rfl

/-- A mail link is allowed just if `://` follows its scheme. -/
theorem urlAllowed_of_mailto (h : validateMailtoUrl url = true) :
    urlAllowed X url = true ↔ "mailto://".toList <+: url := by
  constructor
  · intro hallowed
    by_contra hpre
    obtain ⟨rest, rfl⟩ := exists_of_mailto h
    obtain ⟨more, hscheme⟩ := exists_urlScheme_of_mailto (X := X) hpre
    rw [urlAllowed, hscheme] at hallowed
    -- none of the three schemes has a colon as its seventh character
    have hne : ∀ scheme : List Char, scheme[6]? ≠ some ':' → "mailto:".toList ++ more ≠ scheme := by
      rintro scheme hseventh rfl
      exact hseventh rfl
    rw [if_neg (hne _ (by decide)), if_neg (hne _ (by decide)), if_neg (hne _ (by decide))]
      at hallowed
    cases hallowed
  · rintro ⟨rest, rfl⟩
    have hscheme : urlScheme X ("mailto".toList ++ "://".toList ++ rest) = "mailto".toList :=
      urlScheme_append (by simp) (by simp)
    show urlAllowed X ("mailto".toList ++ "://".toList ++ rest) = true
    rw [urlAllowed, hscheme, if_neg (by decide), if_pos rfl]
    exact h

/-- An allowed URL is accepted by the check of its scheme. -/
theorem accepted_of_urlAllowed (h : urlAllowed X url = true) :
    validateHttpsUrl url = true ∨ validateMailtoUrl url = true ∨
      validatePairingDeepLink X url = true := by
  unfold urlAllowed at h
  split_ifs at h
  · exact .inl h
  · exact .inr (.inl h)
  · exact .inr (.inr h)

theorem urlAllowed_of_https (h : validateHttpsUrl url = true) : urlAllowed X url = true := by
  rw [urlAllowed, urlScheme_of_https h, if_pos rfl]
  exact h

theorem urlAllowed_of_pairing (h : validatePairingDeepLink X url = true) :
    urlAllowed X url = true := by
  rw [urlAllowed, urlScheme_of_pairing h, if_neg (by decide), if_neg (by decide), if_pos rfl]
  exact h

end Scheme

/-- With a valid token, a URL of acceptable length is opened just if it is allowed. -/
theorem openExternalUrl_opened {s : TokenState} {delays : List ℕ} {spawn : Except String Unit}
    {url token : String} (hne : url ≠ "") (hlength : url.length ≤ 2048)
    (htoken : (s.consumePrivilegeToken "open_external_url" token delays).1 = true) :
    (openExternalUrl X s delays spawn url token).opened = some url ↔
      urlAllowed X url.toList = true := by
  have hbounded : ¬(url.isEmpty || decide (2048 < url.length)) = true := by
    rw [Bool.or_eq_true, String.isEmpty_iff, decide_eq_true_eq]
    rintro (hempty | hlong)
    · exact hne hempty
    · omega
  unfold openExternalUrl
  generalize s.consumePrivilegeToken "open_external_url" token delays = consumed at htoken ⊢
  obtain ⟨confirmed, after⟩ := consumed
  obtain rfl : confirmed = true := htoken
  dsimp only
  rw [if_neg (by decide), if_neg hbounded]
  cases hallowed : urlAllowed X url.toList with
  | false => simp
  | true => simp

/-- A URL is opened if and only if one of the three checks accepts it, just if it is not a mail
link without `//` after its scheme. -/
theorem url_dispatch_matches_checks (s : TokenState) (delays : List ℕ)
    (spawn : Except String Unit) (url token : String) (hne : url ≠ "")
    (hlength : url.length ≤ 2048)
    (htoken : (s.consumePrivilegeToken "open_external_url" token delays).1 = true) :
    ((openExternalUrl X s delays spawn url token).opened = some url ↔
        validateHttpsUrl url.toList = true ∨ validateMailtoUrl url.toList = true ∨
          validatePairingDeepLink X url.toList = true) ↔
      (validateMailtoUrl url.toList = true → "mailto://".toList <+: url.toList) := by
  rw [openExternalUrl_opened X hne hlength htoken]
  constructor
  · intro hmatches hmailto
    exact (urlAllowed_of_mailto hmailto).1 (hmatches.2 (.inr (.inl hmailto)))
  · intro hslashes
    refine ⟨accepted_of_urlAllowed, ?_⟩
    rintro (hhttps | hmailto | hpairing)
    · exact urlAllowed_of_https hhttps
    · exact (urlAllowed_of_mailto hmailto).2 (hslashes hmailto)
    · exact urlAllowed_of_pairing hpairing

/-- Codecs that decode nothing, with the case mapping of ASCII. -/
def plainCodecs : UrlCodecs where
  caseMapping := ⟨fun c => [c.toLower], fun _ _ => false, fun _ _ => rfl⟩
  base64Decode _ := none
  zlibDecode _ := none
  jsonTexts _ := none

/-- A queue with one token for opening a URL. -/
def oneToken : TokenState := ⟨[⟨"open_external_url", "00ff", 0⟩], 0⟩

theorem url_dispatch_matches_checks_https :
    (openExternalUrl plainCodecs oneToken [] (.ok ()) "https://example.com/" "00ff").opened =
        some "https://example.com/" ↔
      validateHttpsUrl "https://example.com/".toList = true ∨
        validateMailtoUrl "https://example.com/".toList = true ∨
          validatePairingDeepLink plainCodecs "https://example.com/".toList = true :=
  (url_dispatch_matches_checks plainCodecs oneToken [] (.ok ()) "https://example.com/" "00ff"
    (by decide) (by decide) (by decide +kernel)).2 fun h => absurd h (by decide +kernel)

/-- A mail link is accepted by its check and is not opened. -/
theorem mailto_not_opened :
    (oneToken.consumePrivilegeToken "open_external_url" "00ff" []).1 = true ∧
      validateMailtoUrl "mailto:user@example.com".toList = true ∧
      (openExternalUrl plainCodecs oneToken [] (.ok ()) "mailto:user@example.com" "00ff").opened =
        none := by
  decide +kernel

end KyberPipe
