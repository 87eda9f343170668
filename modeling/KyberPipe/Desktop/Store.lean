import KyberPipe.Desktop.Watermark
import KyberPipe.Lib.Durable

/-!
# The session store of the desktop

`persist_all_ratchet_sessions` and `restore_all_ratchet_sessions` of `ratchet_store.rs` with the
two watermark tiers. Persisting is a program of file and keyring operations, so that a crash can
fall between any two of them.

JSON, hexadecimal texts and the AEAD over serialized snapshots come from other crates and are
parameters, collected in `StoreFormat`.
-/

namespace KyberPipe

variable {K C B W T : Type}

/-- The places where the store keeps its texts. -/
inductive Location where
  /-- `ratchet_sessions.json` -/
  | store
  /-- `ratchet_sessions.json.tmp` -/
  | tmp
  /-- `ratchet_sessions.json.bak` -/
  | bak
  /-- `ratchet_watermarks.json` -/
  | watermarks
  /-- The watermark entry of the OS keyring. -/
  | keyring
  deriving DecidableEq

/-- What the files and the keyring entry hold. -/
abbrev Disk (T : Type) := Storage Location T

/-- A program of file and keyring operations. -/
abbrev DiskScript (T : Type) := Script (Disk T) (StorageOp Location T)

/-- One persisted session: its nonce and its sealed snapshot, absent if the field is missing or
malformed. -/
structure StoreEntry (W : Type) where
  nonce : Option Nonce
  ciphertext : Option W
  deriving DecidableEq

/-- The persisted sessions by peer. -/
abbrev StoreMap (W : Type) := AList fun _ : String => StoreEntry W

/-- High-water marks by peer. -/
abbrev WatermarkMap := AList fun _ : String => Watermark

/-- A JSON object of watermarks: by peer the array of its elements, `none` for an element that
is not an unsigned number and for a value that is not an array. -/
abbrev WatermarkJson := AList fun _ : String => Option (List (Option ℕ))

/-- The encodings of the store over serialized snapshots `B`, sealed snapshots `W` and texts
`T`. -/
structure StoreFormat (K B W T : Type) extends SnapshotFormat K B where
  /-- The wrap key of a snapshot key, if that is valid hexadecimal. -/
  wrapKey : String → Option K
  /-- ChaCha20-Poly1305 over a serialized snapshot. -/
  wrap : K → Nonce → B → Option W
  /-- Open a sealed snapshot. -/
  unwrap : K → Nonce → W → Option B
  storeToText : StoreMap W → T
  storeOfText : T → Option (StoreMap W)
  watermarksToText : WatermarkJson → T
  watermarksOfText : T → Option WatermarkJson

/-- A map that is written is read back as `map'`: the same entries, in the order of the file. -/
def StoreFormat.ReadsBack (F : StoreFormat K B W T) (map map' : StoreMap W) : Prop :=
  F.storeOfText (F.storeToText map) = some map' ∧ ∀ peer, map'.lookup peer = map.lookup peer

/-- What is sealed opens again and what is written can be read back, if not in the same order. -/
structure StoreFormat.Lawful (F : StoreFormat K B W T) : Prop extends
    F.toSnapshotFormat.Lawful where
  unwrap_wrap : ∀ wk nonce blob, ∃ ct, F.wrap wk nonce blob = some ct ∧
    F.unwrap wk nonce ct = some blob
  storeOfText_toText : ∀ map, ∃ map', F.ReadsBack map map'
  watermarksOfText_toText : ∀ obj, ∃ obj', F.watermarksOfText (F.watermarksToText obj) = some obj' ∧
    ∀ peer, obj'.lookup peer = obj.lookup peer

/-! ## Watermarks -/

/-- The watermark of a JSON array. An array of three numbers is of epoch 0. -/
def parseWatermark : Option (List (Option ℕ)) → Option Watermark
  | some [some e, some g, some s, some r] => some ⟨e, g % 2 ^ 32, s, r⟩
  | some [some g, some s, some r] => some ⟨0, g % 2 ^ 32, s, r⟩
  | _ => none

/-- The watermarks of a JSON object. -/
def parseWatermarkMap (obj : WatermarkJson) : WatermarkMap :=
  AList.upsertFrom ∅ obj fun _ value _ => parseWatermark value

/-- The JSON array of a watermark. -/
def watermarkToJson (w : Watermark) : Option (List (Option ℕ)) :=
  some [some w.pairingEpoch, some w.ratchetGeneration, some w.sendMessageCount,
    some w.recvMessageCount]

namespace StoreFormat

variable (F : StoreFormat K B W T)

/-- The watermark of a serialized snapshot. -/
def snapshotWatermark (snap : B) : Option Watermark :=
  match ratchetSnapshotWatermark F.toSnapshotFormat snap with
  | .ok wm => wm
  | .error _ => none

/-- Merge the watermarks at a location into a map. -/
def mergeTier (d : Disk T) (tier : Location) (out : WatermarkMap) : WatermarkMap :=
  match (d tier).bind F.watermarksOfText with
  | none => out
  | some obj =>
    out.upsertFrom (parseWatermarkMap obj) fun _ wm high => some (mergeWatermark (high.getD ⊥) wm)

/-- The recorded watermarks: the keyring tier merged with the file tier. -/
def loadWatermarks (d : Disk T) : WatermarkMap :=
  F.mergeTier d .watermarks (F.mergeTier d .keyring ∅)

/-- Record watermarks in both tiers unless none of them moves. -/
def saveWatermarks (wms : WatermarkMap) : DiskScript T :=
  if wms.entries.isEmpty then .done
  else
    .inspect fun d =>
      let current := F.loadWatermarks d
      if wms.entries.all fun e => (current.lookup e.1).any fun c => !advances c e.2 then .done
      else
        let json := F.watermarksToText
          (AList.upsertFrom ∅ wms fun _ wm _ => some (watermarkToJson wm))
        .perform (.write .keyring json) fun _ => .perform (.write .watermarks json) fun _ => .done

/-! ## Persisting -/

/-- Every session, exported and sealed under a nonce of its own. -/
def sealedSessions (wk : K) (nonces : String → Nonce) (r : RatchetRegistry K C) : StoreMap W :=
  AList.upsertFrom ∅ r.sessions fun peer s _ =>
    (F.wrap wk (nonces peer) (F.toJson s.toSnapshot)).map fun ct => ⟨some (nonces peer), some ct⟩

/-- The recorded watermarks raised by those of the exported sessions. -/
def freshWatermarks (r : RatchetRegistry K C) (d : Disk T) : WatermarkMap :=
  (F.loadWatermarks d).upsertFrom r.sessions fun _ s high =>
    (F.snapshotWatermark (F.toJson s.toSnapshot)).map (mergeWatermark (high.getD ⊥))

/-- Put the temporary file in place of the store and go on with `advance`. If that fails, the
backup is put back. -/
def replaceStore (advance : DiskScript T) : DiskScript T :=
  .perform (.rename .tmp .store) fun renamed =>
    if renamed then advance else .perform (.rename .bak .store) fun _ => .done

/-- Rotate an existing store to the backup and replace it. -/
def rotateStore (advance : DiskScript T) : DiskScript T :=
  .inspect fun d =>
    if (d .store).isSome then
      .perform (.rename .store .bak) fun _ => replaceStore advance
    else replaceStore advance

/-- Remove what is left of the temporary file. -/
def removeTmp : DiskScript T := .perform (.remove .tmp) fun _ => .done

/-- Replace the store by a new text: write and sync a temporary file, rotate the old store to
the backup, rename, and remove what is left of the temporary file. -/
def writeStore (json : T) (advance : DiskScript T) : DiskScript T :=
  Script.andThen
    (.perform (.write .tmp json) fun written =>
      if written then
        .perform (.sync .tmp) fun synced => if synced then rotateStore advance else .done
      else .done)
    removeTmp

/-- Save every session, sealed with the wrap key of the snapshot key. `nonces` are the random
nonces of this write. -/
def persistAllRatchetSessions (snapshotKeyHex : String) (nonces : String → Nonce)
    (r : RatchetRegistry K C) : DiskScript T :=
  match F.wrapKey snapshotKeyHex with
  | none => .done
  | some wk =>
    if r.ratchetPeerIds.isEmpty then .done
    else
      .inspect fun d =>
        let map := F.sealedSessions wk nonces r
        let fresh := F.freshWatermarks r d
        if map.entries.isEmpty then .done
        else writeStore (F.storeToText map) (F.saveWatermarks fresh)

/-! ## Restoring -/

/-- The persisted sessions on disk. A store that does not parse is replaced by the backup; a
store that is missing is not. -/
def readStore (d : Disk T) : Option (StoreMap W) :=
  match d .store with
  | none => none
  | some data =>
    match F.storeOfText data with
    | some map => some map
    | none => (d .bak).bind F.storeOfText

/-- The serialized snapshot of an entry. -/
def openEntry (wk : K) (entry : StoreEntry W) : Option B := do
  let nonce ← entry.nonce
  let ct ← entry.ciphertext
  F.unwrap wk nonce ct

/-- Whether a serialized snapshot lies behind the recorded watermark of its peer. -/
def refused (watermarks : WatermarkMap) (peer : String) (snap : B) : Bool :=
  match F.snapshotWatermark snap with
  | none => false
  | some wm => (watermarks.lookup peer).any fun high => isRollback wm high

/-- Restore one entry and count it if its import succeeds. -/
def restoreEntry (wk : K) (watermarks : WatermarkMap) (now : Clock)
    (acc : ℕ × RatchetRegistry K C) (peer : String) (entry : StoreEntry W) :
    ℕ × RatchetRegistry K C :=
  match F.openEntry wk entry with
  | none => acc
  | some snap =>
    if F.refused watermarks peer snap then acc
    else
      match acc.2.ratchetImportSession F.toSnapshotFormat peer snap now with
      | .ok r => (acc.1 + 1, r)
      | .error _ => acc

/-- Restore the entries of a store one after the other. -/
def restoreEntries (wk : K) (watermarks : WatermarkMap) (now : Clock) (map : StoreMap W)
    (r : RatchetRegistry K C) : ℕ × RatchetRegistry K C :=
  map.entries.foldl (fun acc e => F.restoreEntry wk watermarks now acc e.1 e.2) (0, r)

/-- Restore every persisted session: the number of imports and the registry after them. -/
def restoreAllRatchetSessions (snapshotKeyHex : String) (now : Clock) (d : Disk T)
    (r : RatchetRegistry K C) : ℕ × RatchetRegistry K C :=
  match F.wrapKey snapshotKeyHex with
  | none => (0, r)
  | some wk =>
    match F.readStore d with
    | none => (0, r)
    | some map => F.restoreEntries wk (F.loadWatermarks d) now map r

end StoreFormat

end KyberPipe
