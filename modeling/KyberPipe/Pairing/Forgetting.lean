import KyberPipe.Desktop.Removal
import KyberPipe.Pairing.Unpair

/-!
# Two ways to forget a phone

A phone is forgotten when it unpairs itself (`handle_unpair`) and when the user of the desktop
deletes the connection (`delete_connection`). Both end the pairing and clear the ratchet store. Only
the first also wipes the keyring, the key pair, the handles, the other sessions and keys, and the
pin of a trusted server.
-/

namespace KyberPipe

open Symbolic StorageOp

variable {K C B W T : Type}

/-- The entries of the OS keyring besides the session key and the ratchet watermark. -/
inductive KeyringName where
  | masterIdentityKey
  | snapshotKey
  | pairingKeypair
  | beaconSigningSk
  | beaconSigningPk
  | torOnionKey
  | torOnionClientAuth
  | serverTlsKey
  /-- The pin in the service `kyberpipe-tofu`. -/
  | serverCertHash
  deriving DecidableEq

/-- The entries that `wipe_keyring_entries` deletes, besides the session key and the watermark. -/
def wipedEntries : List KeyringName :=
  [.masterIdentityKey, .snapshotKey, .pairingKeypair, .beaconSigningSk, .beaconSigningPk,
    .torOnionKey, .serverTlsKey, .serverCertHash]

/-- What the desktop holds of its phones: the pairing state, the registries of the core, the
keyring and the files. -/
structure Holdings (K C T : Type) where
  app : AppState K C
  /-- `PAIRING_KEYPAIR` -/
  pairingKeypair : Option HybridKeyPair := none
  keypairHandles : AList (fun _ : ℕ => HybridKeyPair) := ∅
  kemHandles : AList (fun _ : ℕ => Bytes) := ∅
  isSessionKeyAuthenticated : Bool := false
  /-- `TRUSTED_SERVER_PIN` -/
  trustedServerPin : Option String := none
  entries : KeyringName → Option String := fun _ => none
  /-- The key files of the beacon, from before it used the keyring. -/
  beaconKeyFiles : Option Bytes × Option Bytes := (none, none)
  /-- The ratchet store, with its keyring entry. -/
  disk : Disk T := fun _ => none

namespace Holdings

variable (h : Holdings K C T)

/-- `clear_pq_pairing_registry` -/
def clearPqPairingRegistry : Holdings K C T :=
  { h with
    app := h.app.clearPqPairingRegistry
    pairingKeypair := none
    keypairHandles := ∅
    kemHandles := ∅ }

def destroyAllPqKeypairHandles : Holdings K C T := { h with keypairHandles := ∅ }

def destroyAllKemHandles : Holdings K C T := { h with kemHandles := ∅ }

/-- Delete entries of the keyring. Errors are ignored. -/
def deleteEntries (names : List KeyringName) : Holdings K C T :=
  if h.app.keyring.available then
    { h with entries := fun name => if name ∈ names then none else h.entries name }
  else h

/-- `wipe_keyring_entries` -/
def wipeKeyringEntries : Holdings K C T :=
  let h := h.deleteEntries wipedEntries
  { h with
    app := { h.app with keyring := h.app.keyring.wipe }
    disk := if h.app.keyring.available then Function.update h.disk .keyring none else h.disk
    beaconKeyFiles := (none, none) }

/-- `store_tofu_cert_hash` with an empty hash. -/
def clearTofuCertHash : Holdings K C T :=
  { h with trustedServerPin := none }.deleteEntries [.serverCertHash]

/-- `clear_ratchet_store` -/
def clearStore : Holdings K C T :=
  { h with disk := StoreFormat.clearRatchetStore.complete apply h.disk }

/-- `handle_unpair` -/
def handleUnpair (F : StoreFormat K B W T) (peerCertHash peerIp : String) : Holdings K C T :=
  if !h.app.peerIsAuthorized peerCertHash peerIp then h
  else
    let peerId := h.app.pairing.resolvePeerForCertHash peerCertHash
    if h.app.sessionKey = "" ∧ peerId = "" then h
    else
      let isPrimary := h.app.isPrimary peerCertHash
      let h :=
        { h with
          app := h.app.removePeer peerId peerCertHash
          disk := (F.removeRatchetSessionForPeer peerId).complete apply h.disk }
      if isPrimary then
        let h := h.clearPqPairingRegistry.destroyAllPqKeypairHandles.destroyAllKemHandles
        let h := { h with app := h.app.endPairing, isSessionKeyAuthenticated := false }
        h.wipeKeyringEntries.clearTofuCertHash.clearStore
      else h

/-- `delete_connection`, with a valid confirmation token. -/
def deleteConnection : Holdings K C T :=
  { h with app := h.app.deleteConnection, isSessionKeyAuthenticated := false }.clearStore

/-- The desktop holds nothing but what belongs to the phone of the current pairing, and no keys
outside of its session and its session key. -/
structure OnlyPrimary (h : Holdings K C T) : Prop where
  sessions : ∀ peer ≠ h.app.pairing.initiatorPk, h.app.sessions.lookup peer = none
  sessionKeys : h.app.destroySessionKeyHandle.sessionKeys = h.app.sessionKeys.sessionKeyDestroyAll
  pairingKeypair : h.pairingKeypair = none
  keypairHandles : h.keypairHandles = ∅
  kemHandles : h.kemHandles = ∅
  trustedServerPin : h.trustedServerPin = none
  keyring : h.app.keyring.available = true →
    h.app.keyring.sessionKey = none ∧ ∀ name ∈ wipedEntries, h.entries name = none
  beaconKeyFiles : h.beaconKeyFiles = (none, none)

end Holdings

theorem StoreFormat.complete_clearRatchetStore (d : Disk T) :
    clearRatchetStore.complete apply d = fun _ => none := by
  have hremove : ∀ (loc : Location) (rest : DiskScript T) (d : Disk T),
      (Script.perform (.remove loc) fun _ => rest).complete apply d =
        rest.complete apply (Function.update d loc none) := by
    intro loc rest d
    cases hloc : d loc with
    | none =>
      have hsame : Function.update d loc none = d := by
        rw [← hloc, Function.update_eq_self]
      simp only [Script.complete, apply, hloc, Option.map_none, hsame]
    | some text => simp only [Script.complete, apply, hloc, Option.map_some]
  rw [clearRatchetStore, hremove, hremove, hremove, hremove, hremove, Script.complete]
  funext loc
  cases loc <;> rfl

theorem SessionRegistry.sessionKeyDestroy_destroyAll (reg : SessionRegistry) (handle : ℕ) :
    reg.sessionKeyDestroyAll.sessionKeyDestroy handle = reg.sessionKeyDestroyAll := rfl

theorem PairingState.clearAllPairing_removePeerCertMapping (p : PairingState) (cert : String) :
    (p.removePeerCertMapping cert).clearAllPairing = p.clearAllPairing := by
  unfold removePeerCertMapping
  split_ifs <;> rfl

/-- Ending a pairing after the registry was cleared. -/
theorem AppState.endPairing_clearPqPairingRegistry (s : AppState K C) (peerId cert : String) :
    (s.removePeer peerId cert).clearPqPairingRegistry.endPairing =
      { s.endPairing with
        sessions := ∅
        sessionKeys := s.sessionKeys.sessionKeyDestroyAll } := by
  unfold removePeer
  simp only [endPairing, clearPqPairingRegistry, destroySessionKeyHandle, onPairing, removeSession,
    clearPersistedPairingIdentity, SessionRegistry.sessionKeyDestroy_destroyAll]
  split_ifs <;> simp only [PairingState.clearAllPairing_removePeerCertMapping]

namespace Holdings

variable {h : Holdings K C T} {cert ip : String}

theorem deleteEntries_eq (h : Holdings K C T) (names : List KeyringName) :
    h.deleteEntries names =
      { h with
        entries := fun name =>
          if h.app.keyring.available = true ∧ name ∈ names then none else h.entries name } := by
  unfold deleteEntries
  split_ifs with havailable
  · simp only [havailable, true_and]
  · simp [havailable]

/-- The pairing state sees the unpairing of `AppState`. -/
theorem handleUnpair_app (h : Holdings K C T) (F : StoreFormat K B W T) (cert ip : String) :
    (h.handleUnpair F cert ip).app = h.app.handleUnpair cert ip := by
  simp only [handleUnpair, AppState.handleUnpair, wipeKeyringEntries, clearTofuCertHash, clearStore,
    deleteEntries_eq]
  split_ifs <;> rfl

/-- What is left after the phone of the current pairing has unpaired itself. -/
theorem handleUnpair_of_primary (F : StoreFormat K B W T)
    (hauth : h.app.peerIsAuthorized cert ip = true) (hprimary : h.app.isPrimary cert = true) :
    h.handleUnpair F cert ip =
      { app :=
          { h.app.endPairing with
            sessions := ∅
            sessionKeys := h.app.sessionKeys.sessionKeyDestroyAll
            keyring := h.app.keyring.wipe }
        entries := fun name =>
          if h.app.keyring.available = true ∧ name ∈ wipedEntries then none
          else h.entries name } := by
  have hpeer : h.app.pairing.resolvePeerForCertHash cert ≠ "" := by
    simp only [AppState.isPrimary, Bool.and_eq_true, bne_iff_ne] at hprimary
    exact hprimary.1
  have hsession : ¬(h.app.sessionKey = "" ∧ h.app.pairing.resolvePeerForCertHash cert = "") :=
    fun hnone => hpeer hnone.2
  simp only [handleUnpair, hauth, Bool.not_true, Bool.false_eq_true, if_false, if_neg hsession,
    hprimary, if_true]
  have happ := h.app.endPairing_clearPqPairingRegistry
    (h.app.pairing.resolvePeerForCertHash cert) cert
  have hkeyring : h.app.endPairing.keyring = h.app.keyring := rfl
  simp only [clearPqPairingRegistry, destroyAllPqKeypairHandles, destroyAllKemHandles, happ,
    wipeKeyringEntries, clearTofuCertHash, clearStore, deleteEntries_eq,
    StoreFormat.complete_clearRatchetStore, hkeyring]
  congr 1
  funext name
  have havailable : h.app.keyring.wipe.available = h.app.keyring.available := by
    unfold Keyring.wipe
    split_ifs <;> rfl
  have hwiped : name ∈ [KeyringName.serverCertHash] → name ∈ wipedEntries := by
    intro hname
    rw [List.mem_singleton.1 hname]
    decide
  -- the pin is among the wiped entries, so deleting it again changes nothing
  rw [havailable]
  split_ifs with hpin hboth
  · rfl
  · exact absurd ⟨hpin.1, hwiped hpin.2⟩ hboth
  · rfl
  · rfl

theorem deleteConnection_eq (h : Holdings K C T) :
    h.deleteConnection =
      { h with
        app :=
          { h.app.endPairing with
            sessions :=
              if h.app.pairing.initiatorPk = "" then h.app.sessions
              else h.app.sessions.erase h.app.pairing.initiatorPk }
        isSessionKeyAuthenticated := false
        disk := fun _ => none } := by
  unfold deleteConnection clearStore
  rw [StoreFormat.complete_clearRatchetStore]
  simp only [AppState.deleteConnection]
  split_ifs <;> rfl

/-- Both ways to forget the phone of the current pairing leave the same behind exactly if the
desktop held nothing beside what belongs to that phone. -/
theorem deleteConnection_eq_handleUnpair_iff (F : StoreFormat K B W T)
    (hauth : h.app.peerIsAuthorized cert ip = true) (hprimary : h.app.isPrimary cert = true) :
    h.deleteConnection = h.handleUnpair F cert ip ↔ h.OnlyPrimary := by
  have hpk : h.app.pairing.initiatorPk ≠ "" := by
    simp only [AppState.isPrimary, Bool.and_eq_true, bne_iff_ne, beq_iff_eq] at hprimary
    exact hprimary.2 ▸ hprimary.1
  rw [deleteConnection_eq, handleUnpair_of_primary F hauth hprimary, if_neg hpk]
  constructor
  · intro hsame
    have hsessions : h.app.sessions.erase h.app.pairing.initiatorPk = ∅ :=
      congrArg (·.app.sessions) hsame
    have hkeyring : h.app.keyring = h.app.keyring.wipe := congrArg (·.app.keyring) hsame
    refine
      { sessions := fun peer hpeer => ?_
        sessionKeys := congrArg (·.app.sessionKeys) hsame
        pairingKeypair := congrArg (·.pairingKeypair) hsame
        keypairHandles := congrArg (·.keypairHandles) hsame
        kemHandles := congrArg (·.kemHandles) hsame
        trustedServerPin := congrArg (·.trustedServerPin) hsame
        keyring := fun havailable => ⟨?_, fun name hname => ?_⟩
        beaconKeyFiles := congrArg (·.beaconKeyFiles) hsame }
    · rw [← AList.lookup_erase_ne hpeer, hsessions, AList.lookup_empty]
    · rw [hkeyring, Keyring.wipe, if_pos havailable]
    · have hentry := congrFun (congrArg (·.entries) hsame) name
      exact hentry.trans (if_pos ⟨havailable, hname⟩)
  · intro honly
    have hsessions : h.app.sessions.erase h.app.pairing.initiatorPk = ∅ := by
      refine AList.eq_empty_of_lookup_eq_none fun peer => ?_
      by_cases hpeer : peer = h.app.pairing.initiatorPk
      · rw [hpeer, AList.lookup_erase]
      · rw [AList.lookup_erase_ne hpeer, honly.sessions peer hpeer]
    have hkeyring : h.app.keyring.wipe = h.app.keyring := by
      unfold Keyring.wipe
      split_ifs with havailable
      · rw [← (honly.keyring havailable).1]
      · rfl
    -- entries outside the wipe list stay in any case
    have hentries : (fun name =>
        if h.app.keyring.available = true ∧ name ∈ wipedEntries then none else h.entries name) =
          h.entries := by
      funext name
      split_ifs with hwiped
      · exact ((honly.keyring hwiped.1).2 name hwiped.2).symm
      · rfl
    rw [hsessions, hkeyring, hentries, ← honly.sessionKeys]
    simp only [honly.pairingKeypair, honly.keypairHandles, honly.kemHandles,
      honly.trustedServerPin, honly.beaconKeyFiles]
    rfl

/-- A desktop with one phone and no keyring entries. -/
def bare : Holdings Symbolic.Key Symbolic.Ciphertext Symbolic.FileText where
  app :=
    { pairing := { initiatorPk := "aa", pairedClientCertHash := "cc" }
      sessionKey := "5e"
      sessions := AList.singleton "aa" initiator
      limiter := { floor := 0, windowStart := 0 } }

/-- There, both ways leave the same. -/
theorem deleteConnection_eq_handleUnpair_bare :
    bare.deleteConnection = bare.handleUnpair storeFormat "cc" "" := by
  refine (deleteConnection_eq_handleUnpair_iff storeFormat (by decide) (by decide)).2 ?_
  refine ⟨fun peer hpeer => ?_, rfl, rfl, rfl, rfl, rfl, fun _ => ⟨rfl, fun _ _ => rfl⟩, rfl⟩
  exact List.dlookup_cons_ne _ _ hpeer

/-- The desktop after its first pairing, with a snapshot key and with a registered key pair. -/
def firstPhone : Holdings Symbolic.Key Symbolic.Ciphertext Symbolic.FileText where
  app := firstPaired
  pairingKeypair := some responderPair
  entries := fun name => if name = .snapshotKey then some "5a" else none

/-- Unpairing wipes the session key and the snapshot key from the keyring and clears the registered
key pair. Deleting the connection leaves all three. -/
theorem deleteConnection_leaves_keys :
    let cert := phoneCert 3
    let deleted := firstPhone.deleteConnection
    let unpaired := firstPhone.handleUnpair storeFormat cert ""
    firstPhone.app.peerIsAuthorized cert "" = true ∧ firstPhone.app.isPrimary cert = true ∧
      (deleted.app.keyring.sessionKey.isSome = true ∧ unpaired.app.keyring.sessionKey = none) ∧
      (deleted.entries .snapshotKey = some "5a" ∧ unpaired.entries .snapshotKey = none) ∧
      (deleted.pairingKeypair.isSome = true ∧ unpaired.pairingKeypair.isSome = false) := by
  decide +kernel

end Holdings

end KyberPipe
