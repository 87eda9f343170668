import KyberPipe.Pairing.Request

/-!
# The SAS confirmation

`perform_sas_confirmation` as a sequence of critical sections, in the manner of
`KyberPipe.Pairing.Request`. The confirmation installs the session key, the ratchet session, the
key handle and the certificate one after the other, and an error in between undoes nothing.
-/

namespace KyberPipe

variable {K C : Type}

/-- A SAS confirmation as the window asks for it. -/
structure ConfirmCall where
  verifiedSas : String
  pairedName : String
  /-- Whether the server can be bound again. -/
  bindable : Bool := true
  deriving DecidableEq

/-- What the ratchet session of the phone is started from. -/
structure SessionSeed where
  peerId : String
  sharedSecret : Bytes
  peerMlkem : Bytes := []
  peerX25519 : Bytes := []
  deriving DecidableEq

/-- The program points of `perform_sas_confirmation`. -/
inductive ConfirmPoint where
  /-- `get_sas_attempt_count` -/
  | count
  /-- `clear_all_pairing` after too many attempts. -/
  | clear
  /-- `increment_sas_attempt_count` -/
  | increment
  /-- `get_pairing_read` -/
  | read
  /-- `set_pending_session_key` with an empty key. -/
  | takeKey (key : String)
  /-- `set_session_key` -/
  | sessionKey (key : String)
  /-- `store_session_key_to_keyring` -/
  | keyring (key : String)
  /-- `get_pending_shared_secret` -/
  | sharedSecret (key : String)
  /-- `get_pairing_initiator_pk`, for the name of the peer. -/
  | peerId (key : String) (secretHex : String)
  /-- `get_pairing_initiator_pk`, for the ML-KEM key of the peer. -/
  | peerMlkem (key : String) (seed : SessionSeed)
  /-- `get_pairing_initiator_x25519_pk` -/
  | peerX25519 (key : String) (seed : SessionSeed)
  /-- `get_keypair` -/
  | keypair (key : String) (seed : SessionSeed)
  /-- `ratchet_remove_session` -/
  | removeSession (key : String) (seed : SessionSeed) (pair : HybridKeyPair)
  /-- `ratchet_init_session_with_keypair_impl` -/
  | initSession (key : String) (seed : SessionSeed) (pair : HybridKeyPair)
  /-- `session_key_create` -/
  | createHandle (keyBytes : Bytes)
  /-- `session_key_pin` -/
  | pinHandle (handle : ℕ)
  /-- The store to `DESKTOP_SESSION_KEY_HANDLE`. -/
  | storeHandle (handle : ℕ)
  /-- `get_pending_client_cert_hash` -/
  | certificate
  /-- `set_paired_client_cert_hash` -/
  | pairedCertificate (cert : String)
  /-- `get_pairing_initiator_pk`, for the route of the certificate. -/
  | routedPeer (cert : String)
  /-- `register_peer_cert_mapping` -/
  | route (cert : String) (peerId : String)
  /-- `identity_snapshot` of `persist_pairing_identity`. -/
  | identity (cert : String)
  /-- The settings part of `persist_pairing_identity`. -/
  | persist (cert : String) (identity : PairingState)
  /-- `set_pinned_client_cert`, the pin. -/
  | pinCertificate (cert : String)
  /-- `set_pinned_client_cert`, the allowlist. -/
  | allowPinned (cert : String)
  /-- `register_allowed_client_cert` -/
  | allow (cert : String)
  /-- `rebind_server` -/
  | rebind
  /-- `confirm_pairing` -/
  | confirm
  /-- The settings after the pairing. -/
  | settings
  /-- `reset_sas_attempt_count` -/
  | resetCount
  | returned (result : Except String String)

/-- What a confirmation has compared and promoted so far. -/
structure Promotion where
  comparedSas : Option String := none
  sessionKey : Option String := none
  session : Option SessionSeed := none
  certificate : Option String := none
  /-- The ratchet peer that the certificate is routed to. -/
  routedPeer : Option String := none
  /-- The public keys of the phone that are written to the settings. -/
  persistedKeys : Option (String × String) := none
  deriving DecidableEq

/-- A running confirmation. -/
structure ConfirmThread where
  call : ConfirmCall
  point : ConfirmPoint
  promoted : Promotion := {}

/-- A confirmation before its first section. -/
def ConfirmCall.thread (call : ConfirmCall) : ConfirmThread := ⟨call, .count, {}⟩

namespace ConfirmPoint

/-- The result at the end of the confirmation. -/
def result : ConfirmPoint → Option (Except String String)
  | returned result => some result
  | _ => none

/-- The checks of the typed SAS. -/
def afterRead (verifiedSas storedSas pendingKey : String) : ConfirmPoint :=
  if storedSas = "" then
    .returned (.error "No pending pairing SAS code found. Initiate pairing first.")
  else if storedSas ≠ verifiedSas then .returned (.error "SAS code mismatch. Pairing rejected.")
  else if pendingKey = "" then
    .returned (.error "No pending session key. Initiate pairing first.")
  else .takeKey pendingKey

/-- The creation of a key handle, which is skipped for a key that is not hexadecimal. -/
def afterSession (key : String) : ConfirmPoint :=
  match Hex.decode key with
  | some (b :: bytes) => .createHandle (b :: bytes)
  | _ => .certificate

/-- The ratchet session is only started for a known peer and a readable secret. -/
def afterPeerId (key secretHex peerId : String) : ConfirmPoint :=
  if peerId = "" then afterSession key
  else
    match Hex.decode secretHex with
    | none => afterSession key
    | some secret => .peerMlkem key { peerId, sharedSecret := secret }

end ConfirmPoint

/-- A key of the peer, if there is one. -/
def SessionSeed.optional (bytes : Bytes) : Option Bytes :=
  if bytes.isEmpty then none else some bytes

/-- Start the ratchet session with the key pair of the desktop, which plays the initiator. -/
def SessionSeed.initSession (P : Primitives K C) (seed : SessionSeed) (pair : HybridKeyPair)
    (map : RatchetSessionMap K C) : Except KyberError (RatchetSessionMap K C) :=
  map.ratchetInitSessionWithKeypair P seed.peerId seed.sharedSecret true pair
    (SessionSeed.optional seed.peerX25519) (SessionSeed.optional seed.peerMlkem)

/-- One critical section of `perform_sas_confirmation`, with what it promotes. -/
def confirmStep (P : PairingPrimitives K C) (s : AppState K C) (call : ConfirmCall)
    (promoted : Promotion) :
    ConfirmPoint → Option PairingEvent × AppState K C × ConfirmPoint × Promotion
  | .count => (none, s, if 3 ≤ s.pairing.attemptCount then .clear else .increment, promoted)
  | .clear =>
    (some .pairingCleared, s.onPairing (·.clearAllPairing),
      .returned (.error "Too many SAS attempts. Re-initiate pairing."), promoted)
  | .increment => (none, s.onPairing (·.incrementSasAttemptCount), .read, promoted)
  | .read =>
    let stored := s.pairing.sasCode
    (if stored = "" then none else some (.sasCompared stored call.verifiedSas), s,
      .afterRead call.verifiedSas stored s.pairing.pendingSessionKey,
      { promoted with comparedSas := if stored = "" then none else some stored })
  | .takeKey key =>
    (none, s.onPairing ({ · with pendingSessionKey := "" }), .sessionKey key, promoted)
  | .sessionKey key =>
    (none, { s with sessionKey := key }, .keyring key, { promoted with sessionKey := some key })
  | .keyring key =>
    (none, { s with keyring := s.keyring.storeSessionKey key }, .sharedSecret key, promoted)
  | .sharedSecret key =>
    let secretHex := s.pairing.pendingSharedSecret
    (none, s, if secretHex = "" then .certificate else .peerId key secretHex, promoted)
  | .peerId key secretHex =>
    (none, s, .afterPeerId key secretHex s.pairing.initiatorPk, promoted)
  | .peerMlkem key seed =>
    (none, s,
      .peerX25519 key { seed with peerMlkem := (Hex.decode s.pairing.initiatorPk).getD [] },
      promoted)
  | .peerX25519 key seed =>
    (none, s,
      .keypair key { seed with peerX25519 := (Hex.decode s.pairing.initiatorX25519Pk).getD [] },
      promoted)
  | .keypair key seed =>
    (none, s, s.keypair.elim (.returned (.error <|
          "No local pairing keypair registered — cannot initialize the ratchet session. " ++
            "Generate a pairing keypair first, then re-pair."))
        (.removeSession key seed),
      promoted)
  | .removeSession key seed pair =>
    (none, s.removeSession seed.peerId, .initSession key seed pair, promoted)
  | .initSession key seed pair =>
    match seed.initSession P.toPrimitives pair s.sessions with
    | .error e =>
      (none, s, .returned (.error
          (s!"Failed to initialize ratchet session for peer {seed.peerId}: {e.display}" ++
            " — re-pair required")),
        promoted)
    | .ok sessions =>
      (none, { s with sessions := sessions }, .afterSession key,
        { promoted with session := some seed })
  | .createHandle keyBytes =>
    let r := s.sessionKeys.sessionKeyCreate P.keyFingerprint keyBytes
    (none, { s with sessionKeys := r.2 },
      match r.1 with
      | .error e =>
        .returned (.error s!"Failed to create session key handle: {e.display} — re-pair required")
      | .ok 0 =>
        .returned (.error
          "Session key handle creation returned the reserved handle 0 — re-pair required")
      | .ok handle => .pinHandle handle,
      promoted)
  | .pinHandle handle =>
    (none, { s with sessionKeys := s.sessionKeys.sessionKeyPin handle }, .storeHandle handle,
      promoted)
  | .storeHandle handle => (none, { s with sessionKeyHandle := handle }, .certificate, promoted)
  | .certificate =>
    let cert := s.pairing.pendingClientCertHash
    (none, s, if cert = "" then .confirm else .pairedCertificate cert, promoted)
  | .pairedCertificate cert =>
    (none, s.onPairing ({ · with pairedClientCertHash := cert }), .routedPeer cert,
      { promoted with certificate := some cert })
  | .routedPeer cert =>
    let peerId := s.pairing.initiatorPk
    (none, s, if peerId = "" then .identity cert else .route cert peerId, promoted)
  | .route cert peerId =>
    (none, s.onPairing (·.registerPeerCertMapping peerId cert), .identity cert,
      { promoted with routedPeer := some peerId })
  | .identity cert => (none, s, .persist cert s.pairing, promoted)
  | .persist cert identity =>
    (none,
      { s with
        settings :=
          { s.settings with
            pairedClientCertHash := identity.pairedClientCertHash
            pairingInitiatorPk := identity.initiatorPk
            pairingInitiatorX25519Pk := identity.initiatorX25519Pk
            peerCertRatchetMap := identity.peerByCertHash } },
      .pinCertificate cert,
      { promoted with persistedKeys := some (identity.initiatorPk, identity.initiatorX25519Pk) })
  | .pinCertificate cert =>
    (none, { s with quic := s.quic.recordPinnedClientCert cert }, .allowPinned cert, promoted)
  | .allowPinned cert =>
    (none, { s with quic := s.quic.registerAllowedClientCert cert }, .allow cert, promoted)
  | .allow cert =>
    (none, { s with quic := s.quic.registerAllowedClientCert cert }, .rebind, promoted)
  | .rebind => (none, { s with quic := s.quic.rebindServer call.bindable }, .confirm, promoted)
  | .confirm => (none, s.onPairing (·.confirmPairing), .settings, promoted)
  | .settings =>
    (none,
      { s with
        settings :=
          { s.settings with isPaired := true, pairedDeviceName := some call.pairedName } },
      .resetCount, promoted)
  | .resetCount =>
    (none, s.onPairing ({ · with attemptCount := 0 }), .returned (.ok "Paired successfully"),
      promoted)
  | .returned result => (none, s, .returned result, promoted)

/-- `perform_sas_confirmation` for one call. -/
def performSasConfirmation (P : PairingPrimitives K C) (call : ConfirmCall) :
    Program (AppState K C) (ConfirmPoint × Promotion) (Option PairingEvent) where
  step s p := confirmStep P s call p.2 p.1

end KyberPipe
