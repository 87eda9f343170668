import KyberPipe.Pairing.Streams
import KyberPipe.Pairing.Symbolic

/-!
# Unpairing and the TLS allowlist

`handle_unpair` removes the session of a phone, and for the phone of the current pairing all that
the desktop knows about it. It touches neither the admitted client certificates of `quic_app` nor
the running endpoint, so the verifier stays the one that was built when the endpoint was bound.
-/

namespace KyberPipe

variable {K C : Type}

/-- Delete the session key entry. Errors are ignored. -/
def Keyring.wipe (k : Keyring) : Keyring := if k.available then { k with sessionKey := none } else k

/-- Put the identity of a paired phone back. An empty text leaves its slot as it is. -/
def PairingState.restoreIdentity (p : PairingState)
    (pairedClientCertHash initiatorPk initiatorX25519Pk : String)
    (peerByCertHash : AList (fun _ : String => String)) : PairingState :=
  let kept (old new : String) : String := if new = "" then old else new
  { p with
    pairedClientCertHash := kept p.pairedClientCertHash pairedClientCertHash
    initiatorPk := kept p.initiatorPk initiatorPk
    initiatorX25519Pk := kept p.initiatorX25519Pk initiatorX25519Pk
    peerByCertHash }

namespace AppState

variable (s : AppState K C)

/-! ### Unpairing -/

/-- Whether a peer may unpair itself: by its certificate, or by the address that was paired. -/
def peerIsAuthorized (peerCertHash peerIp : String) : Bool :=
  s.pairing.isAuthorizedPeerCert peerCertHash ||
    (s.pairing.pairedPeerIp != "" && peerIp == s.pairing.pairedPeerIp)

/-- Whether a certificate belongs to the phone of the current pairing. -/
def isPrimary (peerCertHash : String) : Bool :=
  let peerId := s.pairing.resolvePeerForCertHash peerCertHash
  peerId != "" && peerId == s.pairing.initiatorPk

/-- Clear the persisted identity of the paired phone. -/
def clearPersistedPairingIdentity : AppState K C :=
  { s with
    settings :=
      { s.settings with
        pairedClientCertHash := ""
        pairingInitiatorPk := ""
        pairingInitiatorX25519Pk := ""
        peerCertRatchetMap := ∅ } }

/-- What every unpairing removes: the session of the peer and the route of its certificate. -/
def removePeer (peerId peerCertHash : String) : AppState K C :=
  let s := if peerId = "" then s else s.removeSession peerId
  s.onPairing (·.removePeerCertMapping peerCertHash)

/-- Destroy the key handle of the session and forget its number. -/
def destroySessionKeyHandle : AppState K C :=
  { s with
    sessionKeyHandle := 0
    sessionKeys :=
      if s.sessionKeyHandle = 0 then s.sessionKeys
      else s.sessionKeys.sessionKeyDestroy s.sessionKeyHandle }

/-- What `clear_pq_pairing_registry` does to the sessions and the session keys: it wipes all of
them, not only those of the phone. -/
def clearPqPairingRegistry : AppState K C :=
  { s with sessions := ∅, sessionKeys := s.sessionKeys.sessionKeyDestroyAll }

/-- The end of the current pairing: its key, its slots and the settings. -/
def endPairing : AppState K C :=
  let s := s.destroySessionKeyHandle
  let s := { s with sessionKey := "" }.onPairing (·.clearAllPairing)
  { s with
    settings := { s.settings with isPaired := false, pairedDeviceName := none } }
    |>.clearPersistedPairingIdentity

/-- `handle_unpair` -/
def handleUnpair (peerCertHash peerIp : String) : AppState K C :=
  if !s.peerIsAuthorized peerCertHash peerIp then s
  else
    let peerId := s.pairing.resolvePeerForCertHash peerCertHash
    if s.sessionKey = "" ∧ peerId = "" then s
    else
      let isPrimary := s.isPrimary peerCertHash
      let s := s.removePeer peerId peerCertHash
      if isPrimary then
        let s := s.clearPqPairingRegistry.endPairing
        { s with keyring := s.keyring.wipe }
      else s

/-- `delete_connection`, which the user of the desktop calls. -/
def deleteConnection : AppState K C :=
  let peerId := s.pairing.initiatorPk
  let s := if peerId = "" then s else s.removeSession peerId
  s.endPairing

/-! ### The process of the desktop -/

/-- Restore the paired identity from the settings and admit its certificates. -/
def restorePairingIdentity : AppState K C :=
  let stored := s.settings
  if stored.pairedClientCertHash = "" then s
  else
    { s with
      pairing := stored.peerCertRatchetMap.entries.foldl
        (fun p entry => p.registerPeerCertMapping entry.2 entry.1)
        (s.pairing.restoreIdentity stored.pairedClientCertHash stored.pairingInitiatorPk
          stored.pairingInitiatorX25519Pk stored.peerCertRatchetMap)
      quic := stored.peerCertRatchetMap.keys.foldl QuicApp.registerAllowedClientCert
        ((s.quic.setPinnedClientCert stored.pairedClientCertHash).registerAllowedClientCert
          stored.pairedClientCertHash) }

/-- A new process over the stored settings: it restores the identity, and then it binds the
server if it can. -/
def startProcess (bindable : Bool) : AppState K C :=
  let s := { s with pairing := {}, quic := {} }.restorePairingIdentity
  { s with quic := s.quic.bindServer bindable }

end AppState

/-- What happens in a process of the desktop. -/
inductive ProcessEvent where
  /-- A pairing thread takes a turn. -/
  | turn (thread : ℕ)
  /-- A phone unpairs itself. -/
  | unpair (peerCertHash peerIp : String)
  /-- The user of the desktop deletes the connection. -/
  | deleteConnection
  deriving DecidableEq

/-- A process of the desktop with its pairing threads. -/
def desktopProcess (P : PairingPrimitives K C) :
    Machine (Pool (AppState K C) PairingThread) ProcessEvent Unit where
  step pool
    | .turn thread => ((), ((pairingProgram P).machine.step pool thread).2)
    | .unpair peerCertHash peerIp =>
      ((), { pool with shared := pool.shared.handleUnpair peerCertHash peerIp })
    | .deleteConnection => ((), { pool with shared := pool.shared.deleteConnection })

/-- A phone with a client certificate can start a pairing: the running endpoint accepts the
certificate, the stream is authorized, and no check of the desktop state refuses the request. -/
structure AppState.AdmitsPairing (s : AppState K C) (certHash : String) : Prop where
  tls : ∃ v, s.quic.endpoint = some v ∧ v.verifyCert certHash = true
  stream : s.authorizeStream certHash .pairing = .ok ()
  phase : s.pairing.phase.midFlight = false
  pending : s.pairing.isPairingPending = false

/-! ### The verifier of the running endpoint -/

/-- A verifier that was built from a set of certificates accepts these, and all if there are
none. -/
theorem verifyCert_configureQuicServer (admitted : Finset String) (certHash : String) :
    (configureQuicServer admitted).verifyCert certHash = true ↔
      admitted = ∅ ∨ certHash ∈ admitted := by
  by_cases hempty : admitted = ∅
  · simp [configureQuicServer, PinnedCertVerifier.verifyCert, hempty]
  · simp [configureQuicServer, PinnedCertVerifier.verifyCert, hempty]

namespace QuicApp

/-- The verifier of the running endpoint was built from a set of certificates. -/
def Configured (q : QuicApp) : Prop :=
  ∀ v, q.endpoint = some v → ∃ admitted, v = configureQuicServer admitted

variable {q : QuicApp}

theorem registerAllowedClientCert_endpoint (q : QuicApp) (hash : String) :
    (q.registerAllowedClientCert hash).endpoint = q.endpoint := by
  unfold registerAllowedClientCert
  split_ifs <;> rfl

theorem recordPinnedClientCert_endpoint (q : QuicApp) (hash : String) :
    (q.recordPinnedClientCert hash).endpoint = q.endpoint := by
  unfold recordPinnedClientCert
  split_ifs <;> rfl

theorem Configured.of_endpoint_eq {q' : QuicApp} (h : q.Configured)
    (hsame : q'.endpoint = q.endpoint) : q'.Configured := by
  intro v hv
  exact h v (hsame ▸ hv)

theorem Configured.bindServer (h : q.Configured) (available : Bool) :
    (q.bindServer available).Configured := by
  unfold QuicApp.bindServer
  split_ifs
  · intro v hv
    exact ⟨q.allowedClientCerts, (Option.some.inj hv).symm⟩
  · exact h

theorem Configured.rebindServer (h : q.Configured) (available : Bool) :
    (q.rebindServer available).Configured := by
  unfold QuicApp.rebindServer
  split_ifs
  · exact h
  · have hclosed : Configured { q with endpoint := none } := fun v hv =>
      absurd hv (Option.some_ne_none v).symm
    exact hclosed.bindServer available

end QuicApp

section Process

variable (P : PairingPrimitives K C)

theorem requestStep_quic (s : AppState K C) (call : PairingCall) (point : RequestPoint) :
    (requestStep P s call point).2.1.quic = s.quic := by
  cases point <;> rfl

theorem timeoutStep_quic (s : AppState K C) (index : ℕ) (point : TimeoutPoint) :
    (timeoutStep s index point).1.quic = s.quic := by
  cases point with
  | generation =>
    simp only [timeoutStep]
    split
    · rfl
    · rfl
  | _ => rfl

/-- A confirmation only changes the endpoint when it binds the server again. -/
theorem confirmStep_configured {s : AppState K C} (h : s.quic.Configured) (call : ConfirmCall)
    (promoted : Promotion) (point : ConfirmPoint) :
    (confirmStep P s call promoted point).2.1.quic.Configured := by
  cases point with
  | initSession key seed pair =>
    simp only [confirmStep]
    split
    · exact h
    · exact h
  | pinCertificate cert => exact h.of_endpoint_eq (s.quic.recordPinnedClientCert_endpoint cert)
  | allowPinned cert => exact h.of_endpoint_eq (s.quic.registerAllowedClientCert_endpoint cert)
  | allow cert => exact h.of_endpoint_eq (s.quic.registerAllowedClientCert_endpoint cert)
  | rebind => exact h.rebindServer call.bindable
  | _ => exact h

theorem configured_of_turn {pool : Pool (AppState K C) PairingThread}
    (h : pool.shared.quic.Configured) (thread : ℕ) :
    ((pairingProgram P).machine.step pool thread).2.shared.quic.Configured := by
  cases hthread : pool.threads[thread]? with
  | none => rwa [Program.machine_step_of_none hthread]
  | some t =>
    rw [Program.machine_step_of_some hthread]
    cases t with
    | request t => exact h.of_endpoint_eq (congrArg _ (requestStep_quic P _ t.call t.point))
    | confirm t => exact confirmStep_configured P h t.call t.promoted t.point
    | timeout index point => exact h.of_endpoint_eq (congrArg _ (timeoutStep_quic _ index point))
    | issue nonce issued =>
      cases issued with
      | false => exact h
      | true => exact h
    | forget forgotten =>
      cases forgotten with
      | false => exact h
      | true => exact h

section

variable (s : AppState K C)

/-- Nothing that ends a pairing touches the TLS side of the server. -/
theorem AppState.endPairing_quic : s.endPairing.quic = s.quic := rfl

theorem AppState.removePeer_quic (peerId cert : String) :
    (s.removePeer peerId cert).quic = s.quic := by
  unfold removePeer
  split_ifs <;> rfl

theorem AppState.handleUnpair_quic (cert ip : String) : (s.handleUnpair cert ip).quic = s.quic := by
  simp only [handleUnpair]
  split_ifs
  · rfl
  · rfl
  · exact (endPairing_quic _).trans (s.removePeer_quic _ cert)
  · exact s.removePeer_quic _ cert

theorem AppState.deleteConnection_quic : s.deleteConnection.quic = s.quic := by
  simp only [deleteConnection]
  split_ifs <;> rfl

/-- Restoring an identity admits certificates and leaves the endpoint alone. -/
theorem AppState.restorePairingIdentity_endpoint :
    s.restorePairingIdentity.quic.endpoint = s.quic.endpoint := by
  have hfold : ∀ (certs : List String) (q : QuicApp),
      (certs.foldl QuicApp.registerAllowedClientCert q).endpoint = q.endpoint := by
    intro certs
    induction certs with
    | nil => exact fun q => rfl
    | cons cert certs ih =>
      exact fun q => (ih _).trans (q.registerAllowedClientCert_endpoint cert)
  simp only [restorePairingIdentity]
  split_ifs
  · rfl
  · simp only [hfold, QuicApp.registerAllowedClientCert_endpoint, QuicApp.setPinnedClientCert,
      QuicApp.recordPinnedClientCert_endpoint]

theorem AppState.startProcess_configured (bindable : Bool) :
    (s.startProcess bindable).quic.Configured := by
  refine QuicApp.Configured.bindServer (fun v hv => ?_) bindable
  rw [restorePairingIdentity_endpoint] at hv
  exact absurd hv (Option.some_ne_none v).symm

end

/-- The verifier of the running endpoint is always one that `configure_quic_server` has built. -/
theorem configured_of_history (boot : AppState K C) (bindable : Bool)
    (threads : List PairingThread) (history : List ProcessEvent) :
    ((desktopProcess P).run ⟨boot.startProcess bindable, threads⟩ history).2.shared.quic.Configured
    := by
  refine Machine.run_invariant
    (fun pool : Pool (AppState K C) PairingThread => pool.shared.quic.Configured) ?_
    (boot.startProcess_configured bindable) history
  intro pool event h
  cases event with
  | turn thread => exact configured_of_turn P h thread
  | unpair cert ip =>
    exact h.of_endpoint_eq (congrArg _ (pool.shared.handleUnpair_quic cert ip))
  | deleteConnection => exact h.of_endpoint_eq (congrArg _ pool.shared.deleteConnection_quic)

end Process

/-! ### After the phone is unpaired -/

/-- Unpairing the phone of the current pairing leaves an idle desktop that is not paired. -/
theorem AppState.handleUnpair_primary {s : AppState K C} {cert ip : String}
    (hauth : s.peerIsAuthorized cert ip = true) (hprimary : s.isPrimary cert = true) :
    (s.handleUnpair cert ip).settings.isPaired = false ∧
      (s.handleUnpair cert ip).pairing.phase = .idle ∧
      (s.handleUnpair cert ip).pairing.sasCode = "" := by
  have hpeer : s.pairing.resolvePeerForCertHash cert ≠ "" := by
    simp only [isPrimary, Bool.and_eq_true, bne_iff_ne] at hprimary
    exact hprimary.1
  have hsession : ¬(s.sessionKey = "" ∧ s.pairing.resolvePeerForCertHash cert = "") :=
    fun h => hpeer h.2
  simp only [handleUnpair, hauth, Bool.not_true, Bool.false_eq_true, if_false, if_neg hsession,
    hprimary, if_true]
  exact ⟨rfl, rfl, rfl⟩

/-- After the primary phone was unpaired, in any history of the process, a phone can start a new
pairing exactly if its certificate, or none at all, was admitted when the running endpoint was
bound. -/
theorem admitsPairing_after_unpair_iff (P : PairingPrimitives K C) (boot : AppState K C)
    (bindable : Bool) (threads : List PairingThread) (history : List ProcessEvent)
    {s : AppState K C} {cert ip : String}
    (hs : s = ((desktopProcess P).run ⟨boot.startProcess bindable, threads⟩ history).2.shared)
    (hauth : s.peerIsAuthorized cert ip = true) (hprimary : s.isPrimary cert = true)
    (newCert : String) :
    (s.handleUnpair cert ip).AdmitsPairing newCert ↔
      ∃ admitted, s.quic.endpoint = some (configureQuicServer admitted) ∧
        (admitted = ∅ ∨ newCert ∈ admitted) := by
  have hconfigured : s.quic.Configured := hs ▸ configured_of_history P boot bindable threads history
  obtain ⟨hpaired, hphase, hsas⟩ := AppState.handleUnpair_primary hauth hprimary
  constructor
  · rintro ⟨⟨v, hv, haccepted⟩, -, -, -⟩
    rw [AppState.handleUnpair_quic] at hv
    obtain ⟨admitted, rfl⟩ := hconfigured v hv
    exact ⟨admitted, hv, (verifyCert_configureQuicServer admitted newCert).1 haccepted⟩
  · rintro ⟨admitted, hendpoint, hcert⟩
    refine ⟨⟨configureQuicServer admitted, ?_, ?_⟩, ?_, ?_, ?_⟩
    · rw [AppState.handleUnpair_quic]
      exact hendpoint
    · exact (verifyCert_configureQuicServer admitted newCert).2 hcert
    · simp [AppState.authorizeStream, hpaired]
    · rw [hphase]
      rfl
    · simp [PairingState.isPairingPending, hsas]

section Symbolic

open Symbolic

/-- The first phone is paired in a process that had no phone before. -/
def firstPairing : List PairingThread × List ProcessEvent :=
  ([.issue "0a" false, .request (phoneCall 3 "0a" 5).thread, .confirm rightConfirmation.thread],
    .turn 0 :: List.replicate 20 (.turn 1) ++ List.replicate 30 (.turn 2))

/-- The desktop after its first pairing. -/
def firstPaired : AppState Key Ciphertext :=
  ((desktopProcess pairingPrimitives).run
    ⟨(pairingDesktop "").startProcess true, firstPairing.1⟩ firstPairing.2).2.shared

/-- The phone that was unpaired can pair again. -/
theorem admitsPairing_of_old_phone :
    firstPaired.peerIsAuthorized (phoneCert 3) "" = true ∧
      firstPaired.isPrimary (phoneCert 3) = true ∧
      (firstPaired.handleUnpair (phoneCert 3) "").AdmitsPairing (phoneCert 3) := by
  have hstate : firstPaired.peerIsAuthorized (phoneCert 3) "" = true ∧
      firstPaired.isPrimary (phoneCert 3) = true ∧
      firstPaired.quic.endpoint = some (configureQuicServer {phoneCert 3}) := by
    decide +kernel
  obtain ⟨hauth, hprimary, hendpoint⟩ := hstate
  have hrun : firstPaired = ((desktopProcess pairingPrimitives).run
      ⟨(pairingDesktop "").startProcess true, firstPairing.1⟩ firstPairing.2).2.shared := by
    delta firstPaired
    rfl
  have hiff := admitsPairing_after_unpair_iff pairingPrimitives (pairingDesktop "") true
    firstPairing.1 firstPairing.2 hrun hauth hprimary (phoneCert 3)
  exact ⟨hauth, hprimary, hiff.2 ⟨_, hendpoint, .inr (Finset.mem_singleton_self _)⟩⟩

/-- A new phone is turned away by TLS after the first phone was unpaired, although the desktop is
not paired any more. -/
theorem new_phone_rejected_after_unpair :
    let s := firstPaired.handleUnpair (phoneCert 3) ""
    firstPaired.settings.isPaired = true ∧
      firstPaired.peerIsAuthorized (phoneCert 3) "" = true ∧
      firstPaired.isPrimary (phoneCert 3) = true ∧ s.settings.isPaired = false ∧
      s.authorizeStream (phoneCert 4) .pairing = .ok () ∧
      s.quic.endpoint.isSome = true ∧
      s.quic.endpoint.all (fun v => v.verifyCert (phoneCert 4)) = false := by
  decide +kernel

end Symbolic

end KyberPipe
