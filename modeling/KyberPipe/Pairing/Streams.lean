import KyberPipe.Pairing.AppState

/-!
# Streams to the desktop

What the accept loop decides from the header of a stream, and the part of the answer to a poll from
which the phone learns whether the desktop is paired.
-/

namespace KyberPipe

variable {K C : Type}

/-- The kinds of streams, as the first byte of a frame tells them apart. -/
inductive StreamType where
  | pairing
  | clipboard
  | media
  | poll
  | unpair
  | sms
  | unknown (code : UInt8)
  deriving DecidableEq

/-- Authorize a stream of a connection with a client certificate. A pairing stream is let in as
long as the desktop is not paired, any other stream only from a paired device. -/
def AppState.authorizeStream (s : AppState K C) (peerCertHash : String) :
    StreamType → Except String Unit
  | .pairing => if s.settings.isPaired then .error "Already paired — unpair first" else .ok ()
  | _ =>
    if !s.settings.isPaired then .error "Not paired"
    else if peerCertHash = "" ∨ !s.pairing.isAuthorizedPeerCert peerCertHash then
      .error "Peer certificate not authorized"
    else .ok ()

/-- The fields of an answer that tell the phone about the pairing. A missing text is empty. -/
structure StreamAnswer where
  status : String := ""
  reason : String := ""
  isPaired : Option Bool := none
  deriving DecidableEq

/-- The answer to a stream that was not authorized. -/
def StreamAnswer.refusal (reason : String) : StreamAnswer := { status := "error", reason }

/-- `handle_poll`, the part that reports the pairing. -/
def AppState.handlePoll (s : AppState K C) : StreamAnswer := { isPaired := s.settings.isPaired }

/-- Polls are let in exactly from paired devices of a paired desktop. -/
theorem AppState.authorizeStream_poll_eq_ok {s : AppState K C} {cert : String} :
    s.authorizeStream cert .poll = .ok () ↔
      s.settings.isPaired = true ∧ s.pairing.isAuthorizedPeerCert cert = true := by
  simp only [authorizeStream]
  split_ifs with hpaired hcert
  · simp_all
  · rcases hcert with rfl | hcert
    · simp [PairingState.isAuthorizedPeerCert]
    · simp_all
  · simp_all

end KyberPipe
