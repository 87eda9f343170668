import KyberPipe.Ratchet.Progress

/-!
# Calls on the registry

Every session of a registry whose sessions are fresh goes on to the next generation when it
commits, whatever calls are made to the sessions.
-/

namespace KyberPipe

variable {K C : Type}

/-- Every session of the registry moves to the next generation when it commits. -/
def RatchetRegistry.BumpsOnCommit (r : RatchetRegistry K C) : Prop :=
  ∀ peer s, r.sessions.lookup peer = some s → s.BumpsOnCommit

/-- Every session of the registry is fresh. -/
def RatchetRegistry.Fresh (P : Primitives K C) (r : RatchetRegistry K C) : Prop :=
  ∀ peer s, r.sessions.lookup peer = some s → ∃ secret isInitiator pair peerXpk peerMpk,
    s = .newWithKeypair P secret isInitiator pair peerXpk peerMpk

theorem RatchetRegistry.Fresh.bumpsOnCommit {P : Primitives K C} {r : RatchetRegistry K C}
    (h : r.Fresh P) : r.BumpsOnCommit := by
  intro peer s hs
  obtain ⟨secret, isInitiator, pair, peerXpk, peerMpk, rfl⟩ := h peer s hs
  exact bumpsOnCommit_newWithKeypair P secret isInitiator pair peerXpk peerMpk

theorem RatchetRegistry.BumpsOnCommit.withRatchetSession {r : RatchetRegistry K C}
    (h : r.BumpsOnCommit) (P : Primitives K C) (peer : String) (call : Call C) :
    (r.withRatchetSession P peer call).2.BumpsOnCommit := by
  intro q s' hs'
  rw [lookup_withRatchetSession] at hs'
  obtain ⟨s, hs, rfl⟩ := Option.map_eq_some_iff.1 hs'
  split_ifs
  · exact (Session.exec_advances P peer _ call).bumps (h q s hs)
  · exact h q s hs

/-- The message of an answered call. -/
def answeredMessage : Except KyberError (Response C) → Option (RatchetEncryptedMessage C)
  | .ok (.message (.ok msg)) => some msg
  | .ok (.ack _ (.ok msg)) => msg
  | _ => none

end KyberPipe
