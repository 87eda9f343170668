import KyberPipe.Desktop.Restart

/-!
# Polls

What a poll of `poll.rs` reads, and the check whether the polled session moved since it was last
persisted. A poll processes what the phone attached to its request, encrypts the clipboard, persists
all sessions if the check says so, and only then encrypts the messages of the response. These steps
are operations of the modules about acknowledgements and about the check.
-/

namespace KyberPipe

variable {K C T : Type}

/-- A poll request. -/
structure PollRequest (C : Type) where
  peer : String
  /-- The Synchronize packet of the peer with the digest of its bytes. -/
  sync : Option (RatchetEncryptedMessage C × ℕ)
  /-- The acknowledgement of the peer. -/
  rekeyAck : Option (RatchetEncryptedMessage C)
  needSync : Bool

/-- The readings of the clock in a poll are numbered from 0. -/
instance neZeroFive : NeZero 5 := ⟨by decide⟩

/-- What a poll reads besides its request. -/
structure PollInputs where
  latestClip : Bytes
  clipRnd : EncryptRandomness
  ackRnd : EncryptRandomness
  syncRnd : EncryptRandomness
  /-- The clock at each of the five ratchet operations. -/
  clock : Fin 5 → Clock

/-- The call that decrypts a message of another stream. A message whose X25519 key has the wrong
length is dropped before it reaches the session. -/
def receiveCall (msg : RatchetEncryptedMessage C) (now : Clock) : Option (Call C) :=
  if msg.rekeyX25519Pk.isSome || msg.rekeyMlkemPk.isSome || msg.rekeyCiphertext.isSome then
    if msg.rekeyX25519Pk.any fun xpk => xpk.length ≠ 32 then none
    else some (.decryptWithRekey msg.nonce msg.ciphertext msg.rekeyCiphertext msg.rekeyX25519Pk
      msg.rekeyMlkemPk now)
  else some (.decrypt msg.nonce msg.ciphertext)

/-- The state of the desktop process and its disk. `lastPersistedState` has the generation and
the two counters of each peer at its last persisting. -/
structure Desktop (K C T : Type) where
  registry : RatchetRegistry K C
  lastPersistedState : AList (fun _ : String => ℕ × ℕ × ℕ) := ∅
  disk : Disk T

namespace Desktop

variable (d : Desktop K C T)

/-- Whether the session of a peer moved since it was last persisted; if so, its position is
noted as persisted. -/
def ratchetDirtySinceLastPersist (peer : String) : Bool × Desktop K C T :=
  match d.registry.ratchetSessionWatermark peer with
  | none => (false, d)
  | some wm =>
    let current := (wm.ratchetGeneration, wm.sendMessageCount, wm.recvMessageCount)
    let last := (d.lastPersistedState.lookup peer).getD (0, 0, 0)
    if current ≠ last then
      (true, { d with lastPersistedState := d.lastPersistedState.insert peer current })
    else (false, d)

/-- The generation and the counters that count as persisted. -/
def noted (peer : String) : ℕ × ℕ × ℕ := (d.lastPersistedState.lookup peer).getD (0, 0, 0)

/-- The check either finds a session at its noted position and changes nothing, or notes the
position of the session. -/
theorem ratchetDirtySinceLastPersist_cases (peer : String) :
    (d.ratchetDirtySinceLastPersist peer = (false, d) ∧
        ∀ s, d.registry.sessions.lookup peer = some s →
          d.noted peer = (s.ratchetGeneration, s.send.messageCount, s.recv.messageCount)) ∨
      ∃ s, d.registry.sessions.lookup peer = some s ∧
        d.ratchetDirtySinceLastPersist peer = (true, { d with
          lastPersistedState := d.lastPersistedState.insert peer
            (s.ratchetGeneration, s.send.messageCount, s.recv.messageCount) }) := by
  unfold ratchetDirtySinceLastPersist RatchetRegistry.ratchetSessionWatermark noted
  cases hs : d.registry.sessions.lookup peer with
  | none => exact .inl ⟨rfl, (by rintro s ⟨⟩)⟩
  | some s =>
    simp only [Option.map_some, RatchetWatermark.fromLive]
    split_ifs with hdirty
    · exact .inr ⟨s, rfl, rfl⟩
    · refine .inl ⟨rfl, fun t ht => ?_⟩
      obtain rfl := Option.some.inj ht
      exact (not_ne_iff.1 hdirty).symm

end Desktop

end KyberPipe
