import KyberPipe.Pair.System

/-!
# The rekey protocol

What the two ends of a pairing do about rekeying, without keys and messages. An end makes a
proposal when none stands, stages a proposal of its peer, acknowledges the staged one or insists
on its own, commits its own once the peer has acknowledged it, and follows a commit of the peer.

An acknowledgement is for a generation here. This is what makes the protocol safe: an end that
commits finds its peer in the same generation with that very proposal staged.
-/

namespace KyberPipe

/-- One end of the protocol. -/
structure RekeyEnd (O : Type) where
  generation : ℕ := 0
  /-- The proposals made so far, each with the generation it was made in. -/
  offers : Set (ℕ × O) := ∅
  /-- The proposal that stands. -/
  outgoing : Option O := none
  /-- The staged proposal of the peer and the generation of its carrier. -/
  incoming : Option (ℕ × O) := none
  /-- The generations whose carrier was acknowledged. -/
  acks : Set ℕ := ∅

/-- Both ends, and the proposal by which each generation was left together with its proposer. -/
structure RekeyProtocol (O : Type) where
  ends : Role → RekeyEnd O := fun _ => {}
  winner : ℕ → Option (Role × O) := fun _ => none

namespace RekeyProtocol

variable {O : Type} {A B : RekeyProtocol O} {x : Role}

section

variable (A) (x)

/-- Replace one end. -/
def set (a : RekeyEnd O) : RekeyProtocol O :=
  { A with ends := Function.update A.ends x a }

@[simp]
theorem ends_set_self (a : RekeyEnd O) :
    (A.set x a).ends x = a :=
  Function.update_self ..

@[simp]
theorem ends_set_peer (a : RekeyEnd O) :
    (A.set x a).ends x.peer = A.ends x.peer :=
  Function.update_of_ne x.peer_ne ..

/-- End `x` leaves its generation with its own proposal `o`. -/
def commit (o : O) : RekeyProtocol O :=
  { A.set x { A.ends x with generation := (A.ends x).generation + 1, outgoing := none } with
    winner := Function.update A.winner (A.ends x).generation (some (x, o)) }

end

/-- The steps of end `x`. -/
inductive Step (x : Role) (A : RekeyProtocol O) : RekeyProtocol O → Prop
  | propose (o : O) (hout : (A.ends x).outgoing = none) (hin : (A.ends x).incoming = none) :
      Step x A (A.set x { A.ends x with
        outgoing := some o
        offers := insert ((A.ends x).generation, o) (A.ends x).offers })
  | stage {n : ℕ} {o : O} (ho : (n, o) ∈ (A.ends x.peer).offers) (hn : (A.ends x).generation ≤ n)
      (hin : ∀ m o', (A.ends x).incoming = some (m, o') → m ≤ n) :
      Step x A (A.set x { A.ends x with incoming := some (n, o) })
  | acknowledge {n : ℕ} {o : O} (hin : (A.ends x).incoming = some (n, o))
      (hn : (A.ends x).generation ≤ n) :
      Step x A (A.set x { A.ends x with
        outgoing := none
        acks := insert (A.ends x).generation (A.ends x).acks })
  | insist (hout : (A.ends x).outgoing.isSome) :
      Step x A (A.set x { A.ends x with incoming := none })
  | follow {o : O} (hin : (A.ends x).incoming = some ((A.ends x).generation, o))
      (hgen : (A.ends x.peer).generation = (A.ends x).generation + 1) :
      Step x A (A.set x { A.ends x with
        generation := (A.ends x).generation + 1
        outgoing := none
        incoming := none
        acks := insert (A.ends x).generation (A.ends x).acks })
  | commit {o : O} (hout : (A.ends x).outgoing = some o)
      (hack : (A.ends x).generation ∈ (A.ends x.peer).acks) : Step x A (A.commit x o)

/-! ## Safety -/

/-- What holds between end `x`, in state `a`, and its peer, in state `b`. -/
structure Faces (winner : ℕ → Option (Role × O)) (x : Role) (a b : RekeyEnd O) : Prop where
  offers_le : ∀ n o, (n, o) ∈ a.offers → n ≤ a.generation
  offers_unique : ∀ n o o', (n, o) ∈ a.offers → (n, o') ∈ a.offers → o = o'
  /-- An end does not propose twice in one generation. -/
  standing : ∀ o, (a.generation, o) ∈ a.offers → a.outgoing.isSome ∨ a.incoming.isSome
  outgoing : ∀ o, a.outgoing = some o → (a.generation, o) ∈ a.offers
  /-- A staged proposal of a generation that was left lost to our own. -/
  incoming : ∀ n o, a.incoming = some (n, o) → (n, o) ∈ b.offers ∧
    (n < a.generation → ∃ o', winner n = some (x, o'))
  lead : a.generation ≤ b.generation + 1
  /-- Whoever is ahead got there by its own proposal, and the peer waits with a staged one. -/
  ahead : a.generation = b.generation + 1 → b.outgoing = none ∧ b.incoming.isSome ∧
    ∃ o, (b.generation, o) ∈ a.offers ∧ winner b.generation = some (x, o)
  /-- While a generation lasts for the peer, its acknowledged proposal stays staged. -/
  acks : ∀ n ∈ a.acks, n ≤ b.generation ∧ (n = b.generation →
    a.generation = n ∧ a.outgoing = none ∧ ∃ o, a.incoming = some (n, o))

/-- The invariant of the protocol. -/
def Safe (A : RekeyProtocol O) : Prop :=
  ∀ x, Faces A.winner x (A.ends x) (A.ends x.peer)

theorem safe_init : ({} : RekeyProtocol O).Safe := by
  intro x
  exact ⟨(by rintro _ _ ⟨⟩), (by rintro _ _ _ ⟨⟩), (by rintro _ ⟨⟩),
    (by rintro _ ⟨⟩), (by rintro _ _ ⟨⟩), Nat.zero_le _, (by rintro ⟨⟩),
    (by rintro _ ⟨⟩)⟩

/-- It suffices to look at the two ends from either side. -/
theorem safe_of_faces (h : Faces B.winner x (B.ends x) (B.ends x.peer))
    (h' : Faces B.winner x.peer (B.ends x.peer) (B.ends x)) : B.Safe := by
  intro y
  rcases Role.eq_or_eq_peer x y with rfl | rfl
  · exact h
  · rw [Role.peer_peer]
    exact h'

theorem Safe.peer (h : A.Safe) (x : Role) :
    Faces A.winner x.peer (A.ends x.peer) (A.ends x) := by
  have hpeer := h x.peer
  rwa [Role.peer_peer] at hpeer

variable {o : O}

/-- A peer that has acknowledged a carrier of our generation is in it, has no proposal of its own
and has our offer staged. -/
theorem Safe.acknowledged (h : A.Safe) (ho : ((A.ends x).generation, o) ∈ (A.ends x).offers)
    (hack : (A.ends x).generation ∈ (A.ends x.peer).acks) :
    (A.ends x.peer).generation = (A.ends x).generation ∧ (A.ends x.peer).outgoing = none ∧
      (A.ends x.peer).incoming = some ((A.ends x).generation, o) := by
  obtain ⟨hgen, hnone, o', hin⟩ := ((h.peer x).acks _ hack).2 rfl
  have ho' := ((h.peer x).incoming _ _ hin).1
  rw [(h x).offers_unique _ _ _ ho' ho] at hin
  exact ⟨hgen, hnone, hin⟩

/-- Agreement. When the peer has acknowledged a carrier of our generation, it is in our
generation and has our standing proposal staged. -/
theorem Safe.agreement (h : A.Safe) (hout : (A.ends x).outgoing = some o)
    (hack : (A.ends x).generation ∈ (A.ends x.peer).acks) :
    (A.ends x.peer).generation = (A.ends x).generation ∧ (A.ends x.peer).outgoing = none ∧
      (A.ends x.peer).incoming = some ((A.ends x).generation, o) :=
  h.acknowledged ((h x).outgoing o hout) hack

/-- A staged proposal was made in a generation that the peer has reached. -/
theorem Safe.incoming_le (h : A.Safe) {n : ℕ} (hin : (A.ends x).incoming = some (n, o)) :
    n ≤ (A.ends x.peer).generation :=
  (h.peer x).offers_le n o ((h x).incoming n o hin).1

/-- If the peer is ahead, the staged proposal of our generation is the one it has committed. -/
theorem Safe.winner_of_incoming (h : A.Safe)
    (hin : (A.ends x).incoming = some ((A.ends x).generation, o))
    (hgen : (A.ends x.peer).generation = (A.ends x).generation + 1) :
    A.winner (A.ends x).generation = some (x.peer, o) := by
  obtain ⟨_, _, o', ho', hwinner⟩ := (h.peer x).ahead hgen
  rw [(h.peer x).offers_unique _ _ _ ((h x).incoming _ _ hin).1 ho', hwinner]

/-! ## Every step is safe -/

section

variable (h : A.Safe)
include h

theorem Safe.propose (o : O) (hout : (A.ends x).outgoing = none)
    (hin : (A.ends x).incoming = none) :
    (A.set x { A.ends x with
      outgoing := some o
      offers := insert ((A.ends x).generation, o) (A.ends x).offers }).Safe := by
  have hx := h x
  have hpeer := h.peer x
  -- without a standing and a staged proposal nothing was proposed in this generation
  have hnew : ∀ o', ((A.ends x).generation, o') ∉ (A.ends x).offers := by
    intro o' ho'
    rcases hx.standing o' ho' with hsome | hsome
    · rw [hout] at hsome
      cases hsome
    · rw [hin] at hsome
      cases hsome
  apply safe_of_faces (x := x)
  · rw [ends_set_self, ends_set_peer]
    refine { hx with offers_le := ?_, offers_unique := ?_, standing := fun _ _ => .inl rfl,
                     outgoing := ?_, ahead := ?_, acks := ?_ }
    · rintro n o' (heq | hold)
      · exact (Prod.mk.inj heq).1.le
      · exact hx.offers_le n o' hold
    · rintro n o₁ o₂ (heq | hold) (heq' | hold')
      · exact (Prod.mk.inj heq).2.trans (Prod.mk.inj heq').2.symm
      · rw [(Prod.mk.inj heq).1] at hold'
        exact absurd hold' (hnew o₂)
      · rw [(Prod.mk.inj heq').1] at hold
        exact absurd hold (hnew o₁)
      · exact hx.offers_unique n o₁ o₂ hold hold'
    · intro o' ho'
      rw [Option.some.inj ho']
      exact Set.mem_insert _ _
    · intro hahead
      obtain ⟨hnone, hsome, o', ho', hwinner⟩ := hx.ahead hahead
      exact ⟨hnone, hsome, o', Set.mem_insert_of_mem _ ho', hwinner⟩
    · intro n hn
      refine ⟨(hx.acks n hn).1, fun heq => ?_⟩
      obtain ⟨_, _, o', ho'⟩ := (hx.acks n hn).2 heq
      rw [hin] at ho'
      cases ho'
  · rw [ends_set_self, ends_set_peer]
    refine { hpeer with incoming := ?_, ahead := ?_ }
    · intro n o' ho'
      exact ⟨Set.mem_insert_of_mem _ (hpeer.incoming n o' ho').1, (hpeer.incoming n o' ho').2⟩
    · intro hahead
      have hsome := (hpeer.ahead hahead).2.1
      rw [hin] at hsome
      cases hsome

theorem Safe.stage {n : ℕ} (ho : (n, o) ∈ (A.ends x.peer).offers) (hn : (A.ends x).generation ≤ n)
    (hin : ∀ m o', (A.ends x).incoming = some (m, o') → m ≤ n) :
    (A.set x { A.ends x with incoming := some (n, o) }).Safe := by
  have hx := h x
  have hpeer := h.peer x
  apply safe_of_faces (x := x)
  · rw [ends_set_self, ends_set_peer]
    refine { hx with standing := fun _ _ => .inr rfl, incoming := ?_, acks := ?_ }
    · rintro m o' heq
      obtain ⟨rfl, rfl⟩ := Prod.mk.inj (Option.some.inj heq)
      exact ⟨ho, fun hlt => absurd hlt (Nat.not_lt.2 hn)⟩
    · intro m hm
      refine ⟨(hx.acks m hm).1, fun heq => ?_⟩
      obtain ⟨hgen, hnone, o', ho'⟩ := (hx.acks m hm).2 heq
      -- the carrier is of the acknowledged generation as well
      obtain rfl : n = m := le_antisymm (heq ▸ hpeer.offers_le n o ho) (hin m o' ho')
      exact ⟨hgen, hnone, o, rfl⟩
  · rw [ends_set_self, ends_set_peer]
    refine { hpeer with ahead := fun hahead => ?_ }
    obtain ⟨hnone, _, hwinner⟩ := hpeer.ahead hahead
    exact ⟨hnone, rfl, hwinner⟩

theorem Safe.acknowledge {n : ℕ} (hin : (A.ends x).incoming = some (n, o))
    (hn : (A.ends x).generation ≤ n) :
    (A.set x { A.ends x with
      outgoing := none
      acks := insert (A.ends x).generation (A.ends x).acks }).Safe := by
  have hx := h x
  have hpeer := h.peer x
  have hle := h.incoming_le hin
  apply safe_of_faces (x := x)
  · rw [ends_set_self, ends_set_peer]
    refine { hx with standing := fun _ _ => .inr (by rw [hin]; rfl),
                     outgoing := (by rintro _ ⟨⟩), acks := ?_ }
    rintro m (rfl | hold)
    · refine ⟨hn.trans hle, fun heq => ⟨rfl, rfl, o, ?_⟩⟩
      obtain rfl : n = (A.ends x).generation := le_antisymm (heq ▸ hle) hn
      exact hin
    · refine ⟨(hx.acks m hold).1, fun heq => ?_⟩
      obtain ⟨hgen, _, ho'⟩ := (hx.acks m hold).2 heq
      exact ⟨hgen, rfl, ho'⟩
  · rw [ends_set_self, ends_set_peer]
    exact { hpeer with ahead := fun hahead => ⟨rfl, (hpeer.ahead hahead).2⟩ }

theorem Safe.insist (hout : (A.ends x).outgoing.isSome) :
    (A.set x { A.ends x with incoming := none }).Safe := by
  have hx := h x
  have hpeer := h.peer x
  have hnot : (A.ends x).outgoing ≠ none := Option.isSome_iff_ne_none.1 hout
  apply safe_of_faces (x := x)
  · rw [ends_set_self, ends_set_peer]
    refine { hx with standing := fun _ _ => .inl hout, incoming := (by rintro _ _ ⟨⟩),
                     acks := ?_ }
    intro m hm
    exact ⟨(hx.acks m hm).1, fun heq => absurd ((hx.acks m hm).2 heq).2.1 hnot⟩
  · rw [ends_set_self, ends_set_peer]
    exact { hpeer with ahead := fun hahead => absurd (hpeer.ahead hahead).1 hnot }

theorem Safe.follow (hgen : (A.ends x.peer).generation = (A.ends x).generation + 1) :
    (A.set x { A.ends x with
      generation := (A.ends x).generation + 1
      outgoing := none
      incoming := none
      acks := insert (A.ends x).generation (A.ends x).acks }).Safe := by
  have hx := h x
  have hpeer := h.peer x
  apply safe_of_faces (x := x)
  · rw [ends_set_self, ends_set_peer]
    refine { hx with offers_le := fun n o ho => Nat.le_succ_of_le (hx.offers_le n o ho),
                     standing := fun o ho => ?_, outgoing := (by rintro _ ⟨⟩),
                     incoming := (by rintro _ _ ⟨⟩), lead := ?_, ahead := ?_, acks := ?_ }
    · exact absurd (hx.offers_le _ o ho) (Nat.not_succ_le_self _)
    · exact hgen ▸ Nat.le_succ _
    · intro heq
      dsimp only at heq
      omega
    · rintro m (rfl | hold)
      · exact ⟨by omega, fun heq => absurd heq (by omega)⟩
      · refine ⟨(hx.acks m hold).1, fun heq => ?_⟩
        have := ((hx.acks m hold).2 heq).1
        omega
  · rw [ends_set_self, ends_set_peer]
    refine { hpeer with lead := ?_, ahead := ?_, acks := ?_ }
    · dsimp only
      omega
    · intro heq
      dsimp only at heq
      omega
    · intro m hm
      have := (hpeer.acks m hm).1
      exact ⟨Nat.le_succ_of_le this, fun heq => absurd heq (by dsimp only; omega)⟩

theorem Safe.commit (hout : (A.ends x).outgoing = some o)
    (hack : (A.ends x).generation ∈ (A.ends x.peer).acks) : (A.commit x o).Safe := by
  have hx := h x
  have hpeer := h.peer x
  obtain ⟨hgen, hnone, hstaged⟩ := h.agreement hout hack
  have hwinner : ∀ n < (A.ends x).generation,
      Function.update A.winner (A.ends x).generation (some (x, o)) n = A.winner n :=
    fun n hn => Function.update_of_ne hn.ne ..
  apply safe_of_faces (x := x)
  · rw [RekeyProtocol.commit]
    dsimp only
    rw [ends_set_self, ends_set_peer]
    refine { hx with offers_le := fun n o ho => Nat.le_succ_of_le (hx.offers_le n o ho),
                     standing := fun o ho => ?_, outgoing := (by rintro _ ⟨⟩),
                     incoming := ?_, lead := ?_, ahead := ?_, acks := ?_ }
    · exact absurd (hx.offers_le _ o ho) (Nat.not_succ_le_self _)
    · intro n o' ho'
      refine ⟨(hx.incoming n o' ho').1, fun hlt => ?_⟩
      rcases Nat.lt_succ_iff_lt_or_eq.1 hlt with hlt | rfl
      · rw [hwinner n hlt]
        exact (hx.incoming n o' ho').2 hlt
      · exact ⟨o, Function.update_self ..⟩
    · exact hgen ▸ le_rfl
    · intro _
      rw [hgen]
      refine ⟨hnone, ?_, o, hx.outgoing o hout, Function.update_self ..⟩
      rw [hstaged]
      rfl
    · intro n hn
      refine ⟨(hx.acks n hn).1, fun heq => ?_⟩
      rw [((hx.acks n hn).2 heq).2.1] at hout
      cases hout
  · rw [RekeyProtocol.commit]
    dsimp only
    rw [ends_set_self, ends_set_peer]
    refine { hpeer with incoming := ?_, lead := ?_, ahead := ?_, acks := ?_ }
    · intro n o' ho'
      refine ⟨(hpeer.incoming n o' ho').1, fun hlt => ?_⟩
      rw [hwinner n (hgen ▸ hlt)]
      exact (hpeer.incoming n o' ho').2 hlt
    · dsimp only
      omega
    · intro heq
      dsimp only at heq
      omega
    · intro n hn
      have := (hpeer.acks n hn).1
      exact ⟨Nat.le_succ_of_le this, fun heq => absurd heq (by dsimp only; omega)⟩

end

/-! ## Runs -/

theorem Safe.step (h : A.Safe) (hstep : Step x A B) : B.Safe := by
  cases hstep with
  | propose o hout hin => exact h.propose o hout hin
  | stage ho hn hin => exact h.stage ho hn hin
  | acknowledge hin hn => exact h.acknowledge hin hn
  | insist hout => exact h.insist hout
  | follow _ hgen => exact h.follow hgen
  | commit hout hack => exact h.commit hout hack

theorem Safe.steps (h : A.Safe) (hsteps : Relation.ReflTransGen (Step x) A B) : B.Safe := by
  induction hsteps with
  | refl => exact h
  | tail _ hstep ih => exact ih.step hstep

/-- `B` follows `A` by steps of `x` other than proposing and committing. -/
structure Hears (x : Role) (A B : RekeyProtocol O) : Prop where
  steps : Relation.ReflTransGen (Step x) A B
  peer : B.ends x.peer = A.ends x.peer
  winner : B.winner = A.winner
  offers : (B.ends x).offers = (A.ends x).offers
  acks : (A.ends x).acks ⊆ (B.ends x).acks

theorem Hears.refl (x : Role) (A : RekeyProtocol O) : Hears x A A :=
  ⟨.refl, rfl, rfl, rfl, subset_refl _⟩

theorem Hears.trans {D : RekeyProtocol O} (h : Hears x A B) (h' : Hears x B D) : Hears x A D :=
  ⟨h.steps.trans h'.steps, h'.peer.trans h.peer, h'.winner.trans h.winner,
    h'.offers.trans h.offers, h.acks.trans h'.acks⟩

/-- One step that makes no offer and revokes no acknowledgement. -/
theorem Hears.of_step {a : RekeyEnd O} (hstep : Step x A (A.set x a))
    (hoffers : a.offers = (A.ends x).offers) (hacks : (A.ends x).acks ⊆ a.acks) :
    Hears x A (A.set x a) where
  steps := .single hstep
  peer := ends_set_peer A x a
  winner := rfl
  offers := by rw [ends_set_self, hoffers]
  acks := by rwa [ends_set_self]

/-- `B` is `A`, or `x` has made a proposal in between. -/
inductive Speaks (x : Role) (A : RekeyProtocol O) : RekeyProtocol O → Prop
  | silent : Speaks x A A
  | propose (o : O) (hout : (A.ends x).outgoing = none) (hin : (A.ends x).incoming = none) :
      Speaks x A (A.set x { A.ends x with
        outgoing := some o
        offers := insert ((A.ends x).generation, o) (A.ends x).offers })

end RekeyProtocol

end KyberPipe
