import KyberPipe.Crypto.Aead
import KyberPipe.Crypto.Kem

/-!
# A symbolic implementation of the primitives

Keys are terms, ciphertexts record what they were sealed from, and an encapsulated secret
records the ciphertext and the key pair. The implementation is executable and satisfies both
`Primitives.Ideal` and `Primitives.KemCorrect`.
-/

namespace KyberPipe.Symbolic

/-- The kinds of salt. -/
inductive SaltTag where
  | none | pqSalt | rootSalt | chainSalt | key
  deriving DecidableEq

/-- The kinds of keying material. -/
inductive IkmTag where
  | secret | key | step
  deriving DecidableEq

/-- A key is the term of the HKDF call that produced it. -/
inductive Key where
  | absent
  | hkdf (saltTag : SaltTag) (salt : Key) (ikmTag : IkmTag) (ikm : Key) (secret : Bytes)
      (info : Info)
  deriving DecidableEq

/-- A ciphertext records everything it was sealed from. -/
structure Ciphertext where
  key : Key
  nonce : Nonce
  plaintext : Bytes
  aad : Bytes
  deriving DecidableEq

/-- The kind and the key of a salt. -/
def ofSalt : Salt Key → SaltTag × Key
  | .none => (.none, .absent)
  | .pqSalt k => (.pqSalt, k)
  | .rootSalt k => (.rootSalt, k)
  | .chainSalt => (.chainSalt, .absent)
  | .key k => (.key, k)

/-- The kind, the key and the bytes of keying material. -/
def ofIkm : Ikm Key → IkmTag × Key × Bytes
  | .secret b => (.secret, .absent, b)
  | .key k => (.key, k, [])
  | .step => (.step, .absent, [])

/-- The size of a key term. -/
def Key.rank : Key → ℕ
  | .absent => 0
  | .hkdf _ salt _ ikm _ _ => salt.rank + ikm.rank + 1

/-- Encode a packet as a tag followed by its content. -/
def toJson : KyberMessage → Bytes
  | .rekeyAck seq => 0 :: List.replicate seq 0
  | .synchronize sendCount => 1 :: List.replicate sendCount 0
  | .application payload => 2 :: payload

/-- Decode a packet. -/
def fromJson : Bytes → Option KyberMessage
  | 0 :: rest => some (.rekeyAck rest.length)
  | 1 :: rest => some (.synchronize rest.length)
  | 2 :: rest => some (.application rest)
  | _ => none

/-- The symbolic primitives. -/
def primitives : Primitives Key Ciphertext where
  hkdf salt ikm info :=
    .hkdf (ofSalt salt).1 (ofSalt salt).2 (ofIkm ikm).1 (ofIkm ikm).2.1 (ofIkm ikm).2.2 info
  aeadSeal k n pt aad := some ⟨k, n, pt, aad⟩
  aeadOpen k n c aad := if c.key = k ∧ c.nonce = n ∧ c.aad = aad then some c.plaintext else none
  ciphertextLength c := c.plaintext.length + 16
  x25519Public _ := List.replicate 32 9
  x25519 _ _ := List.replicate 32 9
  mlkemKeypair seed := (seed, seed)
  mlkemEncapsulate pk coins := (beBytes 32 coins.toNat ++ pk, beBytes 32 coins.toNat)
  mlkemDecapsulate ct sk := ct ++ sk
  mlkemPublicKeyValid _ := true
  mlkemSecretKeyValid _ := true
  mlkemCiphertextBytes := 32
  toJson := toJson
  fromJson := fromJson

theorem ofSalt_injective : Function.Injective ofSalt := by
  intro a b h
  cases a <;> cases b <;> simp_all [ofSalt]

theorem ofIkm_injective : Function.Injective ofIkm := by
  intro a b h
  cases a <;> cases b <;> simp_all [ofIkm]

theorem fromJson_toJson (packet : KyberMessage) : fromJson (toJson packet) = some packet := by
  cases packet with
  | rekeyAck seq => simp [toJson, fromJson]
  | synchronize sendCount => simp [toJson, fromJson]
  | application payload => rfl

theorem ideal : primitives.Ideal where
  hkdf_inj {s i l s' i' l'} h := by
    simp only [primitives, Key.hkdf.injEq] at h
    obtain ⟨hs, hs', hi, hi', hi'', hl⟩ := h
    exact ⟨ofSalt_injective (Prod.ext hs hs'), ofIkm_injective (Prod.ext hi (Prod.ext hi' hi'')),
      hl⟩
  exists_rank := by
    refine ⟨Key.rank, fun k i l => ?_⟩
    simp only [primitives, Key.rank, ofSalt]
    omega
  open_of_seal {k n pt aad c} h := by
    obtain rfl := Option.some.inj h
    exact if_pos ⟨rfl, rfl, rfl⟩
  seal_of_open {k n pt aad c} h := by
    obtain ⟨ck, cn, cpt, caad⟩ := c
    simp only [primitives] at h ⊢
    split_ifs at h with hc
    obtain ⟨rfl, rfl, rfl⟩ := hc
    obtain rfl := Option.some.inj h
    rfl
  seal_inj {k n pt aad k' n' pt' aad' c} h h' := by
    have heq := Option.some.inj (h.trans h'.symm)
    exact ⟨congrArg Ciphertext.key heq, congrArg Ciphertext.nonce heq,
      congrArg Ciphertext.plaintext heq, congrArg Ciphertext.aad heq⟩
  le_ciphertextLength {k n pt aad c} h := Nat.le_add_left 16 _
  fromJson_toJson := fromJson_toJson

theorem kemCorrect : primitives.KemCorrect where
  x25519_comm _ _ := rfl
  x25519Public_length _ := List.length_replicate
  x25519Public_not_lowOrder _ := by
    show isLowOrderX25519Point (List.replicate 32 9) = false
    decide
  x25519_length _ _ := List.length_replicate
  x25519_not_allZero _ _ := by
    show isAllZero (List.replicate 32 9) = false
    decide
  mlkemPublicKeyValid_keypair _ := rfl
  mlkemSecretKeyValid_keypair _ := rfl
  mlkemEncapsulate_length _ coins := length_beBytes 32 coins.toNat
  mlkemDecapsulate_encapsulate _ _ := rfl
  mlkemDecapsulate_binds {ct ct' sk sk'} hct hct' h := (List.append_inj h (hct.trans hct'.symm)).1
  mlkemEncapsulate_fresh {pk pk' coins coins'} h := by
    have hdecode := congrArg ofBeBytes h
    simp only [primitives, ofBeBytes_beBytes] at hdecode
    have hlt : ∀ v : BitVec 256, v.toNat % 256 ^ 32 = v.toNat := by
      intro v
      exact Nat.mod_eq_of_lt v.isLt
    rw [hlt, hlt] at hdecode
    exact BitVec.eq_of_toNat_eq hdecode

end KyberPipe.Symbolic
