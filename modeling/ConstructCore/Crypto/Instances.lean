import ConstructCore.Crypto.Provider

/-!
# Two concrete instances of the primitives

Both are computable, so that runs of the ratchet can be evaluated. `symbolicCrypto`
writes terms: every key-derivation function is injective, with outputs that tell which
function made them. `sizedCrypto` returns outputs of the lengths the real primitives
return. They share a Diffie-Hellman that commutes, an AEAD that opens exactly what it
sealed, and an ML-KEM whose decapsulation returns the encapsulated secret.
-/

namespace ConstructCore

open Bytes

/-- A self-delimiting copy of a byte string: no quoted string is a prefix of another. -/
def quote (b : Bytes) : Bytes := b.flatMap (fun x => [1, x]) ++ [0]

theorem quote_append_inj {a b x y : Bytes} (h : quote a ++ x = quote b ++ y) :
    a = b ∧ x = y := by
  induction a generalizing b with
  | nil =>
    cases b with
    | nil => simpa [quote] using h
    | cons c cs => simp [quote] at h
  | cons c cs ih =>
    cases b with
    | nil => simp [quote] at h
    | cons d ds =>
      simp only [quote, List.flatMap_cons, List.cons_append, List.nil_append,
        List.append_assoc, List.cons.injEq, true_and] at h
      obtain ⟨hcd, hrest⟩ := h
      have := ih (b := ds) (by simpa [quote] using hrest)
      exact ⟨by rw [hcd, this.1], this.2⟩

/-! ## What both share -/

/-- What a sealed box starts with: the key, the nonce and the associated data. -/
def aeadFrame (key nonce : Bytes) (ad : Option Bytes) : Bytes :=
  quote key ++ (quote nonce ++ quote (ad.getD []))

def frameEncrypt (key nonce plaintext : Bytes) (ad : Option Bytes) :
    Except CryptoError Bytes :=
  .ok (aeadFrame key nonce ad ++ plaintext)

def frameDecrypt (key nonce ciphertext : Bytes) (ad : Option Bytes) :
    Except CryptoError Bytes :=
  let frame := aeadFrame key nonce ad
  if frame.isPrefixOf ciphertext then .ok (ciphertext.drop frame.length)
  else .error (.aeadDecryptionError "aead::Error")

/-- The `i`-th byte of the first, plus that of the second. -/
def addBytes (n : Nat) (a b : Bytes) : Bytes :=
  (List.range n).map fun i => a.getD i 0 + b.getD i 0

/-- A secret key and its public key are the seed; a ciphertext is the encapsulation seed;
the shared secret names both. -/
def seedKem : Bytes → Bytes → Bytes := fun key ct => key.take 16 ++ ct.take 16

theorem frameDecrypt_frameEncrypt (key nonce plaintext : Bytes) (ad : Option Bytes) :
    frameDecrypt key nonce (aeadFrame key nonce ad ++ plaintext) ad = .ok plaintext := by
  unfold frameDecrypt
  rw [if_pos (List.isPrefixOf_iff_prefix.mpr (List.prefix_append _ _)), List.drop_left]

/-- The AEAD opens a box only under the key, the nonce and the associated data it was
sealed with. -/
theorem frameDecrypt_eq_ok {key key' nonce nonce' plaintext out : Bytes}
    {ad ad' : Bytes}
    (h : frameDecrypt key nonce (aeadFrame key' nonce' (some ad') ++ plaintext) (some ad) =
      .ok out) : key = key' ∧ nonce = nonce' ∧ ad = ad' ∧ out = plaintext := by
  unfold frameDecrypt at h
  dsimp only at h
  split at h
  · rename_i hp
    obtain ⟨rest, hrest⟩ := List.isPrefixOf_iff_prefix.mp hp
    unfold aeadFrame at hrest
    simp only [Option.getD_some, List.append_assoc] at hrest
    obtain ⟨hk, hrest⟩ := quote_append_inj hrest
    obtain ⟨hn, hrest⟩ := quote_append_inj hrest
    obtain ⟨ha, hrest⟩ := quote_append_inj hrest
    subst hk hn ha
    rw [List.drop_left] at h
    exact ⟨rfl, rfl, rfl, (Except.ok.inj h).symm⟩
  · cases h

/-! ## The symbolic instance -/

/-- Terms: each output starts with the number of the function that made it. -/
def symbolicCrypto : Crypto where
  generateKemKeys seed := .ok (leBytes 32 seed, leBytes 32 seed)
  fromPrivateKeyToPublicKey priv := .ok priv
  kemDecapsulate priv pub := .ok (addBytes 32 priv pub)
  aeadEncrypt := frameEncrypt
  aeadDecrypt := frameDecrypt
  hkdfDeriveKey salt ikm info _ := .ok (5 :: (quote salt ++ (quote info ++ ikm)))
  kdfRk root dh := .ok (3 :: (quote dh ++ root), 4 :: (quote dh ++ root))
  kdfCk chain := .ok (1 :: chain, 2 :: chain)
  generateNonce len seed := .ok (leBytes len seed)
  mlkemGenerate seed := (leBytes mlkem768PkSize seed, leBytes mlkem768SkSize seed)
  mlkemEncapsulate pk seed :=
    some (leBytes mlkem768CtSize seed, seedKem pk (leBytes mlkem768CtSize seed))
  mlkemDecapsulate sk ct := .ok (seedKem sk ct)

/-- The function an output of `symbolicCrypto` names. -/
def sourceOf : Bytes → Crypto.Source
  | 1 :: _ => .messageKey
  | 2 :: _ => .nextChain
  | 3 :: _ => .root
  | 4 :: _ => .chain
  | 5 :: _ => .hkdf
  | _ => .other

theorem symbolicCrypto_freeKdf : symbolicCrypto.FreeKdf where
  ckKey h h' := by
    cases h
    cases h'
    rfl
  ckNext h h' := by
    cases h
    cases h'
    rfl
  rkRoot h h' := by
    have heq := (congrArg Prod.fst (Except.ok.inj h)).trans
      (congrArg Prod.fst (Except.ok.inj h')).symm
    obtain ⟨hdh, hroot⟩ := quote_append_inj (List.cons.inj heq).2
    exact ⟨hroot, hdh⟩
  rkChain h h' := by
    have heq := (congrArg Prod.snd (Except.ok.inj h)).trans
      (congrArg Prod.snd (Except.ok.inj h')).symm
    obtain ⟨hdh, hroot⟩ := quote_append_inj (List.cons.inj heq).2
    exact ⟨hroot, hdh⟩
  hkdf h h' := by
    have heq := (Except.ok.inj h).trans (Except.ok.inj h').symm
    obtain ⟨hsalt, hrest⟩ := quote_append_inj (List.cons.inj heq).2
    obtain ⟨hinfo, hikm⟩ := quote_append_inj hrest
    exact ⟨hsalt, hikm, hinfo⟩
  disjoint := by
    refine ⟨sourceOf, ?_, ?_, ?_, rfl⟩
    · intro c k n h
      cases h
      exact ⟨rfl, rfl⟩
    · intro r d x c h
      cases h
      exact ⟨rfl, rfl⟩
    · intro salt ikm info len out h
      cases h
      rfl

theorem addBytes_comm (n : Nat) (a b : Bytes) : addBytes n a b = addBytes n b a := by
  unfold addBytes
  simp only [UInt8.add_comm]

theorem symbolicCrypto_reliable : symbolicCrypto.Reliable where
  dh {p P q Q} h h' := by
    -- either way a public key is its private key
    have hpair : ∀ {p P}, symbolicCrypto.KeyPair p P → p = P := by
      rintro p P (⟨seed, hgen⟩ | hpub)
      · cases hgen
        rfl
      · exact Except.ok.inj hpub
    obtain rfl := hpair h
    obtain rfl := hpair h'
    exact ⟨_, rfl, congrArg _ (addBytes_comm 32 _ _)⟩
  keys seed := ⟨_, _, rfl⟩
  ck chain := ⟨_, _, rfl⟩
  rk root dh := ⟨_, _, rfl⟩
  opens h := by
    cases h
    exact frameDecrypt_frameEncrypt _ _ _ _

theorem symbolicCrypto_authentic : symbolicCrypto.Authentic := by
  intro key nonce plaintext ad ciphertext key' nonce' ad' out hseal hopen
  cases hseal
  obtain ⟨hkey, hnonce, had, -⟩ := frameDecrypt_eq_ok hopen
  exact ⟨hkey, hnonce, had⟩

/-! ## The sized instance -/

def sizedCrypto : Crypto where
  generateKemKeys seed := .ok (leBytes 32 seed, leBytes 32 seed)
  fromPrivateKeyToPublicKey priv := .ok priv
  kemDecapsulate priv pub := .ok (addBytes 32 priv pub)
  aeadEncrypt := frameEncrypt
  aeadDecrypt := frameDecrypt
  hkdfDeriveKey salt ikm info len := .ok ((List.range len).map fun i =>
    ikm.getD (i % 32) 0 + salt.getD (i % 32) 0 + UInt8.ofNat (i / 32 + info.length))
  kdfRk root dh := .ok
    (addBytes 32 (addBytes 32 root dh) (List.replicate 32 1),
      addBytes 32 (addBytes 32 root dh) (List.replicate 32 2))
  kdfCk chain := .ok
    (addBytes 32 chain (List.replicate 32 3), addBytes 32 chain (List.replicate 32 5))
  generateNonce len seed := .ok (leBytes len seed)
  mlkemGenerate seed := (leBytes mlkem768PkSize seed, leBytes mlkem768SkSize seed)
  mlkemEncapsulate pk seed :=
    some (leBytes mlkem768CtSize seed, seedKem pk (leBytes mlkem768CtSize seed))
  mlkemDecapsulate sk ct := .ok (seedKem sk ct)

@[simp] theorem length_addBytes (n : Nat) (a b : Bytes) : (addBytes n a b).length = n := by
  simp [addBytes]

theorem sizedCrypto_hkdfTotal : sizedCrypto.HkdfTotal := fun _ _ _ _ _ => ⟨_, rfl⟩

theorem sizedCrypto_sized : sizedCrypto.Sized where
  hkdf _ _ _ len out h := by
    cases h
    simp
  publicKey _ := length_leBytes _ _
  secretKey _ := length_leBytes _ _
  ciphertext _ _ _ h := by
    cases h
    exact length_leBytes _ _

/-! ## An ideal AEAD -/

/-- A sealed box: what it was sealed under and what it holds. -/
structure Box where
  key : Bytes
  nonce : Bytes
  ad : Bytes
  ciphertext : Bytes
  plaintext : Bytes
deriving DecidableEq

/-- The primitives with an AEAD that opens the boxes of a list and nothing else. -/
def opensOnly (C : Crypto) (boxes : List Box) : Crypto :=
  { C with
    aeadDecrypt := fun key nonce ciphertext ad =>
      match boxes.find? fun b => b.key == key && (b.nonce == nonce &&
          (b.ciphertext == ciphertext && some b.ad == ad)) with
      | some b => .ok b.plaintext
      | none => .error (.aeadDecryptionError "aead::Error") }

theorem opensOnly_freeKdf {C : Crypto} (h : C.FreeKdf) (boxes : List Box) :
    (opensOnly C boxes).FreeKdf where
  ckKey := h.ckKey
  ckNext := h.ckNext
  rkRoot := h.rkRoot
  rkChain := h.rkChain
  hkdf := h.hkdf
  disjoint := h.disjoint

theorem exists_box_of_opens {C : Crypto} {boxes : List Box} {key nonce ciphertext ad out : Bytes}
    (h : (opensOnly C boxes).aeadDecrypt key nonce ciphertext (some ad) = .ok out) :
    ∃ b ∈ boxes, b.key = key ∧ b.nonce = nonce ∧ b.ciphertext = ciphertext ∧ b.ad = ad := by
  unfold opensOnly at h
  dsimp only at h
  split at h
  · rename_i b hb
    have hmatch := List.find?_some hb
    simp only [Bool.and_eq_true, beq_iff_eq, Option.some.injEq] at hmatch
    exact ⟨b, List.mem_of_find?_eq_some hb, hmatch⟩
  · cases h

end ConstructCore
