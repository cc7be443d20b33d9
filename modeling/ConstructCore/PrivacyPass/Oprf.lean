import ConstructCore.Crypto.Provider
import ConstructCore.Lib.Op
import ConstructCore.PrivacyPass.Dleq

/-!
# Blind tokens

`crypto/privacy_pass/mod.rs`: a client blinds the hash of a nonce, the issuer multiplies the
blinded point by its scalar, and the client takes its blind off again and derives the token. The
issuer derives the same token from the nonce alone when the token is redeemed.

* `finalize_evaluate`, `serverVerify_tokenOf`: the blind cancels, and what is left is the token
  the issuer derives.
* `existsUnique_smul`: in a group of prime order one blind leads from a point to another.
* `card_blinds`: what the issuer is shown is equally likely for every nonce.
-/

namespace ConstructCore

open Bytes

/-- `ct_eq`: the differing bits of all bytes, gathered before they are looked at. -/
def ctEq (a b : Bytes) : Bool :=
  a.length == b.length && (a.zip b).foldl (fun acc p => acc ||| (p.1 ^^^ p.2)) (0 : UInt8) == 0

theorem or_eq_zero {x y : UInt8} : x ||| y = 0 ↔ x = 0 ∧ y = 0 := by
  constructor
  · intro h
    have hbits : x.toBitVec ||| y.toBitVec = 0#8 := congrArg UInt8.toBitVec h
    rw [BitVec.or_eq_zero_iff] at hbits
    exact ⟨UInt8.toBitVec_inj.mp hbits.1, UInt8.toBitVec_inj.mp hbits.2⟩
  · rintro ⟨rfl, rfl⟩
    rfl

/-- The accumulator is zero when it began so and no pair of bytes differs. -/
theorem foldl_or_eq_zero (pairs : List (UInt8 × UInt8)) (acc : UInt8) :
    pairs.foldl (fun acc p => acc ||| (p.1 ^^^ p.2)) acc = 0 ↔
      acc = 0 ∧ ∀ p ∈ pairs, p.1 = p.2 := by
  induction pairs generalizing acc with
  | nil => simp
  | cons p pairs ih =>
    rw [List.foldl_cons, ih, or_eq_zero, UInt8.xor_eq_zero_iff, List.forall_mem_cons, and_assoc]

theorem ctEq_iff {a b : Bytes} : ctEq a b = true ↔ a = b := by
  unfold ctEq
  rw [Bool.and_eq_true, beq_iff_eq, beq_iff_eq, foldl_or_eq_zero]
  constructor
  · rintro ⟨hlen, -, hpairs⟩
    refine List.ext_getElem hlen ?_
    intro i ha hb
    exact hpairs (a[i], b[i]) (List.mem_iff_getElem.mpr ⟨i, by simp [ha, hb], by simp⟩)
  · rintro rfl
    refine ⟨rfl, rfl, ?_⟩
    intro p hp
    obtain ⟨i, hi, rfl⟩ := List.mem_iff_getElem.mp hp
    simp

/-- Ristretto255 with the hash to the group and HKDF-SHA512. -/
structure BlindGroup (q : Nat) (P : Type) extends Ristretto q P where
  /-- `RistrettoPoint::from_hash` of SHA-512 over the bytes. -/
  pointFromHash : Bytes → P
  /-- `Hkdf::<Sha512>::new(None, ikm)` expanded under an info to 32 bytes. -/
  hkdfSha512 : Bytes → Bytes → Vector UInt8 32

namespace BlindGroup

def hkdfInfo : Bytes := ofText "ConstructPP-v1"

variable {q : Nat} {P : Type} (G : BlindGroup q P)

def hashToRistretto (data : Bytes) : P := G.pointFromHash data

def deriveToken (nCompressed nonce : Vector UInt8 32) : Vector UInt8 32 :=
  G.hkdfSha512 (nCompressed.toList ++ nonce.toList) hkdfInfo

variable [Fact q.Prime] [AddCommGroup P] [Module (ZMod q) P]

/-- `blind`, with the scalar it draws. -/
def blind (nonce : Vector UInt8 32) (r : ZMod q) : Vector UInt8 32 × Vector UInt8 32 :=
  let t := G.hashToRistretto nonce.toList
  (G.compress (r • t), G.scalarToBytes r)

def finalize (evaluatedBytes blindFactorBytes nonce : Vector UInt8 32) :
    Except CryptoError (Vector UInt8 32) := do
  let z ← (G.decompress evaluatedBytes).okOr
    (.invalidInputError "pp finalize: evaluated point not on curve")
  let r ← (G.scalarFromCanonicalBytes blindFactorBytes).okOr
    (.invalidInputError "pp finalize: blind factor not canonical")
  let n := r⁻¹ • z
  return G.deriveToken (G.compress n) nonce

def evaluate (kScalarBytes blindedBytes : Vector UInt8 32) :
    Except CryptoError (Vector UInt8 32) := do
  let k ← (G.scalarFromCanonicalBytes kScalarBytes).okOr
    (.invalidInputError "pp evaluate: issuer key not canonical scalar")
  let blinded ← (G.decompress blindedBytes).okOr
    (.invalidInputError "pp evaluate: blinded point not on curve")
  return G.compress (k • blinded)

def serverVerify (token nonce kScalarBytes : Vector UInt8 32) : Except CryptoError Bool := do
  let k ← (G.scalarFromCanonicalBytes kScalarBytes).okOr
    (.invalidInputError "pp verify: issuer key not canonical scalar")
  let n := k • G.hashToRistretto nonce.toList
  let expected := G.deriveToken (G.compress n) nonce
  return ctEq token.toList expected.toList

/-! ## The token -/

def tokenOf (nonce : Vector UInt8 32) (k : ZMod q) : Vector UInt8 32 :=
  G.deriveToken (G.compress (k • G.hashToRistretto nonce.toList)) nonce

variable {G} {nonce kScalarBytes : Vector UInt8 32} {k r : ZMod q}

theorem evaluate_compress (hk : G.scalarFromCanonicalBytes kScalarBytes = some k) (p : P) :
    G.evaluate kScalarBytes (G.compress p) = .ok (G.compress (k • p)) := by
  unfold evaluate
  rw [hk, G.decompress_compress]
  rfl

theorem finalize_compress (p : P) :
    G.finalize (G.compress p) (G.scalarToBytes r) nonce =
      .ok (G.deriveToken (G.compress (r⁻¹ • p)) nonce) := by
  unfold finalize
  rw [G.decompress_compress, G.scalarFromCanonicalBytes_scalarToBytes]
  rfl

theorem inv_smul_smul_smul (hr : r ≠ 0) (t : P) : r⁻¹ • k • r • t = k • t := by
  calc r⁻¹ • k • r • t = k • r⁻¹ • r • t := smul_comm _ _ _
    _ = k • t := by rw [inv_smul_smul₀ hr]

theorem finalize_evaluate (hr : r ≠ 0) :
    G.finalize (G.compress (k • r • G.hashToRistretto nonce.toList)) (G.blind nonce r).2 nonce =
      .ok (G.tokenOf nonce k) := by
  unfold blind
  rw [finalize_compress, inv_smul_smul_smul hr]
  rfl

theorem serverVerify_eq (hk : G.scalarFromCanonicalBytes kScalarBytes = some k)
    (token : Vector UInt8 32) :
    G.serverVerify token nonce kScalarBytes = .ok (ctEq token.toList (G.tokenOf nonce k).toList) := by
  unfold serverVerify
  rw [hk]
  rfl

theorem serverVerify_tokenOf (hk : G.scalarFromCanonicalBytes kScalarBytes = some k) :
    G.serverVerify (G.tokenOf nonce k) nonce kScalarBytes = .ok true := by
  rw [serverVerify_eq hk, ctEq_iff.mpr rfl]

/-! ## The blind -/

/-- In a group of prime order every point is a multiple of any point but the identity. -/
theorem smul_bijective (hcard : Nat.card P = q) {t : P} (ht : t ≠ 0) :
    Function.Bijective fun r : ZMod q => r • t := by
  have : Finite P := Nat.finite_of_card_ne_zero (by
    rw [hcard]
    exact (Fact.out : q.Prime).ne_zero)
  have hinj : Function.Injective fun r : ZMod q => r • t := by
    intro r r' h
    have hzero : (r - r') • t = 0 := by
      rw [sub_smul]
      exact sub_eq_zero.mpr h
    exact sub_eq_zero.mp ((smul_eq_zero.mp hzero).resolve_right ht)
  -- both sides have as many elements
  exact hinj.bijective_of_nat_card_le (by rw [hcard, Nat.card_zmod])

theorem existsUnique_smul (hcard : Nat.card P = q) {t : P} (ht : t ≠ 0) (p : P) :
    ∃! r : ZMod q, r • t = p :=
  (smul_bijective hcard ht).existsUnique p

omit [Fact q.Prime] [AddCommGroup P] [Module (ZMod q) P] in
theorem compress_injective : Function.Injective G.compress := by
  intro p p' h
  have hread := G.decompress_compress p
  rw [h, G.decompress_compress] at hread
  exact (Option.some.inj hread).symm

theorem card_blinds (hcard : Nat.card P = q) (ht : G.hashToRistretto nonce.toList ≠ 0)
    (shown : Vector UInt8 32) [Decidable (∃ p, G.compress p = shown)] :
    Nat.card {r : ZMod q // (G.blind nonce r).1 = shown} =
      if ∃ p, G.compress p = shown then 1 else 0 := by
  split
  · rename_i hshown
    obtain ⟨p, rfl⟩ := hshown
    obtain ⟨r, hr, huniq⟩ := existsUnique_smul hcard ht p
    rw [Nat.card_eq_one_iff_unique]
    refine ⟨⟨?_⟩, ⟨⟨r, congrArg G.compress hr⟩⟩⟩
    rintro ⟨a, ha⟩ ⟨b, hb⟩
    exact Subtype.ext ((huniq a (compress_injective ha)).trans
      (huniq b (compress_injective hb)).symm)
  · rename_i hshown
    rw [Nat.card_eq_zero]
    refine .inl ⟨?_⟩
    rintro ⟨r, hr⟩
    exact hshown ⟨_, hr⟩

/-- Tokens are correct and blind. Whatever the blind, what the client finalizes from the issuer's
answer is the one token of the nonce, and the issuer accepts it. One blind leads from the hash of
a nonce to any given point, so that the blinds that show the issuer a given encoding are as many
for one nonce as for another. -/
theorem oprf_correct_and_blind (G : BlindGroup q P) (hcard : Nat.card P = q) :
    (∀ nonce kScalarBytes : Vector UInt8 32, (G.scalarFromCanonicalBytes kScalarBytes).isSome →
      ∃ token, G.serverVerify token nonce kScalarBytes = .ok true ∧
        ∀ r : ZMod q, r ≠ 0 →
          ∃ evaluated, G.evaluate kScalarBytes (G.blind nonce r).1 = .ok evaluated ∧
            G.finalize evaluated (G.blind nonce r).2 nonce = .ok token) ∧
    (∀ nonce : Vector UInt8 32, G.hashToRistretto nonce.toList ≠ 0 → ∀ p : P, p ≠ 0 →
      ∃! r : ZMod q, r • G.hashToRistretto nonce.toList = p) ∧
    ∀ nonce nonce' shown : Vector UInt8 32, G.hashToRistretto nonce.toList ≠ 0 →
      G.hashToRistretto nonce'.toList ≠ 0 →
      Nat.card {r : ZMod q // (G.blind nonce r).1 = shown} =
        Nat.card {r : ZMod q // (G.blind nonce' r).1 = shown} := by
  refine ⟨?_, ?_, ?_⟩
  · intro nonce kScalarBytes hcanonical
    obtain ⟨k, hk⟩ := Option.isSome_iff_exists.mp hcanonical
    refine ⟨G.tokenOf nonce k, serverVerify_tokenOf hk, ?_⟩
    intro r hr
    exact ⟨_, evaluate_compress hk _, finalize_evaluate hr⟩
  · intro nonce ht p _
    exact existsUnique_smul hcard ht p
  · intro nonce nonce' shown ht ht'
    classical
    rw [card_blinds hcard ht, card_blinds hcard ht']

/-- The toy group of order 11, a nonce hashed to one more than its first byte modulo ten. -/
def toyBlind : BlindGroup 11 (ZMod 11) where
  toRistretto := .toy
  pointFromHash b := ((b.headD 0).toNat % 10 + 1 : Nat)
  hkdfSha512 ikm _ := .ofFn fun i => ikm.getD i.val 0

/-- The issuer's scalar 3 and the blind 5 on the nonce of zeros. -/
theorem oprf_correct_and_blind_toy :
    (∃ token, toyBlind.serverVerify token (.replicate 32 0) (Ristretto.toyEncode 3) = .ok true ∧
      ∃ evaluated, toyBlind.evaluate (Ristretto.toyEncode 3)
          (toyBlind.blind (.replicate 32 0) 5).1 = .ok evaluated ∧
        toyBlind.finalize evaluated (toyBlind.blind (.replicate 32 0) 5).2 (.replicate 32 0) =
          .ok token) ∧
    (∃! r : ZMod 11, r • toyBlind.hashToRistretto (List.replicate 32 0) = 7) ∧
    ∀ shown, Nat.card {r : ZMod 11 // (toyBlind.blind (.replicate 32 0) r).1 = shown} =
      Nat.card {r : ZMod 11 // (toyBlind.blind (.replicate 32 4) r).1 = shown} := by
  obtain ⟨hcorrect, hunique, hblind⟩ := oprf_correct_and_blind toyBlind (Nat.card_zmod 11)
  refine ⟨?_, ?_, ?_⟩
  · obtain ⟨token, hverify, hall⟩ := hcorrect (.replicate 32 0) (Ristretto.toyEncode 3) (by decide)
    exact ⟨token, hverify, hall 5 (by decide)⟩
  · exact hunique (.replicate 32 0) (by decide) 7 (by decide)
  · intro shown
    exact hblind (.replicate 32 0) (.replicate 32 4) shown (by decide) (by decide)

end BlindGroup

end ConstructCore
