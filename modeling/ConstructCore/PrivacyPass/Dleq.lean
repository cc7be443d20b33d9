import ConstructCore.Lib.Bytes
import Mathlib.Algebra.Field.ZMod
import Mathlib.Algebra.Module.Torsion.Field
import Mathlib.Tactic.Abel

/-!
# Batched DLEQ proofs

`crypto/privacy_pass/mod.rs`: the client checks that one scalar links the issuer's commitment
`K = k·G` and every evaluated point `Z_i = k·B_i`, by a proof about two linear combinations of
the batch, `M = Σ d_i·B_i` and `Zc = Σ d_i·Z_i`.

Ristretto255 is a parameter: points form a module over the scalars `ZMod q`, with encodings that
read back what they wrote. Both hashes are arbitrary functions of the bytes hashed.
-/

namespace ConstructCore

open Bytes

/-! ## Linear combinations of a batch -/

section Composites

variable {R P : Type} [Field R] [AddCommGroup P] [Module R P]

/-- The loop over the batch: `m += d·b` and `zc += d·z`. -/
def composites (weights : List R) (points : List (P × P)) : P × P :=
  (weights.zip points).foldl (fun acc p => (acc.1 + p.1 • p.2.1, acc.2 + p.1 • p.2.2)) (0, 0)

theorem foldl_composites (terms : List (R × P × P)) (m zc : P) :
    terms.foldl (fun acc p => (acc.1 + p.1 • p.2.1, acc.2 + p.1 • p.2.2)) (m, zc) =
      (m + (terms.map fun p => p.1 • p.2.1).sum, zc + (terms.map fun p => p.1 • p.2.2).sum) := by
  induction terms generalizing m zc with
  | nil => simp
  | cons p rest ih =>
    rw [List.foldl_cons, ih]
    simp [add_assoc]

@[simp] theorem composites_nil_left (points : List (P × P)) :
    composites ([] : List R) points = (0, 0) := rfl

@[simp] theorem composites_nil_right (weights : List R) :
    composites weights ([] : List (P × P)) = (0, 0) := by
  simp [composites]

theorem composites_cons (d : R) (weights : List R) (b z : P) (points : List (P × P)) :
    composites (d :: weights) ((b, z) :: points) =
      (d • b + (composites weights points).1, d • z + (composites weights points).2) := by
  unfold composites
  rw [List.zip_cons_cons, List.foldl_cons, foldl_composites, foldl_composites]
  simp

/-- How far a batch is from the scalar: `Zc - k·M`. -/
def defect (k : R) (weights : List R) (points : List (P × P)) : P :=
  (composites weights points).2 - k • (composites weights points).1

theorem defect_cons (k d : R) (weights : List R) (b z : P) (points : List (P × P)) :
    defect k (d :: weights) ((b, z) :: points) = d • (z - k • b) + defect k weights points := by
  unfold defect
  rw [composites_cons, smul_add, smul_sub, smul_comm k d b]
  dsimp only
  abel

theorem composites_of_linked (k : R) (weights : List R) (bs : List P) :
    (composites weights (bs.map fun b => (b, k • b))).2 =
      k • (composites weights (bs.map fun b => (b, k • b))).1 := by
  induction bs generalizing weights with
  | nil => simp
  | cons b bs ih =>
    cases weights with
    | nil => simp
    | cons d weights =>
      rw [List.map_cons, composites_cons, ih, smul_add, smul_comm k d b]

variable {j : Nat} {b z : P}

theorem defect_set_sub (k x y : R) (weights : List R) (points : List (P × P))
    (hlen : weights.length = points.length) (hj : points[j]? = some (b, z)) :
    defect k (weights.set j x) points - defect k (weights.set j y) points =
      (x - y) • (z - k • b) := by
  induction points generalizing weights j with
  | nil => cases hj
  | cons p points ih =>
    cases weights with
    | nil => cases hlen
    | cons d weights =>
      obtain ⟨b', z'⟩ := p
      cases j with
      | zero =>
        cases hj
        rw [List.set_cons_zero, List.set_cons_zero, defect_cons, defect_cons, sub_smul]
        abel
      | succ j =>
        rw [List.set_cons_succ, List.set_cons_succ, defect_cons, defect_cons,
          add_sub_add_left_eq_sub]
        exact ih weights (Nat.succ.inj hlen) hj

/-- A point that is not linked leaves at most one weight under which the batch passes. -/
theorem weight_unique {k x y : R} {weights : List R} {points : List (P × P)}
    (hlen : weights.length = points.length) (hj : points[j]? = some (b, z)) (hz : z ≠ k • b)
    (hx : (composites (weights.set j x) points).2 = k • (composites (weights.set j x) points).1)
    (hy : (composites (weights.set j y) points).2 = k • (composites (weights.set j y) points).1) :
    x = y := by
  have hdiff := defect_set_sub k x y weights points hlen hj
  unfold defect at hdiff
  rw [hx, hy, sub_self, sub_self, sub_self] at hdiff
  have hzero := (smul_eq_zero.mp hdiff.symm).resolve_right (sub_ne_zero.mpr hz)
  exact sub_eq_zero.mp hzero

/-- Two answers to one commitment on different challenges give the scalar. -/
theorem exists_smul_of_sub_eq {c c' s s' : R} {g k : P} (hc : c ≠ c')
    (h : s • g - c • k = s' • g - c' • k) : k = ((s - s') / (c - c')) • g := by
  have hne : c - c' ≠ 0 := sub_ne_zero.mpr hc
  have hlin : (s - s') • g = (c - c') • k := by
    rw [sub_smul, sub_smul, sub_eq_sub_iff_add_eq_add]
    rw [sub_eq_sub_iff_add_eq_add] at h
    rw [h, add_comm]
  rw [div_eq_inv_mul, mul_smul, hlin, smul_smul, inv_mul_cancel₀ hne, one_smul]

end Composites

/-! ## The proof -/

/-- Ristretto255 and the two hashes. -/
structure Ristretto (q : Nat) (P : Type) where
  basepoint : P
  compress : P → Vector UInt8 32
  decompress : Vector UInt8 32 → Option P
  scalarToBytes : ZMod q → Vector UInt8 32
  scalarFromCanonicalBytes : Vector UInt8 32 → Option (ZMod q)
  sha512 : Bytes → Bytes
  /-- `Scalar::from_hash` of SHA-512 over the bytes. -/
  scalarFromHash : Bytes → ZMod q
  decompress_compress : ∀ p, decompress (compress p) = some p
  scalarFromCanonicalBytes_scalarToBytes : ∀ c,
    scalarFromCanonicalBytes (scalarToBytes c) = some c

namespace Ristretto

variable {q : Nat} {P : Type} [AddCommGroup P] [DecidableEq P] (G : Ristretto q P)

def dleqDomain : Bytes := ofText "ConstructPP-DLEQ-v1"

def dleqHashToScalar (parts : List Bytes) : ZMod q := G.scalarFromHash parts.flatten

def decompressNonidentity (bytes : Vector UInt8 32) : Option P := do
  let p ← G.decompress bytes
  if p = 0 then none else some p

def batchPoints : List (Vector UInt8 32 × Vector UInt8 32) → Option (List (P × P))
  | [] => some []
  | (b, z) :: rest => do
      let b ← G.decompressNonidentity b
      let z ← G.decompressNonidentity z
      let rest ← batchPoints rest
      return (b, z) :: rest

def batchSeed (kPub : Vector UInt8 32) (batch : List (Vector UInt8 32 × Vector UInt8 32)) : Bytes :=
  G.sha512 (dleqDomain ++ [0] ++ kPub.toList ++ batch.flatMap fun p => p.1.toList ++ p.2.toList)

/-- The weights; the index is a `u32`. -/
def batchWeights (seed : Bytes) (batch : List (Vector UInt8 32 × Vector UInt8 32)) :
    List (ZMod q) :=
  batch.zipIdx.map fun p => G.dleqHashToScalar
    [dleqDomain, [1], seed, u32ToBe (UInt32.ofNat p.2), p.1.1.toList, p.1.2.toList]

theorem decompressNonidentity_compress {p : P} (hp : p ≠ 0) :
    G.decompressNonidentity (G.compress p) = some p := by
  unfold decompressNonidentity
  rw [G.decompress_compress]
  exact if_neg hp

omit [AddCommGroup P] [DecidableEq P] in
theorem mapM_toVector?_compress (points : List P) :
    (points.map fun p => (G.compress p).toList).mapM (toVector? 32) =
      some (points.map G.compress) := by
  induction points with
  | nil => rfl
  | cons p points ih =>
    rw [List.map_cons, List.mapM_cons, toVector?_eq_some.mpr rfl, ih]
    rfl

variable [Fact q.Prime] [Module (ZMod q) P]

def computeComposites (kPub : Vector UInt8 32) (blinded evaluated : List (Vector UInt8 32)) :
    Option (P × P) :=
  if blinded.isEmpty || blinded.length != evaluated.length then none
  else do
    let batch := blinded.zip evaluated
    let points ← G.batchPoints batch
    return composites (G.batchWeights (G.batchSeed kPub batch) batch) points

/-- The commitments a verifier recomputes from an answer: `s·G - c·K` and `s·M - c·Zc`. -/
def commitments (k m zc : P) (c s : ZMod q) : P × P :=
  (s • G.basepoint - c • k, s • m - c • zc)

def challenge (issuerPublic : Vector UInt8 32) (m zc a1 a2 : P) : ZMod q :=
  G.dleqHashToScalar [dleqDomain, [3], issuerPublic.toList, (G.compress m).toList,
    (G.compress zc).toList, (G.compress a1).toList, (G.compress a2).toList]

/-- `pp_verify_dleq`; whatever is malformed is refused. -/
def ppVerifyDleq (blinded evaluated : List Bytes) (proof issuerPublic : Bytes) : Bool :=
  ((do
    let blinded ← blinded.mapM (toVector? 32)
    let evaluated ← evaluated.mapM (toVector? 32)
    let issuerPublic ← toVector? 32 issuerPublic
    let proof ← toVector? 64 proof
    let c ← (toVector? 32 (proof.toList.take 32)).bind G.scalarFromCanonicalBytes
    let s ← (toVector? 32 (proof.toList.drop 32)).bind G.scalarFromCanonicalBytes
    let k ← G.decompress issuerPublic
    let (m, zc) ← G.computeComposites issuerPublic blinded evaluated
    let (a1, a2) := G.commitments k m zc c s
    return G.challenge issuerPublic m zc a1 a2 == c : Option Bool)).getD false

/-! ## The prover -/

def evaluatedOf (k : ZMod q) (points : List P) : List P := points.map (k • ·)

/-- The issuer's proof: the challenge, and `a + c·k`. -/
def proveDleq (k a : ZMod q) (m zc : P) : Bytes :=
  let c := G.challenge (G.compress (k • G.basepoint)) m zc (a • G.basepoint) (a • m)
  (G.scalarToBytes c).toList ++ (G.scalarToBytes (a + c * k)).toList

variable {k : ZMod q} {points : List P}

theorem batchPoints_compress (hk : k ≠ 0) (hpoints : ∀ b ∈ points, b ≠ 0) :
    G.batchPoints ((points.map G.compress).zip ((evaluatedOf k points).map G.compress)) =
      some (points.map fun b => (b, k • b)) := by
  induction points with
  | nil => rfl
  | cons b points ih =>
    have hb : b ≠ 0 := hpoints b List.mem_cons_self
    have hkb : k • b ≠ 0 := smul_ne_zero hk hb
    have hrest := ih fun x hx => hpoints x (List.mem_cons_of_mem _ hx)
    show G.batchPoints ((G.compress b, G.compress (k • b)) ::
      (points.map G.compress).zip ((evaluatedOf k points).map G.compress)) = _
    rw [batchPoints, G.decompressNonidentity_compress hb, G.decompressNonidentity_compress hkb,
      hrest]
    rfl

theorem computeComposites_honest (hk : k ≠ 0) (hne : points ≠ []) (hpoints : ∀ b ∈ points, b ≠ 0)
    (kPub : Vector UInt8 32) :
    ∃ m, G.computeComposites kPub (points.map G.compress)
      ((evaluatedOf k points).map G.compress) = some (m, k • m) := by
  unfold computeComposites evaluatedOf
  have hbatch := G.batchPoints_compress hk hpoints
  unfold evaluatedOf at hbatch
  rw [if_neg (by simp [hne])]
  simp only [hbatch, Option.bind_eq_bind, Option.bind_some, Option.pure_def]
  exact ⟨_, congrArg some (Prod.ext rfl (composites_of_linked k _ points))⟩

omit [DecidableEq P] in
theorem commitments_honest (k a c : ZMod q) (m : P) :
    G.commitments (k • G.basepoint) m (k • m) c (a + c * k) = (a • G.basepoint, a • m) := by
  unfold commitments
  rw [add_smul, add_smul, mul_smul, mul_smul, add_sub_cancel_right, add_sub_cancel_right]

theorem ppVerifyDleq_proveDleq (a : ZMod q) {m : P}
    (hm : G.computeComposites (G.compress (k • G.basepoint)) (points.map G.compress)
      ((evaluatedOf k points).map G.compress) = some (m, k • m)) :
    G.ppVerifyDleq (points.map fun b => (G.compress b).toList)
      ((evaluatedOf k points).map fun z => (G.compress z).toList)
      (G.proveDleq k a m (k • m)) (G.compress (k • G.basepoint)).toList = true := by
  have hissuer : toVector? 32 (G.compress (k • G.basepoint)).toList =
      some (G.compress (k • G.basepoint)) := toVector?_eq_some.mpr rfl
  -- the proof is 64 bytes, and its halves are the two scalars
  obtain ⟨proof, hproof⟩ : ∃ proof, toVector? 64 (G.proveDleq k a m (k • m)) = some proof :=
    ⟨_, dif_pos (by simp [proveDleq])⟩
  have hbytes := toVector?_eq_some.mp hproof
  have hc : toVector? 32 (proof.toList.take 32) = some (G.scalarToBytes
      (G.challenge (G.compress (k • G.basepoint)) m (k • m) (a • G.basepoint) (a • m))) := by
    rw [toVector?_eq_some, ← hbytes]
    exact List.take_left' (by simp)
  have hs : toVector? 32 (proof.toList.drop 32) = some (G.scalarToBytes (a +
      G.challenge (G.compress (k • G.basepoint)) m (k • m) (a • G.basepoint) (a • m) * k)) := by
    rw [toVector?_eq_some, ← hbytes]
    exact List.drop_left' (by simp)
  unfold ppVerifyDleq
  simp only [mapM_toVector?_compress, hissuer, hproof, hc, hs, Option.bind_eq_bind,
    Option.bind_some, scalarFromCanonicalBytes_scalarToBytes, decompress_compress, hm,
    commitments_honest, Option.pure_def, beq_self_eq_true, Option.getD_some]

/-- **Batched DLEQ proofs.** Every honest batch is accepted; two answers to one pair of
commitments on different challenges give a scalar that links the commitment to the basepoint and
the composites to each other; and a point that is not linked by it leaves at most one value of
its weight under which the composites are. -/
theorem dleq_complete_and_sound :
    (∀ (k a : ZMod q) (points : List P), k ≠ 0 → points ≠ [] → (∀ b ∈ points, b ≠ 0) →
      ∃ m zc, G.computeComposites (G.compress (k • G.basepoint)) (points.map G.compress)
          ((evaluatedOf k points).map G.compress) = some (m, zc) ∧
        G.ppVerifyDleq (points.map fun b => (G.compress b).toList)
          ((evaluatedOf k points).map fun z => (G.compress z).toList)
          (G.proveDleq k a m zc) (G.compress (k • G.basepoint)).toList = true) ∧
    (∀ issuerPublic blinded evaluated kPoint m zc, G.decompress issuerPublic = some kPoint →
      G.computeComposites issuerPublic blinded evaluated = some (m, zc) →
      ∀ c s c' s', c ≠ c' →
        G.commitments kPoint m zc c s = G.commitments kPoint m zc c' s' →
        ∃ k : ZMod q, kPoint = k • G.basepoint ∧ zc = k • m) ∧
    ∀ (k : ZMod q) (weights : List (ZMod q)) (points : List (P × P)) (j : Nat) (b z : P),
      weights.length = points.length → points[j]? = some (b, z) → z ≠ k • b →
      ∀ x y,
        (composites (weights.set j x) points).2 = k • (composites (weights.set j x) points).1 →
        (composites (weights.set j y) points).2 = k • (composites (weights.set j y) points).1 →
        x = y := by
  refine ⟨?_, ?_, ?_⟩
  · intro k a points hk hne hpoints
    obtain ⟨m, hm⟩ := G.computeComposites_honest hk hne hpoints (G.compress (k • G.basepoint))
    exact ⟨m, k • m, hm, G.ppVerifyDleq_proveDleq a hm⟩
  · intro issuerPublic blinded evaluated kPoint m zc _ _ c s c' s' hc hsame
    obtain ⟨h1, h2⟩ := Prod.mk.inj hsame
    exact ⟨(s - s') / (c - c'), exists_smul_of_sub_eq hc h1, exists_smul_of_sub_eq hc h2⟩
  · exact fun k weights points j b z hlen hj hz x y => weight_unique hlen hj hz

def toyEncode (p : ZMod 11) : Vector UInt8 32 :=
  Vector.ofFn fun i => if i = 0 then UInt8.ofNat p.val else 0

def toy : Ristretto 11 (ZMod 11) where
  basepoint := 1
  compress := toyEncode
  decompress v := some ((v.get 0).toNat : ZMod 11)
  scalarToBytes := toyEncode
  scalarFromCanonicalBytes v := some ((v.get 0).toNat : ZMod 11)
  sha512 b := b.take 64
  scalarFromHash b := (b.map (·.toNat)).sum
  decompress_compress := by decide
  scalarFromCanonicalBytes_scalarToBytes := by decide

instance : Fact (Nat.Prime 11) := ⟨by decide⟩

/-- A batch of two points under the scalar 3; two answers to one commitment under the scalar 4;
a batch with a point that is not linked by 3. -/
theorem dleq_complete_and_sound_toy :
    (∃ m zc, toy.ppVerifyDleq [(toyEncode 2).toList, (toyEncode 5).toList]
      [(toyEncode 6).toList, (toyEncode 4).toList] (toy.proveDleq 3 7 m zc)
      (toyEncode 3).toList = true) ∧
    (∃ k : ZMod 11, (4 : ZMod 11) = k • toy.basepoint) ∧
    ∀ x y : ZMod 11,
      (composites [x, 1] [(2, 7), (5, (4 : ZMod 11))]).2 =
        (3 : ZMod 11) • (composites [x, 1] [(2, 7), (5, (4 : ZMod 11))]).1 →
      (composites [y, 1] [(2, 7), (5, (4 : ZMod 11))]).2 =
        (3 : ZMod 11) • (composites [y, 1] [(2, 7), (5, (4 : ZMod 11))]).1 → x = y := by
  refine ⟨?_, ?_, ?_⟩
  · obtain ⟨m, zc, -, h⟩ := toy.dleq_complete_and_sound.1 3 7 [2, 5] (by decide) (by decide)
      (by decide)
    exact ⟨m, zc, h⟩
  · obtain ⟨k, hk, -⟩ := toy.dleq_complete_and_sound.2.1 (toyEncode 4) [toyEncode 2] [toyEncode 8]
      4 _ _ (by decide) rfl 0 5 1 9 (by decide) (by decide +kernel)
    exact ⟨k, hk⟩
  · exact toy.dleq_complete_and_sound.2.2 3 [0, 1] [(2, 7), (5, 4)] 0 2 7 rfl rfl (by decide)

end Ristretto

end ConstructCore
