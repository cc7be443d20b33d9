import ConstructCore.Lib.Merkle
import ConstructCore.Trust.Certificate

/-!
# Key transparency

`crypto/key_transparency.rs`: inclusion proofs in the log of device keys, judged. The verifier
takes the siblings from the head's side and recomputes the split of every subtree with a count of
leading zeros; up to `2^64` leaves that is the split of the tree (`split_eq`), and the recursion
is `Merkle.climb`.
-/

namespace ConstructCore

open Bytes

namespace Trust

/-- A hash. -/
abbrev Hash := Vector UInt8 32

section

variable (S : Signing)

def nodeInput (left right : Hash) : Bytes := 1 :: left.toList ++ right.toList

def nodeHash (left right : Hash) : Hash := S.sha256 (nodeInput left right)

def maxProofDepth : Nat := 64

/-- `usize::leading_zeros` on 64 bits. -/
def leadingZeros (n : Nat) : Nat := if n = 0 then 64 else 63 - Nat.log2 n

def split (n : Nat) : Nat := if n < 2 then 0 else 1 <<< (64 - 1 - leadingZeros (n - 1))

variable {n : Nat}

theorem split_le (hn : 2 ≤ n) : split n ≤ Merkle.splitPoint n := by
  unfold split leadingZeros Merkle.splitPoint
  rw [if_neg (by omega), if_neg (by omega), Nat.one_shiftLeft, Nat.log2_eq_log_two]
  exact Nat.pow_le_pow_right (by decide) (by omega)

theorem split_pos (hn : 2 ≤ n) : 0 < split n := by
  unfold split
  rw [if_neg (by omega), Nat.one_shiftLeft]
  exact Nat.pow_pos (by decide)

def merkleTreeHash : List Hash → Hash
  | [] => S.sha256 []
  | [leaf] => leaf
  | a :: b :: rest =>
    let leaves := a :: b :: rest
    let k := split leaves.length
    nodeHash S (merkleTreeHash (leaves.take k)) (merkleTreeHash (leaves.drop k))
termination_by leaves => leaves.length
decreasing_by
  · have hle := split_le (n := (a :: b :: rest).length) (by simp)
    have hlt := Merkle.splitPoint_lt (n := (a :: b :: rest).length) (by simp)
    rw [List.length_take]
    omega
  · have hpos := split_pos (n := (a :: b :: rest).length) (by simp)
    simp only [List.length_drop, List.length_cons] at hpos ⊢
    omega

/-- The recursion of `inclusion_reconstruct`, on the siblings from the last on. -/
def reconstructFrom (leaf : Hash) : List Hash → Nat → Nat → Option Hash
  | [], index, size => if size = 1 ∧ index = 0 then some leaf else none
  | sibling :: inner, index, size =>
    if size < 2 then none
    else
      let k := split size
      if index < k then (reconstructFrom leaf inner index k).map fun left => nodeHash S left sibling
      else (reconstructFrom leaf inner (index - k) (size - k)).map fun right =>
        nodeHash S sibling right

def inclusionReconstruct (leaf : Hash) (proof : List Hash) (index size : Nat) : Option Hash :=
  reconstructFrom S leaf proof.reverse index size

def verifyInclusionInner (leafHash : Hash) (proof : List Hash) (leafIndex treeSize : UInt64)
    (rootHash : Hash) : Bool :=
  if treeSize = 0 ∨ leafIndex ≥ treeSize ∨ proof.length > maxProofDepth then false
  else inclusionReconstruct S leafHash proof leafIndex.toNat treeSize.toNat = some rootHash

def leafInput (domain : UInt8) (deviceId key : Bytes) : Bytes := domain :: deviceId ++ key

def leafHash (domain : UInt8) (deviceId key : Bytes) : Hash := S.sha256 (leafInput domain deviceId key)

/-! ## Judging a proof -/

def treeHeadSignable (treeSize : UInt64) (root : Hash) : Bytes :=
  ofText "ConstructKT-v1" ++ u64ToBe treeSize ++ root.toList

def ktHeadBody (treeSize : UInt64) (root : Hash) : Bytes := u64ToBe treeSize ++ root.toList

structure KtInclusionProof where
  leafIndex : UInt64
  treeSize : UInt64
  rootHash : Bytes
  proofHashes : List Bytes
  treeHeadSignature : Bytes
deriving DecidableEq

structure KtSignedTreeHead where
  treeSize : UInt64
  rootHash : Bytes
  kid : Bytes
  signature : Bytes
deriving DecidableEq

inductive KtVerdict where
  | verified
  | unavailable
  | malformedProof
  | inclusionProofInvalid
  | signatureInvalid
deriving DecidableEq, Repr

def judgeHead (proof : KtInclusionProof) (root : Hash) (head : KtSignedTreeHead)
    (trust : ServerTrust) (now : Int64) : KtVerdict :=
  if head.treeSize ≠ proof.treeSize ∨ head.rootHash ≠ proof.rootHash then .inclusionProofInvalid
  else
    match toVector? 16 head.kid with
    | none => .malformedProof
    | some kid =>
      match trust.ring.verify S .ktHead kid (ktHeadBody head.treeSize root) head.signature now
          now with
      | .ok () => .verified
      | .error .unknownKey => .unavailable
      | .error _ => .signatureInvalid

def judgeLegacyHead (proof : KtInclusionProof) (root : Hash) (trust : ServerTrust) : KtVerdict :=
  if trust.legacyKeys.isEmpty then .unavailable
  else if proof.treeHeadSignature.length ≠ 64 then .signatureInvalid
  else if trust.legacyKeys.any fun k => k.length = 32 ∧
      S.ed25519Verify k (treeHeadSignable proof.treeSize root) proof.treeHeadSignature then .verified
  else .signatureInvalid

def verifyProof (domain : UInt8) (deviceId key : Bytes) (proof : KtInclusionProof)
    (head : Option KtSignedTreeHead) (trust : ServerTrust) (now : Int64) : KtVerdict :=
  match toVector? 32 proof.rootHash with
  | none => .malformedProof
  | some root =>
    match proof.proofHashes.mapM (toVector? 32) with
    | none => .malformedProof
    | some hashes =>
      if proof.treeSize = 0 ∨ proof.leafIndex ≥ proof.treeSize then .malformedProof
      else if ! verifyInclusionInner S (leafHash S domain deviceId key) hashes proof.leafIndex
          proof.treeSize root then .inclusionProofInvalid
      else if trust.ring.hasRoots then
        match head with
        | some head => judgeHead S proof root head trust now
        | none =>
          if hybridRequired then .signatureInvalid else judgeLegacyHead S proof root trust
      else judgeLegacyHead S proof root trust

end

/-! ## The tree -/

variable {S : Signing}

theorem split_eq {n : Nat} (hn : 2 ≤ n) (hmax : n ≤ 2 ^ 64) : split n = Merkle.splitPoint n := by
  have hlog : Nat.log 2 (n - 1) < 64 := Nat.log_lt_of_lt_pow (by omega) (by omega)
  unfold split leadingZeros Merkle.splitPoint
  rw [if_neg (by omega), if_neg (by omega), Nat.one_shiftLeft, Nat.log2_eq_log_two]
  congr 1
  omega

variable {leaves proof : List Hash} {leaf root : Hash} {index size : UInt64} {domain : UInt8}
  {id key : Bytes}

theorem merkleTreeHash_eq (hlen : leaves.length ≤ 2 ^ 64) :
    merkleTreeHash S leaves = Merkle.root (nodeHash S) (S.sha256 []) leaves := by
  induction hn : leaves.length using Nat.strong_induction_on generalizing leaves with
  | _ n ih =>
    subst hn
    obtain _ | ⟨a, _ | ⟨b, rest⟩⟩ := leaves
    · rw [merkleTreeHash, Merkle.root]
    · rw [merkleTreeHash, Merkle.root]
    · have htwo : 2 ≤ (a :: b :: rest).length := by simp
      have hk := Merkle.splitPoint_lt htwo
      have hpos := Merkle.splitPoint_pos (a :: b :: rest).length
      rw [merkleTreeHash, Merkle.root_of_two htwo]
      simp only [split_eq htwo hlen]
      rw [ih _ (by rw [List.length_take]; omega) (by rw [List.length_take]; omega) rfl,
        ih _ (by rw [List.length_drop]; omega) (by rw [List.length_drop]; omega) rfl]

theorem reconstructFrom_eq {siblings : List Hash} {index size : Nat} (hsize : size ≤ 2 ^ 64) :
    reconstructFrom S leaf siblings index size =
      Merkle.climb (nodeHash S) leaf siblings index size := by
  induction siblings generalizing index size with
  | nil => rfl
  | cons sibling inner ih =>
    rw [reconstructFrom, Merkle.climb]
    by_cases hone : size < 2
    · rw [if_pos hone, if_pos hone]
    · have hk := Merkle.splitPoint_lt (show 2 ≤ size by omega)
      rw [if_neg hone, if_neg hone]
      simp only [split_eq (show 2 ≤ size by omega) hsize]
      rw [ih (by omega), ih (by omega)]

/-! ## Inclusion -/

def CollisionFree (S : Signing) (inputs : List Bytes) : Prop :=
  ∀ x ∈ inputs, ∀ y ∈ inputs, S.sha256 x = S.sha256 y → x = y

instance (S : Signing) (inputs : List Bytes) : Decidable (CollisionFree S inputs) :=
  inferInstanceAs (Decidable (∀ x ∈ inputs, ∀ y ∈ inputs, S.sha256 x = S.sha256 y → x = y))

def pathInputs (S : Signing) (leaf : Hash) (proof : List Hash) (index size : Nat) : List Bytes :=
  (Merkle.climbed (nodeHash S) leaf proof.reverse index size).map fun p => nodeInput p.1 p.2

def auditPath (S : Signing) (index : Nat) (leaves : List Hash) : List Hash :=
  Merkle.path (nodeHash S) (S.sha256 []) index leaves

theorem nodeInput_inj {a b c d : Hash} (h : nodeInput a b = nodeInput c d) : a = c ∧ b = d := by
  unfold nodeInput at h
  rw [List.cons_append, List.cons_append, List.cons.injEq] at h
  obtain ⟨hl, hr⟩ := List.append_inj h.2 (by simp)
  exact ⟨Vector.toList_inj.mp hl, Vector.toList_inj.mp hr⟩

theorem CollisionFree.injective {pairs : List (Hash × Hash)}
    (h : CollisionFree S (pairs.map fun p => nodeInput p.1 p.2)) :
    Merkle.Injective (nodeHash S) pairs := by
  intro p hp q hq heq
  obtain ⟨hl, hr⟩ := nodeInput_inj (h _ (List.mem_map_of_mem hp) _ (List.mem_map_of_mem hq) heq)
  exact Prod.ext hl hr

theorem CollisionFree.subset {inputs inputs' : List Bytes} (h : CollisionFree S inputs)
    (hsub : inputs' ⊆ inputs) : CollisionFree S inputs' :=
  fun x hx y hy => h x (hsub hx) y (hsub hy)

theorem verifyInclusionInner_iff :
    verifyInclusionInner S leaf proof index size root = true ↔
      index.toNat < size.toNat ∧ proof.length ≤ maxProofDepth ∧
        Merkle.climb (nodeHash S) leaf proof.reverse index.toNat size.toNat = some root := by
  have hsize : size.toNat ≤ 2 ^ 64 := size.toNat_lt.le
  unfold verifyInclusionInner inclusionReconstruct
  rw [reconstructFrom_eq hsize]
  by_cases hguard : size = 0 ∨ index ≥ size ∨ proof.length > maxProofDepth
  · rw [if_pos hguard]
    refine ⟨fun h => (nomatch h), ?_⟩
    rintro ⟨hlt, hlen, -⟩
    rcases hguard with rfl | hge | hlong
    · exact absurd hlt (Nat.not_lt_zero _)
    · rw [ge_iff_le, UInt64.le_iff_toNat_le] at hge
      omega
    · omega
  · rw [if_neg hguard, decide_eq_true_eq]
    simp only [not_or, ge_iff_le, UInt64.not_le, UInt64.lt_iff_toNat_lt, gt_iff_lt, not_lt] at hguard
    exact ⟨fun h => ⟨hguard.2.1, hguard.2.2, h⟩, fun h => h.2.2⟩

theorem leaf_unique {leaf' : Hash} {proof' : List Hash}
    (hcf : CollisionFree S (pathInputs S leaf proof index.toNat size.toNat ++
      pathInputs S leaf' proof' index.toNat size.toNat))
    (h : verifyInclusionInner S leaf proof index size root = true)
    (h' : verifyInclusionInner S leaf' proof' index size root = true) :
    leaf = leaf' ∧ proof = proof' := by
  unfold pathInputs at hcf
  rw [← List.map_append] at hcf
  obtain ⟨hleaf, hproof⟩ := Merkle.climb_unique hcf.injective
    (verifyInclusionInner_iff.mp h).2.2 (verifyInclusionInner_iff.mp h').2.2
  exact ⟨hleaf, List.reverse_injective hproof⟩

theorem verifyInclusionInner_auditPath (hmax : leaves.length ≤ 2 ^ 63)
    (hleaf : leaves[index.toNat]? = some leaf) :
    verifyInclusionInner S leaf (auditPath S index.toNat leaves) index
      (UInt64.ofNat leaves.length) (Merkle.root (nodeHash S) (S.sha256 []) leaves) = true := by
  have hsize : (UInt64.ofNat leaves.length).toNat = leaves.length := by
    rw [UInt64.toNat_ofNat']
    exact Nat.mod_eq_of_lt (by omega)
  rw [verifyInclusionInner_iff, hsize]
  refine ⟨(List.getElem?_eq_some_iff.mp hleaf).1, ?_, Merkle.climb_path hleaf⟩
  exact (Merkle.length_path_le hmax).trans (by decide)

def IsDeviceId (id : Bytes) : Prop := ∃ text : String, text.length = 32 ∧ id = ofText text

def proofInputs (S : Signing) (domain : UInt8) (deviceId key : Bytes) (proof : KtInclusionProof) :
    List Bytes :=
  leafInput domain deviceId key ::
    pathInputs S (leafHash S domain deviceId key) ((proof.proofHashes.mapM (toVector? 32)).getD [])
      proof.leafIndex.toNat proof.treeSize.toNat

theorem leafInput_inj {domain' : UInt8} {id' key' : Bytes} (hid : IsDeviceId id)
    (hid' : IsDeviceId id') (h : leafInput domain id key = leafInput domain' id' key') :
    domain = domain' ∧ id = id' ∧ key = key' := by
  obtain ⟨text, hlen, rfl⟩ := hid
  obtain ⟨text', hlen', rfl⟩ := hid'
  unfold leafInput at h
  rw [List.cons_append, List.cons_append, List.cons.injEq] at h
  obtain ⟨rfl, rfl⟩ := ofText_append_inj (hlen.trans hlen'.symm) h.2
  exact ⟨h.1, rfl, rfl⟩

theorem verifyProof_verified {proof : KtInclusionProof} {head : Option KtSignedTreeHead}
    {trust : ServerTrust} {now : Int64}
    (h : verifyProof S domain id key proof head trust now = .verified) :
    ∃ root, toVector? 32 proof.rootHash = some root ∧
      verifyInclusionInner S (leafHash S domain id key)
        ((proof.proofHashes.mapM (toVector? 32)).getD []) proof.leafIndex proof.treeSize root =
          true := by
  unfold verifyProof at h
  cases hroot : toVector? 32 proof.rootHash with
  | none => simp [hroot] at h
  | some root =>
    cases hhashes : proof.proofHashes.mapM (toVector? 32) with
    | none => simp [hroot, hhashes] at h
    | some hashes =>
      simp only [hroot, hhashes] at h
      split at h
      · cases h
      · split at h
        · cases h
        · rename_i hverify
          exact ⟨root, rfl, by simpa using hverify⟩

/-- **Inclusion is sound and complete.** Against the root of a tree of one to `2^63` leaves, a
leaf hash with a proof is accepted exactly when it stands at that index and the proof is its audit
path. And for one size, root and index, whoever computed the root, at most one leaf domain, device
id and key is verified. SHA-256 is to tell apart what is hashed on the way. -/
theorem inclusion_sound_and_complete (S : Signing) :
    (∀ (leaves : List Hash) (leaf : Hash) (proof : List Hash) (index : UInt64),
      1 ≤ leaves.length → leaves.length ≤ 2 ^ 63 →
      (∀ honest, leaves[index.toNat]? = some honest →
        CollisionFree S (pathInputs S leaf proof index.toNat leaves.length ++
          pathInputs S honest (auditPath S index.toNat leaves) index.toNat leaves.length)) →
      (verifyInclusionInner S leaf proof index (UInt64.ofNat leaves.length)
          (merkleTreeHash S leaves) = true ↔
        index.toNat < leaves.length ∧ leaves[index.toNat]? = some leaf ∧
          proof = auditPath S index.toNat leaves)) ∧
    ∀ domain id key proof head trust now domain' id' key' proof' head' trust' now',
      proof.treeSize = proof'.treeSize → proof.rootHash = proof'.rootHash →
      proof.leafIndex = proof'.leafIndex → IsDeviceId id → IsDeviceId id' →
      CollisionFree S (proofInputs S domain id key proof ++ proofInputs S domain' id' key' proof') →
      verifyProof S domain id key proof head trust now = .verified →
      verifyProof S domain' id' key' proof' head' trust' now' = .verified →
      domain = domain' ∧ id = id' ∧ key = key' := by
  refine ⟨fun leaves leaf proof index hone hmax hcf => ?_, ?_⟩
  · have hsize : (UInt64.ofNat leaves.length).toNat = leaves.length := by
      rw [UInt64.toNat_ofNat']
      exact Nat.mod_eq_of_lt (by omega)
    rw [merkleTreeHash_eq (by omega)]
    constructor
    · intro haccept
      have hlt := (verifyInclusionInner_iff.mp haccept).1
      rw [hsize] at hlt
      -- the honest leaf is accepted at that place too
      have hhonest : leaves[index.toNat]? = some leaves[index.toNat] := List.getElem?_eq_getElem hlt
      obtain ⟨rfl, rfl⟩ := leaf_unique (hsize.symm ▸ hcf _ hhonest) haccept
        (verifyInclusionInner_auditPath hmax hhonest)
      exact ⟨hlt, hhonest, rfl⟩
    · rintro ⟨-, hleaf, rfl⟩
      exact verifyInclusionInner_auditPath hmax hleaf
  · intro domain id key proof head trust now domain' id' key' proof' head' trust' now' hsize hroot
      hindex hid hid' hcf h h'
    obtain ⟨root, hr, haccept⟩ := verifyProof_verified h
    obtain ⟨root', hr', haccept'⟩ := verifyProof_verified h'
    rw [← hroot, hr] at hr'
    cases hr'
    unfold proofInputs at hcf
    rw [← hsize, ← hindex] at haccept' hcf
    obtain ⟨hleaf, -⟩ := leaf_unique (hcf.subset fun x hx => by
      simp only [List.mem_append, List.mem_cons] at hx ⊢
      tauto) haccept haccept'
    exact leafInput_inj hid hid' (hcf _ (by simp) _ (by simp) hleaf)

def ktSigning : Signing where
  sha256 b := Vector.replicate 32 (b.getD 0 0)
  ed25519Verify _ _ _ := true
  hybridVerify _ _ _ := false

def ktProof (signature : Bytes) : KtInclusionProof where
  leafIndex := 0
  treeSize := 2
  rootHash := List.replicate 32 1
  proofHashes := [List.replicate 32 5]
  treeHeadSignature := signature

def ktLeaves : List Hash :=
  [Vector.replicate 32 10, Vector.replicate 32 11, Vector.replicate 32 12]

theorem auditPath_ktLeaves :
    auditPath ktSigning 2 ktLeaves =
      [nodeHash ktSigning (Vector.replicate 32 10) (Vector.replicate 32 11)] := by
  have hsplit : Merkle.splitPoint ktLeaves.length = 2 := by decide
  unfold auditPath
  rw [Merkle.path_right (by decide) (by decide), hsplit, Merkle.path_of_one (by decide),
    Merkle.root_of_two (by decide)]
  have hleft : (ktLeaves.take 2).take (Merkle.splitPoint (ktLeaves.take 2).length) =
      [Vector.replicate 32 10] := by decide
  have hright : (ktLeaves.take 2).drop (Merkle.splitPoint (ktLeaves.take 2).length) =
      [Vector.replicate 32 11] := by decide
  rw [hleft, hright, Merkle.root, Merkle.root, List.nil_append]

/-- The last leaf of three is accepted on its path; two judgements of one key on one head. -/
theorem inclusion_sound_and_complete_three :
    verifyInclusionInner ktSigning (Vector.replicate 32 12)
        [nodeHash ktSigning (Vector.replicate 32 10) (Vector.replicate 32 11)] 2 3
        (merkleTreeHash ktSigning ktLeaves) = true ∧
      ((0 : UInt8) = 0 ∧ ofText "aaaaaaaaaaaaaaaaaaaaaaaaaaaaaaaa" =
        ofText "aaaaaaaaaaaaaaaaaaaaaaaaaaaaaaaa" ∧ [(7 : UInt8)] = [7]) := by
  obtain ⟨hinclusion, hunique⟩ := inclusion_sound_and_complete ktSigning
  have hid : IsDeviceId (ofText "aaaaaaaaaaaaaaaaaaaaaaaaaaaaaaaa") := ⟨_, by decide, rfl⟩
  constructor
  · refine (hinclusion ktLeaves _ _ 2 (by decide) (by decide) fun honest hhonest => ?_).mpr
      ⟨by decide, by decide, auditPath_ktLeaves.symm⟩
    cases hhonest
    have hpath : auditPath ktSigning (UInt64.toNat 2) ktLeaves =
      [nodeHash ktSigning (Vector.replicate 32 10) (Vector.replicate 32 11)] := auditPath_ktLeaves
    rw [hpath]
    decide +kernel
  · exact hunique 0 _ [7] (ktProof (List.replicate 64 1)) none ⟨[List.replicate 32 3], ⟨[], []⟩⟩ 5
      0 _ [7] (ktProof (List.replicate 64 2)) none ⟨[List.replicate 32 4], ⟨[], []⟩⟩ 6
      rfl rfl rfl hid hid (by decide +kernel) (by decide +kernel) (by decide +kernel)

end Trust

end ConstructCore
