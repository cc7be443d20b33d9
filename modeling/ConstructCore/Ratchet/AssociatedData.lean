import ConstructCore.Ratchet.State

/-!
# The associated data of a message

`associatedData` writes the bytes the AEAD binds: version 3 covers the identities, the
session id, the ratchet key and the message number (and for the PQ-ratchet suite the PQ
epoch and index); version 4 covers the whole header. Both sides build it from the same
header, the opening side with the identities swapped.

The variable parts of version 4 are length-prefixed, so within the lengths two bytes can
hold, the bytes determine the header (`associatedData_header`); a suite without the PQ
ratchet leaves the PQ epoch and index out.
-/

namespace ConstructCore

open Bytes

/-- The header fields the associated data binds. -/
@[ext] structure AdHeader where
  dhPublicKey : Vector UInt8 32
  messageNumber : UInt32
  pqMessageEpoch : UInt32
  pqKeyIndex : UInt32
  previousChainLength : UInt32
  suiteId : UInt16
  pqRatchetField : Option PqRatchetWireField
  identityProofCiphertext : Option Bytes
deriving DecidableEq, Repr

/-- `AdHeader::from`. -/
def AdHeader.ofMessage (m : EncryptedRatchetMessage) : AdHeader where
  dhPublicKey := m.dhPublicKey
  messageNumber := m.messageNumber
  pqMessageEpoch := m.pqMessageEpoch
  pqKeyIndex := m.pqKeyIndex
  previousChainLength := m.previousChainLength
  suiteId := m.suiteId
  pqRatchetField := m.pqRatchetField
  identityProofCiphertext := m.identityProofCiphertext

/-- A length as two bytes, saturated at `u16::MAX`. -/
def len16 (b : Bytes) : Bytes := u16ToBe (UInt16.ofNat (min b.length 65535))

def pqFieldBytes : Option PqRatchetWireField → Bytes
  | none => [0]
  | some (.publicKey epoch key) => 1 :: (u32ToBe epoch ++ (len16 key ++ key))
  | some (.ciphertext epoch ekHash ct) =>
    2 :: (u32ToBe epoch ++ (ekHash.toList ++ (len16 ct ++ ct)))

def identityProofBytes (proof : Option Bytes) : Bytes :=
  len16 (proof.getD []) ++ proof.getD []

def headerTail (h : AdHeader) : Bytes :=
  u32ToBe h.previousChainLength ++
    (u16ToBe h.suiteId ++ (pqFieldBytes h.pqRatchetField ++
      identityProofBytes h.identityProofCiphertext))

def pqPositionBytes (pqRatchetSuite : Bool) (h : AdHeader) : Bytes :=
  if pqRatchetSuite then u32ToBe h.pqMessageEpoch ++ u32ToBe h.pqKeyIndex else []

def associatedData (version : UInt8) (sender receiver sessionIdBytes : Bytes)
    (pqRatchetSuite : Bool) (h : AdHeader) : Bytes :=
  version :: (sender ++ (receiver ++ (sessionIdBytes ++ (h.dhPublicKey.toList ++
    (u32ToBe h.messageNumber ++ (pqPositionBytes pqRatchetSuite h ++
      (if adVersionHeader ≤ version then headerTail h else [])))))))

/-! ## What the bytes determine -/

/-- A header whose variable parts fit their two-byte lengths and whose identity proof,
when present, is not empty. -/
structure AdHeader.Bounded (h : AdHeader) : Prop where
  publicKey : ∀ epoch key, h.pqRatchetField = some (.publicKey epoch key) →
    key.length ≤ 65535
  ciphertext : ∀ epoch ekHash ct, h.pqRatchetField = some (.ciphertext epoch ekHash ct) →
    ct.length ≤ 65535
  proofLength : ∀ proof, h.identityProofCiphertext = some proof → proof.length ≤ 65535
  proofNonempty : h.identityProofCiphertext ≠ some []

@[simp] theorem length_len16 (b : Bytes) : (len16 b).length = 2 := length_u16ToBe _

variable {x y sender receiver sid : Bytes} {h₁ h₂ : AdHeader} {flag : Bool} {v₁ v₂ : UInt8}

theorem len16_append_inj {a b : Bytes} (ha : a.length ≤ 65535) (hb : b.length ≤ 65535)
    (h : len16 a ++ (a ++ x) = len16 b ++ (b ++ y)) : a = b ∧ x = y := by
  obtain ⟨hlen, hrest⟩ := List.append_inj h (by simp)
  have hnum : a.length = b.length := by
    have h16 := congrArg UInt16.toNat (u16ToBe_inj.mp hlen)
    rw [UInt16.toNat_ofNat', UInt16.toNat_ofNat'] at h16
    omega
  exact List.append_inj hrest hnum

theorem pqFieldBytes_append_inj {f g : Option PqRatchetWireField}
    (hf : ∀ epoch key, f = some (.publicKey epoch key) → key.length ≤ 65535)
    (hf' : ∀ epoch ekHash ct, f = some (.ciphertext epoch ekHash ct) → ct.length ≤ 65535)
    (hg : ∀ epoch key, g = some (.publicKey epoch key) → key.length ≤ 65535)
    (hg' : ∀ epoch ekHash ct, g = some (.ciphertext epoch ekHash ct) → ct.length ≤ 65535)
    (h : pqFieldBytes f ++ x = pqFieldBytes g ++ y) : f = g ∧ x = y := by
  match f, g with
  | none, none =>
    refine ⟨rfl, ?_⟩
    simpa [pqFieldBytes] using h
  | none, some (.publicKey _ _) => simp [pqFieldBytes] at h
  | none, some (.ciphertext _ _ _) => simp [pqFieldBytes] at h
  | some (.publicKey _ _), none => simp [pqFieldBytes] at h
  | some (.ciphertext _ _ _), none => simp [pqFieldBytes] at h
  | some (.publicKey _ _), some (.ciphertext _ _ _) => simp [pqFieldBytes] at h
  | some (.ciphertext _ _ _), some (.publicKey _ _) => simp [pqFieldBytes] at h
  | some (.publicKey epoch key), some (.publicKey epoch' key') =>
    simp only [pqFieldBytes, List.cons_append, List.append_assoc, List.cons.injEq,
      true_and] at h
    obtain ⟨hepoch, hrest⟩ := List.append_inj h (by simp)
    obtain ⟨hkey, hxy⟩ := len16_append_inj (hf _ _ rfl) (hg _ _ rfl) hrest
    rw [u32ToBe_inj.mp hepoch, hkey]
    exact ⟨rfl, hxy⟩
  | some (.ciphertext epoch ekHash ct), some (.ciphertext epoch' ekHash' ct') =>
    simp only [pqFieldBytes, List.cons_append, List.append_assoc, List.cons.injEq,
      true_and] at h
    obtain ⟨hepoch, hrest⟩ := List.append_inj h (by simp)
    obtain ⟨hhash, hrest⟩ := List.append_inj hrest (by simp)
    obtain ⟨hct, hxy⟩ := len16_append_inj (hf' _ _ _ rfl) (hg' _ _ _ rfl) hrest
    rw [u32ToBe_inj.mp hepoch, Vector.toList_inj.mp hhash, hct]
    exact ⟨rfl, hxy⟩

theorem identityProofBytes_inj {p q : Option Bytes}
    (hp : ∀ proof, p = some proof → proof.length ≤ 65535) (hp' : p ≠ some [])
    (hq : ∀ proof, q = some proof → proof.length ≤ 65535) (hq' : q ≠ some [])
    (h : identityProofBytes p = identityProofBytes q) : p = q := by
  have hlen : ∀ r : Option Bytes, (∀ proof, r = some proof → proof.length ≤ 65535) →
      (r.getD []).length ≤ 65535 := by
    intro r hr
    cases r with
    | none => simp
    | some proof => exact hr proof rfl
  obtain ⟨hget, -⟩ : p.getD [] = q.getD [] ∧ ([] : Bytes) = [] := by
    apply len16_append_inj (hlen p hp) (hlen q hq)
    simpa [identityProofBytes] using h
  -- an absent proof reads as an empty one, which a present proof never is
  cases p with
  | none =>
    cases q with
    | none => rfl
    | some proof => exact absurd (by simpa using hget.symm) (fun e => hq' (congrArg some e))
  | some proof =>
    cases q with
    | none => exact absurd (by simpa using hget) (fun e => hp' (congrArg some e))
    | some proof' => exact congrArg some (by simpa using hget)

theorem headerTail_inj (b₁ : h₁.Bounded) (b₂ : h₂.Bounded) (h : headerTail h₁ = headerTail h₂) :
    h₁.previousChainLength = h₂.previousChainLength ∧ h₁.suiteId = h₂.suiteId ∧
      h₁.pqRatchetField = h₂.pqRatchetField ∧
      h₁.identityProofCiphertext = h₂.identityProofCiphertext := by
  unfold headerTail at h
  obtain ⟨hprev, hrest⟩ := List.append_inj h (by simp)
  obtain ⟨hsuite, hrest⟩ := List.append_inj hrest (by simp)
  obtain ⟨hfield, hproof⟩ := pqFieldBytes_append_inj b₁.publicKey b₁.ciphertext b₂.publicKey
    b₂.ciphertext hrest
  exact ⟨u32ToBe_inj.mp hprev, u16ToBe_inj.mp hsuite, hfield,
    identityProofBytes_inj b₁.proofLength b₁.proofNonempty b₂.proofLength b₂.proofNonempty
      hproof⟩

theorem length_pqPositionBytes (flag : Bool) (h₁ h₂ : AdHeader) :
    (pqPositionBytes flag h₁).length = (pqPositionBytes flag h₂).length := by
  unfold pqPositionBytes
  cases flag <;> simp

/-- Under version 4 the associated data determines the header, the PQ position only for a
suite that has one. -/
theorem associatedData_header (b₁ : h₁.Bounded) (b₂ : h₂.Bounded)
    (h : associatedData adVersionHeader sender receiver sid flag h₁ =
      associatedData adVersionHeader sender receiver sid flag h₂) :
    h₁.dhPublicKey = h₂.dhPublicKey ∧ h₁.messageNumber = h₂.messageNumber ∧
      (flag = true → h₁.pqMessageEpoch = h₂.pqMessageEpoch ∧ h₁.pqKeyIndex = h₂.pqKeyIndex) ∧
      h₁.previousChainLength = h₂.previousChainLength ∧ h₁.suiteId = h₂.suiteId ∧
      h₁.pqRatchetField = h₂.pqRatchetField ∧
      h₁.identityProofCiphertext = h₂.identityProofCiphertext := by
  unfold associatedData at h
  rw [List.cons.injEq] at h
  have h := List.append_cancel_left h.2
  have h := List.append_cancel_left h
  have h := List.append_cancel_left h
  obtain ⟨hdh, h⟩ := List.append_inj h (by simp)
  obtain ⟨hnum, h⟩ := List.append_inj h (by simp)
  obtain ⟨hpos, h⟩ := List.append_inj h (length_pqPositionBytes flag h₁ h₂)
  rw [if_pos (by decide), if_pos (by decide)] at h
  refine ⟨Vector.toList_inj.mp hdh, u32ToBe_inj.mp hnum, ?_, headerTail_inj b₁ b₂ h⟩
  intro hflag
  subst hflag
  obtain ⟨hepoch, hindex⟩ := List.append_inj hpos (by simp)
  exact ⟨u32ToBe_inj.mp hepoch, u32ToBe_inj.mp hindex⟩

/-- Under any version the associated data determines the ratchet key and the message
number. -/
theorem associatedData_position
    (h : associatedData v₁ sender receiver sid flag h₁ =
      associatedData v₂ sender receiver sid flag h₂) :
    h₁.dhPublicKey = h₂.dhPublicKey ∧ h₁.messageNumber = h₂.messageNumber := by
  unfold associatedData at h
  have h := List.append_cancel_left (List.cons.inj h).2
  have h := List.append_cancel_left h
  have h := List.append_cancel_left h
  obtain ⟨hdh, h⟩ := List.append_inj h (by simp)
  obtain ⟨hnum, -⟩ := List.append_inj h (by simp)
  exact ⟨Vector.toList_inj.mp hdh, u32ToBe_inj.mp hnum⟩

/-- The version is the first byte: no data of one version is data of another. -/
theorem associatedData_version {sender₁ receiver₁ sid₁ sender₂ receiver₂ sid₂ : Bytes}
    {flag₁ flag₂ : Bool}
    (h : associatedData v₁ sender₁ receiver₁ sid₁ flag₁ h₁ =
      associatedData v₂ sender₂ receiver₂ sid₂ flag₂ h₂) : v₁ = v₂ :=
  (List.cons.inj h).1

end ConstructCore
