import ConstructCore.Trust.Certificate
import Mathlib.Data.List.Induction

/-!
# The ring of server keys

`admit` of `crypto/server_trust.rs` with the delegation encoding of `server-trust/src/lib.rs`, and
what a ring built by any sequence of admits verifies. A ring is used for its members alone:
`verify_congr` says that two rings with the same delegations give every question one answer, and
`mem_admitAll` which delegations a sequence of admits leaves.
-/

namespace ConstructCore

open Bytes

namespace Trust

/-! ## Delegations -/

namespace Purpose

def toByte : Purpose → UInt8
  | senderCert => 1
  | ktHead => 2
  | stickerManifest => 3

def fromByte (b : UInt8) : Option Purpose :=
  [senderCert, ktHead, stickerManifest].find? fun p => p.toByte = b

end Purpose

/-- A `Delegation` with the root's signature, which no check after the admission reads. -/
structure SignedDelegation extends Delegation where
  rootSignature : Bytes
deriving DecidableEq

def hybridPublicKeyLen : Nat := 32 + 1952

def delegationLen : Nat := 1 + 1 + 8 + 8 + hybridPublicKeyLen + (64 + 3309)

/-- `delegation_signable`: what a root signs. -/
def Delegation.signable (d : Delegation) : Bytes :=
  ofText "konstruct/v1/delegation" ++ [1, d.purpose.toByte] ++ i64ToBe d.notBefore ++
    i64ToBe d.notAfter ++ d.publicKey

/-- `TrustError`, as far as `admit` returns it. -/
inductive AdmitError where
  | malformed
  | noRoot
  | notRooted
deriving DecidableEq, Repr

/-- `i64::from_be_bytes`. -/
def i64OfBe (b : Bytes) : Int64 := Int64.ofBitVec (BitVec.ofNat 64 (ofLeBytes b.reverse))

def SignedDelegation.encode (d : SignedDelegation) : Bytes :=
  [1, d.purpose.toByte] ++ i64ToBe d.notBefore ++ i64ToBe d.notAfter ++ d.publicKey ++
    d.rootSignature

def SignedDelegation.decode (bytes : Bytes) : Except AdmitError SignedDelegation :=
  if bytes.length ≠ delegationLen ∨ bytes.getD 0 0 ≠ 1 then .error .malformed
  else
    match Purpose.fromByte (bytes.getD 1 0) with
    | none => .error .malformed
    | some purpose =>
      let d : SignedDelegation := {
        purpose := purpose
        notBefore := i64OfBe ((bytes.drop 2).take 8)
        notAfter := i64OfBe ((bytes.drop 10).take 8)
        publicKey := (bytes.drop 18).take hybridPublicKeyLen
        rootSignature := bytes.drop (18 + hybridPublicKeyLen) }
      if d.notBefore ≥ d.notAfter then .error .malformed else .ok d

def SignedDelegation.verifyRooted (S : Signing) (d : SignedDelegation) (roots : List Bytes) :
    Except AdmitError Unit :=
  if roots.isEmpty then .error .noRoot
  else if roots.any fun root => S.hybridVerify root d.signable d.rootSignature then .ok ()
  else .error .notRooted

namespace ServerKeyRing

def new (roots : List Bytes) : ServerKeyRing := ⟨roots, []⟩

def holds (S : Signing) (ring : ServerKeyRing) (d : Delegation) : Bool :=
  ring.keys.any fun k => kidOf S k.publicKey = kidOf S d.publicKey ∧ k.purpose = d.purpose ∧
    k.notBefore = d.notBefore ∧ k.notAfter = d.notAfter

/-- `ServerKeyRing::admit`: the kid, and the ring after it. -/
def admitDelegation (S : Signing) (ring : ServerKeyRing) (encoded : Bytes) :
    Except AdmitError (Kid × ServerKeyRing) := do
  let delegation ← SignedDelegation.decode encoded
  delegation.verifyRooted S ring.roots
  let kid := kidOf S delegation.publicKey
  if ring.holds S delegation.toDelegation then return (kid, ring)
  else return (kid, { ring with keys := ring.keys ++ [delegation.toDelegation] })

def afterAdmit (S : Signing) (ring : ServerKeyRing) (encoded : Bytes) : ServerKeyRing :=
  match ring.admitDelegation S encoded with
  | .ok (_, ring') => ring'
  | .error _ => ring

def admitAll (S : Signing) (ring : ServerKeyRing) (encoded : List Bytes) : ServerKeyRing :=
  encoded.foldl (afterAdmit S) ring

end ServerKeyRing

/-! ## What is admitted -/

/-- A well-formed delegation that one of the roots signed, among those offered. -/
def Offered (S : Signing) (roots encoded : List Bytes) (k : Delegation) : Prop :=
  ∃ bytes ∈ encoded, ∃ d, SignedDelegation.decode bytes = .ok d ∧
    (∃ root ∈ roots, S.hybridVerify root d.signable d.rootSignature = true) ∧ d.toDelegation = k

def KidsTellKeys (S : Signing) (encoded : List Bytes) : Prop :=
  ∀ bytes ∈ encoded, ∀ bytes' ∈ encoded, ∀ d d', SignedDelegation.decode bytes = .ok d →
    SignedDelegation.decode bytes' = .ok d' → kidOf S d.publicKey = kidOf S d'.publicKey →
    d.publicKey = d'.publicKey

variable {S : Signing} {ring : ServerKeyRing} {encoded : List Bytes}

theorem Delegation.eq_of_fields {k k' : Delegation} (hpurpose : k.purpose = k'.purpose)
    (hbefore : k.notBefore = k'.notBefore) (hafter : k.notAfter = k'.notAfter)
    (hkey : k.publicKey = k'.publicKey) : k = k' := by
  cases k
  cases k'
  simp_all

theorem verifyRooted_ok {d : SignedDelegation} {roots : List Bytes} :
    d.verifyRooted S roots = .ok () ↔
      ∃ root ∈ roots, S.hybridVerify root d.signable d.rootSignature = true := by
  unfold SignedDelegation.verifyRooted
  cases roots with
  | nil => simp
  | cons root roots =>
    rw [← List.any_eq_true]
    cases hany : (root :: roots).any fun root => S.hybridVerify root d.signable d.rootSignature
    all_goals simp

namespace ServerKeyRing

theorem holds_iff {d : Delegation} :
    ring.holds S d = true ↔ ∃ k ∈ ring.keys, kidOf S k.publicKey = kidOf S d.publicKey ∧
      k.purpose = d.purpose ∧ k.notBefore = d.notBefore ∧ k.notAfter = d.notAfter := by
  simp [holds]

/-- What one admit does: an accepted delegation is added unless one like it is there. -/
theorem afterAdmit_cases (S : Signing) (ring : ServerKeyRing) (bytes : Bytes) :
    (∃ d, SignedDelegation.decode bytes = .ok d ∧ d.verifyRooted S ring.roots = .ok () ∧
      ((ring.holds S d.toDelegation = true ∧ afterAdmit S ring bytes = ring) ∨
        afterAdmit S ring bytes = { ring with keys := ring.keys ++ [d.toDelegation] })) ∨
    (afterAdmit S ring bytes = ring ∧ ∀ d, SignedDelegation.decode bytes = .ok d →
      d.verifyRooted S ring.roots ≠ .ok ()) := by
  unfold afterAdmit admitDelegation
  cases hdecode : SignedDelegation.decode bytes with
  | error e => exact .inr ⟨rfl, fun d hd => nomatch hd⟩
  | ok d =>
    cases hrooted : d.verifyRooted S ring.roots with
    | error e =>
      refine .inr ⟨by simp [hrooted, bind, Except.bind], fun d' hd' => ?_⟩
      cases hd'
      rw [hrooted]
      exact fun h => nomatch h
    | ok u =>
      refine .inl ⟨d, rfl, hrooted, ?_⟩
      cases hholds : ring.holds S d.toDelegation with
      | true =>
        exact .inl ⟨rfl, by simp [hrooted, hholds, bind, Except.bind, pure, Except.pure]⟩
      | false =>
        exact .inr (by simp [hrooted, hholds, bind, Except.bind, pure, Except.pure])

theorem roots_afterAdmit (S : Signing) (ring : ServerKeyRing) (bytes : Bytes) :
    (afterAdmit S ring bytes).roots = ring.roots := by
  rcases afterAdmit_cases S ring bytes with ⟨d, -, -, ⟨-, h⟩ | h⟩ | ⟨h, -⟩ <;> rw [h]

theorem roots_admitAll (S : Signing) (ring : ServerKeyRing) (encoded : List Bytes) :
    (admitAll S ring encoded).roots = ring.roots := by
  induction encoded generalizing ring with
  | nil => rfl
  | cons bytes encoded ih => exact (ih _).trans (roots_afterAdmit S ring bytes)

variable {k : Delegation} {signedAt notAfter : Int64} {delegations : List Delegation}

/-- A sequence of admits leaves the well-formed, rooted delegations among those offered. -/
theorem mem_admitAll (roots : List Bytes) (hkids : KidsTellKeys S encoded) :
    k ∈ (admitAll S (new roots) encoded).keys ↔ Offered S roots encoded k := by
  induction encoded using List.reverseRecOn generalizing k with
  | nil => simp [admitAll, new, Offered]
  | append_singleton encoded bytes ih =>
    have hinit : KidsTellKeys S encoded := fun b hb b' hb' =>
      hkids b (List.mem_append_left _ hb) b' (List.mem_append_left _ hb')
    have hroots : (admitAll S (new roots) encoded).roots = roots := roots_admitAll S _ _
    have hlast : ∀ k, Offered S roots (encoded ++ [bytes]) k ↔ Offered S roots encoded k ∨
        ∃ d, SignedDelegation.decode bytes = .ok d ∧
          d.verifyRooted S (admitAll S (new roots) encoded).roots = .ok () ∧
          d.toDelegation = k := by
      intro k
      simp only [hroots, verifyRooted_ok, Offered, List.mem_append, List.mem_singleton]
      constructor
      · rintro ⟨b, hb | rfl, hd⟩
        · exact .inl ⟨b, hb, hd⟩
        · exact .inr hd
      · rintro (⟨b, hb, hd⟩ | hd)
        · exact ⟨b, .inl hb, hd⟩
        · exact ⟨bytes, .inr rfl, hd⟩
    rw [hlast, ← ih hinit, admitAll, List.foldl_append, List.foldl_cons, List.foldl_nil,
      ← admitAll]
    rcases afterAdmit_cases S (admitAll S (new roots) encoded) bytes with
      ⟨d, hdecode, hrooted, ⟨hholds, hring⟩ | hring⟩ | ⟨hring, hnone⟩
    · -- one like it is there, and with one key for the kid it is the same
      rw [hring]
      refine ⟨.inl, ?_⟩
      rintro (hk | ⟨d', hd', -, rfl⟩)
      · exact hk
      · rw [hdecode] at hd'
        cases hd'
        obtain ⟨k, hk, hkid, hpurpose, hbefore, hafter⟩ := holds_iff.mp hholds
        obtain ⟨b, hb, e, he, -, rfl⟩ := (ih hinit).mp hk
        have hkey : e.publicKey = d.publicKey :=
          hkids b (List.mem_append_left _ hb) bytes (by simp) e d he hdecode hkid
        have hsame : e.toDelegation = d.toDelegation :=
          Delegation.eq_of_fields hpurpose hbefore hafter hkey
        exact hsame ▸ hk
    · rw [hring]
      simp only [List.mem_append, List.mem_singleton]
      refine or_congr_right ⟨?_, ?_⟩
      · rintro rfl
        exact ⟨d, hdecode, hrooted, rfl⟩
      · rintro ⟨d', hd', -, rfl⟩
        rw [hdecode] at hd'
        cases hd'
        rfl
    · rw [hring]
      refine ⟨.inl, ?_⟩
      rintro (hk | ⟨d, hd, hrooted, -⟩)
      · exact hk
      · exact absurd hrooted (hnone d hd)

/-! ## What is verified -/

def OneKeyEach (S : Signing) (ring : ServerKeyRing) : Prop :=
  ∀ k ∈ ring.keys, ∀ k' ∈ ring.keys, kidOf S k.publicKey = kidOf S k'.publicKey →
    k.publicKey = k'.publicKey

theorem oneKeyEach_admitAll (roots : List Bytes) (hkids : KidsTellKeys S encoded) :
    OneKeyEach S (admitAll S (new roots) encoded) := by
  intro k hk k' hk' hkid
  obtain ⟨b, hb, d, hd, -, rfl⟩ := (mem_admitAll roots hkids).mp hk
  obtain ⟨b', hb', d', hd', -, rfl⟩ := (mem_admitAll roots hkids).mp hk'
  exact hkids b hb b' hb' d d' hd hd' hkid

def forPurpose (S : Signing) (ring : ServerKeyRing) (purpose : Purpose) (kid : Kid) :
    List Delegation :=
  (ring.keys.filter fun k => kidOf S k.publicKey = kid).filter fun k => k.purpose = purpose

theorem mem_forPurpose {purpose : Purpose} {kid : Kid} :
    k ∈ ring.forPurpose S purpose kid ↔
      k ∈ ring.keys ∧ kidOf S k.publicKey = kid ∧ k.purpose = purpose := by
  unfold forPurpose
  rw [List.mem_filter, List.mem_filter, decide_eq_true_eq, decide_eq_true_eq, and_assoc]

theorem max_eq_ite (a b : Int64) : max a b = if a ≤ b then b else a := rfl

instance : Std.LawfulOrderMax Int64 where
  max_eq_or a b := by
    rw [max_eq_ite]
    split
    · exact .inr rfl
    · exact .inl rfl
  max_le_iff a b c := by
    rw [max_eq_ite]
    split <;> simp only [Int64.le_iff_toInt_le] at * <;> omega

def Covers (k : Delegation) (signedAt : Int64) : Prop :=
  k.notBefore ≤ signedAt ∧ signedAt ≤ k.notAfter

theorem windowEnd_eq_some :
    windowEnd signedAt delegations = some notAfter ↔
      (∃ k ∈ delegations, Covers k signedAt ∧ k.notAfter = notAfter) ∧
        ∀ k ∈ delegations, Covers k signedAt → k.notAfter ≤ notAfter := by
  unfold windowEnd
  rw [List.max?_eq_some_iff]
  simp only [List.mem_map, List.mem_filter, decide_eq_true_eq, ge_iff_le, and_assoc]
  constructor
  · rintro ⟨⟨k, hk, hb, ha, heq⟩, hmax⟩
    exact ⟨⟨k, hk, ⟨hb, ha⟩, heq⟩, fun k' hk' hc => hmax _ ⟨k', hk', hc.1, hc.2, rfl⟩⟩
  · rintro ⟨⟨k, hk, hc, heq⟩, hmax⟩
    refine ⟨⟨k, hk, hc.1, hc.2, heq⟩, ?_⟩
    rintro b ⟨k', hk', hb, ha, rfl⟩
    exact hmax k' hk' ⟨hb, ha⟩

theorem windowEnd_eq_none :
    windowEnd signedAt delegations = none ↔ ∀ k ∈ delegations, ¬ Covers k signedAt := by
  unfold windowEnd
  rw [List.max?_eq_none_iff, List.map_eq_nil_iff, List.filter_eq_nil_iff]
  simp [Covers]

theorem windowEnd_congr {delegations' : List Delegation}
    (h : ∀ k, k ∈ delegations ↔ k ∈ delegations') :
    windowEnd signedAt delegations = windowEnd signedAt delegations' := by
  apply Option.ext
  intro notAfter
  rw [windowEnd_eq_some, windowEnd_eq_some]
  simp only [h]

def InGrace (purpose : Purpose) (notAfter now : Int64) : Prop :=
  ∀ grace, purpose.graceSecs = some grace → now.toInt ≤ notAfter.toInt + grace.toInt

theorem le_satAdd {grace now : Int64} (hgrace : 0 ≤ grace.toInt) :
    now ≤ satAdd notAfter grace ↔ now.toInt ≤ notAfter.toInt + grace.toInt := by
  have hnow := now.toInt_le
  have hlow := notAfter.le_toInt
  have hmin : Int64.minValue.toInt = -2 ^ 63 := rfl
  rw [Int64.le_iff_toInt_le]
  unfold satAdd
  by_cases hmax : notAfter.toInt + grace.toInt ≤ Int64.maxValue.toInt
  · rw [Int64.toInt_ofIntClamp (by omega) hmax]
  · have hclamp : Int64.ofIntClamp (notAfter.toInt + grace.toInt) = Int64.maxValue := by
      unfold Int64.ofIntClamp
      rw [dif_pos (by omega), dif_neg hmax]
    rw [hclamp]
    constructor <;> intro <;> omega

/-- What `verify` makes of the delegations of a kid and a purpose. -/
def verdictOn (S : Signing) (purpose : Purpose) (kid : Kid) (body signature : Bytes)
    (signedAt now : Int64) (delegations : List Delegation) : Except TrustError Unit :=
  match delegations with
  | [] => .error .wrongPurpose
  | key :: _ =>
    if ! S.hybridVerify key.publicKey (serverSignable purpose kid body) signature then
      .error .badSignature
    else
      match windowEnd signedAt delegations with
      | none => .error .outsideWindow
      | some notAfter =>
        match purpose.graceSecs with
        | some grace => if now > satAdd notAfter grace then .error .expired else .ok ()
        | none => .ok ()

section Verify

variable {purpose : Purpose} {kid : Kid} {body signature : Bytes} {signedAt now : Int64}

theorem verify_eq :
    ring.verify S purpose kid body signature signedAt now =
      if (ring.keys.filter fun k => kidOf S k.publicKey = kid).isEmpty then .error .unknownKey
      else verdictOn S purpose kid body signature signedAt now (ring.forPurpose S purpose kid) :=
  rfl

variable {notAfter : Int64} {delegations : List Delegation} {publicKey : Bytes}

theorem grace_ok :
    (match purpose.graceSecs with
      | some grace => if now > satAdd notAfter grace then Except.error TrustError.expired else .ok ()
      | none => .ok ()) = .ok () ↔ InGrace purpose notAfter now := by
  have hgrace : ∀ grace, purpose.graceSecs = some grace → 0 ≤ grace.toInt := by
    cases purpose <;> intro grace h <;> cases h <;> decide
  unfold InGrace
  cases h : purpose.graceSecs with
  | none => simp
  | some grace =>
    simp only [Option.some.injEq, forall_eq', ← le_satAdd (hgrace grace h)]
    split
    · rename_i hlate
      exact ⟨(fun h => nomatch h), fun hle => absurd hle (Int64.not_le.mpr hlate)⟩
    · rename_i hlate
      exact ⟨fun _ => Int64.not_lt.mp hlate, fun _ => rfl⟩

theorem InGrace.mono {notAfter' : Int64} (h : InGrace purpose notAfter now)
    (hle : notAfter ≤ notAfter') : InGrace purpose notAfter' now := by
  intro grace hgrace
  have := h grace hgrace
  rw [Int64.le_iff_toInt_le] at hle
  omega

theorem verdictOn_ok (hkey : ∀ k ∈ delegations, k.publicKey = publicKey) :
    verdictOn S purpose kid body signature signedAt now delegations = .ok () ↔
      ∃ k ∈ delegations, Covers k signedAt ∧ InGrace purpose k.notAfter now ∧
        S.hybridVerify k.publicKey (serverSignable purpose kid body) signature = true := by
  cases delegations with
  | nil => simp [verdictOn]
  | cons key rest =>
    have hfirst := hkey key List.mem_cons_self
    unfold verdictOn
    simp only
    cases hsig : S.hybridVerify key.publicKey (serverSignable purpose kid body) signature with
    | false =>
      simp only [Bool.not_false, if_true]
      constructor
      · exact fun h => nomatch h
      · rintro ⟨k, hk, -, -, hk'⟩
        rw [hkey k hk, ← hfirst, hsig] at hk'
        cases hk'
    | true =>
      simp only [Bool.not_true, Bool.false_eq_true, if_false]
      cases hwindow : windowEnd signedAt (key :: rest) with
      | none =>
        simp only
        constructor
        · exact fun h => nomatch h
        · rintro ⟨k, hk, hcovers, -⟩
          exact absurd hcovers (windowEnd_eq_none.mp hwindow k hk)
      | some notAfter =>
        simp only [grace_ok]
        obtain ⟨⟨k, hk, hcovers, rfl⟩, hmax⟩ := windowEnd_eq_some.mp hwindow
        constructor
        · intro hgrace
          refine ⟨k, hk, hcovers, hgrace, ?_⟩
          rw [hkey k hk, ← hfirst, hsig]
        · rintro ⟨k', hk', hcovers', hgrace, -⟩
          exact hgrace.mono (hmax k' hk' hcovers')

theorem OneKeyEach.forPurpose (hone : OneKeyEach S ring) (purpose : Purpose) (kid : Kid) :
    ∃ publicKey, ∀ k ∈ ring.forPurpose S purpose kid, k.publicKey = publicKey := by
  cases hlist : ring.forPurpose S purpose kid with
  | nil => exact ⟨[], fun k hk => absurd hk List.not_mem_nil⟩
  | cons key rest =>
    have hkey : key ∈ ring.forPurpose S purpose kid := hlist ▸ List.mem_cons_self
    rw [mem_forPurpose] at hkey
    refine ⟨key.publicKey, fun k hk => ?_⟩
    rw [← hlist, mem_forPurpose] at hk
    exact hone k hk.1 key hkey.1 (hk.2.1.trans hkey.2.1.symm)

theorem verify_ok (hone : OneKeyEach S ring) :
    ring.verify S purpose kid body signature signedAt now = .ok () ↔
      ∃ k ∈ ring.keys, kidOf S k.publicKey = kid ∧ k.purpose = purpose ∧ Covers k signedAt ∧
        InGrace purpose k.notAfter now ∧
        S.hybridVerify k.publicKey (serverSignable purpose kid body) signature = true := by
  obtain ⟨publicKey, hkey⟩ := hone.forPurpose purpose kid
  rw [verify_eq]
  split
  · rename_i hempty
    rw [List.isEmpty_iff, List.filter_eq_nil_iff] at hempty
    constructor
    · exact fun h => nomatch h
    · rintro ⟨k, hk, hkid, -⟩
      exact absurd (decide_eq_true hkid) (hempty k hk)
  · rw [verdictOn_ok hkey]
    simp only [mem_forPurpose, and_assoc]

theorem verdictOn_congr {delegations' : List Delegation}
    (hkey : ∀ k ∈ delegations, k.publicKey = publicKey)
    (hmem : ∀ k, k ∈ delegations ↔ k ∈ delegations') :
    verdictOn S purpose kid body signature signedAt now delegations =
      verdictOn S purpose kid body signature signedAt now delegations' := by
  cases delegations with
  | nil =>
    rw [List.eq_nil_iff_forall_not_mem.mpr fun k hk => List.not_mem_nil ((hmem k).mpr hk)]
  | cons key rest =>
    cases delegations' with
    | nil => exact absurd ((hmem key).mp List.mem_cons_self) List.not_mem_nil
    | cons key' rest' =>
      have hsame : key.publicKey = key'.publicKey := by
        rw [hkey key List.mem_cons_self, hkey key' ((hmem key').mpr List.mem_cons_self)]
      unfold verdictOn
      simp only [hsame, windowEnd_congr hmem]

theorem verify_congr {ring' : ServerKeyRing} (hone : OneKeyEach S ring)
    (hmem : ∀ k, k ∈ ring.keys ↔ k ∈ ring'.keys) :
    ring.verify S purpose kid body signature signedAt now =
      ring'.verify S purpose kid body signature signedAt now := by
  obtain ⟨publicKey, hkey⟩ := hone.forPurpose purpose kid
  have hnamed : (ring.keys.filter fun k => kidOf S k.publicKey = kid).isEmpty =
      (ring'.keys.filter fun k => kidOf S k.publicKey = kid).isEmpty := by
    rw [Bool.eq_iff_iff, List.isEmpty_iff, List.isEmpty_iff, List.filter_eq_nil_iff,
      List.filter_eq_nil_iff]
    simp only [hmem]
  have hmem' : ∀ k, k ∈ ring.forPurpose S purpose kid ↔ k ∈ ring'.forPurpose S purpose kid := by
    intro k
    rw [mem_forPurpose, mem_forPurpose, hmem]
  rw [verify_eq, verify_eq, hnamed, verdictOn_congr hkey hmem']

theorem verdictOn_append {more : List Delegation}
    (h : verdictOn S purpose kid body signature signedAt now delegations = .ok ()) :
    verdictOn S purpose kid body signature signedAt now (delegations ++ more) = .ok () := by
  cases delegations with
  | nil => cases h
  | cons key rest =>
    unfold verdictOn at h ⊢
    simp only [List.cons_append] at h ⊢
    split at h
    · cases h
    · rename_i hsigned
      rw [if_neg hsigned]
      cases hwindow : windowEnd signedAt (key :: rest) with
      | none =>
        rw [hwindow] at h
        cases h
      | some notAfter =>
        rw [hwindow] at h
        obtain ⟨⟨k, hk, hcovers, rfl⟩, -⟩ := windowEnd_eq_some.mp hwindow
        have hk' : k ∈ key :: (rest ++ more) := by
          rw [← List.cons_append]
          exact List.mem_append_left _ hk
        cases hwindow' : windowEnd signedAt (key :: (rest ++ more)) with
        | none => exact absurd hcovers (windowEnd_eq_none.mp hwindow' k hk')
        | some later =>
          exact grace_ok.mpr ((grace_ok.mp h).mono
            ((windowEnd_eq_some.mp hwindow').2 k hk' hcovers))

theorem verify_afterAdmit (bytes : Bytes)
    (h : ring.verify S purpose kid body signature signedAt now = .ok ()) :
    (afterAdmit S ring bytes).verify S purpose kid body signature signedAt now = .ok () := by
  have hadd : ∀ d : Delegation, ({ ring with keys := ring.keys ++ [d] } : ServerKeyRing).verify S
      purpose kid body signature signedAt now = .ok () := by
    intro d
    rw [verify_eq] at h ⊢
    split at h
    · cases h
    · rename_i hnamed
      rw [if_neg]
      · have hmore : ({ ring with keys := ring.keys ++ [d] } : ServerKeyRing).forPurpose S purpose
            kid = ring.forPurpose S purpose kid ++
              ([d].filter fun k => kidOf S k.publicKey = kid).filter fun k => k.purpose = purpose := by
          simp [forPurpose]
        rw [hmore]
        exact verdictOn_append h
      · rw [List.filter_append, List.isEmpty_iff, List.append_eq_nil_iff]
        exact fun hempty => hnamed (List.isEmpty_iff.mpr hempty.1)
  rcases afterAdmit_cases S ring bytes with ⟨d, -, -, ⟨-, hring⟩ | hring⟩ | ⟨hring, -⟩
  · rw [hring]
    exact h
  · rw [hring]
    exact hadd d.toDelegation
  · rw [hring]
    exact h

/-- `Expired` is said of a signature that verifies under a key delegated for its date. -/
theorem verify_expired (hone : OneKeyEach S ring)
    (h : ring.verify S purpose kid body signature signedAt now = .error .expired) :
    ∃ k ∈ ring.keys, kidOf S k.publicKey = kid ∧ k.purpose = purpose ∧ Covers k signedAt ∧
      S.hybridVerify k.publicKey (serverSignable purpose kid body) signature = true := by
  obtain ⟨publicKey, hkey⟩ := hone.forPurpose purpose kid
  rw [verify_eq] at h
  split at h
  · cases h
  cases hlist : ring.forPurpose S purpose kid with
  | nil =>
    rw [hlist] at h
    cases h
  | cons key rest =>
    rw [hlist] at h hkey
    unfold verdictOn at h
    simp only at h
    split at h
    · cases h
    · rename_i hsigned
      split at h
      · cases h
      · rename_i notAfter hwindow
        obtain ⟨⟨k, hk, hcovers, -⟩, -⟩ := windowEnd_eq_some.mp hwindow
        have hmem := hk
        rw [← hlist, mem_forPurpose] at hmem
        refine ⟨k, hmem.1, hmem.2.1, hmem.2.2, hcovers, ?_⟩
        rw [hkey k hk, ← hkey key List.mem_cons_self]
        simpa using hsigned

end Verify

end ServerKeyRing

/-! ## Certificates on a ring -/

namespace SenderCertificate

/-- The signature of a certificate holds: the hybrid one, where roots are pinned and there is one,
under a delegated key for its date; the Ed25519 one under a legacy key otherwise. -/
def SignatureHolds (S : Signing) (c : SenderCertificate) (legacyKeys roots encoded : List Bytes) :
    Prop :=
  if roots ≠ [] ∧ c.serverSignatureHybrid ≠ [] then
    ∃ kid body k, toVector? 16 c.serverKid = some kid ∧ senderCertBody c = some body ∧
      Offered S roots encoded k ∧ kidOf S k.publicKey = kid ∧ k.purpose = .senderCert ∧
      ServerKeyRing.Covers k c.issuedAt ∧
      S.hybridVerify k.publicKey (serverSignable .senderCert kid body) c.serverSignatureHybrid =
        true
  else ∃ key ∈ legacyKeys, verifySenderCert S c key = true

variable {c : SenderCertificate} {now : Int64}

/-- The hybrid check passes, or fails for the age of the delegation alone. -/
theorem checkHybrid_signed (hone : ServerKeyRing.OneKeyEach S ring)
    (h : c.checkHybrid S ring now = .ok () ∨ c.checkHybrid S ring now = .error .expired) :
    ∃ kid body, toVector? 16 c.serverKid = some kid ∧ senderCertBody c = some body ∧
      ∃ k ∈ ring.keys, kidOf S k.publicKey = kid ∧ k.purpose = .senderCert ∧
        ServerKeyRing.Covers k c.issuedAt ∧
        S.hybridVerify k.publicKey (serverSignable .senderCert kid body) c.serverSignatureHybrid =
          true := by
  unfold checkHybrid at h
  cases hkid : toVector? 16 c.serverKid with
  | none => simp [hkid] at h
  | some kid =>
    simp only [hkid] at h
    split at h
    · simp at h
    cases hbody : senderCertBody c with
    | none => simp [hbody] at h
    | some body =>
      simp only [hbody] at h
      refine ⟨kid, body, rfl, rfl, ?_⟩
      cases hverify : ring.verify S .senderCert kid body c.serverSignatureHybrid c.issuedAt now with
      | ok u =>
        obtain ⟨k, hk, hkid, hpurpose, hcovers, -, hsig⟩ :=
          (ServerKeyRing.verify_ok hone).mp hverify
        exact ⟨k, hk, hkid, hpurpose, hcovers, hsig⟩
      | error e =>
        cases e with
        | expired => exact ServerKeyRing.verify_expired hone hverify
        | unknownKey => simp [hverify] at h
        | wrongPurpose => simp [hverify] at h
        | outsideWindow => simp [hverify] at h
        | badSignature => simp [hverify] at h

theorem checkSignature_signed {legacyKeys roots : List Bytes} (hkids : KidsTellKeys S encoded)
    (h : c.checkSignature S ⟨legacyKeys, .admitAll S (.new roots) encoded⟩ now = .ok () ∨
      c.checkSignature S ⟨legacyKeys, .admitAll S (.new roots) encoded⟩ now = .error .expired) :
    c.SignatureHolds S legacyKeys roots encoded := by
  have hroots : (ServerKeyRing.admitAll S (.new roots) encoded).hasRoots = true ↔ roots ≠ [] := by
    unfold ServerKeyRing.hasRoots
    rw [ServerKeyRing.roots_admitAll]
    simp [ServerKeyRing.new]
  unfold checkSignature at h
  unfold SignatureHolds
  by_cases hhybrid : roots ≠ [] ∧ c.serverSignatureHybrid ≠ []
  · have hcond : (ServerKeyRing.admitAll S (.new roots) encoded).hasRoots = true ∧
        (!c.serverSignatureHybrid.isEmpty) = true := ⟨hroots.mpr hhybrid.1, by simpa using hhybrid.2⟩
    rw [if_pos hcond] at h
    rw [if_pos hhybrid]
    obtain ⟨kid, body, hkid, hbody, k, hk, hsigned⟩ :=
      checkHybrid_signed (ServerKeyRing.oneKeyEach_admitAll roots hkids) h
    exact ⟨kid, body, k, hkid, hbody, (ServerKeyRing.mem_admitAll roots hkids).mp hk, hsigned⟩
  · have hcond : ¬ ((ServerKeyRing.admitAll S (.new roots) encoded).hasRoots = true ∧
        (!c.serverSignatureHybrid.isEmpty) = true) :=
      fun hc => hhybrid ⟨hroots.mp hc.1, by simpa using hc.2⟩
    rw [if_neg hcond] at h
    rw [if_neg hhybrid]
    simp only [hybridRequired, Bool.false_eq_true, and_false, if_false] at h
    split at h
    · simp at h
    · split at h
      · rename_i hany
        exact List.any_eq_true.mp hany
      · simp at h

theorem identityForOpening_expired {trust : ServerTrust}
    (h : c.identityForOpening S trust now = .error .expired) :
    (c.checkSignature S trust now = .ok () ∨ c.checkSignature S trust now = .error .expired) ∧
      c.identityKey.length = 32 ∧ deriveDeviceId S c.identityKey = c.deviceId := by
  have hopen : ∀ lapsed : Bool, (if c.identityKey.length ≠ 32 ∨
      deriveDeviceId S c.identityKey ≠ c.deviceId then Except.error SenderRefusal.deviceMismatch
      else if lapsed = true ∨ satAdd c.expiresAt maxDeliveryAgeSecs ≤ now then .error .expired
      else .ok c.identityKey) = .error .expired →
      c.identityKey.length = 32 ∧ deriveDeviceId S c.identityKey = c.deviceId := by
    intro lapsed hif
    split at hif
    · cases hif
    · rename_i hdevice
      simpa [not_or] using hdevice
  unfold identityForOpening at h
  cases hcheck : c.checkSignature S trust now with
  | ok =>
    rw [hcheck] at h
    exact ⟨.inl rfl, hopen false h⟩
  | error e =>
    rw [hcheck] at h
    cases e with
    | expired => exact ⟨.inr rfl, hopen true h⟩
    | noTrustedKey => cases h
    | badSignature => cases h
    | deviceMismatch => cases h

end SenderCertificate

/-- **What a ring of server keys accepts.** After any sequence of admits, accepted or refused, a
signature is accepted exactly when some well-formed delegation among those offered, signed by a
pinned root, has its kid and purpose, a window that holds the date and a grace that is not over,
and the key that verifies it. The answer does not depend on the order of the admits, a further
admit takes nothing back, and a certificate is called expired only when its signature and its
device passed. -/
theorem ring_accepts (S : Signing) (roots encoded : List Bytes) (hkids : KidsTellKeys S encoded) :
    let ring := ServerKeyRing.admitAll S (.new roots) encoded
    (∀ purpose kid body signature signedAt now,
      ring.verify S purpose kid body signature signedAt now = .ok () ↔
        ∃ k, Offered S roots encoded k ∧ kidOf S k.publicKey = kid ∧ k.purpose = purpose ∧
          (k.notBefore ≤ signedAt ∧ signedAt ≤ k.notAfter) ∧
          (∀ grace, purpose.graceSecs = some grace → now.toInt ≤ k.notAfter.toInt + grace.toInt) ∧
          S.hybridVerify k.publicKey (serverSignable purpose kid body) signature = true) ∧
    (∀ encoded', encoded.Perm encoded' → ∀ purpose kid body signature signedAt now,
      ring.verify S purpose kid body signature signedAt now =
        (ServerKeyRing.admitAll S (.new roots) encoded').verify S purpose kid body signature signedAt
          now) ∧
    (∀ bytes purpose kid body signature signedAt now,
      ring.verify S purpose kid body signature signedAt now = .ok () →
      (ServerKeyRing.admitAll S (.new roots) (encoded ++ [bytes])).verify S purpose kid body
        signature signedAt now = .ok ()) ∧
    ∀ (c : SenderCertificate) legacyKeys now,
      c.identityForOpening S ⟨legacyKeys, ring⟩ now = .error .expired →
      c.SignatureHolds S legacyKeys roots encoded ∧ c.identityKey.length = 32 ∧
        deriveDeviceId S c.identityKey = c.deviceId := by
  have hone := ServerKeyRing.oneKeyEach_admitAll roots hkids
  refine ⟨fun purpose kid body signature signedAt now => ?_, fun encoded' hperm _ _ _ _ _ _ => ?_,
    fun bytes _ _ _ _ _ _ h => ?_, fun c legacyKeys now h => ?_⟩
  · rw [ServerKeyRing.verify_ok hone]
    simp only [ServerKeyRing.mem_admitAll roots hkids]
    rfl
  · have hkids' : KidsTellKeys S encoded' := fun b hb b' hb' =>
      hkids b (hperm.mem_iff.mpr hb) b' (hperm.mem_iff.mpr hb')
    refine ServerKeyRing.verify_congr hone fun k => ?_
    rw [ServerKeyRing.mem_admitAll roots hkids, ServerKeyRing.mem_admitAll roots hkids']
    unfold Offered
    simp only [hperm.mem_iff]
  · rw [ServerKeyRing.admitAll, List.foldl_append]
    exact ServerKeyRing.verify_afterAdmit bytes h
  · obtain ⟨hsigned, hdevice⟩ := SenderCertificate.identityForOpening_expired h
    exact ⟨SenderCertificate.checkSignature_signed hkids hsigned, hdevice⟩

def ringSigning : Signing where
  sha256 b := Vector.replicate 32 (b.getLastD 0)
  ed25519Verify _ _ _ := false
  hybridVerify key _ signature := key.getD 0 0 == signature.getD 0 0

/-- Key 4, delegated for certificates until `notAfter` by root 9. -/
def ringDelegation (notAfter : Int64) : SignedDelegation where
  purpose := .senderCert
  notBefore := 100
  notAfter := notAfter
  publicKey := List.replicate 1984 4
  rootSignature := List.replicate 3373 9

theorem ringDelegation_kids :
    KidsTellKeys ringSigning [(ringDelegation 200).encode, [1], (ringDelegation 300).encode] := by
  have hkey : ∀ bytes ∈ [(ringDelegation 200).encode, [1], (ringDelegation 300).encode], ∀ d,
      SignedDelegation.decode bytes = .ok d → d.publicKey = List.replicate 1984 4 := by
    intro bytes hbytes d hd
    simp only [List.mem_cons, List.not_mem_nil, or_false] at hbytes
    have h200 : SignedDelegation.decode (ringDelegation 200).encode = .ok (ringDelegation 200) := by
      decide +kernel
    have h300 : SignedDelegation.decode (ringDelegation 300).encode = .ok (ringDelegation 300) := by
      decide +kernel
    rcases hbytes with rfl | rfl | rfl
    · rw [h200] at hd
      cases hd
      rfl
    · cases hd
    · rw [h300] at hd
      cases hd
      rfl
  intro bytes hbytes bytes' hbytes' d d' hd hd' _
  rw [hkey bytes hbytes d hd, hkey bytes' hbytes' d' hd']

/-- A renewed key, with a refused admit in between, in either order. -/
theorem ring_accepts_renewed :
    (ServerKeyRing.admitAll ringSigning (.new [[9]])
        [(ringDelegation 200).encode, [1], (ringDelegation 300).encode]).verify ringSigning .senderCert
        (Vector.replicate 16 4) [] [4] 250 260 = .ok () ∧
      (ServerKeyRing.admitAll ringSigning (.new [[9]])
        [(ringDelegation 300).encode, [1], (ringDelegation 200).encode]).verify ringSigning .senderCert
        (Vector.replicate 16 4) [] [4] 250 260 = .ok () := by
  obtain ⟨haccepts, horder, -, -⟩ := ring_accepts ringSigning [[9]] _ ringDelegation_kids
  have hok := (haccepts .senderCert (Vector.replicate 16 4) [] [4] 250 260).mpr
    ⟨(ringDelegation 300).toDelegation,
      ⟨(ringDelegation 300).encode, by simp, ringDelegation 300, by decide +kernel,
        ⟨[9], by simp, by decide +kernel⟩, rfl⟩, by decide +kernel, rfl, by decide,
      (fun grace h => by cases h; decide), by decide +kernel⟩
  have hreversed : [(ringDelegation 200).encode, [1], (ringDelegation 300).encode].Perm
      [(ringDelegation 300).encode, [1], (ringDelegation 200).encode] :=
    (List.reverse_perm _).symm
  exact ⟨hok, (horder _ hreversed _ _ _ _ _ _).symm.trans hok⟩

end Trust

end ConstructCore
