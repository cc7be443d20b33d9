import ConstructCore.Lib.BigEndian
import ConstructCore.Trust.KeyTransparency
import ConstructCore.Trust.Ring

/-!
# What is signed

The messages of `server-trust/src/lib.rs` and `server-trust/src/recovery.rs` that a root, a server
key or a recovery key signs. `Signed` has one constructor for each kind with the fields that go in;
`Signed.signable` is the source's function of that kind.

The kinds are told apart by their labels, none of which starts another (`label_free`), and the
fields of one kind by their fixed widths and length prefixes (`rest_inj`).
-/

namespace ConstructCore

open Bytes

namespace Trust

/-! ## The functions of the source -/

/-- `sticker_manifest_body`: the canonical bytes behind their length. -/
def stickerManifestBody (canonical : Bytes) : Option Bytes :=
  if canonical.length < 2 ^ 32 then some (u32ToBe (UInt32.ofNat canonical.length) ++ canonical)
  else none

def setupLabel : Bytes := ofText "konstruct/v1/recovery-setup"

def claimLabel : Bytes := ofText "konstruct/v1/recovery-claim"

def setupSignable (accountId : Bytes) (timestamp : Int64) (publicKey : Bytes) : Option Bytes := do
  if publicKey.length ≠ hybridPublicKeyLen then none
  else
    let account ← putLp accountId
    return setupLabel ++ account ++ i64ToBe timestamp ++ publicKey

def claimSignable (publicKey : Bytes) (timestamp : Int64)
    (deviceId verifyingKey identityPublic : Bytes) : Option Bytes := do
  if publicKey.length ≠ hybridPublicKeyLen then none
  else
    let device ← putLp deviceId
    let verifying ← putLp verifyingKey
    let identity ← putLp identityPublic
    return claimLabel ++ publicKey ++ i64ToBe timestamp ++ device ++ verifying ++ identity

/-! ## The signed messages together -/

/-- Everything a root, a server key or a recovery key signs, with its fields. -/
inductive Signed where
  | delegation (d : Delegation)
  | senderCert (kid : Kid) (userId domain identityKey deviceId : Bytes) (issuedAt expiresAt : Int64)
  | ktHead (kid : Kid) (treeSize : UInt64) (rootHash : Hash)
  | stickerManifest (kid : Kid) (canonical : Bytes)
  | setup (accountId : Bytes) (timestamp : Int64) (publicKey : Bytes)
  | claim (publicKey : Bytes) (timestamp : Int64) (deviceId verifyingKey identityPublic : Bytes)
deriving DecidableEq

namespace Signed

/-- The certificate whose body `sender_cert_body` makes of the fields. -/
def certificate (userId domain identityKey deviceId : Bytes) (issuedAt expiresAt : Int64) :
    SenderCertificate :=
  { userId, domain, identityKey, deviceId, issuedAt, expiresAt,
    signature := [], serverKid := [], serverSignatureHybrid := [] }

/-- The bytes that are signed; `none` of fields the function of the source refuses. -/
def signable : Signed → Option Bytes
  | delegation d => some d.signable
  | senderCert kid userId domain identityKey deviceId issuedAt expiresAt =>
    (senderCertBody (certificate userId domain identityKey deviceId issuedAt expiresAt)).map
      (serverSignable .senderCert kid)
  | ktHead kid treeSize rootHash => some (serverSignable .ktHead kid (ktHeadBody treeSize rootHash))
  | stickerManifest kid canonical =>
    (stickerManifestBody canonical).map (serverSignable .stickerManifest kid)
  | setup accountId timestamp publicKey => setupSignable accountId timestamp publicKey
  | claim publicKey timestamp deviceId verifyingKey identityPublic =>
    claimSignable publicKey timestamp deviceId verifyingKey identityPublic

/-! ## Labels -/

/-- The function and the purpose a message is signed under. -/
inductive Kind where
  | delegation
  | server (purpose : Purpose)
  | setup
  | claim
deriving DecidableEq, Repr

def Kind.all : List Kind :=
  [delegation, server .senderCert, server .ktHead, server .stickerManifest, setup, claim]

theorem Kind.mem_all (k : Kind) : k ∈ Kind.all := by
  cases k with
  | server purpose => cases purpose <;> decide
  | delegation => decide
  | setup => decide
  | claim => decide

def Kind.label : Kind → Bytes
  | delegation => ofText "konstruct/v1/delegation"
  | server purpose => purpose.label
  | setup => setupLabel
  | claim => claimLabel

def kind : Signed → Kind
  | .delegation _ => .delegation
  | .senderCert .. => .server .senderCert
  | .ktHead .. => .server .ktHead
  | .stickerManifest .. => .server .stickerManifest
  | .setup .. => .setup
  | .claim .. => .claim

theorem label_free {k k' : Kind} {x y : Bytes} (h : k.label ++ x = k'.label ++ y) : k = k' := by
  have hall : ∀ k ∈ Kind.all, ∀ k' ∈ Kind.all, k.label <+: k'.label → k = k' := by decide +kernel
  have hleft : k.label <+: k'.label ++ y := h ▸ List.prefix_append _ x
  have hright : k'.label <+: k'.label ++ y := List.prefix_append _ y
  rcases List.prefix_or_prefix_of_prefix hleft hright with hpre | hpre
  · exact hall k k.mem_all k' k'.mem_all hpre
  · exact (hall k' k'.mem_all k k.mem_all hpre).symm

/-! ## Fields -/

def rest : Signed → Option Bytes
  | .delegation d =>
    some ([1, d.purpose.toByte] ++ i64ToBe d.notBefore ++ i64ToBe d.notAfter ++ d.publicKey)
  | .senderCert kid userId domain identityKey deviceId issuedAt expiresAt =>
    (senderCertBody (certificate userId domain identityKey deviceId issuedAt expiresAt)).map
      (kid.toList ++ ·)
  | .ktHead kid treeSize rootHash => some (kid.toList ++ ktHeadBody treeSize rootHash)
  | .stickerManifest kid canonical => (stickerManifestBody canonical).map (kid.toList ++ ·)
  | .setup accountId timestamp publicKey => do
      if publicKey.length ≠ hybridPublicKeyLen then none
      else
        let account ← putLp accountId
        return account ++ i64ToBe timestamp ++ publicKey
  | .claim publicKey timestamp deviceId verifyingKey identityPublic => do
      if publicKey.length ≠ hybridPublicKeyLen then none
      else
        let device ← putLp deviceId
        let verifying ← putLp verifyingKey
        let identity ← putLp identityPublic
        return publicKey ++ i64ToBe timestamp ++ device ++ verifying ++ identity

theorem signable_eq (s : Signed) : s.signable = s.rest.map (s.kind.label ++ ·) := by
  cases s with
  | delegation d => simp [signable, rest, kind, Kind.label, Delegation.signable]
  | senderCert kid userId domain identityKey deviceId issuedAt expiresAt =>
    simp only [signable, rest, kind, Kind.label, Option.map_map]
    exact congrArg (Option.map · _) (funext fun body => by simp [serverSignable])
  | ktHead kid treeSize rootHash => simp [signable, rest, kind, Kind.label, serverSignable]
  | stickerManifest kid canonical =>
    simp only [signable, rest, kind, Kind.label, Option.map_map]
    exact congrArg (Option.map · _) (funext fun body => by simp [serverSignable])
  | setup accountId timestamp publicKey =>
    simp only [signable, rest, kind, Kind.label, setupSignable]
    by_cases hkey : publicKey.length = hybridPublicKeyLen
    · cases putLp accountId <;> simp [hkey]
    · simp [hkey]
  | claim publicKey timestamp deviceId verifyingKey identityPublic =>
    simp only [signable, rest, kind, Kind.label, claimSignable]
    by_cases hkey : publicKey.length = hybridPublicKeyLen
    · cases putLp deviceId <;> cases putLp verifyingKey <;> cases putLp identityPublic <;>
        simp [hkey]
    · simp [hkey]

theorem toByte_inj {p q : Purpose} (h : p.toByte = q.toByte) : p = q := by
  cases p <;> cases q <;> first | rfl | cases h

theorem delegation_of_rest {d d' : Delegation}
    (h : [1, d.purpose.toByte] ++ i64ToBe d.notBefore ++ i64ToBe d.notAfter ++ d.publicKey =
      [1, d'.purpose.toByte] ++ i64ToBe d'.notBefore ++ i64ToBe d'.notAfter ++ d'.publicKey) :
    d = d' := by
  simp only [List.append_assoc, List.cons_append, List.nil_append, List.cons.injEq, true_and] at h
  obtain ⟨hpurpose, h⟩ := h
  obtain ⟨hbefore, h⟩ := List.append_inj h (by simp)
  obtain ⟨hafter, hkey⟩ := List.append_inj h (by simp)
  obtain ⟨purpose, notBefore, notAfter, publicKey⟩ := d
  obtain ⟨purpose', notBefore', notAfter', publicKey'⟩ := d'
  obtain rfl := toByte_inj hpurpose
  obtain rfl := i64ToBe_inj hbefore
  obtain rfl := i64ToBe_inj hafter
  obtain rfl := hkey
  rfl

theorem canonical_of_body {canonical canonical' body : Bytes}
    (h : stickerManifestBody canonical = some body)
    (h' : stickerManifestBody canonical' = some body) : canonical = canonical' := by
  unfold stickerManifestBody at h h'
  split at h <;> [skip; cases h]
  split at h' <;> [skip; cases h']
  cases h
  exact (List.append_inj (Option.some.inj h') (by simp)).2.symm

theorem kid_append_inj {kid kid' : Kid} {x y : Bytes} (h : kid.toList ++ x = kid'.toList ++ y) :
    kid = kid' ∧ x = y := by
  obtain ⟨hkid, hrest⟩ := List.append_inj h (by simp)
  exact ⟨Vector.toList_inj.mp hkid, hrest⟩

theorem setup_of_rest {account account' key key' r : Bytes} {time time' : Int64}
    (h : (setup account time key).rest = some r) (h' : (setup account' time' key').rest = some r) :
    account = account' ∧ time = time' ∧ key = key' := by
  simp only [rest] at h h'
  split at h <;> [cases h; skip]
  split at h' <;> [cases h'; skip]
  obtain ⟨x, hx, h⟩ := Option.bind_eq_some_iff.mp h
  obtain ⟨x', hx', h'⟩ := Option.bind_eq_some_iff.mp h'
  have heq := (Option.some.inj h).trans (Option.some.inj h').symm
  simp only [List.append_assoc] at heq
  obtain ⟨haccount, heq⟩ := putLp_append_inj hx hx' heq
  obtain ⟨htime, hkey⟩ := List.append_inj heq (by simp)
  exact ⟨haccount, i64ToBe_inj htime, hkey⟩

/-- The key comes first and without a length: it is its fixed width that separates it. -/
theorem claim_of_rest {key key' device device' verifying verifying' identity identity' r : Bytes}
    {time time' : Int64} (h : (claim key time device verifying identity).rest = some r)
    (h' : (claim key' time' device' verifying' identity').rest = some r) :
    key = key' ∧ time = time' ∧ device = device' ∧ verifying = verifying' ∧
      identity = identity' := by
  simp only [rest] at h h'
  split at h <;> [cases h; skip]
  split at h' <;> [cases h'; skip]
  rename_i hkey hkey'
  obtain ⟨x, hx, h⟩ := Option.bind_eq_some_iff.mp h
  obtain ⟨y, hy, h⟩ := Option.bind_eq_some_iff.mp h
  obtain ⟨z, hz, h⟩ := Option.bind_eq_some_iff.mp h
  obtain ⟨x', hx', h'⟩ := Option.bind_eq_some_iff.mp h'
  obtain ⟨y', hy', h'⟩ := Option.bind_eq_some_iff.mp h'
  obtain ⟨z', hz', h'⟩ := Option.bind_eq_some_iff.mp h'
  have heq := (Option.some.inj h).trans (Option.some.inj h').symm
  simp only [List.append_assoc] at heq
  obtain ⟨hk, heq⟩ := List.append_inj heq (by omega)
  obtain ⟨htime, heq⟩ := List.append_inj heq (by simp)
  obtain ⟨hdevice, heq⟩ := putLp_append_inj hx hx' heq
  obtain ⟨hverifying, heq⟩ := putLp_append_inj hy hy' heq
  have hlast : z ++ [] = z' ++ [] := by rw [heq]
  obtain ⟨hidentity, -⟩ := putLp_append_inj hz hz' hlast
  exact ⟨hk, i64ToBe_inj htime, hdevice, hverifying, hidentity⟩

theorem rest_inj {s t : Signed} {r : Bytes} (hkind : s.kind = t.kind) (hs : s.rest = some r)
    (ht : t.rest = some r) : s = t := by
  cases s with
  | delegation d =>
    cases t <;> try cases hkind
    rename_i d'
    obtain rfl := delegation_of_rest ((Option.some.inj hs).trans (Option.some.inj ht).symm)
    rfl
  | senderCert kid userId domain identityKey deviceId issuedAt expiresAt =>
    cases t <;> try cases hkind
    obtain ⟨body, hbody, hr⟩ := Option.map_eq_some_iff.mp hs
    obtain ⟨body', hbody', hr'⟩ := Option.map_eq_some_iff.mp ht
    obtain ⟨rfl, rfl⟩ := kid_append_inj (hr.trans hr'.symm)
    obtain ⟨h1, h2, h3, h4, h5, h6⟩ := SenderCertificate.fields_of_body hbody hbody'
    simp only [certificate] at h1 h2 h3 h4 h5 h6
    rw [h1, h2, h3, h4, h5, h6]
  | ktHead kid treeSize rootHash =>
    cases t <;> try cases hkind
    obtain ⟨rfl, hbody⟩ := kid_append_inj ((Option.some.inj hs).trans (Option.some.inj ht).symm)
    obtain ⟨hsize, hroot⟩ := List.append_inj hbody (by simp)
    obtain rfl := u64ToBe_inj.mp hsize
    obtain rfl := Vector.toList_inj.mp hroot
    rfl
  | stickerManifest kid canonical =>
    cases t <;> try cases hkind
    obtain ⟨body, hbody, hr⟩ := Option.map_eq_some_iff.mp hs
    obtain ⟨body', hbody', hr'⟩ := Option.map_eq_some_iff.mp ht
    obtain ⟨rfl, rfl⟩ := kid_append_inj (hr.trans hr'.symm)
    obtain rfl := canonical_of_body hbody hbody'
    rfl
  | setup accountId timestamp publicKey =>
    cases t <;> try cases hkind
    obtain ⟨rfl, rfl, rfl⟩ := setup_of_rest hs ht
    rfl
  | claim publicKey timestamp deviceId verifyingKey identityPublic =>
    cases t <;> try cases hkind
    obtain ⟨rfl, rfl, rfl, rfl, rfl⟩ := claim_of_rest hs ht
    rfl

/-- **Everything that is signed is unambiguous.** If the bytes of two messages the functions accept
are equal, they were built by the same function for the same purpose of the same fields. -/
theorem signables_unambiguous {s t : Signed} {m : Bytes} (hs : s.signable = some m)
    (ht : t.signable = some m) : s = t := by
  rw [signable_eq] at hs ht
  obtain ⟨x, hx, rfl⟩ := Option.map_eq_some_iff.mp hs
  obtain ⟨y, hy, heq⟩ := Option.map_eq_some_iff.mp ht
  have hkind := label_free heq
  rw [hkind] at heq
  obtain rfl := List.append_cancel_left heq
  exact rest_inj hkind.symm hx hy

/-- A setup message, and the only fields it is of. -/
theorem signables_unambiguous_sample :
    (setup (ofText "a") 1 (List.replicate 1984 0)).signable.isSome = true ∧
    ∀ t : Signed, t.signable = (setup (ofText "a") 1 (List.replicate 1984 0)).signable →
      setup (ofText "a") 1 (List.replicate 1984 0) = t := by
  have hkey : (List.replicate 1984 (0 : UInt8)).length = hybridPublicKeyLen := List.length_replicate
  generalize List.replicate 1984 (0 : UInt8) = key at hkey ⊢
  have hsome : (setup (ofText "a") 1 key).signable =
      some (setupLabel ++ (u16ToBe 1 ++ ofText "a") ++ i64ToBe 1 ++ key) := by
    have haccount : putLp (ofText "a") = some (u16ToBe 1 ++ ofText "a") := by decide
    simp [signable, setupSignable, hkey, haccount]
  refine ⟨by rw [hsome]; rfl, ?_⟩
  intro t ht
  exact signables_unambiguous hsome (ht.trans hsome)

end Signed

end Trust

end ConstructCore
