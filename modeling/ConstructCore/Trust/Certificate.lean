import ConstructCore.Lib.Bytes
import ConstructCore.Lib.Op

/-!
# Sender certificates and the server's keys

`server-trust/src/lib.rs`, `crypto/server_trust.rs` and the certificate half of
`crypto/sealed_sender/mod.rs`: what a server key signs, which keys a client accepts, and when
a certificate may open a session. Texts are their UTF-8 bytes.

Two signed encodings exist side by side. `senderCertBody` puts a length before each field of
variable length; `buildCertSignPayload`, which the Ed25519 signature covers, does not.
-/

namespace ConstructCore

open Bytes

namespace Trust

/-- The primitives under the server's signatures. -/
structure Signing where
  sha256 : Bytes → Vector UInt8 32
  /-- Key, message and signature; a key or a signature of the wrong length verifies nothing. -/
  ed25519Verify : Bytes → Bytes → Bytes → Bool
  /-- Ed25519 and ML-DSA-65, both halves. -/
  hybridVerify : Bytes → Bytes → Bytes → Bool

/-- `i64::to_be_bytes`. -/
def i64ToBe (n : Int64) : Bytes := (leBytes 8 n.toBitVec.toNat).reverse

/-- `i64::saturating_add`. -/
def satAdd (m n : Int64) : Int64 := .ofIntClamp (m.toInt + n.toInt)

/-- `i64::saturating_sub`. -/
def satSub (m n : Int64) : Int64 := .ofIntClamp (m.toInt - n.toInt)

def senderCertMaxLifetimeSecs : Int64 := 86400

def maxDeliveryAgeSecs : Int64 := 7 * 86400

def hybridRequired : Bool := false

/-- `derive_device_id`: half the hash of the identity key, in hex. -/
def deriveDeviceId (S : Signing) (identityPublicKey : Bytes) : Bytes :=
  hexEncode ((S.sha256 identityPublicKey).toList.take 16)

/-! ## What a server key signs -/

inductive Purpose where
  | senderCert
  | ktHead
  | stickerManifest
deriving DecidableEq, Repr

namespace Purpose

def label : Purpose → Bytes
  | senderCert => ofText "konstruct/v1/sender-cert"
  | ktHead => ofText "konstruct/v1/kt-head"
  | stickerManifest => ofText "konstruct/v1/sticker-manifest"

/-- How long after its key's window closes a signature is still accepted. -/
def graceSecs : Purpose → Option Int64
  | senderCert => some (senderCertMaxLifetimeSecs + maxDeliveryAgeSecs)
  | ktHead => some 0
  | stickerManifest => none

end Purpose

/-- A key id. -/
abbrev Kid := Vector UInt8 16

def kidOf (S : Signing) (publicKey : Bytes) : Kid :=
  (S.sha256 (ofText "konstruct/v1/kid" ++ publicKey)).take 16

def serverSignable (purpose : Purpose) (kid : Kid) (body : Bytes) : Bytes :=
  purpose.label ++ kid.toList ++ body

/-- `put_lp`: a field behind its length; `none` when the length does not fit. -/
def putLp (field : Bytes) : Option Bytes :=
  if field.length ≤ 65535 then some (u16ToBe (UInt16.ofNat field.length) ++ field) else none

structure SenderCertificate where
  userId : Bytes
  domain : Bytes
  identityKey : Bytes
  deviceId : Bytes
  issuedAt : Int64
  expiresAt : Int64
  signature : Bytes
  serverKid : Bytes
  serverSignatureHybrid : Bytes
deriving DecidableEq

/-- `sender_cert_body`: every field of variable length behind its length. -/
def senderCertBody (c : SenderCertificate) : Option Bytes := do
  let userId ← putLp c.userId
  let domain ← putLp c.domain
  let identityKey ← putLp c.identityKey
  let deviceId ← putLp c.deviceId
  return userId ++ domain ++ identityKey ++ deviceId ++ i64ToBe c.issuedAt ++ i64ToBe c.expiresAt

/-- `build_cert_sign_payload`: the fields, one after the other. -/
def buildCertSignPayload (c : SenderCertificate) : Bytes :=
  c.userId ++ c.domain ++ c.identityKey ++ c.deviceId ++ i64ToBe c.issuedAt ++ i64ToBe c.expiresAt

def verifySenderCert (S : Signing) (c : SenderCertificate) (serverVerifyingKey : Bytes) : Bool :=
  if serverVerifyingKey.length = 32 ∧ c.signature.length = 64 then
    S.ed25519Verify serverVerifyingKey (buildCertSignPayload c) c.signature
  else false

/-! ## The keys a client accepts -/

/-- `Delegation`: this key may sign for `purpose` between the two instants. -/
structure Delegation where
  purpose : Purpose
  notBefore : Int64
  notAfter : Int64
  publicKey : Bytes
deriving DecidableEq

/-- `TrustError`, as far as `verify` returns it. -/
inductive TrustError where
  | unknownKey
  | wrongPurpose
  | outsideWindow
  | expired
  | badSignature
deriving DecidableEq, Repr

structure ServerKeyRing where
  roots : List Bytes
  keys : List Delegation

namespace ServerKeyRing

def hasRoots (ring : ServerKeyRing) : Bool := ! ring.roots.isEmpty

def windowEnd (signedAt : Int64) (delegations : List Delegation) : Option Int64 :=
  ((delegations.filter fun k => signedAt ≥ k.notBefore ∧ signedAt ≤ k.notAfter).map
    Delegation.notAfter).max?

def verify (S : Signing) (ring : ServerKeyRing) (purpose : Purpose) (kid : Kid)
    (body signature : Bytes) (signedAt now : Int64) : Except TrustError Unit :=
  let named := ring.keys.filter fun k => kidOf S k.publicKey = kid
  if named.isEmpty then .error .unknownKey
  else
    let forPurpose := named.filter fun k => k.purpose = purpose
    match forPurpose with
    | [] => .error .wrongPurpose
    | key :: _ =>
      if ! S.hybridVerify key.publicKey (serverSignable purpose kid body) signature then
        .error .badSignature
      else
        match windowEnd signedAt forPurpose with
        | none => .error .outsideWindow
        | some notAfter =>
          match purpose.graceSecs with
          | some grace => if now > satAdd notAfter grace then .error .expired else .ok ()
          | none => .ok ()

end ServerKeyRing

structure ServerTrust where
  legacyKeys : List Bytes
  ring : ServerKeyRing

/-! ## Opening from a certificate -/

inductive SenderRefusal where
  | noTrustedKey
  | badSignature
  | deviceMismatch
  | expired
deriving DecidableEq, Repr

namespace SenderCertificate

def checkHybrid (S : Signing) (c : SenderCertificate) (ring : ServerKeyRing) (now : Int64) :
    Except SenderRefusal Unit :=
  match toVector? 16 c.serverKid with
  | none => .error .badSignature
  | some kid =>
    -- a longer life would stretch a leaked key past its grace
    let lifetime := satSub c.expiresAt c.issuedAt
    if ¬ (0 ≤ lifetime ∧ lifetime ≤ senderCertMaxLifetimeSecs) then .error .badSignature
    else
      match senderCertBody c with
      | none => .error .badSignature
      | some body =>
        match ring.verify S .senderCert kid body c.serverSignatureHybrid c.issuedAt now with
        | .ok () => .ok ()
        | .error .unknownKey => .error .noTrustedKey
        | .error .expired => .error .expired
        | .error _ => .error .badSignature

/-- `check_signature`: with roots pinned, a hybrid signature that is there decides alone. -/
def checkSignature (S : Signing) (c : SenderCertificate) (trust : ServerTrust) (now : Int64) :
    Except SenderRefusal Unit :=
  if trust.ring.hasRoots ∧ ! c.serverSignatureHybrid.isEmpty then c.checkHybrid S trust.ring now
  else if trust.ring.hasRoots ∧ hybridRequired then .error .badSignature
  else if trust.legacyKeys.isEmpty then .error .noTrustedKey
  else if trust.legacyKeys.any (verifySenderCert S c) then .ok ()
  else .error .badSignature

/-- `identity_for_opening`: the sender's identity key, if the certificate may open a session. -/
def identityForOpening (S : Signing) (c : SenderCertificate) (trust : ServerTrust) (now : Int64) :
    Except SenderRefusal Bytes :=
  -- `Expired` is a verdict on a certificate that passed everything else
  let checked : Except SenderRefusal Bool :=
    match c.checkSignature S trust now with
    | .ok () => .ok false
    | .error .expired => .ok true
    | .error e => .error e
  match checked with
  | .error e => .error e
  | .ok lapsed =>
    if c.identityKey.length ≠ 32 ∨ deriveDeviceId S c.identityKey ≠ c.deviceId then
      .error .deviceMismatch
    else if lapsed ∨ satAdd c.expiresAt maxDeliveryAgeSecs ≤ now then .error .expired
    else .ok c.identityKey

end SenderCertificate

/-! ## What an accepted certificate says -/

namespace Signing

def EdIdeal (S : Signing) : Prop :=
  ∀ key m m' signature, S.ed25519Verify key m signature = true →
    S.ed25519Verify key m' signature = true → m = m'

def HybridIdeal (S : Signing) : Prop :=
  ∀ key key' m m' signature, S.hybridVerify key m signature = true →
    S.hybridVerify key' m' signature = true → m = m'

end Signing

theorem i64ToBe_inj {m n : Int64} (h : i64ToBe m = i64ToBe n) : m = n := by
  have hbytes := congrArg ofLeBytes (List.reverse_inj.mp h)
  have hm : m.toBitVec.toNat < 256 ^ 8 := m.toBitVec.isLt
  have hn : n.toBitVec.toNat < 256 ^ 8 := n.toBitVec.isLt
  rw [ofLeBytes_leBytes, ofLeBytes_leBytes, Nat.mod_eq_of_lt hm, Nat.mod_eq_of_lt hn] at hbytes
  exact Int64.toBitVec_inj.mp (BitVec.eq_of_toNat_eq hbytes)

@[simp] theorem length_i64ToBe (n : Int64) : (i64ToBe n).length = 8 := by
  simp [i64ToBe]

theorem putLp_append_inj {a b x y r r' : Bytes} (ha : putLp a = some x) (hb : putLp b = some y)
    (h : x ++ r = y ++ r') : a = b ∧ r = r' := by
  unfold putLp at ha hb
  split at ha <;> [skip; cases ha]
  split at hb <;> [skip; cases hb]
  cases ha
  cases hb
  rw [List.append_assoc, List.append_assoc] at h
  obtain ⟨hlen, h⟩ := List.append_inj h (by simp)
  have hsame := congrArg UInt16.toNat (u16ToBe_inj.mp hlen)
  rw [UInt16.toNat_ofNat', UInt16.toNat_ofNat'] at hsame
  exact List.append_inj h (by omega)

theorem length_deriveDeviceId (S : Signing) (key : Bytes) : (deriveDeviceId S key).length = 32 := by
  unfold deriveDeviceId
  rw [length_hexEncode, List.length_take, Vector.length_toList]
  rfl

namespace SenderCertificate

variable {S : Signing} {c c' : SenderCertificate} {trust : ServerTrust} {now now' : Int64}
  {key key' : Bytes}

theorem fields_of_body {body : Bytes} (h : senderCertBody c = some body)
    (h' : senderCertBody c' = some body) :
    c.userId = c'.userId ∧ c.domain = c'.domain ∧ c.identityKey = c'.identityKey ∧
      c.deviceId = c'.deviceId ∧ c.issuedAt = c'.issuedAt ∧ c.expiresAt = c'.expiresAt := by
  unfold senderCertBody at h h'
  simp only [Option.bind_eq_bind, Option.bind_eq_some_iff, Option.pure_def,
    Option.some.injEq] at h h'
  obtain ⟨u, hu, d, hd, k, hk, v, hv, rfl⟩ := h
  obtain ⟨u', hu', d', hd', k', hk', v', hv', heq⟩ := h'
  simp only [List.append_assoc] at heq
  obtain ⟨huser, heq⟩ := putLp_append_inj hu' hu heq
  obtain ⟨hdomain, heq⟩ := putLp_append_inj hd' hd heq
  obtain ⟨hidentity, heq⟩ := putLp_append_inj hk' hk heq
  obtain ⟨hdevice, heq⟩ := putLp_append_inj hv' hv heq
  obtain ⟨hissued, hexpires⟩ := List.append_inj heq (by simp)
  exact ⟨huser.symm, hdomain.symm, hidentity.symm, hdevice.symm, (i64ToBe_inj hissued).symm,
    (i64ToBe_inj hexpires).symm⟩

/-- What the plain concatenation says, of a key and a device id of fixed length. -/
theorem fields_of_payload (hkey : c.identityKey.length = 32) (hkey' : c'.identityKey.length = 32)
    (hdevice : c.deviceId.length = 32) (hdevice' : c'.deviceId.length = 32)
    (h : buildCertSignPayload c = buildCertSignPayload c') :
    c.userId ++ c.domain = c'.userId ++ c'.domain ∧ c.identityKey = c'.identityKey ∧
      c.deviceId = c'.deviceId ∧ c.issuedAt = c'.issuedAt ∧ c.expiresAt = c'.expiresAt := by
  unfold buildCertSignPayload at h
  obtain ⟨h, hexpires⟩ := List.append_inj' h (by simp)
  obtain ⟨h, hissued⟩ := List.append_inj' h (by simp)
  obtain ⟨h, hid⟩ := List.append_inj' h (hdevice.trans hdevice'.symm)
  obtain ⟨h, hidentity⟩ := List.append_inj' h (hkey.trans hkey'.symm)
  exact ⟨h, hidentity, hid, i64ToBe_inj hissued, i64ToBe_inj hexpires⟩

theorem identityForOpening_ok (h : c.identityForOpening S trust now = .ok key) :
    c.checkSignature S trust now = .ok () ∧ c.identityKey.length = 32 ∧ c.deviceId.length = 32 := by
  unfold identityForOpening at h
  have hopen : ∀ lapsed, (if c.identityKey.length ≠ 32 ∨ deriveDeviceId S c.identityKey ≠ c.deviceId
      then Except.error SenderRefusal.deviceMismatch
      else if lapsed = true ∨ satAdd c.expiresAt maxDeliveryAgeSecs ≤ now then .error .expired
      else .ok c.identityKey) = .ok key →
      lapsed = false ∧ c.identityKey.length = 32 ∧ c.deviceId.length = 32 := by
    intro lapsed hif
    split at hif
    · cases hif
    next hdevice =>
    split at hif
    · cases hif
    next hlive =>
    simp only [ne_eq, not_or, not_not] at hdevice
    refine ⟨by simpa using fun h => hlive (.inl h), hdevice.1, ?_⟩
    rw [← hdevice.2, length_deriveDeviceId]
  cases hcheck : c.checkSignature S trust now with
  | ok =>
    rw [hcheck] at h
    exact ⟨rfl, (hopen false h).2⟩
  | error e =>
    rw [hcheck] at h
    cases e with
    | expired => exact absurd (hopen true h).1 (by decide)
    | noTrustedKey => cases h
    | badSignature => cases h
    | deviceMismatch => cases h

theorem checkHybrid_ok {ring : ServerKeyRing} (h : c.checkHybrid S ring now = .ok ()) :
    ∃ publicKey kid body, senderCertBody c = some body ∧
      S.hybridVerify publicKey (serverSignable .senderCert kid body) c.serverSignatureHybrid =
        true := by
  unfold checkHybrid at h
  split at h
  · cases h
  next kid hkid =>
  dsimp only at h
  split at h
  · cases h
  split at h
  · cases h
  next body hbody =>
  split at h
  next hverify =>
    unfold ServerKeyRing.verify at hverify
    dsimp only at hverify
    split at hverify
    · cases hverify
    split at hverify
    · cases hverify
    next publicKey _ hkeys =>
    split at hverify
    · cases hverify
    next hsigned =>
    exact ⟨publicKey.publicKey, kid, body, hbody, by simpa using hsigned⟩
  all_goals cases h

/-- The signature a certificate is accepted on. -/
inductive Decided where
  | hybrid (signature : Bytes)
  /-- With the legacy key that verified it. -/
  | ed25519 (key signature : Bytes)

/-- The signature that decides about a certificate, and the key for an Ed25519 one. -/
def DecidedBy (S : Signing) (trust : ServerTrust) (c : SenderCertificate) : Decided → Prop
  | .hybrid signature =>
    trust.ring.hasRoots = true ∧ c.serverSignatureHybrid ≠ [] ∧
      c.serverSignatureHybrid = signature
  | .ed25519 key signature =>
    ¬ (trust.ring.hasRoots = true ∧ c.serverSignatureHybrid ≠ []) ∧ key ∈ trust.legacyKeys ∧
      c.signature = signature ∧ verifySenderCert S c key = true

/-- **What the server signed.** Two accepted certificates on one signature agree on the identity
key, the device and the two dates, and on user id and domain together; on each of the two when
the hybrid signature decided, whose body puts a length before every field. -/
theorem agree_on_signature (S : Signing) (hed : S.EdIdeal) (hhybrid : S.HybridIdeal)
    (trust : ServerTrust) (c c' : SenderCertificate) (now now' : Int64) (key key' : Bytes)
    (h : c.identityForOpening S trust now = .ok key)
    (h' : c'.identityForOpening S trust now' = .ok key')
    (decided : Decided) (hc : c.DecidedBy S trust decided) (hc' : c'.DecidedBy S trust decided) :
    c.userId ++ c.domain = c'.userId ++ c'.domain ∧ c.identityKey = c'.identityKey ∧
      c.deviceId = c'.deviceId ∧ c.issuedAt = c'.issuedAt ∧ c.expiresAt = c'.expiresAt ∧
      (∀ signature, decided = .hybrid signature →
        c.userId = c'.userId ∧ c.domain = c'.domain) := by
  obtain ⟨hcheck, hkey, hdevice⟩ := identityForOpening_ok h
  obtain ⟨hcheck', hkey', hdevice'⟩ := identityForOpening_ok h'
  cases decided with
  | hybrid signature =>
    obtain ⟨hroots, hne, rfl⟩ := hc
    obtain ⟨-, hne', hsame⟩ := hc'
    have hthis : ∀ c : SenderCertificate, c.serverSignatureHybrid ≠ [] → ∀ now,
        c.checkSignature S trust now = c.checkHybrid S trust.ring now := by
      intro c hne now
      exact if_pos ⟨hroots, by simpa using hne⟩
    rw [hthis c hne] at hcheck
    rw [hthis c' hne'] at hcheck'
    obtain ⟨publicKey, kid, body, hbody, hverify⟩ := checkHybrid_ok hcheck
    obtain ⟨publicKey', kid', body', hbody', hverify'⟩ := checkHybrid_ok hcheck'
    rw [hsame] at hverify'
    have hmessage := hhybrid _ _ _ _ _ hverify hverify'
    unfold serverSignable at hmessage
    obtain ⟨-, rfl⟩ := List.append_inj hmessage (by simp)
    obtain ⟨huser, hdomain, hfields⟩ := fields_of_body hbody hbody'
    obtain ⟨hidentity, hid, hissued, hexpires⟩ := hfields
    exact ⟨by rw [huser, hdomain], hidentity, hid, hissued, hexpires,
      fun _ _ => ⟨huser, hdomain⟩⟩
  | ed25519 legacy signature =>
    obtain ⟨-, -, rfl, hverify⟩ := hc
    obtain ⟨-, -, hsame, hverify'⟩ := hc'
    have hed25519 : ∀ c : SenderCertificate, verifySenderCert S c legacy = true →
        S.ed25519Verify legacy (buildCertSignPayload c) c.signature = true := by
      intro c hc
      unfold verifySenderCert at hc
      split at hc
      · exact hc
      · cases hc
    have hpayload := hed _ _ _ _ (hed25519 c hverify) (hsame ▸ hed25519 c' hverify')
    obtain ⟨htext, hidentity, hid, hissued, hexpires⟩ :=
      fields_of_payload hkey hkey' hdevice hdevice' hpayload
    exact ⟨htext, hidentity, hid, hissued, hexpires, fun _ heq => (nomatch heq)⟩

/-! ## Two users under one Ed25519 signature -/

def sampleKey : Bytes := List.replicate 32 7

def legacyCertificate (userId domain : Bytes) : SenderCertificate where
  userId := userId
  domain := domain
  identityKey := sampleKey
  deviceId := hexEncode (List.replicate 16 5)
  issuedAt := 1000
  expiresAt := 2000
  signature := List.replicate 64 1
  serverKid := []
  serverSignatureHybrid := []

def hybridCertificate (signature : Bytes) : SenderCertificate :=
  { legacyCertificate (ofText "ab") (ofText "c") with
    signature := signature
    serverKid := List.replicate 16 5
    serverSignatureHybrid := List.replicate 64 2 }

/-- A server that has made one signature of each kind, both for user `ab` of domain `c`. -/
def sampleSigning : Signing where
  sha256 _ := Vector.replicate 32 5
  ed25519Verify key message signature :=
    key = List.replicate 32 3 ∧
      message = buildCertSignPayload (legacyCertificate (ofText "ab") (ofText "c")) ∧
      signature = List.replicate 64 1
  hybridVerify key message signature :=
    key = [4] ∧
      some message = (senderCertBody (hybridCertificate [])).map
        (serverSignable .senderCert (Vector.replicate 16 5)) ∧
      signature = List.replicate 64 2

theorem sampleSigning_edIdeal : sampleSigning.EdIdeal := by
  intro key m m' signature h h'
  exact (of_decide_eq_true h).2.1.trans (of_decide_eq_true h').2.1.symm

theorem sampleSigning_hybridIdeal : sampleSigning.HybridIdeal := by
  intro key key' m m' signature h h'
  have hm := (of_decide_eq_true h).2.1
  have hm' := (of_decide_eq_true h').2.1
  exact Option.some.inj (hm.trans hm'.symm)

def sampleTrust : ServerTrust where
  legacyKeys := [List.replicate 32 3]
  ring := ⟨[[9]], [⟨.senderCert, 0, 5000, [4]⟩]⟩

/-- One Ed25519 signature opens a session for user `ab` of domain `c` and for user `a` of
domain `bc`: the payload it covers has no boundary between the two. -/
theorem userId_slides_into_domain :
    let c := legacyCertificate (ofText "ab") (ofText "c")
    let c' := legacyCertificate (ofText "a") (ofText "bc")
    c.identityForOpening sampleSigning sampleTrust 1500 = .ok sampleKey ∧
      c'.identityForOpening sampleSigning sampleTrust 1500 = .ok sampleKey ∧
      (∃ decided, c.DecidedBy sampleSigning sampleTrust decided ∧
        c'.DecidedBy sampleSigning sampleTrust decided) ∧
      sampleSigning.EdIdeal ∧ sampleSigning.HybridIdeal ∧
      c.userId ≠ c'.userId ∧ c.domain ≠ c'.domain := by
  refine ⟨by decide +kernel, by decide +kernel,
    ⟨.ed25519 (List.replicate 32 3) (List.replicate 64 1), ?_, ?_⟩, sampleSigning_edIdeal,
    sampleSigning_hybridIdeal, by decide +kernel, by decide +kernel⟩
  all_goals exact ⟨by decide +kernel, by decide +kernel, rfl, by decide +kernel⟩

/-- Two certificates that differ in the Ed25519 signature, both decided by the hybrid one. -/
theorem agree_on_signature_sample :
    (hybridCertificate []).userId = (hybridCertificate [1]).userId ∧
      (hybridCertificate []).domain = (hybridCertificate [1]).domain :=
  (agree_on_signature sampleSigning sampleSigning_edIdeal sampleSigning_hybridIdeal sampleTrust
    (hybridCertificate []) (hybridCertificate [1]) 1500 1600 sampleKey sampleKey
    (by decide +kernel) (by decide +kernel) (.hybrid (List.replicate 64 2))
    ⟨by decide +kernel, by decide +kernel, rfl⟩ ⟨by decide +kernel, by decide +kernel, rfl⟩).2.2.2.2.2
      _ rfl

end SenderCertificate

end Trust

end ConstructCore
