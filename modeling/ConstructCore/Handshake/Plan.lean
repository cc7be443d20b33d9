import ConstructCore.Handshake.X3dh
import ConstructCore.Keys.KeyManager

/-!
# Choosing the Kyber prekey of a bundle

`orchestration/pq_prekey_plan.rs` with the signature checks of `crypto/kyber_prekey_auth.rs`:
the hybrid identity key of the bundle must be bound to the device's own key and be the one
pinned for the device, and the Kyber prekey must be signed by both. A one-time prekey that
passes is preferred; otherwise the signed prekey must pass.
-/

namespace ConstructCore

open Bytes

def spkMaxAgeSecs : Nat := 30 * 24 * 3600

def kyberSpkMaxAgeSecs : Nat := spkMaxAgeSecs

def kyberPrekeySignSuiteV2 : UInt8 := 0x11

def hybridSigPublicKeySize : Nat := 1984

structure KyberPrekeyOffer where
  keyId : UInt32
  publicKey : Bytes
  createdAt : Option Nat
  signature : Option Bytes
  hybridSignature : Option Bytes
deriving DecidableEq, Repr

structure PqxdhOffer where
  verifyingKey : Bytes
  hybridIdentityKey : Option Bytes
  hybridIdentitySignature : Option Bytes
  signedPrekey : Option KyberPrekeyOffer
  oneTimePrekey : Option KyberPrekeyOffer
deriving DecidableEq, Repr

structure PqxdhContext where
  now : Nat
  pinnedHybridIdentity : Option (Vector UInt8 32)
deriving DecidableEq, Repr

inductive PqxdhRefusal where
  | noKyberPrekey
  | kyberPrekeyMalformed
  | kyberSignatureMissing
  | kyberSignatureInvalid
  | kyberPrekeyStale
  | hybridIdentityMissing
  | hybridIdentityBindingInvalid
  | hybridIdentityChanged
  | hybridSignatureMissing
  | hybridSignatureInvalid
deriving DecidableEq, Repr

structure PqxdhChoice where
  kyberPrekeyId : UInt32
  kyberPublic : Bytes
  hybridIdentityFingerprint : Vector UInt8 32
  oneTimePrekeyRejected : Option PqxdhRefusal
deriving DecidableEq, Repr

/-- Which ids a prekey may have. -/
inductive PrekeyRange where
  | signed
  | oneTime
deriving DecidableEq, Repr

def PrekeyRange.contains : PrekeyRange → UInt32 → Bool
  | signed, id => decide (1 ≤ id ∧ id < kyberOtpkIdStart)
  | oneTime, id => decide (kyberOtpkIdStart ≤ id)

section

variable (S : Suite)

def hybridIdentityFingerprint (key : Bytes) : Vector UInt8 32 := S.sha256 key

def kemIdentityFingerprint (key : Bytes) : Vector UInt8 32 := S.sha256 key

def buildHybridIdentityBindMessage (hybridPublic : Bytes) : Bytes :=
  ofText "KonstruktHybridId-v1" ++ hybridPublic

def kyberPrekeySignMessageV2 (createdAt : Nat) (kyberPublic : Bytes) : Bytes :=
  ofText "KonstruktX3DH-v1" ++ [0, kyberPrekeySignSuiteV2] ++ (leBytes 8 createdAt).reverse ++
    kyberPublic

def present (signature : Option Bytes) : Option Bytes := signature.filter fun s => !s.isEmpty

/-- `check_hybrid_identity`: the hybrid key, bound to the device by its own signature. -/
def checkHybridIdentity (offer : PqxdhOffer) : Except PqxdhRefusal Bytes := do
  let key ← (present offer.hybridIdentityKey).okOr .hybridIdentityMissing
  let binding ← (present offer.hybridIdentitySignature).okOr .hybridIdentityMissing
  if S.ed25519Verify offer.verifyingKey (buildHybridIdentityBindMessage key) binding then .ok key
  else .error .hybridIdentityBindingInvalid

def checkKyberPrekeySignatureV2 (verifyingKey kyberPublic : Bytes) (createdAt : Nat)
    (signature : Option Bytes) : Except PqxdhRefusal Unit := do
  let signature ← (present signature).okOr .kyberSignatureMissing
  if S.ed25519Verify verifyingKey (kyberPrekeySignMessageV2 createdAt kyberPublic) signature then
    .ok ()
  else .error .kyberSignatureInvalid

def checkKyberPrekeyHybridSignature (hybridKey kyberPublic : Bytes) (createdAt : Nat)
    (signature : Option Bytes) : Except PqxdhRefusal Unit := do
  let signature ← (present signature).okOr .hybridSignatureMissing
  if hybridKey.length = hybridSigPublicKeySize ∧
      S.hybridVerify hybridKey (kyberPrekeySignMessageV2 createdAt kyberPublic) signature then
    .ok ()
  else .error .hybridSignatureInvalid

def checkPrekey (verifyingKey hybridKey : Bytes) (prekey : KyberPrekeyOffer) (range : PrekeyRange)
    (now : Nat) : Except PqxdhRefusal Unit :=
  if prekey.publicKey.length ≠ mlkem1024PkSize ∨ !range.contains prekey.keyId then
    .error .kyberPrekeyMalformed
  else do
    let createdAt ← prekey.createdAt.okOr .kyberSignatureMissing
    checkKyberPrekeySignatureV2 S verifyingKey prekey.publicKey createdAt prekey.signature
    checkKyberPrekeyHybridSignature S hybridKey prekey.publicKey createdAt prekey.hybridSignature
    if range = .signed ∧ kyberSpkMaxAgeSecs < now - createdAt then .error .kyberPrekeyStale
    else .ok ()

def PqxdhChoice.of (prekey : KyberPrekeyOffer) (fingerprint : Vector UInt8 32)
    (rejected : Option PqxdhRefusal) : PqxdhChoice where
  kyberPrekeyId := prekey.keyId
  kyberPublic := prekey.publicKey
  hybridIdentityFingerprint := fingerprint
  oneTimePrekeyRejected := rejected

def planSigned (offer : PqxdhOffer) (hybridKey : Bytes) (now : Nat)
    (rejected : Option PqxdhRefusal) : Except PqxdhRefusal PqxdhChoice := do
  let spk ← offer.signedPrekey.okOr .noKyberPrekey
  checkPrekey S offer.verifyingKey hybridKey spk .signed now
  return .of spk (hybridIdentityFingerprint S hybridKey) rejected

def planPqxdh (offer : PqxdhOffer) (ctx : PqxdhContext) : Except PqxdhRefusal PqxdhChoice := do
  let hybridKey ← checkHybridIdentity S offer
  let fingerprint := hybridIdentityFingerprint S hybridKey
  if ctx.pinnedHybridIdentity.any fun pinned => pinned != fingerprint then
    .error .hybridIdentityChanged
  else
    match offer.oneTimePrekey with
    | none => planSigned S offer hybridKey ctx.now none
    | some otpk =>
      match checkPrekey S offer.verifyingKey hybridKey otpk .oneTime ctx.now with
      | .ok () => .ok (.of otpk fingerprint none)
      | .error reason => planSigned S offer hybridKey ctx.now (some reason)

end

theorem present_eq_some {x : Option Bytes} {b : Bytes} (h : present x = some b) : x = some b := by
  unfold present at h
  exact (Option.filter_eq_some_iff.mp h).1

theorem checkHybridIdentity_ok {S : Suite} {offer : PqxdhOffer} {key : Bytes}
    (h : checkHybridIdentity S offer = .ok key) : offer.hybridIdentityKey = some key := by
  unfold checkHybridIdentity at h
  obtain ⟨key', hkey, h⟩ := Except.exists_of_bind_ok h
  obtain ⟨binding, -, h⟩ := Except.exists_of_bind_ok h
  split at h
  · rw [← Except.ok.inj h]
    exact present_eq_some (Option.okOr_eq_ok.mp hkey)
  · cases h

end ConstructCore
