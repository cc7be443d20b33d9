import ConstructCore.Orchestration.Book
import ConstructCore.Ratchet.Messaging

/-!
# The handshake

`crypto/handshake/x3dh.rs` and the two constructors of `crypto/session_api.rs`. Both sides
compute three Diffie-Hellman secrets, a fourth when the bundle names a one-time prekey, and
hash them with the ML-KEM secret into the root key of a session; the session's envelope pair
comes from the same root key.

The initiator's ephemeral key is drawn from `Env.dhSeed`; the responder draws its first ratchet
key from it.
-/

namespace ConstructCore

open Bytes

/-- `X3DHPublicKeyBundle`, without `kyber_spk_rotation_epoch`, which nothing reads. -/
structure X3DHPublicKeyBundle where
  identityPublic : Bytes
  signedPrekeyPublic : Bytes
  signature : Bytes
  verifyingKey : Bytes
  suiteId : SuiteID
  oneTimePrekeyPublic : Option Bytes
  oneTimePrekeyId : Option UInt32
  /-- Unix seconds; 0 when the server does not say. -/
  spkUploadedAt : Nat
  spkRotationEpoch : UInt32
  kyberSpkUploadedAt : Nat
deriving DecidableEq, Repr

/-- `PqxdhInput`: the ML-KEM part of the handshake. -/
structure PqxdhInput where
  sharedSecret : Bytes
  kyberPublic : Bytes
  kemCiphertext : Bytes
  initiatorKemIdentity : Bytes
deriving DecidableEq, Repr

/-- Which of the four secrets. -/
inductive DhStep where
  | dh1
  | dh2
  | dh3
  | dh4
deriving DecidableEq, Repr

def DhStep.name : DhStep → String
  | dh1 => "DH1"
  | dh2 => "DH2"
  | dh3 => "DH3"
  | dh4 => "DH4"

/-- Why a handshake gives no session. -/
inductive HandshakeError where
  | ephemeralKey (e : CryptoError)
  | identityPublicSize (got : Nat)
  | signedPrekeyPublicSize (got : Nat)
  | verifyingKeySize (got : Nat)
  | signatureSize (got : Nat)
  | signedPrekeySignature (e : CryptoError)
  | dh (step : DhStep) (e : CryptoError)
  | oneTimePrekeyPublicSize (got : Nat)
  | rootKey (e : CryptoError)
  | ratchet (e : RatchetError)
deriving DecidableEq, Repr

def HandshakeError.text : HandshakeError → String
  | ephemeralKey e => "Failed to generate ephemeral key: " ++ e.text
  | identityPublicSize got =>
    s!"Invalid identity_public key size: expected 32 bytes, got {got} bytes"
  | signedPrekeyPublicSize got =>
    s!"Invalid signed_prekey_public key size: expected 32 bytes, got {got} bytes"
  | verifyingKeySize got => s!"Invalid verifying_key size: expected 32 bytes, got {got} bytes"
  | signatureSize got => s!"Invalid signature size: expected 64 bytes, got {got} bytes"
  | signedPrekeySignature e =>
    "Invalid signed prekey signature: " ++ (e.text ++ ". The contact needs to re-register.")
  | dh step e => step.name ++ (" failed: " ++ e.text)
  | oneTimePrekeyPublicSize got =>
    s!"Invalid one_time_prekey_public size: expected 32 bytes, got {got} bytes"
  | rootKey e => "HKDF derivation failed: " ++ e.text
  | ratchet e => e.text

def buildPrologue (suiteId : SuiteID) : Bytes :=
  ofText "KonstruktX3DH-v1" ++ u16ToBe suiteId.asU16

namespace X3dh

variable (S : Suite)

/-- `X3DH_ROOT_INFO_CLASSIC`. -/
def rootInfoClassic : Bytes := ofText "Construct-X3DH-RootKey-v1"

/-- `X3DH_ROOT_INFO_PQXDH`. -/
def rootInfoPqxdh : Bytes := ofText "Construct-PQXDH-RootKey-v3"

/-- The info of the root key: the Kyber key, the ciphertext and the initiator's KEM identity key
are bound through it. -/
def rootInfo : Option PqxdhInput → Bytes
  | none => rootInfoClassic
  | some pq =>
    rootInfoPqxdh ++ (S.sha256 pq.kyberPublic).toList ++ (S.sha256 pq.kemCiphertext).toList ++
      (S.sha256 pq.initiatorKemIdentity).toList

def deriveRootKey (combinedDh : Bytes) (pq : Option PqxdhInput) : Except HandshakeError Bytes :=
  (S.hkdfDeriveKey (List.replicate 32 0xFF) (combinedDh ++ (pq.map (·.sharedSecret)).getD [])
    (rootInfo S pq) 32).mapError .rootKey

def dh (step : DhStep) (privateKey publicKey : Bytes) : Except HandshakeError Bytes :=
  (S.kemDecapsulate privateKey publicKey).mapError (.dh step)

/-- The sizes `perform_as_initiator` asks of a bundle. -/
def checkSizes (bundle : X3DHPublicKeyBundle) : Except HandshakeError Unit :=
  if bundle.identityPublic.length ≠ 32 then
    .error (.identityPublicSize bundle.identityPublic.length)
  else if bundle.signedPrekeyPublic.length ≠ 32 then
    .error (.signedPrekeyPublicSize bundle.signedPrekeyPublic.length)
  else if bundle.verifyingKey.length ≠ 32 then
    .error (.verifyingKeySize bundle.verifyingKey.length)
  else if bundle.signature.length ≠ 64 then .error (.signatureSize bundle.signature.length)
  else .ok ()

/-- The initiator's fourth secret; the size is checked only when there is a one-time prekey. -/
def initiatorDh4 (ephemeralPrivate : Bytes) : Option Bytes → Except HandshakeError Bytes
  | none => .ok []
  | some otpk =>
    if otpk.length ≠ 32 then .error (.oneTimePrekeyPublicSize otpk.length)
    else dh S .dh4 ephemeralPrivate otpk

/-- `perform_as_initiator`: the root key and the ephemeral private key. -/
def performAsInitiator (env : Env) (localIdentity : Bytes) (bundle : X3DHPublicKeyBundle)
    (pq : Option PqxdhInput) : Except HandshakeError (Bytes × Bytes) := do
  let (ephemeralPrivate, _) ← (S.generateKemKeys env.dhSeed).mapError .ephemeralKey
  checkSizes bundle
  (S.verify bundle.verifyingKey (buildPrologue bundle.suiteId ++ bundle.signedPrekeyPublic)
    bundle.signature).mapError .signedPrekeySignature
  let dh1 ← dh S .dh1 localIdentity bundle.signedPrekeyPublic
  let dh2 ← dh S .dh2 ephemeralPrivate bundle.identityPublic
  let dh3 ← dh S .dh3 ephemeralPrivate bundle.signedPrekeyPublic
  let dh4 ← initiatorDh4 S ephemeralPrivate bundle.oneTimePrekeyPublic
  let rootKey ← deriveRootKey S (dh1 ++ dh2 ++ dh3 ++ dh4) pq
  return (rootKey, ephemeralPrivate)

def responderDh4 (remoteEphemeral : Bytes) : Option Bytes → Except HandshakeError Bytes
  | none => .ok []
  | some otpk => dh S .dh4 otpk remoteEphemeral

def performAsResponder (localIdentity localSignedPrekey remoteIdentity remoteEphemeral : Bytes)
    (localOneTimePrekey : Option Bytes) (pq : Option PqxdhInput) : Except HandshakeError Bytes :=
  do
    let dh1 ← dh S .dh1 localSignedPrekey remoteIdentity
    let dh2 ← dh S .dh2 localIdentity remoteEphemeral
    let dh3 ← dh S .dh3 localSignedPrekey remoteEphemeral
    let dh4 ← responderDh4 S remoteEphemeral localOneTimePrekey
    deriveRootKey S (dh1 ++ dh2 ++ dh3 ++ dh4) pq

end X3dh

/-! ## Sessions from a handshake -/

/-- A session just made, with the envelope pair the book takes. -/
structure MadeSession where
  session : Session
  envelopeKeys : EnvelopePair

/-- `Session::init_as_initiator`: the suite is always the PQ ratchet's. -/
def initAsInitiator (S : Suite) (env : Env) (localIdentity : Bytes) (bundle : X3DHPublicKeyBundle)
    (remoteIdentity contactId localUserId : Bytes) (pq : Option PqxdhInput) :
    Except HandshakeError MadeSession := do
  let (rootKey, ephemeralPrivate) ← X3dh.performAsInitiator S env localIdentity bundle pq
  let session ← (newInitiatorSession S.toCrypto env rootKey ephemeralPrivate remoteIdentity
    contactId localUserId .pqRatchet).mapError .ratchet
  return { session, envelopeKeys := .derive S.toCrypto rootKey localUserId contactId }

/-- `Session::init_as_responder`: the session, and the first message's plaintext. -/
def initAsResponder (S : Suite) (env : Env)
    (localIdentity localSignedPrekey remoteIdentity remoteEphemeral : Bytes)
    (firstMessage : EncryptedRatchetMessage) (contactId localUserId : Bytes)
    (localOneTimePrekey : Option Bytes) (pq : Option PqxdhInput) :
    Except HandshakeError (MadeSession × Bytes) := do
  let rootKey ← X3dh.performAsResponder S localIdentity localSignedPrekey remoteIdentity
    remoteEphemeral localOneTimePrekey pq
  let (session, plaintext) ← (newResponderSession S.toCrypto env rootKey localIdentity firstMessage
    contactId localUserId).mapError .ratchet
  return ({ session, envelopeKeys := .derive S.toCrypto rootKey localUserId contactId }, plaintext)

variable {S : Suite} {env : Env} {localIdentity remoteIdentity contactId localUserId : Bytes}
  {pq : Option PqxdhInput} {made : MadeSession}

theorem initAsResponder_ok {localSignedPrekey remoteEphemeral : Bytes}
    {firstMessage : EncryptedRatchetMessage} {localOneTimePrekey : Option Bytes} {plaintext : Bytes}
    (h : initAsResponder S env localIdentity localSignedPrekey remoteIdentity remoteEphemeral
      firstMessage contactId localUserId localOneTimePrekey pq = .ok (made, plaintext)) :
    ∃ rootKey,
      X3dh.performAsResponder S localIdentity localSignedPrekey remoteIdentity remoteEphemeral
        localOneTimePrekey pq = .ok rootKey ∧
      newResponderSession S.toCrypto env rootKey localIdentity firstMessage contactId localUserId =
        .ok (made.session, plaintext) ∧
      made.envelopeKeys = .derive S.toCrypto rootKey localUserId contactId := by
  unfold initAsResponder at h
  obtain ⟨rootKey, hroot, h⟩ := Except.exists_of_bind_ok h
  obtain ⟨⟨session, plaintext'⟩, hsession, h⟩ := Except.exists_of_bind_ok h
  cases h
  exact ⟨rootKey, hroot, Except.mapError_eq_ok.mp hsession, rfl⟩

end ConstructCore
