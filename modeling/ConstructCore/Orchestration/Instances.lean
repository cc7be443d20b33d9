import ConstructCore.Orchestration.Orchestrator

/-!
# A concrete record encoding and a concrete device

The encoding is a code book: it writes the records of a list, each as its place in the list,
and reads them back. The device has keys of every kind the handshake asks for.
-/

namespace ConstructCore

open Bytes

def codeBook (records : List CfeSessionRecord) (states : List CfeOrchestratorStateV1) : Cfe where
  encodeSession record :=
    match records.idxOf? record with
    | some i => .ok (List.replicate i 1)
    | none => .error (.serializeFailed "not in the book")
  decodeSession data :=
    match records[data.length]? with
    | some record => .ok record
    | none => .error (.refused "not in the book")
  sessionFromJson _ := .error "no session"
  encodeState state :=
    match states.idxOf? state with
    | some i => .ok (List.replicate i 1)
    | none => .error (.serializeFailed "not in the book")
  decodeState data :=
    match states[data.length]? with
    | some state => .ok state
    | none => .error (.refused "not in the book")

def sampleMoment : Moment := ⟨1000, ⟨1, 0, 0, 0, 0⟩⟩

/-- The keys of a device; `n` tells devices apart. -/
def sampleKeys (n : UInt8) : KeyManager where
  identityKey := some (List.replicate 32 n, List.replicate 32 n)
  currentSignedPrekey := some ⟨1, (List.replicate 32 (n + 1), List.replicate 32 (n + 1))⟩
  oldPrekeys := ∅
  oneTimePrekeys := ∅
  nextOtpkId := 1
  hybridSigPriv := some (List.replicate 64 (n + 2))
  kyberPrekeys := { KyberPrekeyStore.default with spk := some ⟨1, 0, List.replicate 64 (n + 3)⟩ }

def sampleBundle (n : UInt8) : X3DHPublicKeyBundle where
  identityPublic := List.replicate 32 n
  signedPrekeyPublic := List.replicate 32 (n + 1)
  signature := List.replicate 64 n
  verifyingKey := List.replicate 32 n
  suiteId := .pqRatchet
  oneTimePrekeyPublic := none
  oneTimePrekeyId := none
  spkUploadedAt := 0
  spkRotationEpoch := 1
  kyberSpkUploadedAt := 0

def sampleKyber (n : UInt8) : KyberBundleKeys where
  preKeyId := some 1
  preKeyPublic := some (sizedSuite.mlkem1024Expand (List.replicate 64 (n + 3)))
  preKeyCreatedAt := some 0
  preKeySignature := some (List.replicate 64 n)
  preKeyHybridSignature := some (List.replicate 64 n)
  oneTimePrekeyId := none
  oneTimePrekeyPublic := none
  oneTimePrekeyCreatedAt := none
  oneTimePrekeySignature := none
  oneTimePrekeyHybridSignature := none
  hybridIdentityKey := some (List.replicate 1984 n)
  hybridIdentitySignature := some (List.replicate 64 n)

def sampleDevice (n : UInt8) : Bytes :=
  Trust.deriveDeviceId sizedSuite.toSigning (List.replicate 32 n)

def sampleTrust : Trust.ServerTrust := ⟨[List.replicate 32 9], ⟨[], []⟩⟩

def sampleCertificate (n : UInt8) : Trust.SenderCertificate where
  userId := [n]
  domain := []
  identityKey := List.replicate 32 n
  deviceId := sampleDevice n
  issuedAt := 0
  expiresAt := 1000
  signature := List.replicate 64 9
  serverKid := []
  serverSignatureHybrid := []

def sampleNew (n : UInt8) : Orchestrator :=
  .new (.new (sampleKeys n)) (sampleDevice n) sampleTrust

def sampleOpener (bundle : X3DHPublicKeyBundle) : Bytes :=
  match Lifecycle.initSessionWithBundle sizedSuite sampleMoment (sampleDevice 20) bundle
      (sampleKyber 20) false (sampleNew 1).lifecycle with
  | .error _ _ => []
  | .ok _ l =>
    match Orchestrator.encryptMessageFor sizedSuite sampleMoment (sampleDevice 20) [65]
        { sampleNew 1 with lifecycle := l } with
    | .error _ _ => []
    | .ok out _ => (out.pack.toOption).getD []

end ConstructCore
