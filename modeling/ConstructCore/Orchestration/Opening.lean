import ConstructCore.Handshake.Plan
import ConstructCore.Orchestration.Router

/-!
# Opening sessions

The open paths of `Orchestrator` and the two inits of `Client` under them. A session opens as
initiator from a fetched bundle (`initSessionWithBundle`), or as responder from a first message
(`completeResponderInit`). Whichever it is, a session already held with the device is taken
aside before, put back when nothing opens, and kept as a previous state when something does.

What an open commits, it commits after its last step that can fail: the session and its
envelope pair first, then the pins, the labels, the burnt prekeys and the first-flight key.

Every prekey tried for one message, and every message tried in one call, finds the same `Env`:
only the attempt that opens keeps what it drew. The ML-KEM-1024 draw of an initiator is
`Env.encapSeed`; a responder answers with `Env.kemSeed`.
-/

namespace ConstructCore

open Bytes
open Trust (SenderCertificate SenderRefusal ServerTrust deriveDeviceId)

/-! ## What a peer's server gives -/

structure KyberBundleKeys where
  preKeyId : Option UInt32
  preKeyPublic : Option Bytes
  preKeyCreatedAt : Option Nat
  preKeySignature : Option Bytes
  preKeyHybridSignature : Option Bytes
  oneTimePrekeyId : Option UInt32
  oneTimePrekeyPublic : Option Bytes
  oneTimePrekeyCreatedAt : Option Nat
  oneTimePrekeySignature : Option Bytes
  oneTimePrekeyHybridSignature : Option Bytes
  hybridIdentityKey : Option Bytes
  hybridIdentitySignature : Option Bytes
deriving DecidableEq, Repr

def prekeyOffer (id : Option UInt32) (publicKey : Option Bytes) (createdAt : Option Nat)
    (signature hybridSignature : Option Bytes) : Option KyberPrekeyOffer :=
  (present publicKey).map fun key =>
    { keyId := id.getD 0, publicKey := key, createdAt, signature, hybridSignature }

def pqxdhOffer (bundle : X3DHPublicKeyBundle) (kyber : KyberBundleKeys) : PqxdhOffer where
  verifyingKey := bundle.verifyingKey
  hybridIdentityKey := kyber.hybridIdentityKey
  hybridIdentitySignature := kyber.hybridIdentitySignature
  signedPrekey := prekeyOffer kyber.preKeyId kyber.preKeyPublic kyber.preKeyCreatedAt
    kyber.preKeySignature kyber.preKeyHybridSignature
  oneTimePrekey := prekeyOffer kyber.oneTimePrekeyId kyber.oneTimePrekeyPublic
    kyber.oneTimePrekeyCreatedAt kyber.oneTimePrekeySignature kyber.oneTimePrekeyHybridSignature

/-- Why a bundle opens no session. -/
inductive OpenRefusal where
  | spkEpochRegressed (r : Lifecycle.SpkEpochRegressed)
  | pqRequired (contactId : Bytes) (reason : PqxdhRefusal)
  | encapsulation (e : MlKem1024Error)
  | kemIdentityUnavailable (e : KeyError)
  | localUserIdNotSet
  | sessionExists (contactId : Bytes)
  | spkStale (uploadedAt age : Nat)
  | kyberSpkStale (uploadedAt age : Nat)
  | identityKey (e : KeyError)
  | handshake (e : HandshakeError)
deriving DecidableEq, Repr

/-- `validate_bundle_freshness`, by the system's clock: a bundle without an upload time is not
checked. -/
def validateBundleFreshness (systemNow : Nat) (bundle : X3DHPublicKeyBundle) :
    Except OpenRefusal Unit :=
  if bundle.spkUploadedAt = 0 then .ok ()
  else if spkMaxAgeSecs < systemNow - bundle.spkUploadedAt then
    .error (.spkStale bundle.spkUploadedAt (systemNow - bundle.spkUploadedAt))
  else if 0 < bundle.kyberSpkUploadedAt ∧
      spkMaxAgeSecs < systemNow - bundle.kyberSpkUploadedAt then
    .error (.kyberSpkStale bundle.kyberSpkUploadedAt (systemNow - bundle.kyberSpkUploadedAt))
  else .ok ()

/-! ## The client's inits -/

namespace Client

def fileSession (c : Client) (contactId : Bytes) (made : MadeSession) : Client :=
  { c with
    envelopes := c.envelopes.register contactId made.session.sessionId made.envelopeKeys
    sessions := c.sessions.insert contactId made.session }

def initSessionWithPq (S : Suite) (env : Env) (contactId : Bytes) (bundle : X3DHPublicKeyBundle)
    (remoteIdentity : Bytes) (oneTimePrekeyId : UInt32) (allowStale : Bool)
    (pq : Option PqxdhInput) : Op OpenRefusal Client Bytes := do
  let c ← get
  if c.localUserId = [] then throw .localUserIdNotSet
  else if c.sessions[contactId]?.isSome then throw (.sessionExists contactId)
  else
    Op.ofExcept id (if allowStale then .ok () else validateBundleFreshness env.now bundle)
    let localIdentity ← Op.ofExcept .identityKey c.keyManager.identitySecretKey
    let made ← Op.ofExcept .handshake
      (initAsInitiator S env localIdentity bundle remoteIdentity contactId c.localUserId pq)
    set { c.fileSession contactId made with
      pendingOtpkIds :=
        if oneTimePrekeyId ≠ 0 then c.pendingOtpkIds.insert contactId oneTimePrekeyId
        else c.pendingOtpkIds }
    return made.session.sessionId

/-- `take_pending_otpk_id`, without what it returns. -/
def dropPendingOtpkId (c : Client) (contactId : Bytes) : Client :=
  { c with pendingOtpkIds := c.pendingOtpkIds.erase contactId }

def onCurrent (c : Client) (contactId : Bytes) (f : Session → Session) : Client :=
  { c with sessions := c.sessions.onKey contactId f }

def fileFirstFlight (c : Client) (contactId : Bytes) (filed : FiledFirstFlightKey) : Client :=
  match c.sessions[contactId]? with
  | none => c
  | some s => { c with envelopes := c.envelopes.setFirstFlight s.sessionId filed }

def burnOneTimePrekey (c : Client) (oneTimePrekeyId : UInt32) : Client :=
  if oneTimePrekeyId ≠ 0 then
    { c with keyManager := c.keyManager.consumeOneTimePrekey oneTimePrekeyId }
  else c

end Client

/-! ## Opening as initiator -/

namespace Lifecycle

def onClient {ε α : Type} (x : Op ε Client α) : Op ε Lifecycle α :=
  Op.zoom (fun l => l.client) (fun c l => { l with client := c }) x

def mapClient (l : Lifecycle) (f : Client → Client) : Lifecycle := { l with client := f l.client }

/-- What `init_session_with_bundle` commits once the client holds the session. -/
def commitInitiator (l : Lifecycle) (contactId : Bytes) (fingerprint : Vector UInt8 32)
    (header : PrekeyHeader) (filed : FiledFirstFlightKey) (spkEpoch : UInt32) : Lifecycle :=
  let l := l.mapClient (·.dropPendingOtpkId contactId)
  let l := l.pinHybridIdentity contactId fingerprint
  let l := l.mapClient (·.onCurrent contactId fun s =>
    ((s.markPqxdhV2 .authenticated).expectIdentityAnswer).setPrekeyHeader header)
  let l := l.mapClient (·.fileFirstFlight contactId filed)
  l.noteSpkEpoch contactId spkEpoch

def firstFlightOf (S : Suite) (now : Nat) (ciphertext sharedSecret : Bytes) :
    FiledFirstFlightKey where
  ciphertextHash := S.sha256 ciphertext
  key := firstFlightKey S.toCrypto sharedSecret
  handshakeAt := now

def initSessionWithBundle (S : Suite) (m : Moment) (contactId : Bytes)
    (bundle : X3DHPublicKeyBundle) (kyber : KyberBundleKeys) (allowStale : Bool) :
    Op OpenRefusal Lifecycle Bytes := do
  let l ← get
  match l.spkEpochRegression contactId bundle.spkRotationEpoch with
  | some regressed => throw (.spkEpochRegressed regressed)
  | none =>
    let oneTimePrekeyId := bundle.oneTimePrekeyId.getD 0
    let choice ← Op.ofExcept (.pqRequired contactId) (planPqxdh S (pqxdhOffer bundle kyber)
      { now := m.nowSecs, pinnedHybridIdentity := l.pinnedHybridIdentity contactId })
    let enc ← Op.ofExcept .encapsulation
      (S.mlkem1024Encapsulate choice.kyberPublic m.env.encapSeed)
    let kemIdentity ← Op.ofExcept .kemIdentityUnavailable
      (l.client.keyManager.kemIdentityPublic S)
    let _ ← onClient (Client.initSessionWithPq S m.env contactId bundle bundle.identityPublic
      oneTimePrekeyId allowStale (some
        { sharedSecret := enc.2, kyberPublic := choice.kyberPublic, kemCiphertext := enc.1,
          initiatorKemIdentity := kemIdentity }))
    modify fun l => l.commitInitiator contactId choice.hybridIdentityFingerprint
      { oneTimePrekeyId, kyberPrekeyId := choice.kyberPrekeyId, kemCiphertext := enc.1,
        kemIdentity }
      (firstFlightOf S m.nowSecs enc.1 enc.2) bundle.spkRotationEpoch
    return contactId

/-! ## The session held while another is built -/

/-- `take_session`: nothing is held with the device in the meantime. -/
def takeAside (l : Lifecycle) (contactId : Bytes) : Lifecycle :=
  l.mapClient (·.dropSession contactId)

/-- The new session is there: the one taken aside becomes a previous state. -/
def retireHeld (l : Lifecycle) (now : Nat) (contactId : Bytes) : Option Session → Lifecycle
  | none => l
  | some held => l.retire now contactId held

def putBackHeld (l : Lifecycle) (contactId : Bytes) : Option Session → Lifecycle
  | none => l
  | some held => l.mapClient (·.putBackSession contactId held)

def replacing {ε α : Type} (now : Nat) (contactId : Bytes) (x : Op ε Lifecycle α) :
    Op ε Lifecycle α := fun l =>
  let held := l.current contactId
  match x (l.takeAside contactId) with
  | .ok a l => .ok a (l.retireHeld now contactId held)
  | .error e l => .error e (l.putBackHeld contactId held)

end Lifecycle

/-! ## Opening as responder -/

structure IncomingFirstMessage where
  ephemeralPublicKey : Bytes
  messageNumber : UInt32
  content : Bytes
  oneTimePrekeyId : UInt32
  suiteId : UInt16
  pqMessageEpoch : UInt32
  pqKeyIndex : UInt32
  pqRatchetField : Option PqRatchetWireField
  pqxdhV2 : Bool
  kyberPrekeyId : UInt32
  kemCiphertext : Bytes
  kemIdentity : Option Bytes
  adVersion : UInt8
deriving DecidableEq, Repr

/-- Why a first message opens no session. -/
inductive ReceivingError where
  | unpack (e : Wire.WirePayloadError)
  | certificateRefused (refusal : SenderRefusal)
  | certificateMissing
  | deviceMismatch (device named : Bytes)
  | sealedBoxTooShort
  | ephemeralKeyLength
  | pqxdhRequired
  | pqxdhSuite (suiteId : UInt16)
  | kyberPrekeyUnavailable (keyId : UInt32)
  | mlkem (e : MlKem1024Error)
  | kemIdentityRequired (contactId : Bytes)
  | kemIdentityChanged (contactId : Bytes)
  | kemIdentityInvalid (e : MlKem1024Error)
  | localUserIdNotSet
  | oneTimePrekeyMissing (keyId : UInt32)
  | identityKey (e : KeyError)
  | noSignedPrekeys
  | prekeysFailed (count : Nat) (last : HandshakeError)
  | noSession
  | identityAnswer (e : RatchetError)
deriving DecidableEq, Repr

/-- The `Debug` text of a refusal. -/
def senderRefusalText : SenderRefusal → String
  | .noTrustedKey => "NoTrustedKey"
  | .badSignature => "BadSignature"
  | .deviceMismatch => "DeviceMismatch"
  | .expired => "Expired"

def ReceivingError.text : ReceivingError → String
  | unpack e => "wire_payload unpack failed: " ++ e.text
  | certificateRefused refusal => "SENDER_CERTIFICATE_REFUSED: " ++ senderRefusalText refusal
  | certificateMissing =>
    "SENDER_CERTIFICATE_MISSING: an unsealed message cannot open a session"
  | deviceMismatch device named =>
    "SENDER_DEVICE_MISMATCH: queued under " ++ (idText device ++
      (", the certificate names " ++ idText named))
  | sealedBoxTooShort => "sealed_box too short"
  | ephemeralKeyLength => "ephemeral_public_key must be 32 bytes"
  | pqxdhRequired =>
    "PQXDH_REQUIRED: first message without a PQXDH v2 handshake — the sender's " ++
      "build predates the cutover"
  | pqxdhSuite suiteId =>
    s!"PQXDH_REQUIRED: first message on suite {suiteId}; the PQ-ratchet suite is mandatory"
  | kyberPrekeyUnavailable keyId =>
    s!"PQXDH_KEY_UNAVAILABLE: Kyber prekey {keyId} is not held"
  | mlkem e => e.text
  | kemIdentityRequired contactId =>
    "KEM_IDENTITY_REQUIRED: the first message from device " ++ (idText contactId ++
      (" names no KEM " ++
        "identity key — sent by a core older than the responder's proof of the initiator"))
  | kemIdentityChanged contactId =>
    "KEM_IDENTITY_CHANGED: device " ++ (idText contactId ++
      (" presented a KEM identity key other than " ++ "the pinned one"))
  | kemIdentityInvalid e => "KEM_IDENTITY_INVALID: " ++ e.text
  | localUserIdNotSet => LifecycleError.localUserIdNotSet.text
  | oneTimePrekeyMissing keyId =>
    s!"OTPK id={keyId} not found — sender used 4-DH but we cannot reproduce it; " ++
      "session healing required"
  | identityKey e => "Failed to get identity key: " ++ e.debugText
  | noSignedPrekeys => "No signed prekeys available"
  | prekeysFailed count last =>
    s!"All {count} prekey(s) failed. Last error: " ++ last.text
  | noSession => "KEM_IDENTITY_ANSWER_FAILED: responder init left no session"
  | identityAnswer e => "KEM_IDENTITY_ANSWER_FAILED: " ++ e.text

/-- The errors that say that a prekey is not held, as `open_receiving` tells them. -/
def ReceivingError.prekeyMissing (e : ReceivingError) : Bool :=
  "OTPK id=".toList.isPrefixOf e.text.toList ||
    "PQXDH_KEY_UNAVAILABLE".toList.isPrefixOf e.text.toList

def IncomingFirstMessage.fromWirePayload (wirePayload : Bytes) :
    Except ReceivingError IncomingFirstMessage := do
  let d ← (Wire.unpack wirePayload).mapError .unpack
  return {
    ephemeralPublicKey := d.dhPublicKey
    messageNumber := d.messageNumber
    content := d.sealedBox
    oneTimePrekeyId := d.oneTimePrekeyId
    suiteId := d.suiteId
    pqMessageEpoch := d.pqMessageEpoch
    pqKeyIndex := d.pqKeyIndex
    pqRatchetField := d.pqRatchetField
    pqxdhV2 := d.pqxdhV2
    kyberPrekeyId := d.kyberOtpkId
    kemCiphertext := d.kemCiphertext.getD []
    kemIdentity := d.kemIdentity
    adVersion := d.adVersion }

namespace Client

/-- The loop over the signed prekeys: the first that opens, or the last error. -/
def tryPrekeys {α : Type} (attempt : Bytes → Except HandshakeError α) :
    HandshakeError → List Bytes → Except HandshakeError α
  | last, [] => .error last
  | _, prekey :: rest =>
    match attempt prekey with
    | .ok a => .ok a
    | .error e => tryPrekeys attempt e rest

/-- The one-time prekey a first message names: 0 names none, and one that is not held ends the
attempt. -/
def namedOneTimePrekey (k : KeyManager) (oneTimePrekeyId : UInt32) :
    Except ReceivingError (Option Bytes) :=
  if oneTimePrekeyId = 0 then .ok none
  else match k.peekOneTimePrekey oneTimePrekeyId with
    | some key => .ok (some key)
    | none => .error (.oneTimePrekeyMissing oneTimePrekeyId)

/-- `init_receiving_session_with_ephemeral`: the session id and the first message's plaintext.
A session already there is removed first. -/
def initReceivingSessionWithEphemeral (S : Suite) (env : Env) (contactId : Bytes)
    (remoteIdentity remoteEphemeral : Bytes) (firstMessage : EncryptedRatchetMessage)
    (oneTimePrekeyId : UInt32) (pq : Option PqxdhInput) :
    Op ReceivingError Client (Bytes × Bytes) := do
  let c ← get
  if c.localUserId = [] then throw .localUserIdNotSet
  else
    let c := c.dropSession contactId
    set c
    let oneTimePrekey ← Op.ofExcept id (namedOneTimePrekey c.keyManager oneTimePrekeyId)
    let localIdentity ← Op.ofExcept .identityKey c.keyManager.identitySecretKey
    match c.keyManager.allPrekeyPrivateKeys with
    | [] => throw .noSignedPrekeys
    | prekey :: rest =>
      let attempt := fun prekey => initAsResponder S env localIdentity prekey remoteIdentity
        remoteEphemeral firstMessage contactId c.localUserId oneTimePrekey pq
      match attempt prekey with
      | .ok (made, plaintext) => succeed c made plaintext
      | .error e =>
        let (made, plaintext) ← Op.ofExcept (.prekeysFailed (rest.length + 1))
          (tryPrekeys attempt e rest)
        succeed c made plaintext
where
  /-- The handshake closed: file the session, and burn the one-time prekey. -/
  succeed (c : Client) (made : MadeSession) (plaintext : Bytes) :
      Op ReceivingError Client (Bytes × Bytes) := do
    set ((c.fileSession contactId made).burnOneTimePrekey oneTimePrekeyId)
    return (made.session.sessionId, plaintext)

end Client

/-- `ResponderKem`: the KEM half of a first message. -/
structure ResponderKem where
  pqxdhV2 : Bool
  kyberPrekeyId : UInt32
  kemCiphertext : Bytes
  kemIdentity : Option Bytes

namespace Lifecycle

/-- `responder_kem`: the Kyber public key and the shared secret. -/
def responderKem (S : Suite) (l : Lifecycle) (ratchetSuiteId : UInt16) (kem : ResponderKem) :
    Except ReceivingError (Bytes × Bytes) :=
  if !kem.pqxdhV2 || kem.kemCiphertext.isEmpty then .error .pqxdhRequired
  else if ratchetSuiteId ≠ SuiteID.pqRatchet.asU16 then .error (.pqxdhSuite ratchetSuiteId)
  else do
    let prekey ← (l.client.keyManager.kyberPrekeys.find kem.kyberPrekeyId).okOr
      (.kyberPrekeyUnavailable kem.kyberPrekeyId)
    let publicKey ← (S.mlkem1024PublicFromSeed prekey.seed).mapError .mlkem
    let shared ← (S.mlkem1024Decapsulate prekey.seed kem.kemCiphertext).mapError .mlkem
    return (publicKey, shared)

/-- `admit_kem_identity`: the initiator's KEM identity key, and the answer to it as ciphertext
and shared secret. -/
def admitKemIdentity (S : Suite) (l : Lifecycle) (env : Env) (contactId : Bytes)
    (kemIdentity : Option Bytes) : Except ReceivingError (Bytes × Bytes × Bytes) := do
  let key ← kemIdentity.okOr (.kemIdentityRequired contactId)
  if (l.pinnedKemIdentity contactId).any fun pinned => pinned != kemIdentityFingerprint S key then
    .error (.kemIdentityChanged contactId)
  else
    let answer ← (S.mlkem1024Encapsulate key env.kemSeed).mapError .kemIdentityInvalid
    return (key, answer)

/-- `after_responder_init`: burn a Kyber one-time prekey, and label the session. -/
def afterResponderInit (l : Lifecycle) (contactId : Bytes) (kyberPrekeyId : UInt32) : Lifecycle :=
  let l := if kyberOtpkIdStart ≤ kyberPrekeyId then
      l.mapClient fun c => { c with keyManager := { c.keyManager with
        kyberPrekeys := c.keyManager.kyberPrekeys.removeOtpk kyberPrekeyId } }
    else l
  if kyberPrekeyId ≠ 0 then
    l.mapClient (·.onCurrent contactId fun s => s.markPqxdhV2 .received)
  else l

/-- What `complete_responder_init` commits once the session has answered. -/
def commitResponder (l : Lifecycle) (contactId : Bytes) (fingerprint : Vector UInt8 32)
    (kyberPrekeyId : UInt32) (filed : FiledFirstFlightKey) : Lifecycle :=
  let l := l.pinKemIdentity contactId fingerprint
  let l := l.afterResponderInit contactId kyberPrekeyId
  l.mapClient (·.fileFirstFlight contactId filed)

/-- Answer the initiator's identity on the session just opened; a session that cannot is
removed. -/
def answerOnCurrent (S : Suite) (env : Env) (contactId : Bytes) (answer : Bytes × Bytes) :
    Op ReceivingError Lifecycle Unit := fun l =>
  match l.current contactId with
  | none => .error .noSession (l.mapClient (·.removeSession env.now contactId))
  | some s =>
    match Session.answerInitiatorIdentity S.toCrypto answer.2 answer.1 s with
    | .ok () s => .ok () (l.mapClient (·.putBackSession contactId s))
    | .error e s => .error (.identityAnswer e)
        ((l.mapClient (·.putBackSession contactId s)).mapClient
          (·.removeSession env.now contactId))

def completeResponderInit (S : Suite) (m : Moment) (contactId remoteIdentity remoteEphemeral : Bytes)
    (message : EncryptedRatchetMessage) (oneTimePrekeyId : UInt32) (kem : ResponderKem) :
    Op ReceivingError Lifecycle Bytes := do
  let l ← get
  let (kyberPublic, shared) ← Op.ofExcept id (l.responderKem S message.suiteId kem)
  let (kemIdentity, answer) ← Op.ofExcept id (l.admitKemIdentity S m.env contactId kem.kemIdentity)
  let (_, plaintext) ← onClient (Client.initReceivingSessionWithEphemeral S m.env contactId
    remoteIdentity remoteEphemeral message oneTimePrekeyId (some
      { sharedSecret := shared, kyberPublic, kemCiphertext := kem.kemCiphertext,
        initiatorKemIdentity := kemIdentity }))
  answerOnCurrent S m.env contactId answer
  modify fun l => l.commitResponder contactId (kemIdentityFingerprint S kemIdentity)
    kem.kyberPrekeyId (firstFlightOf S m.nowSecs kem.kemCiphertext shared)
  return plaintext

/-- The ratchet message of a first message: a first flight answers no KEM identity, and is
written on the initiator's first chain. -/
def ratchetMessageOf (first : IncomingFirstMessage) :
    Except ReceivingError EncryptedRatchetMessage :=
  if first.content.length < 12 then .error .sealedBoxTooShort
  else do
    let dhPublicKey ← (toVector? 32 first.ephemeralPublicKey).okOr .ephemeralKeyLength
    return {
      dhPublicKey
      messageNumber := first.messageNumber
      ciphertext := first.content.drop 12
      nonce := first.content.take 12
      previousChainLength := 0
      suiteId := first.suiteId
      pqMessageEpoch := first.pqMessageEpoch
      pqKeyIndex := first.pqKeyIndex
      pqRatchetField := first.pqRatchetField
      identityProofCiphertext := none
      adVersion := first.adVersion }

def initReceivingWithIdentity (S : Suite) (m : Moment) (contactId remoteIdentity : Bytes)
    (first : IncomingFirstMessage) : Op ReceivingError Lifecycle Bytes := do
  let message ← Op.ofExcept id (ratchetMessageOf first)
  completeResponderInit S m contactId remoteIdentity first.ephemeralPublicKey message
    first.oneTimePrekeyId
    { pqxdhV2 := first.pqxdhV2, kyberPrekeyId := first.kyberPrekeyId,
      kemCiphertext := first.kemCiphertext, kemIdentity := first.kemIdentity }

end Lifecycle

end ConstructCore
