import ConstructCore.Orchestration.Opening

/-!
# The orchestrator

`Orchestrator`: the entry points that open sessions, send and receive, over the lifecycle
manager, the router and the session machine. A function returns what it answers and the
orchestrator after it; of the actions a call asks of the platform, the decisions they are made
from are kept.
-/

namespace ConstructCore

open Bytes
open Trust (SenderCertificate SenderRefusal ServerTrust deriveDeviceId)

def openingTtlMs : Nat := 30000

def maxUnansweredHandshakeAgeSecs : Nat := 7 * 24 * 3600

structure Orchestrator where
  lifecycle : Lifecycle
  router : Router
  /-- `SessionMachine`: since when a session with a device is being opened. -/
  opening : Table Bytes Nat
  serverTrust : ServerTrust

inductive DecryptionErrorHint where
  | none
  | prekeyUnavailable
deriving DecidableEq, Repr

/-- `ReceivingOpen`: what `open_receiving` did. -/
structure ReceivingOpen where
  openedDevice : Option Bytes
  openerMessageId : Option Bytes
  /-- The opener's decision, then those of the drain. -/
  decisions : List RoutingDecision
  /-- The messages given up, each with the hint of the decryption error to its writer. -/
  givenUp : List (IncomingMessage × DecryptionErrorHint)
  triedMessageIds : List Bytes
  droppedMessageIds : List Bytes
  lastError : Option ReceivingError
  awaitingServerKey : Bool

namespace Orchestrator

/-- `Orchestrator::new`; `serverTrust` is the trust pinned in the build. -/
def new (client : Client) (myUserId : Bytes) (serverTrust : ServerTrust) : Orchestrator where
  lifecycle := .new client myUserId
  router := .new
  opening := ∅
  serverTrust := serverTrust

/-- `SessionEvent::WantToOpen`: true when the caller is to open. -/
def wantToOpen (o : Orchestrator) (clockMs : Nat) (device : Bytes) : Bool × Orchestrator :=
  if o.opening[device]?.any fun since => decide (clockMs - since < openingTtlMs) then (false, o)
  else (true, { o with opening := o.opening.insert device clockMs })

/-- `SessionEvent::OpenFinished`, `OpenFailed` and `Forget`. -/
def endOpening (o : Orchestrator) (device : Bytes) : Orchestrator :=
  { o with opening := o.opening.erase device }

/-! ## Decisions -/

def markProcessed (o : Orchestrator) (now : Nat) (ids : List Bytes) : Orchestrator :=
  { o with lifecycle := { o.lifecycle with
      ackStore := ids.foldl (fun a id => (a.markProcessed now id).2) o.lifecycle.ackStore } }

/-- `decide_actions`, what it changes: a message that waits for a session asks to open one, and
an unread message is done with once an error to its writer could be sealed (`errorSealed`). -/
def decideActions (m : Moment) (errorSealed : Bool) (o : Orchestrator) : RoutingDecision → Orchestrator
  | .needSessionInit contactId _ => (o.wantToOpen m.clockMs contactId).2
  | .decryptionErrorNeeded _ messageId _ _ _ _ =>
    if errorSealed then o.markProcessed m.nowSecs [messageId] else o
  | _ => o

/-! ## Opening as initiator -/

def reopenSessionWithBundle (S : Suite) (m : Moment) (contactId : Bytes)
    (bundle : X3DHPublicKeyBundle) (kyber : KyberBundleKeys) (allowStale : Bool) :
    Op OpenRefusal Orchestrator Bytes := fun o =>
  match Lifecycle.replacing m.nowSecs contactId
      (Lifecycle.initSessionWithBundle S m contactId bundle kyber allowStale) o.lifecycle with
  | .ok id l => .ok id { o with lifecycle := l }
  | .error e l => .error e ({ o with lifecycle := l }.endOpening contactId)

/-! ## Opening as responder -/

def certificateTime (m : Moment) : Int64 := Int64.ofNat m.nowSecs

/-- `receiving_from_certificate`: the device and the first message's plaintext. -/
def receivingFromCertificate (S : Suite) (m : Moment) (certificate : SenderCertificate)
    (wirePayload : Bytes) : Op ReceivingError Orchestrator (Bytes × Bytes) := do
  let o ← get
  let identity ← Op.ofExcept .certificateRefused
    (certificate.identityForOpening S.toSigning o.serverTrust (certificateTime m))
  let first ← Op.ofExcept id (IncomingFirstMessage.fromWirePayload wirePayload)
  let device := certificate.deviceId
  let plaintext ← Op.zoom (fun o => o.lifecycle) (fun l o => { o with lifecycle := l })
    (Lifecycle.replacing m.nowSecs device
      (Lifecycle.initReceivingWithIdentity S m device identity first))
  return (device, plaintext)

/-- What a walk over the queue has met. -/
structure Attempts where
  lastError : Option ReceivingError
  tried : List Bytes
  prekeyMissing : List Bytes
  awaitingServerKey : Bool

namespace Attempts

def none : Attempts where
  lastError := .none
  tried := []
  prekeyMissing := []
  awaitingServerKey := false

def refused (a : Attempts) (carrier : IncomingMessage) (e : ReceivingError) : Attempts :=
  { a with tried := a.tried ++ [carrier.messageId], lastError := some e }

def failed (a : Attempts) (carrier : IncomingMessage) (e : ReceivingError) : Attempts :=
  let a := a.refused carrier e
  if e.prekeyMissing then { a with prekeyMissing := a.prekeyMissing ++ [carrier.messageId] } else a

end Attempts

def handshakeOf (carrier : IncomingMessage) : Option IncomingFirstMessage :=
  match IncomingFirstMessage.fromWirePayload carrier.wirePayload with
  | .error _ => none
  | .ok first =>
    let shape : ReceivingInitCarrier :=
      { messageNumber := first.messageNumber
        oneTimePrekeyId := first.oneTimePrekeyId
        kemCiphertextBytes := first.kemCiphertext.length
        pqMessageEpoch := first.pqMessageEpoch }
    if receivingInitKind shape = .handshake then some first else none

def checkedIdentity (S : Suite) (m : Moment) (trust : ServerTrust) (carrier : IncomingMessage) :
    Option (Except SenderRefusal Bytes) :=
  carrier.senderCertificate.map fun c =>
    c.identityForOpening S.toSigning trust (certificateTime m)

/-- The loop of `open_receiving`: the carrier that opened with its plaintext, or what was met. -/
def openLoop (S : Suite) (m : Moment) (trust : ServerTrust) (device : Bytes) :
    List IncomingMessage → Attempts → Lifecycle →
      Option (IncomingMessage × Bytes) × Attempts × Lifecycle
  | [], a, l => (none, a, l)
  | carrier :: rest, a, l =>
    match handshakeOf carrier with
    | none => openLoop S m trust device rest a l
    | some first =>
      match checkedIdentity S m trust carrier with
      | some (.error .noTrustedKey) =>
        openLoop S m trust device rest { a with awaitingServerKey := true } l
      | some (.error refusal) =>
        openLoop S m trust device rest (a.refused carrier (.certificateRefused refusal)) l
      | none => openLoop S m trust device rest (a.refused carrier .certificateMissing) l
      | some (.ok identity) =>
        let named := deriveDeviceId S.toSigning identity
        if named ≠ device then
          openLoop S m trust device rest
            (a.refused carrier (.deviceMismatch device named)) l
        else
          match Lifecycle.replacing m.nowSecs device
              (Lifecycle.initReceivingWithIdentity S m device identity first) l with
          | .ok plaintext l => (some (carrier, plaintext), a, l)
          | .error e l => openLoop S m trust device rest (a.failed carrier e) l

/-- The drain of `after_session_opened`: each message finds its own `Env`. -/
def drainPending (S : Suite) (F : Cfe) (m : Moment) (envs : Nat → Env) (o : Orchestrator)
    (device : Bytes) : List RoutingDecision × Orchestrator :=
  let (drained, router, lifecycle) :=
    Router.drainPending S F m.clockMs envs o.router o.lifecycle device
  -- What is queued carries a handshake header, so no decision of a drain reports an error.
  (drained, drained.foldl (decideActions m false) { o with router := router, lifecycle := lifecycle })

/-- `receiving_opened`: the opener is answered, and the queue behind it drained. -/
def receivingOpened (S : Suite) (F : Cfe) (m : Moment) (envs : Nat → Env) (o : Orchestrator)
    (device : Bytes) (opener : IncomingMessage) (plaintext : Bytes) :
    ReceivingOpen × Orchestrator :=
  let actions := (o.lifecycle.ackStore.markProcessed m.nowSecs opener.messageId).1
  let o := { o with router := o.router.removePending device opener.messageId }
  let o := (o.markProcessed m.nowSecs [opener.messageId]).endOpening device
  let (drained, o) := o.drainPending S F m envs device
  ({ openedDevice := some device
     openerMessageId := some opener.messageId
     decisions :=
       .decrypted device opener.messageId plaintext opener.contentType actions :: drained
     givenUp := []
     triedMessageIds := []
     droppedMessageIds := []
     lastError := none
     awaitingServerKey := false }, o)

/-- Nothing opened: the queue goes, unless a certificate awaits a server key. -/
def receivingGivenUp (m : Moment) (o : Orchestrator) (device : Bytes) (a : Attempts) :
    ReceivingOpen × Orchestrator :=
  let o := o.endOpening device
  if a.awaitingServerKey then
    ({ openedDevice := none
       openerMessageId := none
       decisions := []
       givenUp := []
       triedMessageIds := []
       droppedMessageIds := []
       lastError := a.lastError
       awaitingServerKey := true }, o)
  else
    let (givenUp, router) := o.router.takePending device
    let ids := givenUp.map (·.messageId)
    ({ openedDevice := none
       openerMessageId := none
       decisions := []
       givenUp := givenUp.map fun msg =>
         (msg, if msg.messageId ∈ a.prekeyMissing then .prekeyUnavailable else .none)
       triedMessageIds := a.tried
       droppedMessageIds := ids.filter fun id => !a.tried.contains id
       lastError := a.lastError
       awaitingServerKey := false },
      { o with router := router }.markProcessed m.nowSecs ids)

/-- `open_receiving`; each message the drain routes finds its own `Env`. -/
def openReceiving (S : Suite) (F : Cfe) (m : Moment) (envs : Nat → Env) (o : Orchestrator)
    (device : Bytes) : ReceivingOpen × Orchestrator :=
  let (opened, a, l) :=
    openLoop S m o.serverTrust device (o.router.queue device) .none o.lifecycle
  let o := { o with lifecycle := l }
  match opened with
  | some (opener, plaintext) => o.receivingOpened S F m envs device opener plaintext
  | none => o.receivingGivenUp m device a

/-! ## What arrives -/

/-- `IncomingEvent::MessageReceived`. -/
structure Arrival where
  messageId : Bytes
  fromDevice : Bytes
  data : Bytes
  contentType : UInt8
  senderCertificate : Option SenderCertificate
  envelopeSession : Option Bytes
deriving DecidableEq

/-- The message an arrival carries; none when its payload does not parse. -/
def Arrival.incoming? (a : Arrival) : Option IncomingMessage :=
  (Wire.unpack a.data).toOption.map fun decoded =>
    { contactId := a.fromDevice
      wirePayload := a.data
      messageId := a.messageId
      msgNumber := decoded.messageNumber
      contentType := a.contentType
      senderCertificate := a.senderCertificate
      envelopeSession := a.envelopeSession }

/-- `handle_message_received`, and `handle_heartbeat_received` on an arrival without certificate
and envelope: no decision on a payload that does not parse. -/
def handleMessageReceived (S : Suite) (F : Cfe) (m : Moment) (errorSealed : Bool) (a : Arrival)
    (o : Orchestrator) : Option RoutingDecision × Orchestrator :=
  match a.incoming? with
  | none => (none, o)
  | some msg =>
    let (decision, router, lifecycle) := Router.routeMessage S F m o.router o.lifecycle msg
    (some decision,
      decideActions m errorSealed { o with router := router, lifecycle := lifecycle } decision)

def handleAckDbResult (S : Suite) (F : Cfe) (m : Moment) (errorSealed : Bool) (messageId : Bytes)
    (isProcessed : Bool) (o : Orchestrator) : RoutingDecision × Orchestrator :=
  let (decision, router, lifecycle) :=
    Router.resumeAfterAckCheck S F m o.router o.lifecycle messageId isProcessed
  (decision,
    decideActions m errorSealed { o with router := router, lifecycle := lifecycle } decision)

def decryptBytesFor (S : Suite) (m : Moment) (contactId wirePayload : Bytes) :
    Op LifecycleError Orchestrator Bytes := do
  let message ← Op.ofExcept id (Lifecycle.messageOfWire wirePayload)
  Op.zoom (fun o => o.lifecycle) (fun l o => { o with lifecycle := l })
    (Lifecycle.decryptRatchetMessage S m contactId message)

/-- `handle_network_reconnected`: the queues of the devices that have one are drained. -/
def handleNetworkReconnected (S : Suite) (F : Cfe) (m : Moment) (envs : Bytes → Nat → Env) :
    List Bytes → Orchestrator → List RoutingDecision × Orchestrator
  | [], o => ([], o)
  | device :: rest, o =>
    let (decisions, o) := o.drainPending S F m (envs device) device
    let (more, o) := handleNetworkReconnected S F m envs rest o
    (decisions ++ more, o)

/-! ## What is sent -/

structure OutgoingEncrypted where
  message : EncryptedRatchetMessage
  /-- Present on the initiator's first flight. -/
  header : Option PrekeyHeader
deriving DecidableEq

/-- `OutgoingEncrypted::pack`: what is present sets the flags. -/
def OutgoingEncrypted.pack (out : OutgoingEncrypted) : Except Wire.WirePayloadError Bytes :=
  Wire.packMessage
    { adVersion := out.message.adVersion
      dhPublicKey := out.message.dhPublicKey.toList
      messageNumber := out.message.messageNumber
      oneTimePrekeyId := (out.header.map (·.oneTimePrekeyId)).getD 0
      kyberOtpkId := (out.header.map (·.kyberPrekeyId)).getD 0
      previousChainLength := out.message.previousChainLength
      suiteId := out.message.suiteId
      kemCiphertext := present (out.header.map (·.kemCiphertext))
      kemIdentity := present (out.header.map (·.kemIdentity))
      identityProofCiphertext := out.message.identityProofCiphertext
      sealedBox := out.message.nonce ++ out.message.ciphertext
      pqMessageEpoch := out.message.pqMessageEpoch
      pqKeyIndex := out.message.pqKeyIndex
      pqRatchetField := out.message.pqRatchetField }

def encryptMessageFor (S : Suite) (m : Moment) (contactId plaintext : Bytes) :
    Op LifecycleError Orchestrator OutgoingEncrypted := do
  let message ← Op.zoom (fun o => o.lifecycle) (fun l o => { o with lifecycle := l })
    (Lifecycle.onClient (Client.encryptMessage S m.env contactId plaintext))
  let o ← get
  return { message, header := (o.lifecycle.current contactId).bind (·.prekeyHeader) }

/-! ## The rest of the session machine -/

/-- `handle_session_bundle_fetched`, on a bundle: the queue behind the open is drained. -/
def handleSessionBundleFetched (S : Suite) (F : Cfe) (m : Moment) (envs : Nat → Env)
    (contactId : Bytes) (bundle : X3DHPublicKeyBundle) (kyber : KyberBundleKeys)
    (o : Orchestrator) : Except OpenRefusal (List RoutingDecision) × Orchestrator :=
  match reopenSessionWithBundle S m contactId bundle kyber false o with
  | .error e o => (.error e, o.endOpening contactId)
  | .ok _ o =>
    let (drained, o) := (o.endOpening contactId).drainPending S F m envs contactId
    (.ok drained, o)

/-- `handle_session_init_completed`: empty data imports nothing. -/
def handleSessionInitCompleted (S : Suite) (F : Cfe) (m : Moment) (envs : Nat → Env)
    (contactId data : Bytes) (o : Orchestrator) :
    Except Lifecycle.ImportError (List RoutingDecision) × Orchestrator :=
  let imported := if data.isEmpty then .ok () o.lifecycle
    else Lifecycle.importSessionBytes F m contactId data o.lifecycle
  match imported with
  | .error e l => (.error e, { o with lifecycle := l }.endOpening contactId)
  | .ok () l =>
    let (drained, o) := ({ o with lifecycle := l }.endOpening contactId).drainPending S F m envs
      contactId
    (.ok drained, o)

/-- `retire_session`, and what `answer_decryption_error` does about a key of the current state. -/
def retireSession (m : Moment) (contactId : Bytes) (o : Orchestrator) : Bool × Orchestrator :=
  let (retired, l) := o.lifecycle.retireCurrent m.nowSecs contactId
  (retired, { o with lifecycle := l })

/-- `answer_decryption_error`, what it changes of the sessions: a key of the current state retires
it. -/
def answerDecryptionError (m : Moment) (contactId ratchetKey : Bytes) (o : Orchestrator) :
    Orchestrator :=
  if o.lifecycle.ratchetKeyOwner contactId ratchetKey = .current then
    (o.retireSession m contactId).2
  else o

/-- `retire_stale_handshake`: the current state is an unanswered handshake past its age. -/
def retireStaleHandshake (m : Moment) (contactId : Bytes) (o : Orchestrator) : Orchestrator :=
  if (o.lifecycle.current contactId).any fun s => s.prekeyHeader.isSome &&
      (o.lifecycle.client.envelopes.firstFlightOfSession s.sessionId).any fun f =>
        decide (maxUnansweredHandshakeAgeSecs ≤ m.nowSecs - f.handshakeAt) then
    (o.retireSession m contactId).2
  else o

def forgetContactState (m : Moment) (contactId : Bytes) (o : Orchestrator) : Orchestrator :=
  { o with
    router := o.router.forgetContact contactId
    lifecycle := o.lifecycle.forgetContactState m contactId }.endOpening contactId

/-- The devices whose open is in flight, as the exported state carries them. -/
def openingDeviceIds (o : Orchestrator) : List Bytes := o.opening.toList.map (·.1)

def restoreOpening (clockMs : Nat) (devices : List Bytes) : Table Bytes Nat :=
  .ofList (devices.map fun d => (d, clockMs))

end Orchestrator

end ConstructCore
