import ConstructCore.Orchestration.Lifecycle

/-!
# The message router

`MessageRouter`: a message that arrives is checked against the ACK store, decrypted on the
states held with its device, or queued until a session opens from it. A message waits in one
of two places: its device's pending queue, or the buffer of messages whose ACK status the
platform was asked for.
-/

namespace ConstructCore

open Trust (SenderCertificate)

def maxPendingPerUser : Nat := 100

def maxPendingAgeMs : Nat := 24 * 60 * 60 * 1000

/-- `ReceivingInitCarrier`: what the rule below may read. -/
structure ReceivingInitCarrier where
  messageNumber : UInt32
  oneTimePrekeyId : UInt32
  kemCiphertextBytes : Nat
  pqMessageEpoch : UInt32
deriving DecidableEq, Repr

inductive ReceivingInitKind where
  | handshake
  | midRatchet
deriving DecidableEq, Repr

/-- `receiving_init_kind`: a KEM ciphertext is the handshake. -/
def receivingInitKind (carrier : ReceivingInitCarrier) : ReceivingInitKind :=
  if 0 < carrier.kemCiphertextBytes then .handshake else .midRatchet

structure IncomingMessage where
  contactId : Bytes
  wirePayload : Bytes
  messageId : Bytes
  msgNumber : UInt32
  contentType : UInt8
  senderCertificate : Option SenderCertificate
  envelopeSession : Option Bytes
deriving DecidableEq

/-- `opens_session`: the message carries a handshake header. -/
def opensSession (msg : IncomingMessage) : Bool :=
  match Wire.unpack msg.wirePayload with
  | .error _ => false
  | .ok header =>
    receivingInitKind
      { messageNumber := header.messageNumber
        oneTimePrekeyId := header.oneTimePrekeyId
        kemCiphertextBytes := (header.kemCiphertext.map (·.length)).getD 0
        pqMessageEpoch := header.pqMessageEpoch } == .handshake

inductive RoutingDecision where
  | decrypted (contactId messageId plaintext : Bytes) (contentType : UInt8)
      (actions : List Action)
  | needSessionInit (contactId : Bytes) (queuedCount : Nat)
  | decryptionErrorNeeded (contactId messageId : Bytes) (ratchetKey : Option Bytes)
      (writerCertificate : Option SenderCertificate) (envelopeSession : Option Bytes)
      (reason : LifecycleError)
  | duplicate (messageId : Bytes) (actions : List Action)
  | pendingAckCheck (messageId : Bytes)
  | queueFull (contactId : Bytes)
  /-- `No buffered message for AckDbResult message_id=…`. -/
  | error (messageId : Bytes)
deriving DecidableEq

def RoutingDecision.isDecryptionError : RoutingDecision → Bool
  | .decryptionErrorNeeded .. => true
  | _ => false

/-- `MessageRouter`. -/
structure Router where
  pendingQueues : Table Bytes (List IncomingMessage)
  maxPendingPerUser : Nat
  pendingAckChecks : Table Bytes IncomingMessage
  /-- When each queued message arrived, by id. -/
  arrivedAt : Table Bytes Nat

namespace Router

def new : Router where
  pendingQueues := ∅
  maxPendingPerUser := ConstructCore.maxPendingPerUser
  pendingAckChecks := ∅
  arrivedAt := ∅

def queue (r : Router) (contactId : Bytes) : List IncomingMessage :=
  r.pendingQueues[contactId]?.getD []

/-- `prune_arrivals`: forget the arrival of what is no longer queued. -/
def pruneArrivals (r : Router) : Router :=
  { r with
    arrivedAt := r.arrivedAt.filter fun id _ =>
      r.pendingQueues.toList.any fun q => q.2.any fun m => m.messageId == id }

/-- A queued message has not waited past `MAX_PENDING_AGE_MS`, or its arrival is not known. -/
def fresh (r : Router) (clockMs : Nat) (msg : IncomingMessage) : Bool :=
  match r.arrivedAt[msg.messageId]? with
  | none => true
  | some arrived => decide (clockMs - arrived ≤ maxPendingAgeMs)

def enqueueOrReject (r : Router) (clockMs : Nat) (msg : IncomingMessage) :
    RoutingDecision × Router :=
  let queue := r.queue msg.contactId
  if queue.any fun q => q.messageId == msg.messageId then
    (.needSessionInit msg.contactId queue.length, r)
  else
    let queue := queue.filter (r.fresh clockMs)
    if r.maxPendingPerUser ≤ queue.length then
      (.queueFull msg.contactId,
        { r with pendingQueues := r.pendingQueues.insert msg.contactId queue })
    else
      let queue := queue ++ [msg]
      (.needSessionInit msg.contactId queue.length,
        { r with
          pendingQueues := r.pendingQueues.insert msg.contactId queue
          arrivedAt := r.arrivedAt.insert msg.messageId clockMs })

def routeAfterAckCheck (S : Suite) (F : Cfe) (m : Moment) (r : Router) (l : Lifecycle)
    (msg : IncomingMessage) : RoutingDecision × Router × Lifecycle :=
  let opener := opensSession msg
  if opener && !l.hasActiveSession msg.contactId then
    let (decision, r) := r.enqueueOrReject m.clockMs msg
    (decision, r, l)
  else
    match l.decryptWirePayload S F m msg.contactId msg.wirePayload with
    | .ok result l =>
      let (actions, ackStore) := l.ackStore.markProcessed m.nowSecs msg.messageId
      (.decrypted msg.contactId msg.messageId result.plaintext msg.contentType
        (actions ++ result.actions), r, { l with ackStore := ackStore })
    | .error e l =>
      if e.isConsumed then
        let (actions, ackStore) := l.ackStore.markProcessed m.nowSecs msg.messageId
        (.duplicate msg.messageId actions, r, { l with ackStore := ackStore })
      else if opener then
        let (decision, r) := r.enqueueOrReject m.clockMs msg
        (decision, r, l)
      else
        (.decryptionErrorNeeded msg.contactId msg.messageId
          ((Wire.unpack msg.wirePayload).toOption.map (·.dhPublicKey))
          msg.senderCertificate msg.envelopeSession e, r, l)

def routeMessage (S : Suite) (F : Cfe) (m : Moment) (r : Router) (l : Lifecycle)
    (msg : IncomingMessage) : RoutingDecision × Router × Lifecycle :=
  match l.ackStore.isProcessed msg.messageId with
  | .inCache => (.duplicate msg.messageId [], r, l)
  | .needDbCheck =>
    (.pendingAckCheck msg.messageId,
      { r with pendingAckChecks := r.pendingAckChecks.insert msg.messageId msg }, l)
  | .notProcessed => routeAfterAckCheck S F m r l msg

/-- The loop of `drain_pending`: the decisions, and what is left after one that ends it. Each
message finds its own `Env`. -/
def drainLoop (S : Suite) (F : Cfe) (clockMs : Nat) :
    (Nat → Env) → List IncomingMessage → Router → Lifecycle →
      List RoutingDecision × List IncomingMessage × Router × Lifecycle
  | _, [], r, l => ([], [], r, l)
  | envs, msg :: rest, r, l =>
    let (decision, r, l) := routeMessage S F ⟨clockMs, envs 0⟩ r l msg
    if decision.isDecryptionError then ([decision], rest, r, l)
    else
      let (decisions, tail, r, l) := drainLoop S F clockMs (fun i => envs (i + 1)) rest r l
      (decision :: decisions, tail, r, l)

/-- `requeue_tail`: back at the head of the queue, in its own order. -/
def requeueTail (r : Router) (contactId : Bytes) (tail : List IncomingMessage) : Router :=
  { r with pendingQueues := r.pendingQueues.insert contactId (tail ++ r.queue contactId) }

def drainPending (S : Suite) (F : Cfe) (clockMs : Nat) (envs : Nat → Env) (r : Router)
    (l : Lifecycle) (contactId : Bytes) : List RoutingDecision × Router × Lifecycle :=
  let queued := r.queue contactId
  let r := { r with pendingQueues := r.pendingQueues.erase contactId }
  let (decisions, tail, r, l) := drainLoop S F clockMs envs queued r l
  let r := if tail.isEmpty then r else r.requeueTail contactId tail
  (decisions, r.pruneArrivals, l)

def removePending (r : Router) (contactId messageId : Bytes) : Router :=
  pruneArrivals (match r.pendingQueues[contactId]? with
    | none => r
    | some queue =>
      let queue := queue.filter fun m => m.messageId != messageId
      { r with
        pendingQueues :=
          if queue.isEmpty then r.pendingQueues.erase contactId
          else r.pendingQueues.insert contactId queue })

def takePending (r : Router) (contactId : Bytes) : List IncomingMessage × Router :=
  (r.queue contactId, pruneArrivals { r with pendingQueues := r.pendingQueues.erase contactId })

def resumeAfterAckCheck (S : Suite) (F : Cfe) (m : Moment) (r : Router) (l : Lifecycle)
    (messageId : Bytes) (isProcessed : Bool) : RoutingDecision × Router × Lifecycle :=
  match r.pendingAckChecks[messageId]? with
  | none => (.error messageId, r, l)
  | some msg =>
    let r := { r with pendingAckChecks := r.pendingAckChecks.erase messageId }
    if isProcessed then (.duplicate messageId [], r, l)
    else routeAfterAckCheck S F m r l msg

def forgetContact (r : Router) (contactId : Bytes) : Router :=
  let r := pruneArrivals { r with pendingQueues := r.pendingQueues.erase contactId }
  { r with pendingAckChecks := r.pendingAckChecks.filter fun _ msg => msg.contactId != contactId }

end Router

end ConstructCore
