import ConstructCore.Keys.KeyManager
import ConstructCore.Orchestration.Book
import ConstructCore.Ratchet.Storage
import ConstructCore.Wire.Payload

/-!
# The session lifecycle

`SessionLifecycleManager` and the parts of `Client` under it. A device's record is its
current state, in the client's map, and the states that one replaced, newest first. A state
moves between the two only through `installCurrent`, `retire` and `retireCurrent`; a previous
state leaves through `prunePrevious`, which also retires the envelope pairs of the sessions
it finds held nowhere.

Device and session ids are their UTF-8 bytes. The manager reads an injected clock
(`Moment.clockMs`); the ratchet reads the system's (`Env.now`).
-/

namespace ConstructCore

open Bytes

def maxPreviousStates : Nat := 3

def previousStateTtlSeconds : Nat := 7 * 24 * 60 * 60

/-- What a call finds when it runs: the injected clock, and what the ratchet finds. -/
structure Moment where
  clockMs : Nat
  env : Env
deriving DecidableEq, Repr

def Moment.nowSecs (m : Moment) : Nat := m.clockMs / 1000

/-! ## The record's encoding -/

/-- `CfeRetiredMarkV1`: how the top state of a record without a current one was retired. -/
structure CfeRetiredMarkV1 where
  retiredAt : Nat
  heldBack : Bool
deriving DecidableEq, Repr

structure CfePreviousStateV1 where
  retiredAt : Nat
  state : CfeSessionStateV1
  heldBack : Bool
deriving DecidableEq, Repr

/-- A device's session record: the fields `previous` and `retired` of the top-level
`CfeSessionStateV1`, which nothing reads on a previous state, and its other fields. -/
structure CfeSessionRecord where
  top : CfeSessionStateV1
  previous : List CfePreviousStateV1
  retired : Option CfeRetiredMarkV1
deriving DecidableEq, Repr

structure CfeHybridPinV1 where
  deviceId : Bytes
  fingerprint : Bytes
deriving DecidableEq, Repr

structure CfeSpkEpochV1 where
  deviceId : Bytes
  epoch : UInt32
deriving DecidableEq, Repr

structure CfeOrchestratorStateV1 where
  ver : UInt8
  myUserId : Bytes
  processedIds : List Bytes
  initLocks : List Bytes
  hybridIdentityPins : List CfeHybridPinV1
  kemIdentityPins : List CfeHybridPinV1
  envelopeBook : List CfeEnvelopeEntryV1
  spkEpochs : List CfeSpkEpochV1
deriving DecidableEq, Repr

/-- `CfeError`, as far as a caller tells the errors apart. -/
inductive CfeError where
  | legacyJson
  | payloadTooLarge (max got : Nat)
  | serializeFailed (msg : String)
  | refused (msg : String)
deriving DecidableEq, Repr

/-- The text of a `CfeError`; the reader's refusals carry their own. -/
def CfeError.text : CfeError → String
  | legacyJson => "Legacy JSON detected — use migration path"
  | payloadTooLarge max got => "Payload too large: max=" ++ (toString max ++ (", got=" ++ toString got))
  | serializeFailed msg => "Serialize failed: " ++ msg
  | refused msg => msg

/-- The CFE encoding of a session record and of the orchestrator's state, and the JSON of older
records. -/
structure Cfe where
  encodeSession : CfeSessionRecord → Except CfeError Bytes
  decodeSession : Bytes → Except CfeError CfeSessionRecord
  sessionFromJson : Bytes → Except String SerializableSession
  encodeState : CfeOrchestratorStateV1 → Except CfeError Bytes
  decodeState : Bytes → Except CfeError CfeOrchestratorStateV1

/-! ## The states a device holds -/

/-- The platform's part: what the modelled calls ask it to do. -/
inductive Action where
  | persistAck (messageId : Bytes) (timestamp : Nat)
  | saveSession (contactId : Bytes) (data : Bytes)
deriving DecidableEq, Repr

inductive AckCheckResult where
  | inCache
  | needDbCheck
  | notProcessed
deriving DecidableEq, Repr

structure AckStore where
  cache : List Bytes
  postRestartMode : Bool
deriving DecidableEq, Repr

namespace AckStore

def new : AckStore := { cache := [], postRestartMode := false }

def isProcessed (a : AckStore) (messageId : Bytes) : AckCheckResult :=
  if messageId ∈ a.cache then .inCache
  else if a.postRestartMode then .needDbCheck
  else .notProcessed

def markProcessed (a : AckStore) (now : Nat) (messageId : Bytes) : List Action × AckStore :=
  if messageId ∈ a.cache then ([], a)
  else ([.persistAck messageId now], { a with cache := messageId :: a.cache })

def restoreCache (ids : List Bytes) : AckStore := { cache := ids, postRestartMode := true }

end AckStore

/-- `Client`: the keys, the current sessions and the envelope book. -/
structure Client where
  keyManager : KeyManager
  sessions : Table Bytes Session
  pendingOtpkIds : Table Bytes UInt32
  localUserId : Bytes
  envelopes : EnvelopeBook

structure PreviousState where
  session : Session
  /-- When it stopped being current. -/
  retiredAt : Nat
  /-- Set aside by `retireCurrent`: it decrypts and is never made current again. -/
  heldBack : Bool

/-- `SessionLifecycleManager`. -/
structure Lifecycle where
  client : Client
  ackStore : AckStore
  previous : Table Bytes (List PreviousState)
  hybridIdentityPins : Table Bytes (Vector UInt8 32)
  kemIdentityPins : Table Bytes (Vector UInt8 32)
  spkEpochs : Table Bytes UInt32
  myUserId : Bytes

/-- The errors of the manager. -/
inductive LifecycleError where
  | wire (e : Wire.WirePayloadError)
  | dhPublicKeyLength
  | sealedBoxTooShort
  | identityAnswer (e : KeyError)
  | localUserIdNotSet
  | noSession (contactId : Bytes)
  | ratchet (e : RatchetError)
  | noActiveSession (contactId : Bytes)
  | sessionNotFound (contactId : Bytes)
  | storage (e : StorageError)
  | encode (e : CfeError)
deriving DecidableEq, Repr

def LifecycleError.text : LifecycleError → String
  | wire e => e.text
  | dhPublicKeyLength => "dh_public_key must be 32 bytes"
  | sealedBoxTooShort => "sealed_box too short (< 12 bytes)"
  | identityAnswer e => e.text
  | localUserIdNotSet =>
    "local_user_id is not set — call set_local_user_id() after login/registration " ++
      "before invoking init_session, encrypt_message, or decrypt_message"
  | noSession contactId => "No session with contact: " ++ idText contactId
  | ratchet e => e.text
  | noActiveSession contactId => "No active session for " ++ idText contactId
  | sessionNotFound contactId => "Session not found: " ++ idText contactId
  | storage e => e.text
  | encode e => e.text

/-- `e.starts_with(MESSAGE_KEY_CONSUMED)`. -/
def LifecycleError.isConsumed (e : LifecycleError) : Bool :=
  messageKeyConsumedPrefix.toList.isPrefixOf e.text.toList

namespace Client

def new (keyManager : KeyManager) : Client where
  keyManager := keyManager
  sessions := ∅
  pendingOtpkIds := ∅
  localUserId := []
  envelopes := .empty

def ensureLocalUserIdSet (c : Client) : Except LifecycleError Unit :=
  if c.localUserId = [] then .error .localUserIdNotSet else .ok ()

/-- Run a ratchet operation on the current session with `contactId`. -/
def onSession {α : Type} (contactId : Bytes) (x : Op RatchetError Session α) :
    Op LifecycleError Client α := fun c =>
  match c.ensureLocalUserIdSet with
  | .error e => .error e c
  | .ok () =>
    match c.sessions[contactId]? with
    | none => .error (.noSession contactId) c
    | some s =>
      match x s with
      | .ok a s' => .ok a { c with sessions := c.sessions.insert contactId s' }
      | .error e s' => .error (.ratchet e) { c with sessions := c.sessions.insert contactId s' }

def encryptMessage (S : Suite) (env : Env) (contactId plaintext : Bytes) :
    Op LifecycleError Client EncryptedRatchetMessage :=
  onSession contactId (Session.encrypt S.toCrypto env plaintext)

def decryptMessageWithIdentitySecret (S : Suite) (env : Env) (contactId : Bytes)
    (message : EncryptedRatchetMessage) (identitySecret : Option Bytes) :
    Op LifecycleError Client Bytes :=
  onSession contactId (Session.decryptWithIdentitySecret S.toCrypto env message identitySecret)

/-- `take_session`, without what it returns. -/
def dropSession (c : Client) (contactId : Bytes) : Client :=
  { c with sessions := c.sessions.erase contactId }

def putBackSession (c : Client) (contactId : Bytes) (s : Session) : Client :=
  { c with sessions := c.sessions.insert contactId s }

/-- `remove_session`; `systemNow` is the system's clock. -/
def removeSession (c : Client) (systemNow : Nat) (contactId : Bytes) : Client :=
  match c.sessions[contactId]? with
  | none => c
  | some s =>
    { c with
      sessions := c.sessions.erase contactId
      envelopes := c.envelopes.retireSession s.sessionId systemNow }

end Client

namespace Lifecycle

def new (client : Client) (myUserId : Bytes) : Lifecycle where
  client := { client with localUserId := myUserId }
  ackStore := .new
  previous := ∅
  hybridIdentityPins := ∅
  kemIdentityPins := ∅
  spkEpochs := ∅
  myUserId := myUserId

def current (l : Lifecycle) (contactId : Bytes) : Option Session := l.client.sessions[contactId]?

def previousStates (l : Lifecycle) (contactId : Bytes) : List PreviousState :=
  l.previous[contactId]?.getD []

def onBook (l : Lifecycle) (f : EnvelopeBook → EnvelopeBook) : Lifecycle :=
  { l with client := { l.client with envelopes := f l.client.envelopes } }

def hasActiveSession (l : Lifecycle) (contactId : Bytes) : Bool :=
  (l.current contactId).isSome

/-! ## Moving states -/

def unexpired (now : Nat) (s : PreviousState) : Bool :=
  decide (now - s.retiredAt < previousStateTtlSeconds)

/-- The previous states `prune_previous` keeps. -/
def keptStates (now : Nat) (states : List PreviousState) : List PreviousState :=
  (states.filter (unexpired now)).take maxPreviousStates

def prunePrevious (l : Lifecycle) (now : Nat) (contactId : Bytes) : Lifecycle :=
  match l.previous[contactId]? with
  | none => l
  | some states =>
    let states := keptStates now states
    let held := states.map (·.session.sessionId) ++
      ((l.current contactId).map (·.sessionId)).toList
    { l with
      previous :=
        if states.isEmpty then l.previous.erase contactId
        else l.previous.insert contactId states
      client := { l.client with
        envelopes := (l.client.envelopes.retireDeviceExcept contactId held now).prune now } }

/-- `retire`: keep a session, taken out of the client, as the newest previous state. -/
def retire (l : Lifecycle) (now : Nat) (contactId : Bytes) (session : Session) : Lifecycle :=
  prunePrevious
    { l with
      previous := l.previous.insert contactId
        ({ session, retiredAt := now, heldBack := false } :: l.previousStates contactId) }
    now contactId

/-- `install_current`: the state it replaces becomes the newest previous one. -/
def installCurrent (l : Lifecycle) (now : Nat) (contactId : Bytes) (session : Session) :
    Lifecycle :=
  let l := match l.current contactId with
    | some replaced => retire { l with client := l.client.dropSession contactId } now contactId
        replaced
    | none => l
  { l with client := l.client.putBackSession contactId session }

def holdBackNewest : List PreviousState → List PreviousState
  | [] => []
  | newest :: rest => { newest with heldBack := true } :: rest

/-- `retire_current`: true when there was a current state. -/
def retireCurrent (l : Lifecycle) (now : Nat) (contactId : Bytes) : Bool × Lifecycle :=
  match l.current contactId with
  | none => (false, l)
  | some session =>
    let l := retire { l with client := l.client.dropSession contactId } now contactId session
    (true, { l with previous := l.previous.onKey contactId holdBackNewest })

def forgetContactState (l : Lifecycle) (m : Moment) (contactId : Bytes) : Lifecycle :=
  let client := l.client.removeSession m.env.now contactId
  { l with
    client := { client with
      envelopes := (client.envelopes.retireDevice contactId m.nowSecs).prune m.nowSecs }
    previous := l.previous.erase contactId
    hybridIdentityPins := l.hybridIdentityPins.erase contactId
    kemIdentityPins := l.kemIdentityPins.erase contactId
    spkEpochs := l.spkEpochs.erase contactId }

inductive RatchetKeyOwner where
  | current
  | previous
  | unknown
deriving DecidableEq, Repr

/-- `ratchet_key_owner`: which state's messages carry a ratchet key. -/
def ratchetKeyOwner (l : Lifecycle) (contactId key : Bytes) : RatchetKeyOwner :=
  if (l.current contactId).any fun s => s.dr.dhRatchetPublic == key then .current
  else if (l.previousStates contactId).any fun s => s.session.dr.dhRatchetPublic == key then
    .previous
  else .unknown

def setMyUserId (l : Lifecycle) (userId : Bytes) : Lifecycle :=
  { l with myUserId := userId, client := { l.client with localUserId := userId } }

/-! ## Pins -/

structure SpkEpochRegressed where
  received : UInt32
  known : UInt32
deriving DecidableEq, Repr

/-- `spk_epoch_regression`: epoch 0 is always admitted. -/
def spkEpochRegression (l : Lifecycle) (deviceId : Bytes) (epoch : UInt32) :
    Option SpkEpochRegressed :=
  if epoch = 0 then none
  else match l.spkEpochs[deviceId]? with
    | some known => if epoch < known then some { received := epoch, known } else none
    | none => none

def noteSpkEpoch (l : Lifecycle) (deviceId : Bytes) (epoch : UInt32) : Lifecycle :=
  if epoch = 0 then l
  else { l with
    spkEpochs := l.spkEpochs.insert deviceId (max (l.spkEpochs[deviceId]?.getD 0) epoch) }

def pinnedHybridIdentity (l : Lifecycle) (deviceId : Bytes) : Option (Vector UInt8 32) :=
  l.hybridIdentityPins[deviceId]?

/-- `pin_hybrid_identity`: on first sight only. -/
def pinHybridIdentity (l : Lifecycle) (deviceId : Bytes) (fingerprint : Vector UInt8 32) :
    Lifecycle :=
  { l with hybridIdentityPins := l.hybridIdentityPins.insertIfNew deviceId fingerprint }

def pinnedKemIdentity (l : Lifecycle) (deviceId : Bytes) : Option (Vector UInt8 32) :=
  l.kemIdentityPins[deviceId]?

/-- `pin_kem_identity`: on first sight only. -/
def pinKemIdentity (l : Lifecycle) (deviceId : Bytes) (fingerprint : Vector UInt8 32) :
    Lifecycle :=
  { l with kemIdentityPins := l.kemIdentityPins.insertIfNew deviceId fingerprint }

/-! ## First flights -/

/-- A session whose first flights may still be written or arrive: an initiator without an
answer, or a responder without the initiator's proof. -/
def inFirstFlights (s : Session) : Bool :=
  s.prekeyHeader.isSome || s.pqAuthentication == .received

def closeFirstFlights (l : Lifecycle) (contactId : Bytes) : Lifecycle :=
  match l.current contactId with
  | none => l
  | some s => if inFirstFlights s then l else l.onBook (·.clearFirstFlight s.sessionId)

/-! ## Decrypt -/

def identityAnswerSecret (S : Suite) (l : Lifecycle) (msg : EncryptedRatchetMessage) :
    Except LifecycleError (Option Bytes) :=
  match msg.identityProofCiphertext with
  | none => .ok none
  | some ct =>
    match l.client.keyManager.kemIdentityDecapsulate S ct with
    | .ok secret => .ok (some secret)
    | .error e => .error (.identityAnswer e)

/-- What became of a walk over the previous states, each as its attempt left it. -/
inductive Walk where
  /-- A state decrypted: the ones tried before it, itself, and the ones not tried. -/
  | decrypted (before : List PreviousState) (state : PreviousState) (after : List PreviousState)
      (plaintext : Bytes)
  | consumed (states : List PreviousState) (e : RatchetError)
  | unread (states : List PreviousState)

def Walk.after (first : PreviousState) : Walk → Walk
  | .decrypted before state rest plaintext => .decrypted (first :: before) state rest plaintext
  | .consumed states e => .consumed (first :: states) e
  | .unread states => .unread (first :: states)

/-- Try each state, newest first: the first to decrypt ends the walk, and so does one whose
key is consumed. -/
def tryPrevious (S : Suite) (env : Env) (msg : EncryptedRatchetMessage)
    (identitySecret : Option Bytes) : List PreviousState → Walk
  | [] => .unread []
  | state :: rest =>
    match Session.decryptWithIdentitySecret S.toCrypto env msg identitySecret state.session with
    | .ok plaintext s => .decrypted [] { state with session := s } rest plaintext
    | .error e s =>
      if e.isConsumed then .consumed ({ state with session := s } :: rest) e
      else (tryPrevious S env msg identitySecret rest).after { state with session := s }

/-- The part of `decrypt_ratchet_message` after the current state did not decrypt, for
`currentError` if there is one. -/
def decryptOnPrevious (S : Suite) (m : Moment) (contactId : Bytes) (msg : EncryptedRatchetMessage)
    (identitySecret : Option Bytes) (currentError : LifecycleError) :
    Op LifecycleError Lifecycle Bytes := do
  modify fun l => l.prunePrevious m.nowSecs contactId
  let l ← get
  match l.previous[contactId]? with
  | none => throw currentError
  | some states =>
    match tryPrevious S m.env msg identitySecret states with
    | .consumed states e =>
      set { l with previous := l.previous.insert contactId states }
      throw (.ratchet e)
    | .unread states =>
      set { l with previous := l.previous.insert contactId states }
      throw currentError
    | .decrypted before state after plaintext =>
      if state.heldBack then
        -- Read, and left where it is: the peer said it cannot read this state.
        set { l with previous := l.previous.insert contactId (before ++ state :: after) }
        return plaintext
      else
        let l := { l with previous := l.previous.insert contactId (before ++ after) }
        set ((l.installCurrent m.nowSecs contactId state.session).closeFirstFlights contactId)
        return plaintext

def decryptRatchetMessage (S : Suite) (m : Moment) (contactId : Bytes)
    (msg : EncryptedRatchetMessage) : Op LifecycleError Lifecycle Bytes := do
  let l ← get
  let identitySecret ← Op.ofExcept id (l.identityAnswerSecret S msg)
  match l.current contactId with
  | none => decryptOnPrevious S m contactId msg identitySecret (.noActiveSession contactId)
  | some _ =>
    match l.client.decryptMessageWithIdentitySecret S m.env contactId msg identitySecret with
    | .ok plaintext client =>
      set ({ l with client := client }.closeFirstFlights contactId)
      return plaintext
    | .error e client =>
      set { l with client := client }
      if e.isConsumed then throw e
      else decryptOnPrevious S m contactId msg identitySecret e

/-! ## Export and import -/

def cfeOf (s : Session) : Except LifecycleError CfeSessionStateV1 :=
  (s.toSerializable.toCfeV1).mapError .storage

def cfePrevious : List PreviousState → Except LifecycleError (List CfePreviousStateV1)
  | [] => .ok []
  | p :: rest => do
      let state ← cfeOf p.session
      let rest ← cfePrevious rest
      return { retiredAt := p.retiredAt, state, heldBack := p.heldBack } :: rest

/-- The record of a device: the newest previous state stands at the top when there is no
current one. -/
def exportRecord (l : Lifecycle) (contactId : Bytes) : Except LifecycleError CfeSessionRecord :=
  match l.current contactId, l.previousStates contactId with
  | some session, previous => do
      let top ← cfeOf session
      let previous ← cfePrevious previous
      return { top, previous, retired := none }
  | none, newest :: rest => do
      let top ← cfeOf newest.session
      let previous ← cfePrevious rest
      return { top, previous,
               retired := some { retiredAt := newest.retiredAt, heldBack := newest.heldBack } }
  | none, [] => .error (.sessionNotFound contactId)

def exportSessionBytesFor (F : Cfe) (l : Lifecycle) (contactId : Bytes) :
    Except LifecycleError Bytes := do
  let record ← l.exportRecord contactId
  (F.encodeSession record).mapError .encode

/-- Why a record is not imported. -/
inductive ImportError where
  | decodeAs (e : CfeError)
  | json (text : String)
  | fromCfeV1 (previous : Bool) (e : StorageError)
  | fromSerializable (previous : Bool) (e : StorageError)
  | contactMismatch (recordId loadedAs : Bytes)
  | userMismatch (recordId importingAs : Bytes)
  | noEnvelopeKeys (sessionId : Bytes)
  | noFirstFlightKey (sessionId : Bytes)
deriving DecidableEq, Repr

/-- `verify_identity`: an empty user id on either side is not compared. -/
def verifyIdentity (data : SerializableSession) (contactId localUserId : Bytes) :
    Except ImportError Unit :=
  if data.contactId ≠ contactId then .error (.contactMismatch data.contactId contactId)
  else if data.localUserId = [] ∨ localUserId = [] then .ok ()
  else if data.localUserId ≠ localUserId then
    .error (.userMismatch data.localUserId localUserId)
  else .ok ()

/-- The decoding half of `import_session_bytes`: the top state, the previous states and the
mark of a record without a current state. -/
def decodeRecord (F : Cfe) (data : Bytes) :
    Except ImportError (SerializableSession × List CfePreviousStateV1 × Option CfeRetiredMarkV1) :=
  match F.decodeSession data with
  | .ok record => do
      let top ← (SerializableSession.fromCfeV1 record.top).mapError (.fromCfeV1 false)
      return (top, record.previous, record.retired)
  | .error .legacyJson => do
      let top ← (F.sessionFromJson data).mapError .json
      return (top, [], none)
  | .error e => .error (.decodeAs e)

/-- The previous states a record gives back: a state of the retired suite, or without an
envelope pair, is left out. -/
def importPrevious (l : Lifecycle) (systemNow : Nat) (contactId : Bytes) :
    List CfePreviousStateV1 → Except ImportError (List PreviousState)
  | [] => .ok []
  | entry :: rest =>
    if entry.state.suiteId.toUInt16 = Wire.retiredPqRatchetV1 then
      l.importPrevious systemNow contactId rest
    else do
      let state ← (SerializableSession.fromCfeV1 entry.state).mapError (.fromCfeV1 true)
      verifyIdentity state contactId l.client.localUserId
      let session ← (Session.fromSerializable systemNow state).mapError (.fromSerializable true)
      let states ← l.importPrevious systemNow contactId rest
      if l.client.envelopes.hasSession session.sessionId then
        return { session, retiredAt := entry.retiredAt, heldBack := entry.heldBack } :: states
      else return states

def importTop (l : Lifecycle) (systemNow : Nat) (data : SerializableSession) :
    Except ImportError Session := do
  let session ← (Session.fromSerializable systemNow data).mapError (.fromSerializable false)
  refuseIf (l.client.envelopes.hasSession session.sessionId = false)
    (.noEnvelopeKeys session.sessionId)
  refuseIf (inFirstFlights session = true ∧
      l.client.envelopes.firstFlightOfSession session.sessionId = none)
    (.noFirstFlightKey session.sessionId)
  return session

def installRecord (l : Lifecycle) (now : Nat) (contactId : Bytes) (top : Session)
    (states : List PreviousState) (retired : Option CfeRetiredMarkV1) : Lifecycle :=
  let client := if retired.isSome then l.client.dropSession contactId
    else l.client.putBackSession contactId top
  let states := (retired.map fun mark : CfeRetiredMarkV1 =>
    { session := top, retiredAt := mark.retiredAt, heldBack := mark.heldBack :
      PreviousState }).toList ++ states
  if states.isEmpty then { l with client := client, previous := l.previous.erase contactId }
  else prunePrevious { l with client := client, previous := l.previous.insert contactId states }
    now contactId

def importSessionBytes (F : Cfe) (m : Moment) (contactId data : Bytes) :
    Op ImportError Lifecycle Unit := do
  let l ← get
  let (top, previous, retired) ← Op.ofExcept id (decodeRecord F data)
  Op.ofExcept id (verifyIdentity top contactId l.client.localUserId)
  let states ← Op.ofExcept id (l.importPrevious m.env.now contactId previous)
  let session ← Op.ofExcept id (l.importTop m.env.now top)
  set (l.installRecord m.nowSecs contactId session states retired)

/-! ## The orchestrator's state -/

def cfePins (pins : Table Bytes (Vector UInt8 32)) : List CfeHybridPinV1 :=
  pins.toList.map fun p => { deviceId := p.1, fingerprint := p.2.toList }

def pinsOfCfe (pins : List CfeHybridPinV1) : Table Bytes (Vector UInt8 32) :=
  .ofList (pins.filterMap fun p => (toVector? 32 p.fingerprint).map fun fp => (p.deviceId, fp))

/-- The state `export_orchestrator_state_cfe` writes: the ACK cache is always left out. -/
def orchestratorState (l : Lifecycle) (initLocks : List Bytes) : CfeOrchestratorStateV1 where
  ver := 1
  myUserId := l.myUserId
  processedIds := []
  initLocks := initLocks
  hybridIdentityPins := cfePins l.hybridIdentityPins
  kemIdentityPins := cfePins l.kemIdentityPins
  envelopeBook := l.client.envelopes.toCfe
  spkEpochs := l.spkEpochs.toList.map fun e => { deviceId := e.1, epoch := e.2 }

def exportOrchestratorStateCfe (F : Cfe) (l : Lifecycle) (initLocks : List Bytes) :
    Except CfeError Bytes :=
  F.encodeState (l.orchestratorState initLocks)

/-- Why an orchestrator state is not imported. -/
inductive StateImportError where
  | decodeAs (e : CfeError)
  | version (ver : UInt8)
deriving DecidableEq, Repr

def installState (l : Lifecycle) (now : Nat) (state : CfeOrchestratorStateV1) : Lifecycle :=
  { l with
    ackStore := .restoreCache state.processedIds
    hybridIdentityPins := pinsOfCfe state.hybridIdentityPins
    kemIdentityPins := pinsOfCfe state.kemIdentityPins
    spkEpochs := .ofList ((state.spkEpochs.filter fun e => decide (0 < e.epoch)).map
      fun e => (e.deviceId, e.epoch))
    client := { l.client with envelopes := (EnvelopeBook.fromCfe state.envelopeBook).prune now } }

/-- `import_orchestrator_state_cfe`: the devices whose open was in flight. -/
def importOrchestratorStateCfe (F : Cfe) (m : Moment) (data : Bytes) :
    Op StateImportError Lifecycle (List Bytes) := do
  let state ← Op.ofExcept .decodeAs (F.decodeState data)
  if state.ver ≠ 1 then throw (.version state.ver)
  else
    modify fun l => l.installState m.nowSecs state
    return state.initLocks

/-! ## Decrypting what arrives -/

structure DecryptResult where
  plaintext : Bytes
  actions : List Action
deriving DecidableEq, Repr

def messageOfWire (payload : Bytes) : Except LifecycleError EncryptedRatchetMessage := do
  let decoded ← (Wire.unpack payload).mapError .wire
  let dhPublicKey ← (toVector? 32 decoded.dhPublicKey).okOr .dhPublicKeyLength
  if decoded.sealedBox.length < 12 then .error .sealedBoxTooShort
  else
    return {
      dhPublicKey
      messageNumber := decoded.messageNumber
      ciphertext := decoded.sealedBox.drop 12
      nonce := decoded.sealedBox.take 12
      previousChainLength := decoded.previousChainLength
      suiteId := decoded.suiteId
      pqMessageEpoch := decoded.pqMessageEpoch
      pqKeyIndex := decoded.pqKeyIndex
      pqRatchetField := decoded.pqRatchetField
      identityProofCiphertext := decoded.identityProofCiphertext
      adVersion := decoded.adVersion }

def decryptWirePayload (S : Suite) (F : Cfe) (m : Moment) (contactId payload : Bytes) :
    Op LifecycleError Lifecycle DecryptResult := do
  let msg ← Op.ofExcept id (messageOfWire payload)
  let plaintext ← decryptRatchetMessage S m contactId msg
  let l ← get
  let bytes ← Op.ofExcept id (l.exportSessionBytesFor F contactId)
  return { plaintext, actions := [.saveSession contactId bytes] }

end Lifecycle

end ConstructCore
