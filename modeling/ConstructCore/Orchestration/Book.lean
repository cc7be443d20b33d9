import ConstructCore.Crypto.Suite

/-!
# The envelope book

`crypto/sealed_sender/book.rs`: the envelope key pair of every session this device made, by
peer device and session id. A session has at most one entry, filed when the session is made.
An entry is retired when the book is told that its session is no longer held, and dropped
when it has been retired for `retiredRetentionSecs`; nothing takes the mark away again.
-/

namespace ConstructCore

open Bytes

def queueTtlSecs : Nat := 7 * 24 * 3600

def retiredRetentionSecs : Nat := queueTtlSecs

/-- `DirectionKeys`: one direction's envelope keys. -/
structure DirectionKeys where
  env : Bytes
  tag : Bytes
deriving DecidableEq, Repr

/-- `DirectionKeys::derive`: the HKDF here always succeeds. -/
def DirectionKeys.derive (C : Crypto) (sk sender recipient : Bytes) : DirectionKeys :=
  let info := ofText "construct-envelope-v1" ++ 0 :: sender ++ 0 :: recipient
  let out := (C.hkdfDeriveKey [] sk info 64).toOption.getD []
  { env := out.take 32, tag := out.drop 32 }

structure EnvelopePair where
  send : DirectionKeys
  recv : DirectionKeys
deriving DecidableEq, Repr

def EnvelopePair.derive (C : Crypto) (sk localId peer : Bytes) : EnvelopePair where
  send := .derive C sk localId peer
  recv := .derive C sk peer localId

/-- `FirstFlightKey::from_kem_secret`: the HKDF here always succeeds. -/
def firstFlightKey (C : Crypto) (sharedSecret : Bytes) : Bytes :=
  (C.hkdfDeriveKey [] sharedSecret (ofText "construct-first-flight-v1") 32).toOption.getD []

structure FiledFirstFlightKey where
  ciphertextHash : Vector UInt8 32
  key : Bytes
  handshakeAt : Nat
deriving DecidableEq, Repr

structure BookEntry where
  device : Bytes
  sessionId : Bytes
  keys : EnvelopePair
  retiredAt : Option Nat
  firstFlight : Option FiledFirstFlightKey
deriving DecidableEq, Repr

/-- `retired_at.get_or_insert(now)`. -/
def BookEntry.retire (e : BookEntry) (now : Nat) : BookEntry :=
  { e with retiredAt := some (e.retiredAt.getD now) }

def BookEntry.kept (now : Nat) (e : BookEntry) : Bool :=
  match e.retiredAt with
  | none => true
  | some retiredAt => decide (now - retiredAt < retiredRetentionSecs)

/-- `EnvelopeBook`, newest entry first. -/
structure EnvelopeBook where
  entries : List BookEntry
deriving DecidableEq, Repr

namespace EnvelopeBook

def empty : EnvelopeBook := ⟨[]⟩

def hasSession (b : EnvelopeBook) (sessionId : Bytes) : Bool :=
  b.entries.any fun e => e.sessionId == sessionId

def entry? (b : EnvelopeBook) (sessionId : Bytes) : Option BookEntry :=
  b.entries.find? fun e => e.sessionId == sessionId

/-- `register`: a session already filed keeps its entry. -/
def register (b : EnvelopeBook) (device sessionId : Bytes) (keys : EnvelopePair) : EnvelopeBook :=
  if b.hasSession sessionId then b
  else ⟨{ device, sessionId, keys, retiredAt := none, firstFlight := none } :: b.entries⟩

def onSession (sessionId : Bytes) (f : BookEntry → BookEntry) : List BookEntry → List BookEntry
  | [] => []
  | e :: es => if e.sessionId = sessionId then f e :: es else e :: onSession sessionId f es

def setFirstFlight (b : EnvelopeBook) (sessionId : Bytes) (filed : FiledFirstFlightKey) :
    EnvelopeBook :=
  ⟨onSession sessionId (fun e => { e with firstFlight := some filed }) b.entries⟩

def clearFirstFlight (b : EnvelopeBook) (sessionId : Bytes) : EnvelopeBook :=
  ⟨onSession sessionId (fun e => { e with firstFlight := none }) b.entries⟩

def firstFlightOfSession (b : EnvelopeBook) (sessionId : Bytes) : Option FiledFirstFlightKey :=
  (b.entry? sessionId).bind (·.firstFlight)

def retireWhere (b : EnvelopeBook) (p : BookEntry → Bool) (now : Nat) : EnvelopeBook :=
  ⟨b.entries.map fun e => if p e then e.retire now else e⟩

def retireSession (b : EnvelopeBook) (sessionId : Bytes) (now : Nat) : EnvelopeBook :=
  b.retireWhere (fun e => e.sessionId == sessionId) now

def retireDevice (b : EnvelopeBook) (device : Bytes) (now : Nat) : EnvelopeBook :=
  b.retireWhere (fun e => e.device == device) now

def retireDeviceExcept (b : EnvelopeBook) (device : Bytes) (held : List Bytes) (now : Nat) :
    EnvelopeBook :=
  b.retireWhere (fun e => e.device == device && !held.contains e.sessionId) now

def prune (b : EnvelopeBook) (now : Nat) : EnvelopeBook := ⟨b.entries.filter (BookEntry.kept now)⟩

end EnvelopeBook

/-! ## The book in the orchestrator's state -/

structure CfeEnvelopeEntryV1 where
  deviceId : Bytes
  sessionId : Bytes
  keys : Bytes
  retiredAt : Option Nat
  firstFlight : Option Bytes
deriving DecidableEq, Repr

def DirectionKeys.toBytes (k : DirectionKeys) : Bytes := k.env ++ k.tag

/-- `DirectionKeys::from_bytes`, on 64 bytes. -/
def DirectionKeys.ofBytes (b : Bytes) : DirectionKeys := { env := b.take 32, tag := b.drop 32 }

def FiledFirstFlightKey.toBytes (f : FiledFirstFlightKey) : Bytes :=
  f.ciphertextHash.toList ++ f.key ++ (leBytes 8 f.handshakeAt).reverse

def FiledFirstFlightKey.ofBytes (b : Bytes) : Option FiledFirstFlightKey :=
  if b.length = 72 then
    (toVector? 32 (b.take 32)).map fun ciphertextHash =>
      { ciphertextHash, key := (b.drop 32).take 32, handshakeAt := ofLeBytes (b.drop 64).reverse }
  else none

def BookEntry.toCfe (e : BookEntry) : CfeEnvelopeEntryV1 where
  deviceId := e.device
  sessionId := e.sessionId
  keys := e.keys.send.toBytes ++ e.keys.recv.toBytes
  retiredAt := e.retiredAt
  firstFlight := e.firstFlight.map (·.toBytes)

def BookEntry.ofCfe (e : CfeEnvelopeEntryV1) : Option BookEntry :=
  if e.keys.length = 128 then
    some {
      device := e.deviceId
      sessionId := e.sessionId
      keys := { send := .ofBytes (e.keys.take 64), recv := .ofBytes (e.keys.drop 64) }
      retiredAt := e.retiredAt
      firstFlight := e.firstFlight.bind FiledFirstFlightKey.ofBytes }
  else none

def EnvelopeBook.toCfe (b : EnvelopeBook) : List CfeEnvelopeEntryV1 := b.entries.map (·.toCfe)

def EnvelopeBook.fromCfe (entries : List CfeEnvelopeEntryV1) : EnvelopeBook :=
  ⟨entries.filterMap BookEntry.ofCfe⟩

end ConstructCore
