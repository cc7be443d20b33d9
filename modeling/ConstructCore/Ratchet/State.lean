import ConstructCore.Crypto.Provider
import ConstructCore.Lib.AgedStore
import ConstructCore.Lib.Op

/-!
# The Double Ratchet session: its state, its messages and its errors

`Session` is `DoubleRatchetSession`. Its fields stand in two groups under the
source's names: `Ratchet` (the classical Double Ratchet) and `PqRatchet` (the sparse
ML-KEM ratchet of suite 4), so that an operation on one half cannot touch the other.
A skipped-key map and its map of timestamps are one `AgedStore`.

`EncryptedRatchetMessage` is what `encrypt` returns and `decrypt` reads;
`RatchetError` names every refusal of the ratchet and `RatchetError.text` is its text.
-/

namespace ConstructCore

-- the keys of the two skipped-key maps
instance instTransOrdSlot : Std.TransOrd (Bytes × UInt32) := inferInstance

instance instTransOrdPqSlot : Std.TransOrd (UInt32 × UInt32) := inferInstance

instance instLawfulEqOrdSlot : Std.LawfulEqOrd (Bytes × UInt32) := inferInstance

instance instLawfulEqOrdPqSlot : Std.LawfulEqOrd (UInt32 × UInt32) := inferInstance

/-! ## Configuration -/

/-- The settings of `Config` the ratchet reads. -/
structure Config where
  chachaNonceLength : Nat
  maxSkippedMessages : Nat
  maxMessageJump : UInt32
  maxSkippedMessageAgeSeconds : Int
  pqRatchetInterval : UInt32
  pqRatchetMaxAgeSeconds : Nat

/-- `Config::global()`: always the defaults. -/
def Config.global : Config where
  chachaNonceLength := 12
  maxSkippedMessages := 1000
  maxMessageJump := 2000
  maxSkippedMessageAgeSeconds := 7 * 24 * 60 * 60
  pqRatchetInterval := 16
  pqRatchetMaxAgeSeconds := 7 * 24 * 60 * 60

/-! ## Suites and labels -/

/-- `SuiteID`: only the supported suites can be built. -/
inductive SuiteID where
  | classic
  | pqHybrid
  | pqRatchet
deriving DecidableEq, Repr

namespace SuiteID

def new (suiteId : UInt16) : Option SuiteID :=
  if suiteId = 1 then some classic
  else if suiteId = 2 then some pqHybrid
  else if suiteId = 4 then some pqRatchet
  else none

def asU16 : SuiteID → UInt16
  | classic => 1
  | pqHybrid => 2
  | pqRatchet => 4

def isPqRatchet : SuiteID → Bool
  | pqRatchet => true
  | _ => false

theorem isPqRatchet_iff {s : SuiteID} : s.isPqRatchet = true ↔ s = pqRatchet := by
  cases s <;> decide

@[simp] theorem new_asU16 (s : SuiteID) : new s.asU16 = some s := by
  cases s <;> rfl

end SuiteID

/-- Whose Kyber key the session's post-quantum layer came from. -/
inductive PqAuthentication where
  | unknown
  | classic
  | authenticated
  | unauthenticated
  | received
  | receivedProven
deriving DecidableEq, Repr

namespace PqAuthentication

def asU8 : PqAuthentication → UInt8
  | unknown => 0
  | classic => 1
  | authenticated => 2
  | unauthenticated => 3
  | received => 4
  | receivedProven => 5

/-- Unrecognised values read as `unknown`. -/
def fromU8 (value : UInt8) : PqAuthentication :=
  if value = 1 then classic
  else if value = 2 then authenticated
  else if value = 3 then unauthenticated
  else if value = 4 then received
  else if value = 5 then receivedProven
  else unknown

@[simp] theorem fromU8_asU8 (a : PqAuthentication) : fromU8 a.asU8 = a := by
  cases a <;> rfl

end PqAuthentication

/-- How the session's post-quantum layer started. -/
inductive PqHandshake where
  | none
  | deferredV1
  | initialV2
deriving DecidableEq, Repr

namespace PqHandshake

def asU8 : PqHandshake → UInt8
  | none => 0
  | deferredV1 => 1
  | initialV2 => 2

def fromU8 (value : UInt8) : PqHandshake :=
  if value = 1 then deferredV1 else if value = 2 then initialV2 else none

def legacy (pqApplied : Option Bool) : PqHandshake :=
  if pqApplied = some true then deferredV1 else none

@[simp] theorem fromU8_asU8 (a : PqHandshake) : fromU8 a.asU8 = a := by
  cases a <;> rfl

end PqHandshake

/-- Where a session stands on the initiator's post-quantum proof of identity. -/
inductive IdentityProof where
  | none
  /-- Initiator: the first receiving step must mix the secret of the answer. -/
  | awaitingAnswer
  /-- Responder: the ciphertext every outgoing message carries. -/
  | answered (ciphertext : Bytes)
deriving DecidableEq, Repr

/-- What an initiator's messages carry until the peer answers. -/
structure PrekeyHeader where
  oneTimePrekeyId : UInt32
  kyberPrekeyId : UInt32
  kemCiphertext : Bytes
  kemIdentity : Bytes
deriving DecidableEq, Repr

def adVersionLegacy : UInt8 := 3

/-- `AD_VERSION_HEADER`: the associated data covers the whole header. -/
def adVersionHeader : UInt8 := 4

/-- `AD_SEND_DEFAULT`: what is written to a peer not yet heard at version 4. -/
def adSendDefault : UInt8 := adVersionLegacy

/-- `PQ_CHAIN_RETENTION`: the current epoch's chains and the previous one's. -/
def pqChainRetention : Nat := 2

/-! ## The post-quantum half -/

/-- One direction's symmetric chain inside a PQ epoch. -/
structure PqChain where
  /-- The number the next key carries on the wire. -/
  index : UInt32
  key : Bytes
deriving DecidableEq, Repr

/-- The chains of one epoch; `send` is `none` once a newer epoch sends. -/
structure PqEpochChains where
  epoch : UInt32
  send : Option PqChain
  recv : PqChain
deriving DecidableEq, Repr

/-- `PqRatchetKeyPair`: an ML-KEM-768 key pair awaiting the peer's ciphertext. -/
structure PqRatchetKeyPair where
  publicKey : Bytes
  secretKey : Bytes
deriving DecidableEq, Repr

/-- Initiator: the exchange in flight. -/
structure PendingPqExchange where
  epoch : UInt32
  keypair : PqRatchetKeyPair
deriving DecidableEq, Repr

/-- Responder: the answer re-attached until the initiator's tag acknowledges it, with
the provisional chains of its epoch. -/
structure PendingPqCiphertext where
  epoch : UInt32
  ekHash : Vector UInt8 8
  ciphertext : Bytes
  chains : PqEpochChains
deriving DecidableEq, Repr

/-- The fields of `DoubleRatchetSession` that belong to the sparse PQ ratchet. -/
structure PqRatchet where
  pqTurnsSinceMix : UInt32
  isPqInitiator : Bool
  currentPqEpoch : UInt32
  pqChains : List PqEpochChains
  pqSkippedKeys : AgedStore (UInt32 × UInt32) Bytes
  pendingPqExchange : Option PendingPqExchange
  pendingPqCiphertext : Option PendingPqCiphertext
  pqPendingSince : Nat
  pqEpochSince : Nat

/-! ## The classical half and the session -/

/-- The fields of `DoubleRatchetSession` that belong to the classical ratchet. -/
structure Ratchet where
  rootKey : Bytes
  sendingChainKey : Bytes
  sendingChainLength : UInt32
  receivingChainKey : Bytes
  receivingChainLength : UInt32
  dhRatchetPrivate : Option Bytes
  dhRatchetPublic : Bytes
  remoteDhPublic : Option Bytes
  previousSendingLength : UInt32
  skippedMessageKeys : AgedStore (Bytes × UInt32) Bytes

/-- `DoubleRatchetSession`. -/
structure Session where
  suiteId : SuiteID
  dr : Ratchet
  pq : PqRatchet
  prekeyHeader : Option PrekeyHeader
  pqHandshake : PqHandshake
  sessionId : Bytes
  contactId : Bytes
  localUserId : Bytes
  lastRatchetAt : Nat
  peerAdVersion : UInt8
  pqAuthentication : PqAuthentication
  pqApplied : Option Bool
  identityProof : IdentityProof

/-! ## Messages -/

inductive PqRatchetWireField where
  /-- The initiator's fresh public key, proposing an epoch. -/
  | publicKey (epoch : UInt32) (key : Bytes)
  /-- The responder's ciphertext, completing an epoch. -/
  | ciphertext (epoch : UInt32) (ekHash : Vector UInt8 8) (ct : Bytes)
deriving DecidableEq, Repr

structure EncryptedRatchetMessage where
  dhPublicKey : Vector UInt8 32
  messageNumber : UInt32
  ciphertext : Bytes
  nonce : Bytes
  previousChainLength : UInt32
  suiteId : UInt16
  pqMessageEpoch : UInt32
  pqKeyIndex : UInt32
  pqRatchetField : Option PqRatchetWireField
  identityProofCiphertext : Option Bytes
  adVersion : UInt8
deriving DecidableEq, Repr

end ConstructCore
