import ConstructCore.Ratchet.AssociatedData
import ConstructCore.Ratchet.Pq

/-!
# The Double Ratchet: creation, encrypt and decrypt

`newInitiatorSession`, `newResponderSession`, `answerInitiatorIdentity`, `encrypt` and
`decryptWithIdentitySecret` are the methods of `DoubleRatchetSession`, each on the state
it is given and the `Env` it runs in. A failing method leaves the state it reached;
`decryptMessage` puts its snapshot back on every path that fails after a change.
-/

namespace ConstructCore

open Bytes

variable (C : Crypto)

/-! ## Session creation -/

/-- `derive_shared_session_id`: the hex text of 16 bytes both sides derive. -/
def deriveSharedSessionId (rootKeyX3dh localUserId contactId : Bytes) :
    Except CryptoError Bytes :=
  let (first, second) :=
    if localUserId ≤ contactId then (localUserId, contactId) else (contactId, localUserId)
  let info := ofText "Construct-SessionID-v2\x00" ++ (first ++ (0 :: second))
  match C.hkdfDeriveKey rootKeyX3dh (ofText "construct-session-id") info 16 with
  | .ok bytes => .ok (hexEncode bytes)
  | .error e => .error e

def deriveInitialRootKey (rootKey : Bytes) : Except CryptoError Bytes :=
  C.hkdfDeriveKey (List.replicate 32 0xFE) rootKey (ofText "InitialRootKey") 32

def lift {α : Type} (f : CryptoError → RatchetError) (x : Except CryptoError α) :
    Except RatchetError α := x.mapError f

/-- A session that has neither sent nor received, around its classical half. -/
def Session.initial (suiteId : SuiteID) (dr : Ratchet) (isPqInitiator : Bool)
    (sessionId contactId localUserId : Bytes) (now : Nat) : Session where
  suiteId := suiteId
  dr := dr
  pq := .initial isPqInitiator now
  prekeyHeader := none
  pqHandshake := .none
  sessionId := sessionId
  contactId := contactId
  localUserId := localUserId
  lastRatchetAt := now
  peerAdVersion := adVersionLegacy
  pqAuthentication := .classic
  pqApplied := some false
  identityProof := .none

/-- `new_initiator_session`: the X3DH ephemeral key is the first ratchet key. -/
def newInitiatorSession (env : Env) (rootKey ephemeralPrivate remoteIdentity : Bytes)
    (contactId localUserId : Bytes) (suiteId : SuiteID) : Except RatchetError Session := do
  let sharedSessionId ← lift (.sessionIdDerivation true)
    (deriveSharedSessionId C rootKey localUserId contactId)
  let rootKeyVal ← lift .rootKeyDerivation (deriveInitialRootKey C rootKey)
  let dhPublic ← lift .publicKeyDerivation (C.fromPrivateKeyToPublicKey ephemeralPrivate)
  let dhOutput ← lift .performDh (C.kemDecapsulate ephemeralPrivate remoteIdentity)
  let (root, chain) ← lift .kdfRk (C.kdfRk rootKeyVal dhOutput)
  return .initial suiteId
    { rootKey := root
      sendingChainKey := chain
      sendingChainLength := 0
      receivingChainKey := defaultAeadKey
      receivingChainLength := 0
      dhRatchetPrivate := some ephemeralPrivate
      dhRatchetPublic := dhPublic
      remoteDhPublic := some remoteIdentity
      previousSendingLength := 0
      skippedMessageKeys := .empty }
    suiteId.isPqRatchet sharedSessionId contactId localUserId env.now

/-- `new_responder_session`, up to the decryption of the first message: the session the
first message is decrypted with. -/
def responderSession (env : Env) (rootKey localIdentity : Bytes)
    (firstMessage : EncryptedRatchetMessage) (contactId localUserId : Bytes) :
    Except RatchetError Session := do
  let remoteDhPublic := firstMessage.dhPublicKey.toList
  let sharedSessionId ← lift (.sessionIdDerivation false)
    (deriveSharedSessionId C rootKey localUserId contactId)
  let rootKeyVal ← lift .rootKeyDerivation (deriveInitialRootKey C rootKey)
  let dhOutput ← lift .performDh (C.kemDecapsulate localIdentity remoteDhPublic)
  let (root, receivingChain) ← lift .kdfRk (C.kdfRk rootKeyVal dhOutput)
  let (dhPrivate, dhPublic) ← lift .generateDhKeys (C.generateKemKeys env.dhSeed)
  let dhOutput2 ← lift .performDh (C.kemDecapsulate dhPrivate remoteDhPublic)
  let (finalRoot, sendingChain) ← lift .kdfRk (C.kdfRk root dhOutput2)
  let suiteId ← (SuiteID.new firstMessage.suiteId).okOr (.invalidSuiteId firstMessage.suiteId)
  return .initial suiteId
    { rootKey := finalRoot
      sendingChainKey := sendingChain
      sendingChainLength := 0
      receivingChainKey := receivingChain
      receivingChainLength := 0
      dhRatchetPrivate := some dhPrivate
      dhRatchetPublic := dhPublic
      remoteDhPublic := some remoteDhPublic
      previousSendingLength := 0
      skippedMessageKeys := .empty }
    false sharedSessionId contactId localUserId env.now

def mixIdentitySecret (root chain secret : Bytes) : Except RatchetError (Bytes × Bytes) := do
  let root ← lift .identityRootMix
    (C.hkdfDeriveKey secret root (ofText "Construct-KEM-identity-root-v1") 32)
  let chain ← lift .identityChainMix
    (C.hkdfDeriveKey secret chain (ofText "Construct-KEM-identity-chain-v1") 32)
  return (root, chain)

namespace Session

def markPqxdhV2 (s : Session) (authentication : PqAuthentication) : Session :=
  { s with
    pqHandshake := .initialV2
    pqApplied := some true
    pqAuthentication := authentication }

def setPrekeyHeader (s : Session) (header : PrekeyHeader) : Session :=
  { s with prekeyHeader := some header }

def expectIdentityAnswer (s : Session) : Session :=
  { s with identityProof := .awaitingAnswer }

/-- `answer_initiator_identity`: the responder mixes the secret it encapsulated to the
initiator's identity key into the root and its first sending chain. -/
def answerInitiatorIdentity (secret ciphertext : Bytes) : Op RatchetError Session Unit := do
  let s ← get
  if s.dr.sendingChainLength ≠ 0 ∨ s.identityProof ≠ .none then throw .identityAnswer
  else
    let (root, chain) ← Op.ofExcept id
      (mixIdentitySecret C s.dr.rootKey s.dr.sendingChainKey secret)
    set { s with
      dr := { s.dr with rootKey := root, sendingChainKey := chain }
      identityProof := .answered ciphertext }

/-! ## Encrypt -/

def adSendVersion (s : Session) : UInt8 :=
  if adVersionHeader ≤ s.peerAdVersion then adVersionHeader else adSendDefault

def outgoingIdentityProof (s : Session) : Option Bytes :=
  match s.identityProof with
  | .answered ciphertext => some ciphertext
  | _ => none

def onPq {α : Type} (x : Op RatchetError PqRatchet α) : Op RatchetError Session α :=
  Op.zoom (fun s => s.pq) (fun pq s => { s with pq := pq }) x

/-- The position an outgoing message takes and the key it is sealed with. -/
structure SendPosition where
  messageNumber : UInt32
  pqMessageEpoch : UInt32
  pqKeyIndex : UInt32
  messageKey : Bytes

/-- The part of `encrypt` that moves the chains: the PQ send chain first, then the
classical chain key and counter together, once nothing before the AEAD can fail. -/
def nextSendPosition : Op RatchetError Session SendPosition := do
  let s ← get
  let (pqMessageEpoch, pqKeyIndex, pqKey) ← onPq (PqRatchet.pqSendKey C s.suiteId)
  let (messageKey, nextChainKey) ← Op.ofExcept .kdfCkSend (C.kdfCk s.dr.sendingChainKey)
  let messageKey ← Op.ofExcept id (mixPqMessageKey C messageKey pqKey)
  match s.dr.sendingChainLength.checkedSucc with
  | none => throw .sendingChainLengthOverflow
  | some nextNumber =>
    modify fun s => { s with
      dr := { s.dr with sendingChainKey := nextChainKey, sendingChainLength := nextNumber } }
    return { messageNumber := s.dr.sendingChainLength, pqMessageEpoch, pqKeyIndex, messageKey }

/-- The part of `encrypt` that seals: it reads the session and changes nothing. -/
def sealMessage (s : Session) (env : Env) (pos : SendPosition) (padded : Bytes) :
    Except RatchetError EncryptedRatchetMessage := do
  let nonce ← lift .nonceGeneration
    (C.generateNonce Config.global.chachaNonceLength env.nonceSeed)
  let dhPublicKey ← (toVector? 32 s.dr.dhRatchetPublic).okOr .publicKeyLength
  let sessionIdBytes ← (hexDecode s.sessionId).okOr (.encryptSessionId s.sessionId)
  let adVersion := s.adSendVersion
  let pqRatchetField := s.pq.takeOutgoingPqField s.suiteId
  let identityProofCiphertext := s.outgoingIdentityProof
  let header : AdHeader :=
    { dhPublicKey, messageNumber := pos.messageNumber, pqMessageEpoch := pos.pqMessageEpoch,
      pqKeyIndex := pos.pqKeyIndex, previousChainLength := s.dr.previousSendingLength,
      suiteId := s.suiteId.asU16, pqRatchetField, identityProofCiphertext }
  let ad := associatedData adVersion s.localUserId s.contactId sessionIdBytes
    s.suiteId.isPqRatchet header
  let ciphertext ← lift .encryption (C.aeadEncrypt pos.messageKey nonce padded (some ad))
  return {
    dhPublicKey, messageNumber := pos.messageNumber, ciphertext, nonce,
    previousChainLength := s.dr.previousSendingLength, suiteId := s.suiteId.asU16,
    pqMessageEpoch := pos.pqMessageEpoch, pqKeyIndex := pos.pqKeyIndex, pqRatchetField,
    identityProofCiphertext, adVersion }

def encrypt (env : Env) (plaintext : Bytes) :
    Op RatchetError Session EncryptedRatchetMessage := do
  let padded ← Op.ofExcept .padding (padMessageDefault plaintext)
  modify fun s => { s with pq := s.pq.maybeStartPqExchangeByAge C s.suiteId env }
  let pos ← nextSendPosition C
  let s ← get
  Op.ofExcept id (sealMessage C s env pos padded)

/-! ## Decrypt -/

/-- `cleanup_old_skipped_keys`, for both halves. -/
def cleanupOldSkippedKeys (s : Session) (now : Nat) (maxAgeSeconds : Int) : Session :=
  { s with
    dr := { s.dr with skippedMessageKeys := s.dr.skippedMessageKeys.evict now maxAgeSeconds }
    pq := { s.pq with pqSkippedKeys := s.pq.pqSkippedKeys.evict now maxAgeSeconds } }

def cleanupOldSkippedKeysDefault (s : Session) (now : Nat) : Session :=
  s.cleanupOldSkippedKeys now Config.global.maxSkippedMessageAgeSeconds

/-- The eviction `decrypt` starts with, every 100 received messages. -/
def cleanupIfDue (s : Session) (now : Nat) : Session :=
  if s.dr.receivingChainLength % 100 = 0 ∧
      ¬ (s.dr.skippedMessageKeys.size = 0 ∧ s.pq.pqSkippedKeys.size = 0) then
    s.cleanupOldSkippedKeysDefault now
  else s

/-- `DecryptSnapshot`: what a failed decrypt puts back. -/
structure DecryptSnapshot where
  dr : Ratchet
  pqTurnsSinceMix : UInt32
  currentPqEpoch : UInt32
  pqChains : List PqEpochChains
  pqSkippedKeys : PqRatchet.PqSkipped
  pendingPqExchange : Option PendingPqExchange
  pendingPqCiphertext : Option PendingPqCiphertext
  pqPendingSince : Nat
  identityProof : IdentityProof
  pqAuthentication : PqAuthentication

def snapshot (s : Session) : DecryptSnapshot where
  dr := s.dr
  pqTurnsSinceMix := s.pq.pqTurnsSinceMix
  currentPqEpoch := s.pq.currentPqEpoch
  pqChains := s.pq.pqChains
  pqSkippedKeys := s.pq.pqSkippedKeys
  pendingPqExchange := s.pq.pendingPqExchange
  pendingPqCiphertext := s.pq.pendingPqCiphertext
  pqPendingSince := s.pq.pqPendingSince
  identityProof := s.identityProof
  pqAuthentication := s.pqAuthentication

def restoreSnapshot (snap : DecryptSnapshot) (s : Session) : Session :=
  { s with
    dr := snap.dr
    pq := { s.pq with
      pqTurnsSinceMix := snap.pqTurnsSinceMix
      currentPqEpoch := snap.currentPqEpoch
      pqChains := snap.pqChains
      pqSkippedKeys := snap.pqSkippedKeys
      pendingPqExchange := snap.pendingPqExchange
      pendingPqCiphertext := snap.pendingPqCiphertext
      pqPendingSince := snap.pqPendingSince }
    identityProof := snap.identityProof
    pqAuthentication := snap.pqAuthentication }

def failRestoring {α : Type} (snap : DecryptSnapshot) (e : RatchetError) :
    Op RatchetError Session α := do
  modify (restoreSnapshot snap)
  throw e

def completeIdentityProof (s : Session) : Session :=
  match s.identityProof with
  | .answered _ =>
    { s with identityProof := .none, pqAuthentication := .receivedProven }
  | _ => s

def commitPqPostDecrypt (s : Session) (env : Env) (encrypted : EncryptedRatchetMessage) :
    Session :=
  { s with pq := s.pq.commitPqPostDecrypt C s.suiteId env encrypted }

/-- `perform_dh_ratchet`: a receiving chain from the old private key, then a fresh key
pair and a sending chain from it, then maybe a PQ exchange. `identitySecret` is mixed into
the first receiving step of an initiator that awaits an answer. -/
def performDhRatchet (env : Env) (newRemoteDh : Bytes) (identitySecret : Option Bytes) :
    Op RatchetError Session Unit := do
  modify fun s => { s with
    dr := { s.dr with previousSendingLength := s.dr.sendingChainLength } }
  let s ← get
  match s.dr.dhRatchetPrivate with
  | none => throw .noDhPrivateKey
  | some dhPrivate =>
    let dhReceive ← Op.ofExcept .dh (C.kemDecapsulate dhPrivate newRemoteDh)
    let (root, receivingChain) ← Op.ofExcept .kdfRk (C.kdfRk s.dr.rootKey dhReceive)
    modify fun s => { s with
      dr := { s.dr with
        rootKey := root, receivingChainKey := receivingChain, receivingChainLength := 0 } }
    mixAwaitedAnswer identitySecret
    let (newDhPrivate, newDhPublic) ← Op.ofExcept .generateDhKeys
      (C.generateKemKeys env.dhSeed)
    let dhSend ← Op.ofExcept .dh (C.kemDecapsulate newDhPrivate newRemoteDh)
    let s ← get
    let (root2, sendingChain) ← Op.ofExcept .kdfRk (C.kdfRk s.dr.rootKey dhSend)
    modify fun s => { s with
      dr := { s.dr with
        rootKey := root2
        sendingChainKey := sendingChain
        sendingChainLength := 0
        dhRatchetPrivate := some newDhPrivate
        dhRatchetPublic := newDhPublic
        remoteDhPublic := some newRemoteDh }
      lastRatchetAt := env.now }
    modify fun s => { s with pq := s.pq.maybeAdvancePqRatchet C s.suiteId env }
where
  /-- The initiator's first receiving step: mix the secret of the answer. -/
  mixAwaitedAnswer (identitySecret : Option Bytes) : Op RatchetError Session Unit := do
    let s ← get
    if s.identityProof = .awaitingAnswer then
      match identitySecret with
      | none => throw .identityAnswerMissing
      | some secret =>
        let (root, chain) ← Op.ofExcept id
          (mixIdentitySecret C s.dr.rootKey s.dr.receivingChainKey secret)
        set { s with
          dr := { s.dr with rootKey := root, receivingChainKey := chain }
          identityProof := .none }
    else pure ()

/-- The version check of `try_aead_decrypt`: version 3 only from a peer not yet heard at
version 4. -/
def checkAdVersion (s : Session) (encrypted : EncryptedRatchetMessage) :
    Except RatchetError Unit :=
  if encrypted.adVersion = adVersionHeader then .ok ()
  else if encrypted.adVersion = adVersionLegacy then
    if s.peerAdVersion < adVersionHeader then .ok ()
    else .error (.adDowngrade s.peerAdVersion)
  else .error (.unknownAdVersion encrypted.adVersion)

/-- `try_aead_decrypt`: check the version, rebuild the associated data, open and unpad. -/
def tryAeadDecrypt (s : Session) (messageKey : Bytes) (encrypted : EncryptedRatchetMessage) :
    Except RatchetError Bytes := do
  s.checkAdVersion encrypted
  let sessionIdBytes ← (hexDecode s.sessionId).okOr (.decryptSessionId s.sessionId)
  let ad := associatedData encrypted.adVersion s.contactId s.localUserId sessionIdBytes
    s.suiteId.isPqRatchet (AdHeader.ofMessage encrypted)
  let padded ← lift .decryption
    (C.aeadDecrypt messageKey encrypted.nonce encrypted.ciphertext (some ad))
  (unpadMessage padded).mapError .unpadding

def decryptWithKey (env : Env) (messageKey : Bytes) (encrypted : EncryptedRatchetMessage) :
    Op RatchetError Session Bytes := do
  let s ← get
  let (pqEpoch, pqIndex) :=
    if s.suiteId.isPqRatchet then (encrypted.pqMessageEpoch, encrypted.pqKeyIndex) else (0, 0)
  let pqKey ← onPq (PqRatchet.pqReceiveKey C s.suiteId env.now pqEpoch pqIndex)
  let messageKey ← Op.ofExcept id (mixPqMessageKey C messageKey pqKey)
  let s ← get
  let plaintext ← Op.ofExcept id (tryAeadDecrypt C s messageKey encrypted)
  modify fun s => { s with peerAdVersion := max s.peerAdVersion encrypted.adVersion }
  return plaintext

/-- One pass over a chain key: file the message key of the current position under the
chain's DH key and move the chain past it. -/
def fileSkippedKey (s : Session) (chain : Bytes) (now : Nat) (msgKey nextChain : Bytes) :
    Session :=
  { s with
    dr := { s.dr with
      skippedMessageKeys :=
        s.dr.skippedMessageKeys.insert (chain, s.dr.receivingChainLength) msgKey now
      receivingChainKey := nextChain } }

/-- The loop that saves the rest of the old receiving chain before a DH step: it runs once
for each position from the chain's up to the peer's previous chain length. -/
def skipMessageKeys (snap : DecryptSnapshot) (now : Nat) (oldRemoteDh : Bytes) :
    Nat → Op RatchetError Session Unit
  | 0 => pure ()
  | n + 1 => do
      let s ← get
      if Config.global.maxSkippedMessages ≤ s.dr.skippedMessageKeys.size then
        failRestoring snap .tooManySkipped
      else
        let (msgKey, nextChain) ← Op.inspectErr
          (Op.ofExcept .kdfCk (C.kdfCk s.dr.receivingChainKey)) (restoreSnapshot snap)
        set (s.fileSkippedKey oldRemoteDh now msgKey nextChain)
        match s.dr.receivingChainLength.checkedSucc with
        | none => failRestoring snap .receivingChainLengthOverflow
        | some length =>
          modify fun s => { s with dr := { s.dr with receivingChainLength := length } }
          skipMessageKeys snap now oldRemoteDh n

/-- The loop that derives keys up to the message's: the chain stands `n` keys short of it.
The keys it passes are filed; the last one is returned and the chain moved past it. -/
def deriveMessageKey (snap : DecryptSnapshot) (now : Nat) (remoteDh : Bytes) :
    Nat → Op RatchetError Session Bytes
  | 0 => do
      let s ← get
      let (msgKey, nextChain) ← Op.inspectErr
        (Op.ofExcept .kdfCk (C.kdfCk s.dr.receivingChainKey)) (restoreSnapshot snap)
      set { s with dr := { s.dr with receivingChainKey := nextChain } }
      match s.dr.receivingChainLength.checkedSucc with
      | none => failRestoring snap .receivingChainLengthOverflow
      | some length =>
        modify fun s => { s with dr := { s.dr with receivingChainLength := length } }
        return msgKey
  | n + 1 => do
      let s ← get
      let (msgKey, nextChain) ← Op.inspectErr
        (Op.ofExcept .kdfCk (C.kdfCk s.dr.receivingChainKey)) (restoreSnapshot snap)
      set (s.fileSkippedKey remoteDh now msgKey nextChain)
      match s.dr.receivingChainLength.checkedSucc with
      | none => failRestoring snap .receivingChainLengthOverflow
      | some length =>
        modify fun s => { s with dr := { s.dr with receivingChainLength := length } }
        let s ← get
        if Config.global.maxSkippedMessages ≤ s.dr.skippedMessageKeys.size then
          failRestoring snap .tooManySkipped
        else deriveMessageKey snap now remoteDh n

/-- The message carries another ratchet key than the one the receiving chain is for. -/
def needsRatchet (s : Session) (encrypted : EncryptedRatchetMessage) : Bool :=
  s.dr.remoteDhPublic != some encrypted.dhPublicKey.toList

def checkJumps (s : Session) (encrypted : EncryptedRatchetMessage) : Except RatchetError Unit :=
  let maxJump := Config.global.maxMessageJump
  if s.needsRatchet encrypted then
    if maxJump < encrypted.messageNumber then
      .error (.jumpAfterDhStep encrypted.messageNumber maxJump)
    else if s.dr.receivingChainLength.satAdd maxJump < encrypted.previousChainLength then
      .error (.previousChainJump s.dr.receivingChainLength encrypted.previousChainLength maxJump)
    else .ok ()
  else if s.dr.receivingChainLength.satAdd maxJump < encrypted.messageNumber then
    .error (.messageNumberJump s.dr.receivingChainLength encrypted.messageNumber maxJump)
  else .ok ()

def decryptSkipped (env : Env) (snap : DecryptSnapshot) (key : Bytes)
    (encrypted : EncryptedRatchetMessage) : Op RatchetError Session Bytes := do
  modify fun s => { s with
    dr := { s.dr with
      skippedMessageKeys := s.dr.skippedMessageKeys.remove
        (encrypted.dhPublicKey.toList, encrypted.messageNumber) } }
  let plaintext ← Op.inspectErr (decryptWithKey C env key encrypted) (restoreSnapshot snap)
  modify fun s => s.commitPqPostDecrypt C env encrypted
  return plaintext

/-- The DH step of a message with a new ratchet key: save the rest of the old chain, then
step. -/
def stepRatchet (env : Env) (snap : DecryptSnapshot) (encrypted : EncryptedRatchetMessage)
    (identitySecret : Option Bytes) : Op RatchetError Session Unit := do
  let s ← get
  match s.dr.remoteDhPublic with
  | none => pure ()
  | some oldRemoteDh =>
    skipMessageKeys C snap env.now oldRemoteDh
      (encrypted.previousChainLength.toNat - s.dr.receivingChainLength.toNat)
  Op.inspectErr (performDhRatchet C env encrypted.dhPublicKey.toList identitySecret)
    (restoreSnapshot snap)

/-- A message on the receiving chain, which may have been opened by the step just made. -/
def decryptLive (env : Env) (snap : DecryptSnapshot) (encrypted : EncryptedRatchetMessage)
    (stepped : Bool) : Op RatchetError Session Bytes := do
  let s ← get
  if encrypted.messageNumber < s.dr.receivingChainLength then
    modify (restoreSnapshot snap)
    let s ← get
    throw (.messageKeyConsumed encrypted.messageNumber s.dr.receivingChainLength)
  else
    let key ← deriveMessageKey C snap env.now encrypted.dhPublicKey.toList
      (encrypted.messageNumber.toNat - s.dr.receivingChainLength.toNat)
    let plaintext ← Op.inspectErr (decryptWithKey C env key encrypted) (restoreSnapshot snap)
    modify fun s => s.commitPqPostDecrypt C env encrypted
    if stepped then modify completeIdentityProof else pure ()
    return plaintext

def decryptMessage (env : Env) (encrypted : EncryptedRatchetMessage)
    (identitySecret : Option Bytes) : Op RatchetError Session Bytes := do
  modify fun s => s.cleanupIfDue env.now
  let s ← get
  let snap := s.snapshot
  match s.dr.skippedMessageKeys.get?
      (encrypted.dhPublicKey.toList, encrypted.messageNumber) with
  | some key => decryptSkipped C env snap key encrypted
  | none =>
    Op.ofExcept id (s.checkJumps encrypted)
    if s.needsRatchet encrypted then stepRatchet C env snap encrypted identitySecret
    else pure ()
    decryptLive C env snap encrypted (s.needsRatchet encrypted)

/-- `decrypt_with_identity_secret`: a decrypted message ends the first flight. -/
def decryptWithIdentitySecret (env : Env) (encrypted : EncryptedRatchetMessage)
    (identitySecret : Option Bytes) : Op RatchetError Session Bytes := do
  let plaintext ← decryptMessage C env encrypted identitySecret
  modify fun s => { s with prekeyHeader := none }
  return plaintext

def decrypt (env : Env) (encrypted : EncryptedRatchetMessage) :
    Op RatchetError Session Bytes :=
  decryptWithIdentitySecret C env encrypted none

end Session

/-- `new_responder_session`: the session and the first message's plaintext. -/
def newResponderSession (env : Env) (rootKey localIdentity : Bytes)
    (firstMessage : EncryptedRatchetMessage) (contactId localUserId : Bytes) :
    Except RatchetError (Session × Bytes) := do
  let session ← responderSession C env rootKey localIdentity firstMessage contactId localUserId
  match Session.decrypt C env firstMessage session with
  | .ok plaintext session => .ok (session, plaintext)
  | .error e _ => .error e

end ConstructCore
