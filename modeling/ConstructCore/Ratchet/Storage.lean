import ConstructCore.Ratchet.Messaging
import ConstructCore.Ratchet.PqInvariant

/-!
# Saving and loading a session

`toSerializable` and `fromSerializable` copy a session into the storage record and back;
`toCfeV1` and `fromCfeV1` translate the record into the CFE session state. The loader
checks the PQ half (`validatePqRatchetState`) and drops it when a check fails. A
well-formed PQ half passes every check (`validatePqRatchetState_serializePq`), so saving
and loading such a session gives it back less the skipped keys past their age
(`Session.saveLoad_eq`).

A record of the CFE layer that repeats a storage record field by field (skipped keys, the
handshake header, the PQ state and its parts) has one type here.
-/

namespace ConstructCore

open Bytes

/-! ## Records -/

structure SkippedKeyEntry where
  dhPublic : Bytes
  msgNumber : UInt32
  keyBytes : Bytes
  timestamp : Nat
deriving DecidableEq, Repr

structure SerializablePqSkippedKey where
  epoch : UInt32
  index : UInt32
  key : Bytes
  storedAt : Nat
deriving DecidableEq, Repr

structure SerializablePqPendingExchange where
  epoch : UInt32
  publicKey : Bytes
  secretKey : Bytes
deriving DecidableEq, Repr

structure SerializablePqPendingCiphertext where
  epoch : UInt32
  ekHash : Bytes
  ciphertext : Bytes
  chains : PqEpochChains
deriving DecidableEq, Repr

structure SerializablePqRatchetState where
  isInitiator : Bool
  currentEpoch : UInt32
  chains : List PqEpochChains
  skipped : List SerializablePqSkippedKey
  pendingExchange : Option SerializablePqPendingExchange
  pendingCiphertext : Option SerializablePqPendingCiphertext
  pendingSince : Nat
  epochSince : Nat
  turnsSinceMix : UInt32
deriving DecidableEq, Repr

/-- `SerializableSession`, without the two version-1 maps nothing reads. -/
structure SerializableSession where
  version : UInt16
  suiteId : UInt16
  rootKey : Bytes
  sendingChainKey : Bytes
  sendingChainLength : UInt32
  receivingChainKey : Bytes
  receivingChainLength : UInt32
  dhRatchetPrivate : Option Bytes
  dhRatchetPublic : Bytes
  remoteDhPublic : Option Bytes
  previousSendingLength : UInt32
  skippedKeys : List SkippedKeyEntry
  prekeyHeader : Option PrekeyHeader
  pqHandshake : Option UInt8
  sessionId : Bytes
  contactId : Bytes
  localUserId : Bytes
  lastRatchetAt : Nat
  peerAdVersion : UInt8
  pqAuthentication : UInt8
  pqApplied : Option Bool
  identityProofAwaiting : Bool
  identityProofCiphertext : Option Bytes
  pqRatchet : Option SerializablePqRatchetState
deriving DecidableEq, Repr

/-- `CfeSessionStateV1`, the fields of one session. -/
structure CfeSessionStateV1 where
  ver : UInt8
  suiteId : UInt8
  contactId : Bytes
  localUid : Bytes
  sessionId : Bytes
  rk : Bytes
  sck : Bytes
  rck : Bytes
  scl : UInt32
  rcl : UInt32
  psl : UInt32
  dhPriv : Option Bytes
  dhPub : Bytes
  rdhPub : Option Bytes
  skipped : List SkippedKeyEntry
  prekeyHeader : Option PrekeyHeader
  pqHandshake : Option UInt8
  lastRatchetAt : Nat
  peerAdVersion : UInt8
  pqAuthentication : UInt8
  pqApplied : Option Bool
  identityProofAwaiting : Bool
  identityProofCiphertext : Option Bytes
  pqr : Option SerializablePqRatchetState
deriving DecidableEq, Repr

/-! ## Refusals -/

/-- Why a persisted PQ state is dropped. -/
inductive PqStateError where
  | retention (count : Nat)
  | epochOutside (epoch current : UInt32)
  | chainKeyLength (epoch : UInt32) (length : Nat)
  | sendBehind (epoch current : UInt32)
  | duplicateEpoch (epoch : UInt32)
  | noSendChain (current : UInt32)
  | skippedBound (count : Nat)
  | skippedKeyLength (epoch index : UInt32) (length : Nat)
  | pendingExchangeEpoch (epoch current : UInt32)
  | pendingExchangeSizes (publicLength secretLength : Nat)
  | pendingCiphertextEpoch (epoch current : UInt32)
  | ekHashLength (length : Nat)
  | pendingCiphertextLength (length : Nat)
  | pendingChainsEpoch (epoch chainsEpoch : UInt32)
  | bothPending
deriving DecidableEq, Repr

/-- Why a session is not saved or loaded. -/
inductive StorageError where
  | unsupportedVersion (version : UInt16)
  | invalidSuiteId (suiteId : UInt16)
  | suiteIdRange (suiteId : UInt16)
  | sessionIdHex (sessionId : Bytes)
  | sessionIdLength (length : Nat)
  | stateVersion (ver : UInt8)
deriving DecidableEq, Repr

def hexErrorText (b : Bytes) : String :=
  if b.length % 2 = 1 then "Odd number of digits"
  else
    let i := b.findIdx fun c => (hexDecode [c, c]).isNone
    s!"Invalid character {Char.quote (Char.ofNat (b.getD i 0).toNat)} at position {i}"

def StorageError.text : StorageError → String
  | unsupportedVersion version =>
    s!"Unsupported session version: {version}. Expected 1 or 2."
  | invalidSuiteId suiteId =>
    s!"Invalid suite_id in serialized session: Invalid suite ID: {suiteId}" ++
      ". Supported: 1 (CLASSIC), 2 (PQ_HYBRID), 4 (PQ_RATCHET); 3 is retired"
  | suiteIdRange suiteId => s!"suite_id out of range: {suiteId}"
  | sessionIdHex sessionId => s!"invalid session_id hex: " ++ hexErrorText sessionId
  | sessionIdLength length => s!"invalid session_id length: expected 16, got {length}"
  | stateVersion ver =>
    s!"session state version {ver} is not supported (this core reads 1)"

/-! ## Validating a persisted PQ state -/

/-- Refuse with `e` when `c` holds. -/
def refuseIf {ε : Type} (c : Prop) [Decidable c] (e : ε) : Except ε Unit :=
  if c then .error e else .ok ()

def mlkem768PublicLen : Nat := 1184

def mlkem768SecretLen : Nat := 2400

def mlkem768CiphertextLen : Nat := 1088

def pqChainKeyLen : Nat := 32

def validatePqEpochChains (chains : PqEpochChains) : Except PqStateError Unit :=
  (chains.recv :: chains.send.toList).forM fun chain =>
    refuseIf (chain.key.length ≠ pqChainKeyLen) (.chainKeyLength chains.epoch chain.key.length)

/-- The loop over the epochs' chains; `seen` holds the epochs already met. -/
def validateChainList (current : UInt32) :
    List UInt32 → List PqEpochChains → Except PqStateError Unit
  | _, [] => .ok ()
  | seen, chains :: rest => do
      refuseIf (chains.epoch = 0 ∨ current < chains.epoch) (.epochOutside chains.epoch current)
      validatePqEpochChains chains
      refuseIf (chains.send.isSome ∧ chains.epoch ≠ current) (.sendBehind chains.epoch current)
      refuseIf (chains.epoch ∈ seen) (.duplicateEpoch chains.epoch)
      validateChainList current (chains.epoch :: seen) rest

def validatePendingExchange (current : UInt32) (ex : SerializablePqPendingExchange) :
    Except PqStateError Unit := do
  refuseIf (ex.epoch ≠ current.satAdd 1) (.pendingExchangeEpoch ex.epoch current)
  refuseIf (ex.publicKey.length ≠ mlkem768PublicLen ∨ ex.secretKey.length ≠ mlkem768SecretLen)
    (.pendingExchangeSizes ex.publicKey.length ex.secretKey.length)

def validatePendingCiphertext (current : UInt32) (ct : SerializablePqPendingCiphertext) :
    Except PqStateError Unit := do
  refuseIf (ct.epoch ≤ current) (.pendingCiphertextEpoch ct.epoch current)
  refuseIf (ct.ekHash.length ≠ 8) (.ekHashLength ct.ekHash.length)
  refuseIf (ct.ciphertext.length ≠ mlkem768CiphertextLen)
    (.pendingCiphertextLength ct.ciphertext.length)
  refuseIf (ct.chains.epoch ≠ ct.epoch) (.pendingChainsEpoch ct.epoch ct.chains.epoch)
  validatePqEpochChains ct.chains

/-- The check on the lengths of the skipped keys; the first bad one is named. -/
def validateSkippedKeys (skipped : List SerializablePqSkippedKey) : Except PqStateError Unit :=
  match skipped.find? fun s => s.key.length != pqChainKeyLen with
  | some bad => .error (.skippedKeyLength bad.epoch bad.index bad.key.length)
  | none => .ok ()

def validatePqRatchetState (pq : SerializablePqRatchetState) : Except PqStateError Unit := do
  refuseIf (pqChainRetention < pq.chains.length) (.retention pq.chains.length)
  validateChainList pq.currentEpoch [] pq.chains
  refuseIf (0 < pq.currentEpoch ∧
      ¬ pq.chains.any fun c => c.epoch == pq.currentEpoch && c.send.isSome)
    (.noSendChain pq.currentEpoch)
  refuseIf (Config.global.maxSkippedMessages < pq.skipped.length)
    (.skippedBound pq.skipped.length)
  validateSkippedKeys pq.skipped
  pq.pendingExchange.forM (validatePendingExchange pq.currentEpoch)
  pq.pendingCiphertext.forM (validatePendingCiphertext pq.currentEpoch)
  refuseIf (pq.pendingExchange.isSome ∧ pq.pendingCiphertext.isSome) .bothPending

/-! ## The storage record -/

namespace Session

/-- The PQ half of `to_serializable`. -/
def serializePq (pq : PqRatchet) : SerializablePqRatchetState where
  isInitiator := pq.isPqInitiator
  currentEpoch := pq.currentPqEpoch
  chains := pq.pqChains
  skipped := pq.pqSkippedKeys.entries.map fun e =>
    { epoch := e.1.1, index := e.1.2, key := e.2.1, storedAt := e.2.2 }
  pendingExchange := pq.pendingPqExchange.map fun ex =>
    { epoch := ex.epoch, publicKey := ex.keypair.publicKey, secretKey := ex.keypair.secretKey }
  pendingCiphertext := pq.pendingPqCiphertext.map fun p =>
    { epoch := p.epoch, ekHash := p.ekHash.toList, ciphertext := p.ciphertext,
      chains := p.chains }
  pendingSince := pq.pqPendingSince
  epochSince := pq.pqEpochSince
  turnsSinceMix := pq.pqTurnsSinceMix

def toSerializable (s : Session) : SerializableSession where
  version := 2
  suiteId := s.suiteId.asU16
  rootKey := s.dr.rootKey
  sendingChainKey := s.dr.sendingChainKey
  sendingChainLength := s.dr.sendingChainLength
  receivingChainKey := s.dr.receivingChainKey
  receivingChainLength := s.dr.receivingChainLength
  dhRatchetPrivate := s.dr.dhRatchetPrivate
  dhRatchetPublic := s.dr.dhRatchetPublic
  remoteDhPublic := s.dr.remoteDhPublic
  previousSendingLength := s.dr.previousSendingLength
  skippedKeys := s.dr.skippedMessageKeys.entries.map fun e =>
    { dhPublic := e.1.1, msgNumber := e.1.2, keyBytes := e.2.1, timestamp := e.2.2 }
  prekeyHeader := s.prekeyHeader
  pqHandshake := some s.pqHandshake.asU8
  sessionId := s.sessionId
  contactId := s.contactId
  localUserId := s.localUserId
  lastRatchetAt := s.lastRatchetAt
  peerAdVersion := s.peerAdVersion
  pqAuthentication := s.pqAuthentication.asU8
  pqApplied := s.pqApplied
  identityProofAwaiting := s.identityProof == .awaitingAnswer
  identityProofCiphertext := s.outgoingIdentityProof
  pqRatchet := if s.suiteId.isPqRatchet then some (serializePq s.pq) else none

/-- The PQ half a loaded session has before its own is restored, and keeps when the
record has none or an invalid one. -/
def resetPq : PqRatchet := .initial false 0

/-- `restore_pq_ratchet_state`: a record that fails the checks is dropped with a warning
and leaves the reset state. -/
def restorePqRatchetState (s : Session) (data : SerializableSession) : Session :=
  if !s.suiteId.isPqRatchet then s
  else match data.pqRatchet with
    | none => s
    | some pq => match validatePqRatchetState pq with
      | .error _ => s
      | .ok () =>
        { s with
          pq :=
            { pqTurnsSinceMix := pq.turnsSinceMix
              isPqInitiator := pq.isInitiator
              currentPqEpoch := pq.currentEpoch
              pqChains := pq.chains
              pqSkippedKeys := s.pq.pqSkippedKeys.insertAll
                (pq.skipped.map fun e => ((e.epoch, e.index), e.key, e.storedAt))
              pendingPqExchange := pq.pendingExchange.map fun ex =>
                { epoch := ex.epoch
                  keypair := { publicKey := ex.publicKey, secretKey := ex.secretKey } }
              pendingPqCiphertext := pq.pendingCiphertext.map fun p =>
                { epoch := p.epoch
                  ekHash := (toVector? 8 p.ekHash).getD (Vector.replicate 8 0)
                  ciphertext := p.ciphertext
                  chains := p.chains }
              pqPendingSince := pq.pendingSince
              pqEpochSince := pq.epochSince } }

/-- The identity proof a record holds: a ciphertext wins over the awaiting mark. -/
def restoreIdentityProof (ciphertext : Option Bytes) (awaiting : Bool) : IdentityProof :=
  match ciphertext, awaiting with
  | some ciphertext, _ => .answered ciphertext
  | none, true => .awaitingAnswer
  | none, false => .none

/-- `from_serializable`: what is too old at `now` is evicted on load. -/
def fromSerializable (now : Nat) (data : SerializableSession) : Except StorageError Session :=
  do
    refuseIf (data.version ≠ 1 ∧ data.version ≠ 2) (.unsupportedVersion data.version)
    let suiteId ← (SuiteID.new data.suiteId).okOr (.invalidSuiteId data.suiteId)
    let session : Session :=
      { suiteId
        dr :=
          { rootKey := data.rootKey
            sendingChainKey := data.sendingChainKey
            sendingChainLength := data.sendingChainLength
            receivingChainKey := data.receivingChainKey
            receivingChainLength := data.receivingChainLength
            dhRatchetPrivate := data.dhRatchetPrivate
            dhRatchetPublic := data.dhRatchetPublic
            remoteDhPublic := data.remoteDhPublic
            previousSendingLength := data.previousSendingLength
            skippedMessageKeys := AgedStore.empty.insertAll
              (data.skippedKeys.map fun e =>
                ((e.dhPublic, e.msgNumber), e.keyBytes, e.timestamp)) }
        pq := resetPq
        prekeyHeader := data.prekeyHeader
        pqHandshake := (data.pqHandshake.map PqHandshake.fromU8).getD
          (PqHandshake.legacy data.pqApplied)
        sessionId := data.sessionId
        contactId := data.contactId
        localUserId := data.localUserId
        lastRatchetAt := data.lastRatchetAt
        peerAdVersion := max data.peerAdVersion adVersionLegacy
        pqAuthentication := PqAuthentication.fromU8 data.pqAuthentication
        pqApplied := data.pqApplied
        identityProof := restoreIdentityProof data.identityProofCiphertext
          data.identityProofAwaiting }
    return (session.restorePqRatchetState data).cleanupOldSkippedKeysDefault now

end Session

/-! ## The CFE record -/

namespace SerializableSession

/-- The record `to_cfe_v1` writes, around the raw session id. -/
def cfeState (data : SerializableSession) (sessionIdRaw : Bytes) : CfeSessionStateV1 where
  ver := 1
  suiteId := data.suiteId.toUInt8
  contactId := data.contactId
  localUid := data.localUserId
  sessionId := sessionIdRaw
  rk := data.rootKey
  sck := data.sendingChainKey
  rck := data.receivingChainKey
  scl := data.sendingChainLength
  rcl := data.receivingChainLength
  psl := data.previousSendingLength
  dhPriv := data.dhRatchetPrivate
  dhPub := data.dhRatchetPublic
  rdhPub := data.remoteDhPublic
  skipped := data.skippedKeys
  prekeyHeader := data.prekeyHeader
  pqHandshake := data.pqHandshake
  lastRatchetAt := data.lastRatchetAt
  peerAdVersion := data.peerAdVersion
  pqAuthentication := data.pqAuthentication
  pqApplied := data.pqApplied
  identityProofAwaiting := data.identityProofAwaiting
  identityProofCiphertext := data.identityProofCiphertext
  pqr := data.pqRatchet

def toCfeV1 (data : SerializableSession) : Except StorageError CfeSessionStateV1 := do
  refuseIf (255 < data.suiteId) (.suiteIdRange data.suiteId)
  let sessionIdRaw ← (hexDecode data.sessionId).okOr (.sessionIdHex data.sessionId)
  refuseIf (sessionIdRaw.length ≠ 16) (.sessionIdLength sessionIdRaw.length)
  return data.cfeState sessionIdRaw

def fromCfeV1 (data : CfeSessionStateV1) : Except StorageError SerializableSession := do
  refuseIf (data.ver ≠ 1) (.stateVersion data.ver)
  return {
    version := 2
    suiteId := data.suiteId.toUInt16
    rootKey := data.rk
    sendingChainKey := data.sck
    sendingChainLength := data.scl
    receivingChainKey := data.rck
    receivingChainLength := data.rcl
    dhRatchetPrivate := data.dhPriv
    dhRatchetPublic := data.dhPub
    remoteDhPublic := data.rdhPub
    previousSendingLength := data.psl
    skippedKeys := data.skipped
    prekeyHeader := data.prekeyHeader
    pqHandshake := data.pqHandshake
    sessionId := hexEncode data.sessionId
    contactId := data.contactId
    localUserId := data.localUid
    lastRatchetAt := data.lastRatchetAt
    peerAdVersion := data.peerAdVersion
    pqAuthentication := data.pqAuthentication
    pqApplied := data.pqApplied
    identityProofAwaiting := data.identityProofAwaiting
    identityProofCiphertext := data.identityProofCiphertext
    pqRatchet := data.pqr }

end SerializableSession

/-- Save a session in the CFE record and load it again at `now`. -/
def Session.saveLoad (now : Nat) (s : Session) : Except StorageError Session := do
  let cfe ← s.toSerializable.toCfeV1
  let data ← SerializableSession.fromCfeV1 cfe
  fromSerializable now data

/-! ## A well-formed state passes the checks -/

variable {ε α : Type} {c : Prop} {pq : PqRatchet}

theorem refuseIf_eq_ok [Decidable c] {e : ε} :
    refuseIf c e = .ok () ↔ ¬ c := by
  unfold refuseIf
  split
  · rename_i hc
    simp [hc]
  · rename_i hc
    simp [hc]

theorem bind_of_eq_ok {x : Except ε Unit} (hx : x = .ok ()) (f : Unit → Except ε α) :
    (x >>= f) = f () := by
  rw [hx]
  rfl

theorem refuseIf_bind [Decidable c] {e : ε} (hc : ¬ c) (f : Unit → Except ε α) :
    (refuseIf c e >>= f) = f () :=
  bind_of_eq_ok (refuseIf_eq_ok.mpr hc) f

theorem validatePqEpochChains_eq_ok {chains : PqEpochChains} (h : chains.KeysSized) :
    validatePqEpochChains chains = .ok () := by
  refine (refuseIf_bind (fun hne => hne h.recv) _).trans ?_
  cases hs : chains.send with
  | none => rfl
  | some chain => exact refuseIf_bind (fun hne => hne (h.send chain hs)) _

theorem validateChainList_eq_ok {current : UInt32} {l : List PqEpochChains}
    (hordered : PqRatchet.Ordered l) (hepochs : ∀ c ∈ l, 0 < c.epoch ∧ c.epoch ≤ current)
    (hkeys : ∀ c ∈ l, c.KeysSized) (hsend : ∀ c ∈ l, c.send.isSome → c.epoch = current)
    {seen : List UInt32} (hseen : ∀ e ∈ seen, ∀ c ∈ l, e < c.epoch) :
    validateChainList current seen l = .ok () := by
  induction l generalizing seen with
  | nil => rfl
  | cons c l ih =>
    obtain ⟨hlt, htail⟩ := List.pairwise_cons.mp hordered
    have hc := List.mem_cons_self (a := c) (l := l)
    have houtside : ¬ (c.epoch = 0 ∨ current < c.epoch) := by
      rintro (hzero | hpast)
      · exact (UInt32.ne_of_lt (hepochs c hc).1) hzero.symm
      · exact UInt32.not_le.mpr hpast (hepochs c hc).2
    have hbehind : ¬ (c.send.isSome ∧ c.epoch ≠ current) := fun h => h.2 (hsend c hc h.1)
    have hdup : c.epoch ∉ seen := fun h => UInt32.lt_irrefl _ (hseen _ h c hc)
    refine (refuseIf_bind houtside _).trans ?_
    refine (bind_of_eq_ok (validatePqEpochChains_eq_ok (hkeys c hc)) _).trans ?_
    refine (refuseIf_bind hbehind _).trans ?_
    refine (refuseIf_bind hdup _).trans ?_
    refine ih htail (fun d hd => hepochs d (List.mem_cons_of_mem _ hd))
      (fun d hd => hkeys d (List.mem_cons_of_mem _ hd))
      (fun d hd => hsend d (List.mem_cons_of_mem _ hd)) ?_
    intro e he d hd
    rcases List.mem_cons.mp he with rfl | hmem
    · exact hlt d hd
    · exact hseen e hmem d (List.mem_cons_of_mem _ hd)

theorem validatePendingExchange_eq_ok (h : pq.WellFormed) {ex : PendingPqExchange}
    (hex : pq.pendingPqExchange = some ex) :
    validatePendingExchange pq.currentPqEpoch
      { epoch := ex.epoch, publicKey := ex.keypair.publicKey,
        secretKey := ex.keypair.secretKey } = .ok () := by
  obtain ⟨-, hepoch, hpk, hsk⟩ := h.exchange ex hex
  refine (refuseIf_bind (fun hne => hne hepoch) _).trans ?_
  refine refuseIf_eq_ok.mpr ?_
  rintro (hne | hne)
  · exact hne hpk
  · exact hne hsk

theorem validatePendingCiphertext_eq_ok (h : pq.WellFormed) {p : PendingPqCiphertext}
    (hp : pq.pendingPqCiphertext = some p) :
    validatePendingCiphertext pq.currentPqEpoch
      { epoch := p.epoch, ekHash := p.ekHash.toList, ciphertext := p.ciphertext,
        chains := p.chains } = .ok () := by
  obtain ⟨-, hahead, hct, hepoch, hkeys, -⟩ := h.ciphertext p hp
  refine (refuseIf_bind (UInt32.not_le.mpr hahead) _).trans ?_
  refine (refuseIf_bind (fun hne => hne Vector.length_toList) _).trans ?_
  refine (refuseIf_bind (fun hne => hne hct) _).trans ?_
  refine (refuseIf_bind (fun hne => hne hepoch) _).trans ?_
  exact validatePqEpochChains_eq_ok hkeys

theorem validatePqRatchetState_serializePq (h : pq.WellFormed) :
    validatePqRatchetState (Session.serializePq pq) = .ok () := by
  have hchains : validateChainList pq.currentPqEpoch [] pq.pqChains = .ok () :=
    validateChainList_eq_ok h.ordered h.epochs h.keys h.onlyCurrentSends (by simp)
  have hcurrent : ¬ (0 < pq.currentPqEpoch ∧
      ¬ (pq.pqChains.any fun c => c.epoch == pq.currentPqEpoch && c.send.isSome)) := by
    rintro ⟨hpos, hnone⟩
    obtain ⟨c, hc, hcur, hs⟩ := h.currentSends hpos
    exact hnone (List.any_eq_true.mpr ⟨c, hc, by simp [hcur, hs]⟩)
  have hbound : ¬ Config.global.maxSkippedMessages < (Session.serializePq pq).skipped.length := by
    show ¬ _ < (pq.pqSkippedKeys.entries.map _).length
    rw [List.length_map, AgedStore.length_entries]
    exact Nat.not_lt.mpr h.skippedBound
  have hskipped : validateSkippedKeys (Session.serializePq pq).skipped = .ok () := by
    unfold validateSkippedKeys
    rw [List.find?_eq_none.mpr]
    intro e he
    obtain ⟨⟨k, key, storedAt⟩, hmem, rfl⟩ := List.mem_map.mp he
    have hlen := h.skippedKeys k key (AgedStore.mem_entries.mp hmem).1
    simp [hlen, pqChainKeyLen]
  have hboth : ¬ ((Session.serializePq pq).pendingExchange.isSome ∧
      (Session.serializePq pq).pendingCiphertext.isSome) := by
    rintro ⟨hex, hct⟩
    obtain ⟨e, he⟩ := Option.isSome_iff_exists.mp hex
    obtain ⟨c, hc⟩ := Option.isSome_iff_exists.mp hct
    obtain ⟨ex, hex, -⟩ := Option.map_eq_some_iff.mp he
    obtain ⟨p, hp, -⟩ := Option.map_eq_some_iff.mp hc
    exact absurd ((h.exchange ex hex).1.symm.trans (h.ciphertext p hp).1) (by decide)
  have hexchange : (Session.serializePq pq).pendingExchange.forM
      (validatePendingExchange pq.currentPqEpoch) = .ok () := by
    unfold Session.serializePq
    cases hex : pq.pendingPqExchange with
    | none => rfl
    | some ex => exact validatePendingExchange_eq_ok h hex
  have hciphertext : (Session.serializePq pq).pendingCiphertext.forM
      (validatePendingCiphertext pq.currentPqEpoch) = .ok () := by
    unfold Session.serializePq
    cases hp : pq.pendingPqCiphertext with
    | none => rfl
    | some p => exact validatePendingCiphertext_eq_ok h hp
  refine (refuseIf_bind (Nat.not_lt.mpr h.retention) _).trans ?_
  refine (bind_of_eq_ok hchains _).trans ?_
  refine (refuseIf_bind hcurrent _).trans ?_
  refine (refuseIf_bind hbound _).trans ?_
  refine (bind_of_eq_ok hskipped _).trans ?_
  refine (bind_of_eq_ok hexchange _).trans ?_
  refine (bind_of_eq_ok hciphertext _).trans ?_
  exact refuseIf_eq_ok.mpr hboth

/-! ## The round trip -/

namespace Session

theorem restoreIdentityProof_of_session (s : Session) :
    restoreIdentityProof s.outgoingIdentityProof (s.identityProof == .awaitingAnswer) =
      s.identityProof := by
  unfold outgoingIdentityProof
  cases s.identityProof <;> rfl

theorem insertAll_skippedKeys (s : Session) :
    AgedStore.empty.insertAll (s.toSerializable.skippedKeys.map fun e =>
      ((e.dhPublic, e.msgNumber), e.keyBytes, e.timestamp)) = s.dr.skippedMessageKeys := by
  have hmap : (s.toSerializable.skippedKeys.map fun e =>
      ((e.dhPublic, e.msgNumber), e.keyBytes, e.timestamp)) =
      s.dr.skippedMessageKeys.entries := by
    unfold toSerializable
    rw [List.map_map]
    exact List.map_id _
  rw [hmap, AgedStore.insertAll_entries]

/-- Before its PQ half is restored, the loaded session is the saved one with the PQ half
reset. -/
theorem fromSerializable_eq (now : Nat) (s : Session) :
    fromSerializable now s.toSerializable = .ok
      ((restorePqRatchetState
        { s with pq := resetPq, peerAdVersion := max s.peerAdVersion adVersionLegacy }
        s.toSerializable).cleanupOldSkippedKeysDefault now) := by
  unfold fromSerializable
  refine (refuseIf_bind (fun h => h.2 rfl) _).trans ?_
  rw [show s.toSerializable.suiteId = s.suiteId.asU16 from rfl, SuiteID.new_asU16]
  show Except.ok _ = Except.ok _
  rw [insertAll_skippedKeys,
    show (s.toSerializable.pqHandshake.map PqHandshake.fromU8).getD
      (PqHandshake.legacy s.toSerializable.pqApplied) = PqHandshake.fromU8 s.pqHandshake.asU8
      from rfl,
    PqHandshake.fromU8_asU8,
    show PqAuthentication.fromU8 s.toSerializable.pqAuthentication =
      PqAuthentication.fromU8 s.pqAuthentication.asU8 from rfl,
    PqAuthentication.fromU8_asU8,
    show restoreIdentityProof s.toSerializable.identityProofCiphertext
      s.toSerializable.identityProofAwaiting =
      restoreIdentityProof s.outgoingIdentityProof (s.identityProof == .awaitingAnswer) from rfl,
    restoreIdentityProof_of_session]
  rfl

variable {s t : Session} {raw : Bytes} {now : Nat}

theorem restorePqRatchetState_eq (hsuite : s.suiteId = .pqRatchet) (hwf : s.pq.WellFormed)
    (ht : t.suiteId = .pqRatchet) (hreset : t.pq = resetPq) :
    t.restorePqRatchetState s.toSerializable = { t with pq := s.pq } := by
  have hdata : s.toSerializable.pqRatchet = some (serializePq s.pq) := by
    show (if s.suiteId.isPqRatchet then some (serializePq s.pq) else none) = _
    rw [hsuite]
    rfl
  have hskipped : t.pq.pqSkippedKeys.insertAll ((serializePq s.pq).skipped.map fun e =>
      ((e.epoch, e.index), e.key, e.storedAt)) = s.pq.pqSkippedKeys := by
    have hmap : ((serializePq s.pq).skipped.map fun e => ((e.epoch, e.index), e.key, e.storedAt)) =
        s.pq.pqSkippedKeys.entries := by
      unfold serializePq
      rw [List.map_map]
      exact List.map_id _
    rw [hmap, hreset]
    exact AgedStore.insertAll_entries _
  have hexchange : ((serializePq s.pq).pendingExchange.map fun ex =>
      ({ epoch := ex.epoch,
         keypair := { publicKey := ex.publicKey, secretKey := ex.secretKey } } :
        PendingPqExchange)) = s.pq.pendingPqExchange := by
    unfold serializePq
    cases s.pq.pendingPqExchange <;> rfl
  have hciphertext : ((serializePq s.pq).pendingCiphertext.map fun p =>
      ({ epoch := p.epoch, ekHash := (toVector? 8 p.ekHash).getD (Vector.replicate 8 0),
         ciphertext := p.ciphertext, chains := p.chains } : PendingPqCiphertext)) =
      s.pq.pendingPqCiphertext := by
    unfold serializePq
    cases s.pq.pendingPqCiphertext with
    | none => rfl
    | some p =>
      simp only [Option.map_some]
      rw [toVector?_eq_some.mpr rfl]
      rfl
  unfold restorePqRatchetState
  rw [ht, if_neg (by decide), hdata]
  dsimp only
  rw [validatePqRatchetState_serializePq hwf]
  dsimp only
  rw [hskipped, hexchange, hciphertext]
  rfl

/-- A well-formed suite-4 session is loaded as it was saved, less what is too old. -/
theorem fromSerializable_toSerializable (now : Nat) (hsuite : s.suiteId = .pqRatchet)
    (hwf : s.pq.WellFormed) (hadv : adVersionLegacy ≤ s.peerAdVersion) :
    fromSerializable now s.toSerializable = .ok (s.cleanupOldSkippedKeysDefault now) := by
  have hmax : max s.peerAdVersion adVersionLegacy = s.peerAdVersion := by
    show (if s.peerAdVersion ≤ adVersionLegacy then adVersionLegacy else s.peerAdVersion) = _
    split
    · rename_i hle
      exact UInt8.le_antisymm hadv hle
    · rfl
  have hrestore := restorePqRatchetState_eq (t := { s with
    pq := resetPq, peerAdVersion := max s.peerAdVersion adVersionLegacy }) hsuite hwf hsuite rfl
  rw [fromSerializable_eq, hrestore, hmax]

/-- The CFE record gives the storage record back when the session id is the hex text of 16
bytes. -/
theorem fromCfeV1_toCfeV1 (hid : s.sessionId = hexEncode raw) (hraw : raw.length = 16) :
    ∃ cfe, s.toSerializable.toCfeV1 = .ok cfe ∧
      SerializableSession.fromCfeV1 cfe = .ok s.toSerializable := by
  have hsuite : ¬ 255 < s.toSerializable.suiteId := by
    show ¬ 255 < s.suiteId.asU16
    cases s.suiteId <;> decide
  have hback : s.toSerializable.suiteId.toUInt8.toUInt16 = s.toSerializable.suiteId := by
    show s.suiteId.asU16.toUInt8.toUInt16 = s.suiteId.asU16
    cases s.suiteId <;> rfl
  have hdecode : hexDecode s.toSerializable.sessionId = some raw := by
    show hexDecode s.sessionId = _
    rw [hid, hexDecode_hexEncode]
  refine ⟨s.toSerializable.cfeState raw, ?_, ?_⟩
  · unfold SerializableSession.toCfeV1
    refine (refuseIf_bind hsuite _).trans ?_
    rw [hdecode]
    exact refuseIf_bind (fun h => h hraw) _
  · refine (refuseIf_bind (fun h => h rfl) _).trans ?_
    show Except.ok _ = Except.ok _
    have hhex : hexEncode (s.toSerializable.cfeState raw).sessionId = s.sessionId := hid.symm
    have hsuite' : (s.toSerializable.cfeState raw).suiteId.toUInt16 = s.toSerializable.suiteId :=
      hback
    rw [hhex, hsuite']
    rfl

/-- Saving and loading a well-formed suite-4 session gives it back, less the skipped keys
past their maximum age. -/
theorem saveLoad_eq (now : Nat) (hsuite : s.suiteId = .pqRatchet) (hwf : s.pq.WellFormed)
    (hadv : adVersionLegacy ≤ s.peerAdVersion) (hid : s.sessionId = hexEncode raw)
    (hraw : raw.length = 16) :
    s.saveLoad now = .ok (s.cleanupOldSkippedKeysDefault now) := by
  obtain ⟨cfe, hto, hfrom⟩ := fromCfeV1_toCfeV1 hid hraw
  unfold saveLoad
  rw [hto]
  show (SerializableSession.fromCfeV1 cfe >>= _) = _
  rw [hfrom]
  exact fromSerializable_toSerializable now hsuite hwf hadv

/-! ## Loading in general -/

/-- The session id a load gives back: the saved one, or its lower-case hex. -/
def SameSessionId (s : Session) (sid : Bytes) : Prop :=
  sid = s.sessionId ∨ ∃ raw, hexDecode s.sessionId = some raw ∧ raw.length = 16 ∧
    sid = hexEncode raw

/-- What a load does to a session, whatever its suite: it may reset the PQ half, but not
one that is well formed. -/
def LoadFrame (now : Nat) (s t : Session) : Prop :=
  ∃ pq sid, SameSessionId s sid ∧ (s.suiteId = .pqRatchet → s.pq.WellFormed → pq = s.pq) ∧
    t = cleanupOldSkippedKeysDefault { s with
      pq := pq
      sessionId := sid
      peerAdVersion := max s.peerAdVersion adVersionLegacy } now

theorem SameSessionId.hexDecode_eq {sid : Bytes} (h : SameSessionId s sid) :
    hexDecode sid = hexDecode s.sessionId := by
  rcases h with rfl | ⟨raw, hraw, -, rfl⟩
  · rfl
  · rw [hexDecode_hexEncode, hraw]

theorem restorePqRatchetState_frame (s : Session) (data : SerializableSession) :
    ∃ pq, s.restorePqRatchetState data = { s with pq := pq } := by
  unfold restorePqRatchetState
  split
  · exact ⟨_, rfl⟩
  · split
    · exact ⟨_, rfl⟩
    · split
      · exact ⟨_, rfl⟩
      · exact ⟨_, rfl⟩

theorem loadFrame_of_fromSerializable (h : fromSerializable now s.toSerializable = .ok t) :
    LoadFrame now s t := by
  rw [fromSerializable_eq] at h
  obtain ⟨pq, hpq⟩ := restorePqRatchetState_frame
    { s with pq := resetPq, peerAdVersion := max s.peerAdVersion adVersionLegacy }
    s.toSerializable
  refine ⟨pq, s.sessionId, .inl rfl, ?_, ?_⟩
  · intro hsuite hwf
    have hrestore := restorePqRatchetState_eq (t := { s with
      pq := resetPq, peerAdVersion := max s.peerAdVersion adVersionLegacy }) hsuite hwf hsuite rfl
    rw [hpq] at hrestore
    exact congrArg Session.pq hrestore
  · rw [hpq] at h
    exact (Except.ok.inj h).symm

theorem loadFrame_of_saveLoad (h : s.saveLoad now = .ok t) :
    LoadFrame now s t := by
  unfold saveLoad at h
  obtain ⟨cfe, hcfe, h⟩ := Except.exists_of_bind_ok h
  obtain ⟨data, hdata, h⟩ := Except.exists_of_bind_ok h
  unfold SerializableSession.toCfeV1 at hcfe
  obtain ⟨-, -, hcfe⟩ := Except.exists_of_bind_ok hcfe
  obtain ⟨raw, hraw, hcfe⟩ := Except.exists_of_bind_ok hcfe
  obtain ⟨_, hlen, hcfe⟩ := Except.exists_of_bind_ok hcfe
  have hraw := Option.okOr_eq_ok.mp hraw
  have hlen : raw.length = 16 := Decidable.not_not.mp (refuseIf_eq_ok.mp hlen)
  -- loading the record is loading the session under the id written back in lower case
  obtain ⟨cfe', hcfe', hdata'⟩ := fromCfeV1_toCfeV1 (s := { s with sessionId := hexEncode raw })
    rfl hlen
  have hsame : cfe' = cfe := by
    unfold SerializableSession.toCfeV1 at hcfe'
    obtain ⟨-, -, hcfe'⟩ := Except.exists_of_bind_ok hcfe'
    obtain ⟨raw', hraw', hcfe'⟩ := Except.exists_of_bind_ok hcfe'
    obtain ⟨-, -, hcfe'⟩ := Except.exists_of_bind_ok hcfe'
    have hraw' : hexDecode (hexEncode raw) = some raw' := Option.okOr_eq_ok.mp hraw'
    rw [hexDecode_hexEncode] at hraw'
    obtain rfl := Option.some.inj hraw'
    exact (Except.ok.inj hcfe').symm.trans (Except.ok.inj hcfe)
  subst hsame
  obtain rfl : _ = data := Except.ok.inj (hdata'.symm.trans hdata)
  obtain ⟨pq, sid, hsid, hwf, rfl⟩ := loadFrame_of_fromSerializable h
  refine ⟨pq, sid, ?_, hwf, rfl⟩
  rcases hsid with rfl | ⟨raw', hraw', hlen', rfl⟩
  · exact .inr ⟨raw, hraw, hlen, rfl⟩
  · refine .inr ⟨raw', ?_, hlen', rfl⟩
    have hraw' : hexDecode (hexEncode raw) = some raw' := hraw'
    rw [hexDecode_hexEncode] at hraw'
    exact Eq.trans hraw hraw'

end Session

end ConstructCore
