import ConstructCore.Lib.Reader
import ConstructCore.Ratchet.State

/-!
# The wire payload

`wire_payload.rs`: the little-endian frame a message travels in. `unpack` walks the data with
a cursor; here the cursor is what is left of the data, and `total` is the length of the whole,
which the errors report.

| bytes | field |
|---|---|
| 4 | message number |
| 32 | DH public key |
| 4 | one-time prekey id |
| 4 | Kyber prekey id |
| 2 | length of the KEM ciphertext |
| 4 | previous chain length |
| 2 | suite, with the wire's flags |
| n | KEM ciphertext |
| 2 + 1568 | KEM identity key, with its flag |
| 2 + 1568 | identity proof, with its flag |
| n | PQ section, suite 4 only |
| rest | sealed box |
-/

namespace ConstructCore

open Bytes

namespace Wire

def dhKeySize : Nat := 32

def headerSize : Nat := 4 + dhKeySize + 4 + 4 + 2 + 4 + 2

/-- `PQXDH_V2_FLAG`: the message carries a KEM ciphertext. -/
def pqxdhV2Flag : UInt16 := 0x0100

/-- `KEM_IDENTITY_FLAG`: the initiator's KEM identity key follows. -/
def kemIdentityFlag : UInt16 := 0x0200

/-- `IDENTITY_PROOF_FLAG`: the responder's answer to it follows. -/
def identityProofFlag : UInt16 := 0x0400

/-- `AD_V4_FLAG`: the sealed box was authenticated with the whole header. -/
def adV4Flag : UInt16 := 0x0800

def wireFlags : UInt16 := pqxdhV2Flag ||| kemIdentityFlag ||| identityProofFlag ||| adV4Flag

def kemIdentityObjectSize : Nat := 1568

/-- `u16::MAX`. -/
def u16Max : Nat := 65535

def pqRatchetSuite : UInt16 := SuiteID.pqRatchet.asU16

def retiredPqRatchetV1 : UInt16 := 3

inductive WirePayloadError where
  | invalidDhPublicKey (size : Nat)
  | kemTooLarge (size : Nat)
  | pqFieldTooLarge (size : Nat)
  | invalidPqFieldType (type : UInt8)
  | tooShort (size : Nat)
  | pqxdhFlagWithoutCiphertext
  | kemIdentityWithoutHandshake
  | kemIdentityObjectSize (size : Nat)
  | retiredSuite (suite : UInt16)
  | pqKeyIndexWithoutEpoch (index : UInt32)
  | nonCanonicalKeyIndex
deriving DecidableEq, Repr

/-- The `Display` text of a `WirePayloadError`. -/
def WirePayloadError.text : WirePayloadError → String
  | .invalidDhPublicKey n => s!"DH public key must be 32 bytes, got {n}"
  | .kemTooLarge n => s!"KEM ciphertext too large: {n} bytes (max 65535)"
  | .pqFieldTooLarge n => s!"PQ ratchet field too large: {n} bytes (max 65535)"
  | .invalidPqFieldType t => s!"Invalid PQ ratchet field type: {t}"
  | .tooShort n => s!"Payload too short: {n} bytes"
  | .pqxdhFlagWithoutCiphertext => "PQXDH v2 flag set without a KEM ciphertext"
  | .kemIdentityWithoutHandshake => "a KEM identity key outside a handshake header"
  | .kemIdentityObjectSize n => s!"KEM identity key or answer of {n} bytes (expected 1568)"
  | .retiredSuite n =>
    s!"suite {n} is retired: this build reads only the per-message PQ ratchet (suite 4)"
  | .pqKeyIndexWithoutEpoch n => s!"PQ key index {n} on a message with no PQ epoch"
  | .nonCanonicalKeyIndex => "PQ key index is not minimal LEB128"

/-- The arguments of `pack_message`, which are the fields `unpack` gives back. -/
structure WireFields where
  adVersion : UInt8
  dhPublicKey : Bytes
  messageNumber : UInt32
  oneTimePrekeyId : UInt32
  kyberOtpkId : UInt32
  previousChainLength : UInt32
  suiteId : UInt16
  kemCiphertext : Option Bytes
  kemIdentity : Option Bytes
  identityProofCiphertext : Option Bytes
  sealedBox : Bytes
  pqMessageEpoch : UInt32
  pqKeyIndex : UInt32
  pqRatchetField : Option PqRatchetWireField
deriving DecidableEq, Repr

structure DecodedWirePayload extends WireFields where
  /-- The wire's suite carried `PQXDH_V2_FLAG`. -/
  pqxdhV2 : Bool
deriving DecidableEq, Repr

/-! ## LEB128 -/

theorem shiftRight_seven_lt {value : UInt32} (h : ¬ value >>> 7 = 0) :
    (value >>> 7).toNat < value.toNat := by
  have hshift : (value >>> 7).toNat = value.toNat / 128 := by
    rw [UInt32.toNat_shiftRight]
    exact Nat.shiftRight_eq_div_pow _ _
  have hpos : (value >>> 7).toNat ≠ 0 := fun hzero => h (UInt32.toNat_inj.mp hzero)
  omega

/-- `write_leb128`: seven bits a byte, low first, the high bit says that more follow. -/
def writeLeb128 (value : UInt32) : Bytes :=
  let byte := (value &&& 0x7f).toUInt8
  if _h : value >>> 7 = 0 then [byte] else (byte ||| 0x80) :: writeLeb128 (value >>> 7)
termination_by value.toNat
decreasing_by exact shiftRight_seven_lt ‹_›

/-- The rounds `i`, `i + 1`, … of `read_leb128`, of which `left` are left. -/
def readLeb128From (total : Nat) : (left i : Nat) → (value : UInt32) →
    Op WirePayloadError Bytes UInt32
  | 0, _, _ => throw .nonCanonicalKeyIndex
  | left + 1, i, value => do
      let byte ← Reader.u8 (.tooShort total)
      let group := (byte &&& 0x7f).toUInt32
      if i = 4 ∧ group > 0x0f then throw .nonCanonicalKeyIndex
      else
        let value := value ||| group <<< UInt32.ofNat (7 * i)
        if byte &&& 0x80 = 0 then
          if i > 0 ∧ byte = 0 then throw .nonCanonicalKeyIndex else pure value
        else readLeb128From total left (i + 1) value

/-- `read_leb128`: a number `write_leb128` wrote, and only that. -/
def readLeb128 (total : Nat) : Op WirePayloadError Bytes UInt32 := readLeb128From total 5 0 0

/-! ## Packing -/

def wireSuiteId (suiteId : UInt16) (adV4 pqxdhV2 kemIdentity identityProof : Bool) : UInt16 :=
  let wire := suiteId
  let wire := if adV4 then wire ||| adV4Flag else wire
  let wire := if pqxdhV2 then wire ||| pqxdhV2Flag else wire
  let wire := if kemIdentity then wire ||| kemIdentityFlag else wire
  if identityProof then wire ||| identityProofFlag else wire

def packPqField : Option PqRatchetWireField → Except WirePayloadError Bytes
  | none => .ok [0]
  | some (.publicKey epoch key) =>
    if key.length > u16Max then .error (.pqFieldTooLarge key.length)
    else .ok (1 :: u32ToLe epoch ++ Reader.prefixed key)
  | some (.ciphertext epoch ekHash ct) =>
    if ct.length > u16Max then .error (.pqFieldTooLarge ct.length)
    else .ok (2 :: u32ToLe epoch ++ ekHash.toList ++ Reader.prefixed ct)

def packPqSection (suiteId : UInt16) (epoch index : UInt32) (field : Option PqRatchetWireField) :
    Except WirePayloadError Bytes :=
  if suiteId = pqRatchetSuite then do
    let fieldBytes ← packPqField field
    return u32ToLe epoch ++ writeLeb128 index ++ fieldBytes
  else .ok []

def packObject (object : Option Bytes) : Bytes := (object.map Reader.prefixed).getD []

def checkObjects : List Bytes → Except WirePayloadError Unit
  | [] => .ok ()
  | object :: objects =>
    if object.length ≠ kemIdentityObjectSize then .error (.kemIdentityObjectSize object.length)
    else checkObjects objects

def packHeader (messageNumber : UInt32) (dhPublicKey : Bytes) (oneTimePrekeyId kyberOtpkId : UInt32)
    (kemLen : UInt16) (previousChainLength : UInt32) (wire : UInt16) : Bytes :=
  u32ToLe messageNumber ++ dhPublicKey ++ u32ToLe oneTimePrekeyId ++ u32ToLe kyberOtpkId ++
    u16ToLe kemLen ++ u32ToLe previousChainLength ++ u16ToLe wire

def packMessage (x : WireFields) : Except WirePayloadError Bytes :=
  let kemLen := (x.kemCiphertext.map List.length).getD 0
  if x.dhPublicKey.length ≠ dhKeySize then .error (.invalidDhPublicKey x.dhPublicKey.length)
  else if kemLen > u16Max then .error (.kemTooLarge kemLen)
  else if x.kemIdentity.isSome ∧ kemLen = 0 then .error .kemIdentityWithoutHandshake
  else do
    checkObjects (x.kemIdentity.toList ++ x.identityProofCiphertext.toList)
    -- the flags are the wire's business: derived from what is present
    let suiteId := x.suiteId &&& ~~~ wireFlags
    let wire := wireSuiteId suiteId (x.adVersion ≥ adVersionHeader) (kemLen > 0)
      x.kemIdentity.isSome x.identityProofCiphertext.isSome
    let pqBytes ← packPqSection suiteId x.pqMessageEpoch x.pqKeyIndex x.pqRatchetField
    return packHeader x.messageNumber x.dhPublicKey x.oneTimePrekeyId x.kyberOtpkId
        (UInt16.ofNat kemLen) x.previousChainLength wire ++
      x.kemCiphertext.getD [] ++ packObject x.kemIdentity ++
      packObject x.identityProofCiphertext ++ pqBytes ++ x.sealedBox

/-! ## Unpacking -/

/-- The closure `kem_identity_object` of `unpack`. -/
def kemIdentityObject (total : Nat) (present : Bool) : Op WirePayloadError Bytes (Option Bytes) :=
  if ! present then pure none
  else do
    let len ← Reader.u16 (.tooShort total)
    if len.toNat ≠ kemIdentityObjectSize then throw (.kemIdentityObjectSize len.toNat)
    else
      let object ← Reader.take (.tooShort total) len.toNat
      return some object

def unpackPqField (total : Nat) : Op WirePayloadError Bytes (Option PqRatchetWireField) := do
  let typ ← Reader.u8 (.tooShort total)
  if typ = 0 then return none
  else if typ = 1 then
    let epoch ← Reader.u32 (.tooShort total)
    let key ← Reader.lengthPrefixed (.tooShort total)
    return some (.publicKey epoch key)
  else if typ = 2 then
    let epoch ← Reader.u32 (.tooShort total)
    let ekHash ← Reader.vector (.tooShort total) 8
    let ct ← Reader.lengthPrefixed (.tooShort total)
    return some (.ciphertext epoch ekHash ct)
  else throw (.invalidPqFieldType typ)

def unpackPqSection (total : Nat) (suiteId : UInt16) :
    Op WirePayloadError Bytes (UInt32 × UInt32 × Option PqRatchetWireField) :=
  if suiteId = pqRatchetSuite then do
    let epoch ← Reader.u32 (.tooShort total)
    let index ← readLeb128 total
    if epoch = 0 ∧ index ≠ 0 then throw (.pqKeyIndexWithoutEpoch index)
    else
      let field ← unpackPqField total
      return (epoch, index, field)
  else pure (0, 0, none)

def unpackBody (total : Nat) (messageNumber : UInt32) (dhPublicKey : Bytes)
    (oneTimePrekeyId kyberOtpkId : UInt32) (kemLen : UInt16) (previousChainLength : UInt32)
    (wire : UInt16) : Op WirePayloadError Bytes DecodedWirePayload := do
  let pqxdhV2 := wire &&& pqxdhV2Flag != 0
  let hasKemIdentity := wire &&& kemIdentityFlag != 0
  let hasIdentityProof := wire &&& identityProofFlag != 0
  let adVersion := if wire &&& adV4Flag != 0 then adVersionHeader else adVersionLegacy
  let suiteId := wire &&& ~~~ wireFlags
  if pqxdhV2 ∧ kemLen = 0 then throw .pqxdhFlagWithoutCiphertext
  else if hasKemIdentity ∧ ! pqxdhV2 then throw .kemIdentityWithoutHandshake
  else if (← get).length ≤ kemLen.toNat then throw (.tooShort total)
  else
    let kem ← Reader.take (.tooShort total) kemLen.toNat
    let kemIdentity ← kemIdentityObject total hasKemIdentity
    let identityProof ← kemIdentityObject total hasIdentityProof
    if suiteId = retiredPqRatchetV1 then throw (.retiredSuite suiteId)
    else
      let (epoch, index, field) ← unpackPqSection total suiteId
      let sealedBox ← get
      if sealedBox.isEmpty then throw (.tooShort total)
      else
        return {
          messageNumber, dhPublicKey, oneTimePrekeyId, kyberOtpkId, previousChainLength, suiteId
          kemCiphertext := if kemLen.toNat > 0 then some kem else none
          pqxdhV2, kemIdentity
          identityProofCiphertext := identityProof
          sealedBox
          pqMessageEpoch := epoch
          pqKeyIndex := index
          pqRatchetField := field
          adVersion }

def unpackFrom (total : Nat) : Op WirePayloadError Bytes DecodedWirePayload := do
  let messageNumber ← Reader.u32 (.tooShort total)
  let dhPublicKey ← Reader.take (.tooShort total) dhKeySize
  let oneTimePrekeyId ← Reader.u32 (.tooShort total)
  let kyberOtpkId ← Reader.u32 (.tooShort total)
  let kemLen ← Reader.u16 (.tooShort total)
  let previousChainLength ← Reader.u32 (.tooShort total)
  let wire ← Reader.u16 (.tooShort total)
  unpackBody total messageNumber dhPublicKey oneTimePrekeyId kyberOtpkId kemLen
    previousChainLength wire

def unpack (data : Bytes) : Except WirePayloadError DecodedWirePayload :=
  if data.length ≤ headerSize then .error (.tooShort data.length)
  else
    match unpackFrom data.length data with
    | .ok payload _ => .ok payload
    | .error e _ => .error e

end Wire

end ConstructCore
