import ConstructCore.Lib.Bytes

/-!
# The CFE envelope

`cfe/envelope.rs`, `cfe/compat.rs` and the message types of `cfe/types.rs`: a header of sixteen
bytes (magic, version, type, flags, reserved bytes, length, checksum) and a MessagePack payload.
MessagePack and CRC32 are parameters.

`parseHeader_header` says what the reader makes of a header the writer can write, whatever stands
behind it. The round trip, the limits and the refusal of every cut-off blob are read off it.
-/

namespace ConstructCore.CfeFormat

open Bytes

inductive CfeMessageType where
  | privateKeys
  | sessionState
  | otpkBundle
  | registrationBundle
  | orchestratorState
  | kyberPrivateKeys
  | mlsStore
  | generic
deriving DecidableEq, Repr

namespace CfeMessageType

/-- `msg_type as u8`. -/
def asU8 : CfeMessageType → UInt8
  | privateKeys => 0x01
  | sessionState => 0x02
  | otpkBundle => 0x03
  | registrationBundle => 0x04
  | orchestratorState => 0x05
  | kyberPrivateKeys => 0x20
  | mlsStore => 0x44
  | generic => 0x7F

def fromU8 : UInt8 → Option CfeMessageType
  | 0x01 => some privateKeys
  | 0x02 => some sessionState
  | 0x03 => some otpkBundle
  | 0x04 => some registrationBundle
  | 0x05 => some orchestratorState
  | 0x20 => some kyberPrivateKeys
  | 0x44 => some mlsStore
  | 0x7F => some generic
  | _ => none

@[simp] theorem fromU8_asU8 (t : CfeMessageType) : fromU8 t.asU8 = some t := by
  cases t <;> rfl

end CfeMessageType

inductive CfeError where
  | tooShort (min got : Nat)
  | invalidMagic
  | legacyJson
  | unsupportedVersion (version : UInt8)
  | unknownType (raw : UInt8)
  | checksumMismatch (stored computed : UInt32)
  | payloadTooLarge (max got : Nat)
  | truncatedPayload (expected got : Nat)
  | invalidReservedBytes
  | unsupportedFlags (flags : UInt8)
  | typeMismatch (expected got : CfeMessageType)
  | serializeFailed (e : String)
  | deserializeFailed (e : String)
deriving DecidableEq, Repr

def cfeMagic : Bytes := [0x43, 0x46]
def cfeVersion : UInt8 := 0x01
def cfeHeaderLen : Nat := 16
def maxMessagePayloadLen : Nat := 256 * 1024
def maxStatePayloadLen : Nat := 64 * 1024 * 1024

def maxPayloadLen : CfeMessageType → Nat
  | .generic => maxMessagePayloadLen
  | .privateKeys | .sessionState | .otpkBundle | .registrationBundle | .orchestratorState
  | .kyberPrivateKeys | .mlsStore => maxStatePayloadLen

structure CfeEnvelope where
  version : UInt8
  msgType : CfeMessageType
  flags : UInt8
  payload : Bytes
deriving DecidableEq, Repr

/-- `rmp_serde` at one type. -/
structure MessagePack (α : Type) where
  toVecNamed : α → Except String Bytes
  fromSlice : Bytes → Except String α

def MessagePack.RoundTrips {α : Type} (P : MessagePack α) : Prop :=
  ∀ v payload, P.toVecNamed v = .ok payload → P.fromSlice payload = .ok v

def looksLikeLegacyJson (data : Bytes) : Bool :=
  match data.find? fun b => !(b == 0x20 || b == 0x09 || b == 0x0A || b == 0x0D) with
  | some b => b == 0x7B || b == 0x5B
  | none => false

def legacyJsonErrorIfDetected (data : Bytes) : Except CfeError Unit :=
  if looksLikeLegacyJson data then .error .legacyJson else .ok ()

variable (crc32 : Bytes → UInt32)

def header (msgType : CfeMessageType) (len : Nat) (crc : UInt32) : Bytes :=
  cfeMagic ++ [cfeVersion, msgType.asU8, 0, 0, 0, 0] ++ leBytes 4 len ++ u32ToLe crc

def encode {α : Type} (P : MessagePack α) (msgType : CfeMessageType) (value : α) :
    Except CfeError Bytes :=
  match P.toVecNamed value with
  | .error e => .error (.serializeFailed e)
  | .ok payload =>
    let max := maxPayloadLen msgType
    if max < payload.length then .error (.payloadTooLarge max payload.length)
    else .ok (header msgType payload.length (crc32 payload) ++ payload)

def parseHeader (data : Bytes) : Except CfeError CfeEnvelope := do
  if data.length < cfeHeaderLen then
    legacyJsonErrorIfDetected data
    throw (.tooShort cfeHeaderLen data.length)
  if data.take 2 ≠ cfeMagic then
    legacyJsonErrorIfDetected data
    throw .invalidMagic
  let version := data.getD 2 0
  if version ≠ cfeVersion then throw (.unsupportedVersion version)
  let some msgType := CfeMessageType.fromU8 (data.getD 3 0)
    | throw (.unknownType (data.getD 3 0))
  let flags := data.getD 4 0
  if flags ≠ 0 then throw (.unsupportedFlags flags)
  if data.getD 5 0 ≠ 0 ∨ data.getD 6 0 ≠ 0 ∨ data.getD 7 0 ≠ 0 then throw .invalidReservedBytes
  let payloadLen := ofLeBytes ((data.drop 8).take 4)
  if maxPayloadLen msgType < payloadLen then
    throw (.payloadTooLarge (maxPayloadLen msgType) payloadLen)
  if data.length < cfeHeaderLen + payloadLen then
    throw (.truncatedPayload payloadLen (data.length - cfeHeaderLen))
  let stored := u32OfLe ((data.drop 12).take 4)
  let rawPayload := (data.drop cfeHeaderLen).take payloadLen
  if stored ≠ crc32 rawPayload then throw (.checksumMismatch stored (crc32 rawPayload))
  return ⟨version, msgType, flags, rawPayload⟩

def decode (data : Bytes) : Except CfeError CfeEnvelope := parseHeader crc32 data

def decodeAs {α : Type} (P : MessagePack α) (data : Bytes) (expected : CfeMessageType) :
    Except CfeError α := do
  let envelope ← parseHeader crc32 data
  if envelope.msgType ≠ expected then throw (.typeMismatch expected envelope.msgType)
  match P.fromSlice envelope.payload with
  | .error e => throw (.deserializeFailed e)
  | .ok value => return value

/-! ## What the reader makes of a written header -/

variable {t : CfeMessageType} {crc : UInt32}

theorem maxPayloadLen_lt (t : CfeMessageType) : maxPayloadLen t < 2 ^ 32 := by
  cases t <;> decide

@[simp] theorem length_header (len : Nat) : (header t len crc).length = cfeHeaderLen := by
  simp [header, cfeMagic, cfeHeaderLen]

/-- Behind a written header the length is judged first, then what is there, then the checksum. -/
theorem parseHeader_header {len : Nat} (hlen : len < 2 ^ 32) (rest : Bytes) :
    parseHeader crc32 (header t len crc ++ rest) =
      if maxPayloadLen t < len then .error (.payloadTooLarge (maxPayloadLen t) len)
      else if rest.length < len then .error (.truncatedPayload len rest.length)
      else if crc ≠ crc32 (rest.take len) then
        .error (.checksumMismatch crc (crc32 (rest.take len)))
      else .ok ⟨cfeVersion, t, 0, rest.take len⟩ := by
  have hsize : (header t len crc ++ rest).length = cfeHeaderLen + rest.length := by
    rw [List.length_append, length_header]
  have hlong : ¬ cfeHeaderLen + rest.length < cfeHeaderLen := by omega
  -- the bytes from the length on
  have htail : (header t len crc ++ rest).drop 8 = leBytes 4 len ++ (u32ToLe crc ++ rest) := by
    simp [header, cfeMagic]
  have hread : ofLeBytes (((header t len crc ++ rest).drop 8).take 4) = len := by
    rw [htail, List.take_left' (length_leBytes ..), ofLeBytes_leBytes]
    exact Nat.mod_eq_of_lt hlen
  have hstored : u32OfLe (((header t len crc ++ rest).drop 12).take 4) = crc := by
    rw [show 12 = 8 + 4 from rfl, ← List.drop_drop, htail, List.drop_left' (length_leBytes ..),
      List.take_left' (length_u32ToLe crc), u32OfLe_u32ToLe]
  have hpayload : (header t len crc ++ rest).drop cfeHeaderLen = rest :=
    List.drop_left' (length_header len)
  have hmagic : (header t len crc ++ rest).take 2 = cfeMagic := rfl
  have hversion : (header t len crc ++ rest).getD 2 0 = cfeVersion := rfl
  have htype : (header t len crc ++ rest).getD 3 0 = t.asU8 := rfl
  have hzero : ∀ i ∈ [4, 5, 6, 7], (header t len crc ++ rest).getD i 0 = 0 := by
    simp [header, cfeMagic]
  unfold parseHeader
  simp only [hread, hstored, hpayload, hmagic, hversion, htype, hzero 4 (by decide),
    hzero 5 (by decide), hzero 6 (by decide), hzero 7 (by decide),
    CfeMessageType.fromU8_asU8, hlong, if_false, ne_eq, not_true_eq_false, or_self, hsize,
    Nat.add_lt_add_iff_left, Nat.add_sub_cancel_left]
  split
  · rfl
  · split
    · rfl
    · split <;> rfl

theorem encode_eq_ok {α : Type} {P : MessagePack α} {v : α} {blob : Bytes} :
    encode crc32 P t v = .ok blob ↔
      ∃ payload, P.toVecNamed v = .ok payload ∧ payload.length ≤ maxPayloadLen t ∧
        blob = header t payload.length (crc32 payload) ++ payload := by
  unfold encode
  cases P.toVecNamed v with
  | error e => simp
  | ok payload =>
    by_cases hlen : maxPayloadLen t < payload.length
    · simp [hlen]
    · simp [hlen, Nat.not_lt.mp hlen, eq_comm]

theorem parseHeader_cut {payload data : Bytes} (hlen : payload.length ≤ maxPayloadLen t)
    (hcut : data <+: header t payload.length crc ++ payload)
    (hne : data ≠ header t payload.length crc ++ payload) :
    parseHeader crc32 data = .error (.tooShort cfeHeaderLen data.length) ∨
      parseHeader crc32 data =
        .error (.truncatedPayload payload.length (data.length - cfeHeaderLen)) := by
  have hlt := Nat.lt_of_le_of_lt hlen (maxPayloadLen_lt t)
  obtain ⟨behind, hblob⟩ := hcut
  by_cases hshort : data.length < cfeHeaderLen
  · left
    -- what is there begins with the magic, which no JSON does
    have hsniff : looksLikeLegacyJson data = false := by
      cases data with
      | nil => rfl
      | cons b data =>
        obtain rfl : b = 0x43 := (List.cons.inj hblob).1
        rfl
    unfold parseHeader legacyJsonErrorIfDetected
    simp only [hshort, hsniff, if_true]
    rfl
  · right
    obtain ⟨rest, rfl⟩ : ∃ rest, data = header t payload.length crc ++ rest := by
      have hpre : header t payload.length crc <+: data :=
        List.prefix_of_prefix_length_le (List.prefix_append _ payload) ⟨behind, hblob⟩
          (by rw [length_header]; omega)
      exact hpre.imp fun _ h => h.symm
    rw [List.append_assoc, List.append_cancel_left_eq] at hblob
    have hrest : rest.length < payload.length := by
      have hsum := congrArg List.length hblob
      rw [List.length_append] at hsum
      have : behind ≠ [] := by
        rintro rfl
        rw [List.append_nil] at hblob
        exact hne (by rw [hblob])
      have := List.length_pos_iff.mpr this
      omega
    rw [parseHeader_header crc32 hlt, if_neg (by omega), if_pos hrest, List.length_append,
      length_header, Nat.add_sub_cancel_left]

theorem parseHeader_blob {payload : Bytes} (hlen : payload.length ≤ maxPayloadLen t) :
    parseHeader crc32 (header t payload.length (crc32 payload) ++ payload) =
      .ok ⟨cfeVersion, t, 0, payload⟩ := by
  have hlt := Nat.lt_of_le_of_lt hlen (maxPayloadLen_lt t)
  rw [parseHeader_header crc32 hlt, if_neg (by omega), if_neg (by omega), List.take_length,
    if_neg (by simp)]

theorem decodeAs_of_parsed {α : Type} {P : MessagePack α} {data : Bytes} {envelope : CfeEnvelope}
    (h : parseHeader crc32 data = .ok envelope) (expected : CfeMessageType) :
    decodeAs crc32 P data expected =
      if envelope.msgType ≠ expected then .error (.typeMismatch expected envelope.msgType)
      else (P.fromSlice envelope.payload).mapError .deserializeFailed := by
  unfold decodeAs
  rw [h]
  show (if _ then _ else _ : Except CfeError α) = _
  split
  · rfl
  · cases P.fromSlice envelope.payload <;> rfl

theorem decodeAs_of_refused {α : Type} {P : MessagePack α} {data : Bytes} {e : CfeError}
    (h : parseHeader crc32 data = .error e) (expected : CfeMessageType) :
    decodeAs crc32 P data expected = .error e := by
  unfold decodeAs
  rw [h]
  rfl

/-- **Writer and reader agree.** At every type: what the writer accepts is read back under that
type and refused under any other; the writer refuses by length exactly what the reader would
refuse by the length in the header; no blob cut off anywhere is read; and no blob, cut off or
not, is taken for JSON. -/
theorem writer_and_reader_agree {α : Type} (P : MessagePack α) (hP : P.RoundTrips)
    (t : CfeMessageType) (v : α) :
    (∀ payload, P.toVecNamed v = .ok payload →
      (encode crc32 P t v = .error (.payloadTooLarge (maxPayloadLen t) payload.length) ↔
        maxPayloadLen t < payload.length) ∧
      ((∃ blob, encode crc32 P t v = .ok blob) ↔ payload.length ≤ maxPayloadLen t)) ∧
    (∀ len crc rest, len < 2 ^ 32 →
      (parseHeader crc32 (header t len crc ++ rest) =
        .error (.payloadTooLarge (maxPayloadLen t) len) ↔ maxPayloadLen t < len)) ∧
    ∀ blob, encode crc32 P t v = .ok blob →
      decodeAs crc32 P blob t = .ok v ∧
      (∀ other, other ≠ t → ∃ e, decodeAs crc32 P blob other = .error e) ∧
      (∀ data, data <+: blob → data ≠ blob → (∃ e, decode crc32 data = .error e) ∧
        ∀ β (Q : MessagePack β) expected, ∃ e, decodeAs crc32 Q data expected = .error e) ∧
      ∀ data, data <+: blob → decode crc32 data ≠ .error .legacyJson ∧
        ∀ β (Q : MessagePack β) expected, decodeAs crc32 Q data expected ≠ .error .legacyJson := by
  refine ⟨?_, ?_, ?_⟩
  · intro payload hpayload
    unfold encode
    rw [hpayload]
    by_cases hlen : maxPayloadLen t < payload.length
    · simp [hlen]
    · simp [hlen, Nat.not_lt.mp hlen]
  · intro len crc rest hlen
    rw [parseHeader_header crc32 hlen]
    by_cases hmax : maxPayloadLen t < len
    · simp [hmax]
    · simp only [hmax, if_false, iff_false]
      split
      · simp
      · split <;> simp
  · intro blob hblob
    obtain ⟨payload, hpayload, hlen, rfl⟩ := (encode_eq_ok crc32).mp hblob
    have hparsed := parseHeader_blob crc32 hlen
    refine ⟨?_, ?_, ?_, ?_⟩
    · rw [decodeAs_of_parsed crc32 hparsed, if_neg (by simp), hP v payload hpayload]
      rfl
    · intro other hother
      exact ⟨_, (decodeAs_of_parsed crc32 hparsed other).trans (if_pos hother.symm)⟩
    · intro data hcut hne
      rcases parseHeader_cut crc32 hlen hcut hne with h | h
      · exact ⟨⟨_, h⟩, fun β Q expected => ⟨_, decodeAs_of_refused crc32 h expected⟩⟩
      · exact ⟨⟨_, h⟩, fun β Q expected => ⟨_, decodeAs_of_refused crc32 h expected⟩⟩
    · intro data hcut
      by_cases heq : data = header t payload.length (crc32 payload) ++ payload
      · subst heq
        refine ⟨by simp [decode, hparsed], fun β Q expected => ?_⟩
        rw [decodeAs_of_parsed crc32 hparsed]
        split
        · simp
        · cases Q.fromSlice payload <;> simp [Except.mapError]
      · rcases parseHeader_cut crc32 hlen hcut heq with h | h
        · exact ⟨by simp [decode, h], fun β Q expected => by simp [decodeAs_of_refused crc32 h]⟩
        · exact ⟨by simp [decode, h], fun β Q expected => by simp [decodeAs_of_refused crc32 h]⟩

def bytePack : MessagePack UInt8 where
  toVecNamed v := .ok [v]
  fromSlice
    | [v] => .ok v
    | _ => .error "not one byte"

/-- A byte in a session-state envelope, and the envelope without its last byte. -/
theorem writer_and_reader_agree_byte :
    let sum : Bytes → UInt32 := fun b => UInt32.ofNat (ofLeBytes b)
    ∃ blob, encode sum bytePack .sessionState 7 = .ok blob ∧
      decodeAs sum bytePack blob .sessionState = .ok 7 ∧
      ∃ e, decodeAs sum bytePack (blob.take 16) .sessionState = .error e := by
  intro sum
  have h := writer_and_reader_agree sum bytePack (by rintro v _ ⟨⟩; rfl) .sessionState 7
  obtain ⟨blob, hblob⟩ := (h.1 [7] rfl).2.mpr (by decide)
  have hlen : blob.length = 17 := by
    obtain ⟨payload, hpayload, -, rfl⟩ := (encode_eq_ok sum).mp hblob
    cases hpayload
    simp [cfeHeaderLen]
  refine ⟨blob, hblob, (h.2.2 blob hblob).1, ?_⟩
  apply And.right ((h.2.2 blob hblob).2.2.1 _ (List.take_prefix 16 blob) ?_)
  intro heq
  have := congrArg List.length heq
  rw [List.length_take, hlen] at this
  omega

end ConstructCore.CfeFormat
