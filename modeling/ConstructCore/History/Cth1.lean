import ConstructCore.History.Wire

/-!
# CTH1: reading the record stream

The stream is a preamble, records of a type, a length and a payload, and an End byte. The reader
takes it in pieces of any length and reports a record as soon as it is complete; the bytes of a
media blob pass through as they arrive.

`Reader.step` is one round of the loop in `push`: it works on the bytes not yet used and leaves
the rest. A failing step reports nothing. What else it may have changed in the reader is never
read again, since from then on every call returns the failure, so `Reader.failed` keeps the
reader as it was before the call.
-/

namespace History

open Bytes

def maxRecordBytes : Nat := 512 * 1024 * 1024

namespace RecordType

def endRecord : UInt8 := 0x00
def manifest : UInt8 := 0x01
def contact : UInt8 := 0x02
def chat : UInt8 := 0x03
def message : UInt8 := 0x04
def reaction : UInt8 := 0x05
def peerDevice : UInt8 := 0x06
def call : UInt8 := 0x07
def mediaBlob : UInt8 := 0x08

end RecordType

/-- `"CTH1"`. -/
def magic : Bytes := [0x43, 0x54, 0x48, 0x31]
def version : UInt8 := 0x01
def preambleLen : Nat := 5
def recordHeaderLen : Nat := 9

/-- A media blob's `media_id` and `mime_type` must fit in this much of its payload. -/
def mediaHeadCap : Nat := 4096

/-! ## Record order -/

inductive Rank where
  | manifest
  | metaRecord
  | message
  | reaction
  | media
  | final
deriving DecidableEq, Repr

/-- The place of a rank in the order of declaration, by which ranks compare. -/
def Rank.place : Rank → Nat
  | manifest => 0
  | metaRecord => 1
  | message => 2
  | reaction => 3
  | media => 4
  | final => 5

def rank (ty : UInt8) : Option Rank :=
  if ty = RecordType.manifest then some .manifest
  else if ty ∈ [RecordType.contact, RecordType.chat, RecordType.peerDevice, RecordType.call] then
    some .metaRecord
  else if ty = RecordType.message then some .message
  else if ty = RecordType.reaction then some .reaction
  else if ty = RecordType.mediaBlob then some .media
  else if ty = RecordType.endRecord then some .final
  else none

/-- One manifest, first; then contacts, chats, peer hints and calls in any mix; then messages;
then reactions; then media; then End. The phase says which of those the stream may carry. -/
structure Order where
  last : Option Rank := none
  phase : Nat := 0
deriving DecidableEq, Repr

def Order.allows (o : Order) : Rank → Bool
  | .manifest => false
  | .metaRecord | .message | .reaction => o.phase ≠ 2
  | .media => o.phase ≠ 1
  | .final => true

def Order.check (o : Order) (ty : UInt8) : Except HistoryFailure Order :=
  match rank ty with
  | none => .ok o
  | some incoming =>
    match o.last with
    | none =>
      if incoming ≠ .manifest then .error .recordOrder
      else .ok { o with last := some incoming }
    | some last =>
      if ¬ o.allows incoming ∨ incoming.place < last.place then .error .recordOrder
      else .ok { o with last := some incoming }

/-! ## The head of a media blob -/

structure MediaHead where
  mediaId : String
  mimeType : String
  blobLen : Nat
  /-- Bytes of the payload the head occupies, blob length prefix included. -/
  consumed : Nat
deriving DecidableEq, Repr

/-- One round of the loop over the two text fields: the text and the position after it, or the
empty text where another field or the end of the payload stands. `none` while more bytes are
needed. -/
def textField (buf : Bytes) (payloadLen : Nat) (number : UInt8) (pos : Nat) :
    Except HistoryFailure (Option (String × Nat)) :=
  if pos = payloadLen then .ok (some ("", pos))
  else
    match buf[pos]? with
    | none => .ok none
    | some key =>
      if key ≠ tag number 2 then .ok (some ("", pos))
      else
        match readVarint buf (pos + 1) with
        | .error f => .error f
        | .ok none => .ok none
        | .ok (some (len, p)) =>
          -- a length that overflows is beyond the payload as well
          if payloadLen < p + len then .error .malformed
          else if buf.length < p + len then .ok none
          else
            match toText? ((buf.take (p + len)).drop p) with
            | none => .error .malformed
            | some text => .ok (some (text, p + len))

/-- The blob field's key and length, which run to the end of the payload. -/
def blobField (buf : Bytes) (payloadLen : Nat) (mediaId mimeType : String) (pos : Nat) :
    Except HistoryFailure (Option MediaHead) :=
  if mediaId = "" then .error .malformed
  else if pos = payloadLen then
    .ok (some { mediaId, mimeType, blobLen := 0, consumed := pos })
  else
    match buf[pos]? with
    | none => .ok none
    | some key =>
      if key ≠ tag 3 2 then .error .malformed
      else
        match readVarint buf (pos + 1) with
        | .error f => .error f
        | .ok none => .ok none
        | .ok (some (blobLen, p)) =>
          if (p + blobLen) % 2 ^ 64 ≠ payloadLen then .error .malformed
          else .ok (some { mediaId, mimeType, blobLen, consumed := p })

/-- The head of a media blob from the first bytes of its payload. `none` while more bytes are
needed. Fields must come in order 1, 2, 3. -/
def mediaHead (buf : Bytes) (payloadLen : Nat) : Except HistoryFailure (Option MediaHead) :=
  match textField buf payloadLen 1 0 with
  | .error f => .error f
  | .ok none => .ok none
  | .ok (some (mediaId, pos)) =>
    match textField buf payloadLen 2 pos with
    | .error f => .error f
    | .ok none => .ok none
    | .ok (some (mimeType, pos)) => blobField buf payloadLen mediaId mimeType pos

/-! ## The reader -/

/-- What the reader hands the platform, in stream order. -/
inductive Event where
  | record (recordType : UInt8) (proto : Bytes)
  | skipped (recordType : UInt8)
  | mediaStart (mediaId mimeType : String) (byteLen : Nat)
  | mediaBytes (b : Bytes)
  | mediaEnd
  /-- The End record. -/
  | ended
deriving DecidableEq, Repr

/-- The snapshot and account the envelope announced. -/
structure Envelope where
  snapshotId : Bytes
  userId : Bytes
deriving DecidableEq, Repr

inductive State where
  | preamble
  | recordHeader
  | record (recordType : UInt8) (remaining : Nat)
  | discard (recordType : UInt8) (remaining : Nat)
  | mediaHead (payloadLen : Nat)
  | mediaBlob (remaining : Nat)
  | done
  | failed (f : HistoryFailure)
deriving DecidableEq, Repr

structure Reader where
  state : State := .preamble
  /-- Bytes of the unit being assembled: the preamble, a record header, a transcript record, or
  a media head. -/
  buf : Bytes := []
  order : Order := {}
  envelope : Option Envelope
deriving DecidableEq, Repr

namespace Reader

def new (envelope : Option Envelope) : Reader := { envelope }

def Announced (envelope : Option Envelope) (m : ManifestFields) : Prop :=
  ∀ env, envelope = some env → m.snapshotId = env.snapshotId ∧ m.userId = env.userId

instance (envelope : Option Envelope) (m : ManifestFields) : Decidable (Announced envelope m) :=
  match envelope with
  | none => isTrue (fun _ h => nomatch h)
  | some env =>
    decidable_of_iff (m.snapshotId = env.snapshotId ∧ m.userId = env.userId)
      ⟨fun h _ henv => Option.some.inj henv ▸ h, fun h => h env rfl⟩

def record (r : Reader) (ty : UInt8) (proto : Bytes) :
    Except HistoryFailure (Reader × List Event) :=
  if ty = RecordType.manifest then do
    let m ← manifest proto
    if m.formatVersion ≠ 1 then throw .unknownVersion
    if ¬ (1 ≤ m.phase ∧ m.phase ≤ 3) then throw .malformed
    if ¬ Announced r.envelope m then throw .envelopeManifestMismatch
    return ({ r with order := { r.order with phase := m.phase } }, [.record ty proto])
  else if ty = RecordType.message then do
    match ← messageBody proto with
    | .known => return (r, [.record ty proto])
    | .unknown => return (r, [.skipped ty])
    | .unset => throw .malformed
  else do
    wellFormed proto
    return (r, [.record ty proto])

def completeEmpty (r : Reader) : Except HistoryFailure (Reader × List Event) :=
  match r.state with
  | .record ty _ => record { r with state := .recordHeader } ty []
  | .discard ty _ => .ok ({ r with state := .recordHeader }, [.skipped ty])
  -- an empty blob record names no media
  | .mediaHead _ => .error .malformed
  | _ => .ok (r, [])

def begin (r : Reader) (ty : UInt8) (len : Nat) : Except HistoryFailure (Order × State) :=
  if RecordType.manifest ≤ ty ∧ ty ≤ RecordType.call then do
    return (← r.order.check ty, .record ty len)
  else if ty = RecordType.mediaBlob then do
    return (← r.order.check ty, .mediaHead len)
  else .ok (r.order, .discard ty len)

def header (r : Reader) (buf : Bytes) : Except HistoryFailure (Reader × List Event) := do
  let ty := buf.headD 0
  let len := ofLeBytes (buf.drop 1)
  if maxRecordBytes < len then throw .malformed
  let (order, state) ← r.begin ty len
  let r := { r with buf := [], order, state }
  if len = 0 then r.completeEmpty else return (r, [])

def opening (r : Reader) (buf : Bytes) : Except HistoryFailure (Reader × List Event) :=
  if buf.take 4 ≠ magic then .error .malformed
  else if buf[4]? ≠ some version then .error .unknownVersion
  else .ok ({ r with buf := [], state := .recordHeader }, [])

/-- The buffer filled from `data` up to `len` bytes, and the data left over. -/
def fill (buf data : Bytes) (len : Nat) : Bytes × Bytes :=
  let take := min (len - buf.length) data.length
  (buf ++ data.take take, data.drop take)

/-- A media head, given the `before` bytes of it that had arrived earlier. -/
def mediaBegin (r : Reader) (head : MediaHead) (before : Nat) (data : Bytes) :
    Reader × Bytes × List Event :=
  let start := Event.mediaStart head.mediaId head.mimeType head.blobLen
  -- bytes of this push past the head are blob bytes
  let rest := data.drop (head.consumed - before)
  if head.blobLen = 0 then
    ({ r with buf := [], state := .recordHeader }, rest, [start, .mediaEnd])
  else ({ r with buf := [], state := .mediaBlob head.blobLen }, rest, [start])

/-- One round of `push` on a nonempty input. -/
def step (r : Reader) (data : Bytes) : Except HistoryFailure (Reader × Bytes × List Event) :=
  match r.state with
  | .preamble =>
    let (buf, data) := fill r.buf data preambleLen
    if buf.length ≠ preambleLen then .ok ({ r with buf }, data, [])
    else (r.opening buf).map fun s => (s.1, data, s.2)
  | .recordHeader =>
    if r.buf = [] ∧ data.head? = some RecordType.endRecord then do
      let order ← r.order.check RecordType.endRecord
      return ({ r with order, state := .done }, data.drop 1, [.ended])
    else
      let (buf, data) := fill r.buf data recordHeaderLen
      if buf.length ≠ recordHeaderLen then .ok ({ r with buf }, data, [])
      else (r.header buf).map fun s => (s.1, data, s.2)
  | .record ty remaining =>
    let take := min remaining data.length
    let buf := r.buf ++ data.take take
    let data := data.drop take
    if 0 < remaining - take then
      .ok ({ r with buf, state := .record ty (remaining - take) }, data, [])
    else
      (record { r with buf := [], state := .recordHeader } ty buf).map fun s => (s.1, data, s.2)
  | .discard ty remaining =>
    let take := min remaining data.length
    let data := data.drop take
    if 0 < remaining - take then
      .ok ({ r with state := .discard ty (remaining - take) }, data, [])
    else .ok ({ r with state := .recordHeader }, data, [.skipped ty])
  | .mediaHead payloadLen =>
    let want := min payloadLen mediaHeadCap
    let before := r.buf.length
    let take := min (want - before) data.length
    let buf := r.buf ++ data.take take
    match mediaHead buf payloadLen with
    | .error f => .error f
    | .ok none =>
      if want ≤ buf.length then .error .malformed
      else .ok ({ r with buf }, data.drop take, [])
    | .ok (some head) => .ok (r.mediaBegin head before data)
  | .mediaBlob remaining =>
    let take := min remaining data.length
    let piece := Event.mediaBytes (data.take take)
    let data := data.drop take
    if remaining - take = 0 then
      .ok ({ r with state := .recordHeader }, data, [piece, .mediaEnd])
    else .ok ({ r with state := .mediaBlob (remaining - take) }, data, [piece])
  -- anything after End breaks the rule that End is last
  | .done => .error .malformed
  | .failed f => .error f

def failed (r : Reader) (f : HistoryFailure) : Reader := { r with state := .failed f, buf := [] }

/-- Feed the next bytes of the stream: the reader after it, the events for every unit they
complete, and the result. -/
def push (r : Reader) (data : Bytes) :
    Option (Reader × List Event × Except HistoryFailure Unit) :=
  match r.state with
  | .failed f => some (r, [], .error f)
  | _ =>
    (Incremental.feed step r data).map fun fed =>
      match fed.2 with
      | .ok r' => (r', fed.1, .ok ())
      | .error f => (r.failed f, fed.1, .error f)

def finish (r : Reader) : Reader × Except HistoryFailure Unit :=
  match r.state with
  | .done => (r, .ok ())
  | .failed f => (r, .error f)
  | _ => ({ r with state := .failed .truncated }, .error .truncated)

/-- The pieces of a stream one after the other, up to the first failure, and the end of the
stream: the events and the outcome. -/
def read (r : Reader) : List Bytes → Option (List Event × Except HistoryFailure Unit)
  | [] => some ([], r.finish.2)
  | piece :: pieces =>
    match r.push piece with
    | none => none
    | some (_, out, .error f) => some (out, .error f)
    | some (r', out, .ok ()) => (r'.read pieces).map fun rest => (out ++ rest.1, rest.2)

end Reader

end History
