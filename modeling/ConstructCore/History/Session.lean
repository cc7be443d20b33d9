import ConstructCore.History.Stream
import ConstructCore.Lib.Chunks

/-!
# The two ends of a history transfer, after the handshake

A `Sender` frames records with the `Writer`, gathers what it writes and seals it in chunks; a
`Receiver` takes the bytes in pieces, opens each chunk and gives what was in it to the `Reader`.
Both hold a `ChunkCipher`: the channel key, the ids the chunks are bound to, and the index of the
next chunk. The AEAD is a parameter.

`Receiver.step` is one round of the loop in `feed_inner`: it gathers the bytes `need` asks for.
The states before the stream (prefix, opening, header, waiting for keys, skipped) are those of
the handshake and not part of this model.
-/

namespace History

open Bytes Incremental

/-! ## The chunk layer -/

/-- `encrypt_in_place_detached` and `decrypt_in_place_detached` of key, nonce and associated
data: the ciphertext and the tag. -/
structure Aead where
  encrypt : (key nonce aad plaintext : Bytes) → Bytes × Bytes
  decrypt : (key nonce aad ciphertext tag : Bytes) → Option Bytes

def chunkPlaintext : Nat := 65536
def nonceLen : Nat := 12
def tagLen : Nat := 16
def maxSealedChunk : Nat := chunkPlaintext + nonceLen + tagLen
def lenPrefix : Nat := 4

def eof : Bytes := [0, 0, 0, 0]

def nonce (index : UInt32) : Bytes := u32ToLe index ++ List.replicate 8 0

/-- One direction of one stream: seals or opens chunks in order. -/
structure ChunkCipher where
  key : Bytes
  snapshotId : Bytes
  userId : Bytes
  index : UInt32 := 0
deriving DecidableEq, Repr

namespace ChunkCipher

def aad (c : ChunkCipher) (index : UInt32) : Bytes := c.snapshotId ++ c.userId ++ u32ToLe index

def nextIndex : Op HistoryFailure ChunkCipher UInt32 := do
  let c ← get
  match c.index.checkedSucc with
  | none => throw .malformed
  | some index =>
    set { c with index }
    return c.index

def sealed (A : Aead) (c : ChunkCipher) (index : UInt32) (plaintext : Bytes) : Bytes :=
  let (ciphertext, tag) := A.encrypt c.key (nonce index) (c.aad index) plaintext
  nonce index ++ (ciphertext ++ tag)

def chunk (A : Aead) (c : ChunkCipher) (index : UInt32) (plaintext : Bytes) : Bytes :=
  leBytes 4 (nonceLen + plaintext.length + tagLen) ++ c.sealed A index plaintext

def sealNext (A : Aead) (plaintext : Bytes) : Op HistoryFailure ChunkCipher Bytes := do
  if plaintext = [] ∨ chunkPlaintext < plaintext.length then throw .malformed
  let index ← nextIndex
  let c ← get
  return c.chunk A index plaintext

def openNext (A : Aead) (sealed : Bytes) : Op HistoryFailure ChunkCipher Bytes := do
  if sealed.length < nonceLen + tagLen + 1 ∨ maxSealedChunk < sealed.length then throw .malformed
  let index ← nextIndex
  if sealed.take nonceLen ≠ nonce index then throw .chunkOpenFailed
  let c ← get
  let tagAt := sealed.length - tagLen
  match A.decrypt c.key (nonce index) (c.aad index)
      ((sealed.take tagAt).drop nonceLen) (sealed.drop tagAt) with
  | none => throw .chunkOpenFailed
  | some plaintext => return plaintext

end ChunkCipher

/-- The length a chunk's prefix announces: `none` for the end, an error for a length no writer
produces. -/
def sealedLen (lenBytes : Bytes) : Except HistoryFailure (Option Nat) :=
  let len := ofLeBytes lenBytes
  if len = 0 then .ok none
  else if ¬ (nonceLen + tagLen + 1 ≤ len ∧ len ≤ maxSealedChunk) then .error .malformed
  else .ok (some len)

/-! ## The sender -/

inductive SenderState where
  | streaming
  | done
deriving DecidableEq, Repr

structure Sender where
  state : SenderState := .streaming
  writer : Writer := .new
  cipher : ChunkCipher
  pending : Bytes := []
deriving DecidableEq, Repr

namespace Sender

variable (A : Aead)

def start (key snapshotId userId : Bytes) : Sender := { cipher := { key, snapshotId, userId } }

def streaming : Op HistoryFailure Sender Unit := do
  let s ← get
  if s.state ≠ .streaming then throw .malformed

/-- A call of the writer, whose bytes go to `pending`. -/
def write (c : Writer.Call) : Op HistoryFailure Sender Unit := do
  let b ← Op.zoom (·.writer) (fun w s => { s with writer := w }) (Writer.call c)
  modify fun s => { s with pending := s.pending ++ b }

/-- At most `n` chunks: every full one, and the remainder when `all`. The chunks and what is left
of `pending`. -/
def sealChunks (all : Bool) : (n : Nat) → Bytes → Op HistoryFailure ChunkCipher (Bytes × Bytes)
  | 0, pending => return ([], pending)
  | n + 1, pending => do
      if chunkPlaintext ≤ pending.length ∨ (all = true ∧ pending ≠ []) then
        let out ← ChunkCipher.sealNext A (pending.take chunkPlaintext)
        let (more, rest) ← sealChunks all n (pending.drop chunkPlaintext)
        return (out ++ more, rest)
      else return ([], pending)

/-- Seal every full chunk in `pending`, and the remainder when `all`. -/
def sealPending (all : Bool) : Op HistoryFailure Sender Bytes := do
  let s ← get
  let (out, rest) ← Op.zoom (·.cipher) (fun c s => { s with cipher := c })
    (sealChunks A all s.pending.length s.pending)
  modify fun s => { s with pending := rest }
  return out

/-- `push_record` and `begin_media`: a call of the writer, and the chunks it completed. -/
def push (c : Writer.Call) : Op HistoryFailure Sender Bytes := do
  streaming
  write c
  sealPending A false

def pushParts : List Bytes → Op HistoryFailure Sender Bytes
  | [] => return []
  | part :: parts => do
      write (.mediaBytes part)
      let out ← sealPending A false
      return out ++ (← pushParts parts)

/-- `push_record`, `begin_media`, `push_media` and `finish`: the bytes to put on the wire. -/
def call : Writer.Call → Op HistoryFailure Sender Bytes
  | .record ty proto => push A (.record ty proto)
  | .beginMedia mediaId mimeType byteLen => push A (.beginMedia mediaId mimeType byteLen)
  | .mediaBytes piece => do
      streaming
      pushParts A (piece.chunksOf chunkPlaintext)
  | .finish => do
      streaming
      write .finish
      let out ← sealPending A true
      modify fun s => { s with state := .done }
      return out ++ eof

def calls : List Writer.Call → Op HistoryFailure Sender Bytes
  | [] => return []
  | c :: cs => do
      let out ← call A c
      return out ++ (← calls cs)

end Sender

/-! ## The receiver -/

inductive ReceiverState where
  | chunkLen
  | chunk (len : Nat)
  | done
  | failed (f : HistoryFailure)
deriving DecidableEq, Repr

/-- Where the receiver stands after a `feed`. -/
inductive Status where
  | needMore
  | done
deriving DecidableEq, Repr

structure Receiver where
  state : ReceiverState := .chunkLen
  buf : Bytes := []
  cipher : ChunkCipher
  reader : Reader
deriving DecidableEq, Repr

namespace Receiver

variable (A : Aead)

/-- `start_stream`: the receiver once the channel key is agreed. -/
def start (key snapshotId userId : Bytes) : Receiver :=
  { cipher := { key, snapshotId, userId }, reader := Reader.new (some { snapshotId, userId }) }

def need (r : Receiver) : Nat :=
  match r.state with
  | .chunkLen => lenPrefix - r.buf.length
  | .chunk len => len - r.buf.length
  | .done => 0
  | .failed _ => 0

def fail (r : Receiver) (f : HistoryFailure) : Receiver :=
  { r with state := .failed f, buf := [] }

def complete (r : Receiver) (buf : Bytes) : Except HistoryFailure (Receiver × List Event) :=
  match r.state with
  | .chunkLen =>
    match sealedLen buf with
    | .error f => .error f
    | .ok (some len) => .ok ({ r with buf := [], state := .chunk len }, [])
    -- the end: the stream must already have ended with End
    | .ok none =>
      match r.reader.finish with
      | (_, .error f) => .error f
      | (reader, .ok ()) => .ok ({ r with buf := [], reader, state := .done }, [])
  | .chunk _ =>
    match ChunkCipher.openNext A buf r.cipher with
    | .error f _ => .error f
    | .ok plain cipher =>
      match r.reader.push plain with
      -- a push always ends
      | none => .error .malformed
      | some (_, _, .error f) => .error f
      | some (reader, events, .ok ()) =>
        .ok ({ r with buf := [], cipher, reader, state := .chunkLen }, events)
  -- bytes past the point the protocol stops reading are not the protocol
  | .done => .error .malformed
  | .failed f => .error f

def step (r : Receiver) (data : Bytes) : Except HistoryFailure (Receiver × Bytes × List Event) :=
  let take := min r.need data.length
  let buf := r.buf ++ data.take take
  let data := data.drop take
  if 0 < r.need - take then .ok ({ r with buf }, data, [])
  else (r.complete A buf).map fun s => (s.1, data, s.2)

def status (r : Receiver) : Status :=
  match r.state with
  | .done => .done
  | _ => .needMore

/-- Feed bytes read from the socket or file. Events for every chunk they complete are returned
with the status; a failure returns none of them. -/
def feed (r : Receiver) (data : Bytes) :
    Receiver × Except HistoryFailure (List Event × Status) :=
  match r.state with
  | .failed f => (r.fail f, .error f)
  | _ =>
    match Incremental.feed (step A) r data with
    -- the loop always ends
    | none => (r.fail .malformed, .error .malformed)
    | some (_, .error f) => (r.fail f, .error f)
    | some (events, .ok r') => (r', .ok (events, r'.status))

def endOfInput (r : Receiver) : Receiver × Except HistoryFailure Unit :=
  match r.state with
  | .done => (r, .ok ())
  | .failed f => (r, .error f)
  | _ => (r.fail .truncated, .error .truncated)

/-- Feed after feed, whatever comes of each: the receiver and the results. -/
def feeds (r : Receiver) :
    List Bytes → Receiver × List (Except HistoryFailure (List Event × Status))
  | [] => (r, [])
  | piece :: pieces =>
    let (r', res) := r.feed A piece
    let rest := r'.feeds pieces
    (rest.1, res :: rest.2)

def returned : List (Except HistoryFailure (List Event × Status)) → List Event
  | [] => []
  | .ok (events, _) :: rest => events ++ returned rest
  | .error _ :: rest => returned rest

def saidDone (results : List (Except HistoryFailure (List Event × Status))) : Prop :=
  ∃ events, .ok (events, .done) ∈ results

end Receiver

end History
