import ConstructCore.History.Chunking

/-!
# CTH1: writing the record stream

The writer frames records and refuses to frame one out of order. A call that is refused writes
nothing, but the order it has checked by then stays checked.

A reader that is fed what the writer wrote is `InStep` with it: same phase, the last rank it has
seen no higher than the writer's, and waiting for what the writer will write next.
`InStep.call` keeps this over every call, taken or refused, that meets `Call.Sound`.
-/

namespace History

open Bytes Incremental

structure Writer where
  order : Order := {}
  started : Bool := false
  ended : Bool := false
  /-- Blob bytes still owed by the media record being written. -/
  mediaRemaining : Nat := 0
deriving DecidableEq, Repr

namespace Writer

def new : Writer := {}

def preamble : Op HistoryFailure Writer Bytes := do
  let w ← get
  if w.started then return []
  else
    set { w with started := true }
    return magic ++ [version]

def ready : Op HistoryFailure Writer Unit := do
  let w ← get
  if w.ended ∨ 0 < w.mediaRemaining then throw .recordOrder

/-- `order.check`. -/
def checkOrder (ty : UInt8) : Op HistoryFailure Writer Unit := do
  let w ← get
  let order ← Op.ofExcept id (w.order.check ty)
  set { w with order }

/-- The content of a record, judged before it is framed. The phase of a manifest is taken over. -/
def judge (ty : UInt8) (proto : Bytes) : Op HistoryFailure Writer Unit := do
  if ty = RecordType.manifest then
    let m ← Op.ofExcept id (manifest proto)
    if m.formatVersion ≠ 1 ∨ ¬ (1 ≤ m.phase ∧ m.phase ≤ 3) then throw .malformed
    modify fun w => { w with order := { w.order with phase := m.phase } }
  else if ty = RecordType.message then
    let b ← Op.ofExcept id (messageBody proto)
    if b = .unset then throw .malformed
  else
    Op.ofExcept id (wellFormed proto)

def frame (ty : UInt8) (payloadLen : Nat) (payload : Bytes) : Bytes :=
  ty :: (leBytes 8 payloadLen ++ payload)

def record (ty : UInt8) (proto : Bytes) : Op HistoryFailure Writer Bytes := do
  ready
  if ¬ (RecordType.manifest ≤ ty ∧ ty ≤ RecordType.call) then throw .malformed
  if maxRecordBytes < proto.length then throw .malformed
  checkOrder ty
  judge ty proto
  let start ← preamble
  return start ++ frame ty proto.length proto

def textBytes (number : UInt8) (text : String) : Bytes :=
  tag number 2 :: (writeVarint (ofText text).length ++ ofText text)

/-- The head of a media blob of `byteLen` bytes. -/
def headBytes (mediaId mimeType : String) (byteLen : Nat) : Bytes :=
  textBytes 1 mediaId ++
    ((if mimeType = "" then [] else textBytes 2 mimeType) ++
      (if 0 < byteLen then tag 3 2 :: writeVarint byteLen else []))

/-- Begin a media blob of `byteLen` bytes: the record header and the blob's head. The addition of
the two lengths is one of 64-bit words. -/
def beginMedia (mediaId mimeType : String) (byteLen : Nat) : Op HistoryFailure Writer Bytes := do
  ready
  if mediaId = "" then throw .malformed
  let head := headBytes mediaId mimeType byteLen
  if mediaHeadCap < head.length then throw .malformed
  let payloadLen := (head.length + byteLen) % 2 ^ 64
  if maxRecordBytes < payloadLen then throw .malformed
  checkOrder RecordType.mediaBlob
  let start ← preamble
  modify fun w => { w with mediaRemaining := byteLen }
  return start ++ frame RecordType.mediaBlob payloadLen head

/-- The next piece of the blob begun by `beginMedia`. -/
def mediaBytes (piece : Bytes) : Op HistoryFailure Writer Bytes := do
  let w ← get
  if w.mediaRemaining < piece.length then throw .malformed
  set { w with mediaRemaining := w.mediaRemaining - piece.length }
  return piece

def finish : Op HistoryFailure Writer Bytes := do
  ready
  checkOrder RecordType.endRecord
  let start ← preamble
  modify fun w => { w with ended := true }
  return start ++ [RecordType.endRecord]

/-- A call of the writer. -/
inductive Call where
  | record (ty : UInt8) (proto : Bytes)
  | beginMedia (mediaId mimeType : String) (byteLen : Nat)
  | mediaBytes (piece : Bytes)
  | finish
deriving DecidableEq, Repr

def call : Call → Op HistoryFailure Writer Bytes
  | .record ty proto => record ty proto
  | .beginMedia mediaId mimeType byteLen => beginMedia mediaId mimeType byteLen
  | .mediaBytes piece => mediaBytes piece
  | .finish => finish

/-- What a sequence of calls came to: the writer after it, the calls it took and what it wrote
for each. A caller ignores the calls that are refused. -/
structure Written where
  writer : Writer
  taken : List Call := []
  pieces : List Bytes := []
deriving DecidableEq, Repr

def calls (w : Writer) : List Call → Written
  | [] => { writer := w }
  | c :: cs =>
    match call c w with
    | .ok b w' =>
      let rest := w'.calls cs
      { rest with taken := c :: rest.taken, pieces := b :: rest.pieces }
    | .error _ w' => w'.calls cs

def Written.bytes (v : Written) : Bytes := v.pieces.flatten

/-! ## What the calls say -/

/-- The event a record stands for: a message whose body is of an unknown kind is skipped. -/
def recordEvent (ty : UInt8) (proto : Bytes) : Event :=
  if ty = RecordType.message ∧ messageBody proto = .ok .unknown then .skipped ty
  else .record ty proto

/-- The events of one call, given the blob bytes owed before it, and the bytes owed after it. -/
def Call.events (owed : Nat) : Call → List Event × Nat
  | .record ty proto => ([recordEvent ty proto], owed)
  | .beginMedia mediaId mimeType byteLen =>
    (.mediaStart mediaId mimeType byteLen :: (if byteLen = 0 then [.mediaEnd] else []), byteLen)
  | .mediaBytes piece =>
    (.mediaBytes piece :: (if 0 < owed ∧ owed = piece.length then [.mediaEnd] else []),
      owed - piece.length)
  | .finish => ([.ended], owed)

def eventsOf (owed : Nat) : List Call → List Event
  | [] => []
  | c :: cs => (c.events owed).1 ++ eventsOf (c.events owed).2 cs

/-! ## What each call does -/

/-- The order a record leaves, given the one its type was checked to: its content passed, and a
manifest sets the phase. -/
inductive Judged (ty : UInt8) (proto : Bytes) (o : Order) : Order → Prop
  | manifest {m : ManifestFields} (hty : ty = RecordType.manifest) (hm : manifest proto = .ok m)
      (hversion : m.formatVersion = 1) (hphase : 1 ≤ m.phase ∧ m.phase ≤ 3) :
      Judged ty proto o { o with phase := m.phase }
  | message {b : Body} (hty : ty = RecordType.message) (hb : messageBody proto = .ok b)
      (hset : b ≠ .unset) : Judged ty proto o o
  | other (hmanifest : ty ≠ RecordType.manifest) (hmessage : ty ≠ RecordType.message)
      (hproto : wellFormed proto = .ok ()) : Judged ty proto o o

def Framable (proto : Bytes) : Prop :=
  ∃ m, manifest proto = .ok m ∧ m.formatVersion = 1 ∧ 1 ≤ m.phase ∧ m.phase ≤ 3

section Specs

variable {w : Writer} {ty : UInt8} {proto piece : Bytes} {mediaId mimeType : String}
  {byteLen : Nat}

def opening (w : Writer) : Bytes := if w.started then [] else magic ++ [version]

theorem preamble_run (w : Writer) :
    preamble w = .ok w.opening { w with started := true } := by
  show (if w.started = true then _ else _ : Op HistoryFailure Writer Bytes) w = _
  unfold opening
  obtain ⟨order, started, ended, mediaRemaining⟩ := w
  cases started <;> rfl

theorem ready_spec :
    Op.Ensures ready w (fun _ w' => w' = w ∧ w.ended = false ∧ w.mediaRemaining = 0)
      (fun _ w' => w' = w) := by
  unfold ready
  rw [Op.ensures_bind, Op.ensures_get, Op.ensures_ite]
  refine ⟨fun _ => (rfl : w = w), fun h => ?_⟩
  obtain ⟨hended, howed⟩ := not_or.mp h
  exact ⟨rfl, Bool.eq_false_iff.mpr hended, Nat.eq_zero_of_not_pos howed⟩

theorem checkOrder_spec :
    Op.Ensures (checkOrder ty) w
      (fun _ w' => ∃ order, w.order.check ty = .ok order ∧ w' = { w with order })
      (fun _ w' => w' = w) := by
  unfold checkOrder
  rw [Op.ensures_bind, Op.ensures_get, Op.ensures_bind, Op.ensures_ofExcept]
  exact ⟨fun order h => ⟨order, h, rfl⟩, fun _ _ => rfl⟩

theorem judge_spec :
    Op.Ensures (judge ty proto) w
      (fun _ w' => ∃ order, Judged ty proto w.order order ∧ w' = { w with order })
      (fun _ w' => w' = w ∧ (ty = RecordType.manifest → ¬ Framable proto)) := by
  unfold judge
  rw [Op.ensures_ite]
  refine ⟨fun hty => ?_, fun hmanifest => ?_⟩
  · rw [Op.ensures_bind, Op.ensures_ofExcept]
    refine ⟨fun m hm => ?_, fun f hf => ⟨rfl, ?_⟩⟩
    · dsimp only
      rw [Op.ensures_ite]
      refine ⟨fun hbad => ⟨rfl, ?_⟩, fun hgood => ?_⟩
      · rintro - ⟨m', hm', hversion, hphase⟩
        obtain rfl : m = m' := Except.ok.inj (hm.symm.trans hm')
        rcases hbad with hbad | hbad
        · exact hbad hversion
        · exact hbad hphase
      · obtain ⟨hversion, hphase⟩ := not_or.mp hgood
        exact ⟨_, .manifest hty hm (not_not.mp hversion) (not_not.mp hphase), rfl⟩
    · rintro - ⟨m, hm, -⟩
      rw [hf] at hm
      cases hm
  · rw [Op.ensures_ite]
    refine ⟨fun hty => ?_, fun hmessage => ?_⟩
    · rw [Op.ensures_bind, Op.ensures_ofExcept]
      refine ⟨fun b hb => ?_, fun f hf => ⟨rfl, fun h => absurd h hmanifest⟩⟩
      rw [Op.ensures_ite]
      exact ⟨fun _ => ⟨rfl, fun h => absurd h hmanifest⟩,
        fun hset => ⟨_, .message hty hb hset, rfl⟩⟩
    · rw [Op.ensures_ofExcept]
      exact ⟨fun _ h => ⟨_, .other hmanifest hmessage h, rfl⟩,
        fun _ _ => ⟨rfl, fun h => absurd h hmanifest⟩⟩

/-- What is known of a record the writer frames. -/
structure RecordTaken (w : Writer) (ty : UInt8) (proto : Bytes) (b : Bytes) (w' : Writer) : Prop where
  running : w.ended = false
  paid : w.mediaRemaining = 0
  transcript : RecordType.manifest ≤ ty ∧ ty ≤ RecordType.call
  fits : proto.length ≤ maxRecordBytes
  judged : ∃ checked order, w.order.check ty = .ok checked ∧ Judged ty proto checked order ∧
    w' = { w with order, started := true }
  written : b = w.opening ++ frame ty proto.length proto

/-- What a refused call may leave behind: the order of a record whose content was refused. -/
def Left (w : Writer) (c : Call) (w' : Writer) : Prop :=
  w' = w ∨ ∃ ty proto order, c = .record ty proto ∧
    (RecordType.manifest ≤ ty ∧ ty ≤ RecordType.call) ∧ proto.length ≤ maxRecordBytes ∧
    w.order.check ty = .ok order ∧ w' = { w with order } ∧
    (ty = RecordType.manifest → ¬ Framable proto)

theorem Left.mediaRemaining {c : Call} {w' : Writer} (h : Left w c w') :
    w'.mediaRemaining = w.mediaRemaining := by
  obtain rfl | ⟨_, _, _, -, -, -, -, rfl, -⟩ := h <;> rfl

theorem record_spec :
    Op.Ensures (record ty proto) w (RecordTaken w ty proto)
      (fun _ w' => Left w (.record ty proto) w') := by
  unfold record
  rw [Op.ensures_bind]
  refine ready_spec.mono ?_ (fun _ _ h => .inl h)
  rintro _ w₁ ⟨rfl, hrunning, hpaid⟩
  dsimp only
  rw [Op.ensures_ite]
  refine ⟨fun _ => .inl rfl, fun hrange => ?_⟩
  rw [Op.ensures_ite]
  refine ⟨fun _ => .inl rfl, fun hfits => ?_⟩
  have hfits := Nat.le_of_not_lt hfits
  rw [Op.ensures_bind]
  refine checkOrder_spec.mono ?_ (fun _ _ h => .inl h)
  rintro _ w₂ ⟨checked, hchecked, rfl⟩
  rw [Op.ensures_bind]
  refine judge_spec.mono ?_ ?_
  · rintro _ w₃ ⟨order, hjudged, rfl⟩
    rw [Op.ensures_bind]
    unfold Op.Ensures
    rw [preamble_run]
    exact ⟨hrunning, hpaid, not_not.mp hrange, hfits, ⟨checked, order, hchecked, hjudged, rfl⟩, rfl⟩
  · rintro _ w₃ ⟨rfl, hmanifest⟩
    exact .inr ⟨ty, proto, checked, rfl, not_not.mp hrange, hfits, hchecked, rfl, hmanifest⟩

/-- What is known of a media blob the writer begins. -/
structure MediaTaken (w : Writer) (mediaId mimeType : String) (byteLen : Nat) (b : Bytes)
    (w' : Writer) : Prop where
  running : w.ended = false
  paid : w.mediaRemaining = 0
  named : mediaId ≠ ""
  capped : (headBytes mediaId mimeType byteLen).length ≤ mediaHeadCap
  fits : ((headBytes mediaId mimeType byteLen).length + byteLen) % 2 ^ 64 ≤ maxRecordBytes
  checked : ∃ order, w.order.check RecordType.mediaBlob = .ok order ∧
    w' = { w with order, started := true, mediaRemaining := byteLen }
  written : b = w.opening ++ frame RecordType.mediaBlob
    (((headBytes mediaId mimeType byteLen).length + byteLen) % 2 ^ 64)
    (headBytes mediaId mimeType byteLen)

theorem beginMedia_spec :
    Op.Ensures (beginMedia mediaId mimeType byteLen) w (MediaTaken w mediaId mimeType byteLen)
      (fun _ w' => w' = w) := by
  unfold beginMedia
  rw [Op.ensures_bind]
  refine ready_spec.mono ?_ (fun _ _ h => h)
  rintro _ w₁ ⟨rfl, hrunning, hpaid⟩
  dsimp only
  rw [Op.ensures_ite]
  refine ⟨fun _ => rfl, fun hnamed => ?_⟩
  rw [Op.ensures_ite]
  refine ⟨fun _ => rfl, fun hcapped => ?_⟩
  rw [Op.ensures_ite]
  refine ⟨fun _ => rfl, fun hfits => ?_⟩
  rw [Op.ensures_bind]
  refine checkOrder_spec.mono ?_ (fun _ _ h => h)
  rintro _ w₂ ⟨order, hchecked, rfl⟩
  rw [Op.ensures_bind]
  unfold Op.Ensures
  rw [preamble_run]
  exact ⟨hrunning, hpaid, hnamed, Nat.le_of_not_lt hcapped, Nat.le_of_not_lt hfits,
    ⟨order, hchecked, rfl⟩, rfl⟩

theorem mediaBytes_spec :
    Op.Ensures (mediaBytes piece) w
      (fun b w' => piece.length ≤ w.mediaRemaining ∧ b = piece ∧
        w' = { w with mediaRemaining := w.mediaRemaining - piece.length })
      (fun _ w' => w' = w) := by
  unfold mediaBytes
  rw [Op.ensures_bind, Op.ensures_get]
  dsimp only
  rw [Op.ensures_ite]
  exact ⟨fun _ => rfl, fun h => ⟨Nat.le_of_not_lt h, rfl, rfl⟩⟩

theorem finish_spec :
    Op.Ensures finish w
      (fun b w' => w.ended = false ∧ w.mediaRemaining = 0 ∧ b = w.opening ++ [RecordType.endRecord] ∧
        ∃ order, w.order.check RecordType.endRecord = .ok order ∧
          w' = { w with order, started := true, ended := true })
      (fun _ w' => w' = w) := by
  unfold finish
  rw [Op.ensures_bind]
  refine ready_spec.mono ?_ (fun _ _ h => h)
  rintro _ w₁ ⟨rfl, hrunning, hpaid⟩
  rw [Op.ensures_bind]
  refine checkOrder_spec.mono ?_ (fun _ _ h => h)
  rintro _ w₂ ⟨order, hchecked, rfl⟩
  rw [Op.ensures_bind]
  unfold Op.Ensures
  rw [preamble_run]
  exact ⟨hrunning, hpaid, rfl, order, hchecked, rfl⟩

/-- A refused call writes nothing, and leaves at most the order of a record whose content was
refused. -/
theorem call_error {c : Call} {f : HistoryFailure} {w' : Writer} (h : call c w = .error f w') :
    Left w c w' := by
  cases c with
  | record ty proto => exact record_spec.of_error h
  | beginMedia mediaId mimeType byteLen => exact .inl (beginMedia_spec.of_error h)
  | mediaBytes piece => exact .inl (mediaBytes_spec.of_error h)
  | finish => exact .inl (finish_spec.of_error h)

end Specs

end Writer

end History
