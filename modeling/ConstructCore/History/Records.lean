import ConstructCore.History.AccountIds
import ConstructCore.History.FieldWriter

/-!
# Transcript records

The six records of `history/records.rs`. A writer puts the fields out in the order of their numbers
and leaves zeros out; a reader starts from the zero record and takes each field the generic reader
finds, by its number.

`Takes known a fs b` says that a record's reader goes from `a` to `b` over the fields `fs`. Each
kind of field has one rule for it, with the setter of the field as its only datum, and a record's
round trip is the chain of its fields (`ContactRecord.takes` and so on).
-/

namespace History

open Bytes

/-! ## The records -/

structure ContactRecord where
  userId : Bytes := []
  username : String := ""
  displayName : String := ""
  localAlias : String := ""
  avatar : Bytes := []
  isContact : Bool := false
  isBlocked : Bool := false
  amISharingWith : Bool := false
  isSharingWithMe : Bool := false
  addedAtUnix : Int64 := 0
  sharedWithMeAtUnix : Int64 := 0
deriving DecidableEq

structure ChatRecord where
  otherUserId : Bytes := []
  isPinned : Bool := false
  isMuted : Bool := false
deriving DecidableEq

/-- The three cases of the `body` oneof, as their bytes. -/
inductive MessageBody where
  | content (b : Bytes)
  | album (b : Bytes)
  | profile (b : Bytes)
deriving DecidableEq, Repr

structure MessageRecord where
  id : String := ""
  fromUserId : Bytes := []
  toUserId : Bytes := []
  timestampUnixMs : Int64 := 0
  isSentByMe : Bool := false
  body : Option MessageBody := none
  replyToMessageId : String := ""
  replyToContent : String := ""
  isEdited : Bool := false
  editedAtUnixMs : Int64 := 0
  transcriptText : String := ""
  transcriptLanguage : String := ""
  transcriptGeneratedAtUnix : Int64 := 0
  suiteId : UInt32 := 0
  hasUnknownFields : Bool := false
deriving DecidableEq

structure ReactionRecord where
  targetMessageId : String := ""
  reactorUserId : Bytes := []
  emoji : String := ""
  timestampMs : Int64 := 0
deriving DecidableEq

structure PeerDeviceRecord where
  accountId : Bytes := []
  deviceId : String := ""
  identityKey : Bytes := []
  firstSeenAtUnix : Int64 := 0
deriving DecidableEq

structure CallRecord where
  id : String := ""
  peerUserId : Bytes := []
  isOutgoing : Bool := false
  status : UInt32 := 0
  startedAtUnix : Int64 := 0
  durationSeconds : Int64 := 0
deriving DecidableEq

/-! ## Reading -/

def text (b : Bytes) : Except HistoryFailure String := (toText? b).okOr .malformed

/-- `v as i64`. -/
def asI64 (v : Nat) : Int64 := (UInt64.ofNat v).toInt64

/-- `v as u32`. -/
def asU32 (v : Nat) : UInt32 := UInt32.ofNat v

/-- `i64::from` of a `u32`. -/
def i64OfU32 (v : UInt32) : Int64 := v.toUInt64.toInt64

/-- What a record's reader does with a field whose number it knows: the record with the field
taken, or `none` when the wire type is another. -/
abbrev Known (ρ : Type) := ρ → Nat × Value → Except HistoryFailure (Option ρ)

/-- One field of `read`: a known number with the wrong wire type is malformed, and other numbers
are reported as unknown. -/
def readStep {ρ : Type} (last : Nat) (known : Known ρ) (s : ρ × Bool) (f : Nat × Value) :
    Except HistoryFailure (ρ × Bool) :=
  if 1 ≤ f.1 ∧ f.1 ≤ last then do
    match ← known s.1 f with
    | some r => return (r, s.2)
    | none => throw .malformed
  else return (s.1, true)

/-- `read`: the record after all fields, and whether a field was unknown. -/
def read {ρ : Type} (buf : Bytes) (last : Nat) (known : Known ρ) (blank : ρ) :
    Except HistoryFailure (ρ × Bool) := do
  (← fields buf).foldlM (readStep last known) (blank, false)

def ContactRecord.known : Known ContactRecord
  | r, (1, .bytes b) => .ok (some { r with userId := b })
  | r, (2, .bytes b) => (text b).map fun s => some { r with username := s }
  | r, (3, .bytes b) => (text b).map fun s => some { r with displayName := s }
  | r, (4, .bytes b) => (text b).map fun s => some { r with localAlias := s }
  | r, (5, .bytes b) => .ok (some { r with avatar := b })
  | r, (6, .varint v) => .ok (some { r with isContact := v != 0 })
  | r, (7, .varint v) => .ok (some { r with isBlocked := v != 0 })
  | r, (8, .varint v) => .ok (some { r with amISharingWith := v != 0 })
  | r, (9, .varint v) => .ok (some { r with isSharingWithMe := v != 0 })
  | r, (10, .varint v) => .ok (some { r with addedAtUnix := asI64 v })
  | r, (11, .varint v) => .ok (some { r with sharedWithMeAtUnix := asI64 v })
  | _, _ => .ok none

def ContactRecord.decode (buf : Bytes) : Except HistoryFailure ContactRecord := do
  return (← read buf 11 ContactRecord.known {}).1

def ChatRecord.known : Known ChatRecord
  | r, (1, .bytes b) => .ok (some { r with otherUserId := b })
  | r, (2, .varint v) => .ok (some { r with isPinned := v != 0 })
  | r, (3, .varint v) => .ok (some { r with isMuted := v != 0 })
  | _, _ => .ok none

def ChatRecord.decode (buf : Bytes) : Except HistoryFailure ChatRecord := do
  return (← read buf 3 ChatRecord.known {}).1

def MessageRecord.known : Known MessageRecord
  | r, (1, .bytes b) => (text b).map fun s => some { r with id := s }
  | r, (2, .bytes b) => .ok (some { r with fromUserId := b })
  | r, (3, .bytes b) => .ok (some { r with toUserId := b })
  | r, (4, .varint v) => .ok (some { r with timestampUnixMs := asI64 v })
  | r, (5, .varint v) => .ok (some { r with isSentByMe := v != 0 })
  | r, (6, .bytes b) => .ok (some { r with body := some (.content b) })
  | r, (7, .bytes b) => (text b).map fun s => some { r with replyToMessageId := s }
  | r, (8, .bytes b) => (text b).map fun s => some { r with replyToContent := s }
  | r, (9, .varint v) => .ok (some { r with isEdited := v != 0 })
  | r, (10, .varint v) => .ok (some { r with editedAtUnixMs := asI64 v })
  | r, (11, .bytes b) => (text b).map fun s => some { r with transcriptText := s }
  | r, (12, .bytes b) => (text b).map fun s => some { r with transcriptLanguage := s }
  | r, (13, .varint v) => .ok (some { r with transcriptGeneratedAtUnix := asI64 v })
  | r, (14, .varint v) => .ok (some { r with suiteId := asU32 v })
  | r, (15, .bytes b) => .ok (some { r with body := some (.album b) })
  | r, (16, .bytes b) => .ok (some { r with body := some (.profile b) })
  | _, _ => .ok none

def MessageRecord.decode (buf : Bytes) : Except HistoryFailure MessageRecord := do
  let (r, unknown) ← read buf 16 MessageRecord.known {}
  return { r with hasUnknownFields := unknown }

def ReactionRecord.known : Known ReactionRecord
  | r, (1, .bytes b) => (text b).map fun s => some { r with targetMessageId := s }
  | r, (2, .bytes b) => .ok (some { r with reactorUserId := b })
  | r, (3, .bytes b) => (text b).map fun s => some { r with emoji := s }
  | r, (4, .varint v) => .ok (some { r with timestampMs := asI64 v })
  | _, _ => .ok none

def ReactionRecord.decode (buf : Bytes) : Except HistoryFailure ReactionRecord := do
  return (← read buf 4 ReactionRecord.known {}).1

def PeerDeviceRecord.known : Known PeerDeviceRecord
  | r, (1, .bytes b) => .ok (some { r with accountId := b })
  | r, (2, .bytes b) => (text b).map fun s => some { r with deviceId := s }
  | r, (3, .bytes b) => .ok (some { r with identityKey := b })
  | r, (4, .varint v) => .ok (some { r with firstSeenAtUnix := asI64 v })
  | _, _ => .ok none

def PeerDeviceRecord.decode (buf : Bytes) : Except HistoryFailure PeerDeviceRecord := do
  return (← read buf 4 PeerDeviceRecord.known {}).1

def CallRecord.known : Known CallRecord
  | r, (1, .bytes b) => (text b).map fun s => some { r with id := s }
  | r, (2, .bytes b) => .ok (some { r with peerUserId := b })
  | r, (3, .varint v) => .ok (some { r with isOutgoing := v != 0 })
  | r, (4, .varint v) => .ok (some { r with status := asU32 v })
  | r, (5, .varint v) => .ok (some { r with startedAtUnix := asI64 v })
  | r, (6, .varint v) => .ok (some { r with durationSeconds := asI64 v })
  | _, _ => .ok none

def CallRecord.decode (buf : Bytes) : Except HistoryFailure CallRecord := do
  return (← read buf 6 CallRecord.known {}).1

/-! ## Writing -/

def ContactRecord.encode (r : ContactRecord) : Bytes :=
  putBytes 1 r.userId ++ putBytes 2 (ofText r.username) ++ putBytes 3 (ofText r.displayName) ++
    putBytes 4 (ofText r.localAlias) ++ putBytes 5 r.avatar ++ putBool 6 r.isContact ++
    putBool 7 r.isBlocked ++ putBool 8 r.amISharingWith ++ putBool 9 r.isSharingWithMe ++
    putInt 10 r.addedAtUnix ++ putInt 11 r.sharedWithMeAtUnix

def ChatRecord.encode (r : ChatRecord) : Bytes :=
  putBytes 1 r.otherUserId ++ putBool 2 r.isPinned ++ putBool 3 r.isMuted

/-- The body at the first of its two places. A oneof case is written even when empty. -/
def putContent : Option MessageBody → Bytes
  | some (.content b) => putAlwaysBytes 6 b
  | _ => []

def putLateBody : Option MessageBody → Bytes
  | some (.album b) => putAlwaysBytes 15 b
  | some (.profile b) => putAlwaysBytes 16 b
  | _ => []

def MessageRecord.encode (r : MessageRecord) : Bytes :=
  putBytes 1 (ofText r.id) ++ putBytes 2 r.fromUserId ++ putBytes 3 r.toUserId ++
    putInt 4 r.timestampUnixMs ++ putBool 5 r.isSentByMe ++ putContent r.body ++
    putBytes 7 (ofText r.replyToMessageId) ++ putBytes 8 (ofText r.replyToContent) ++
    putBool 9 r.isEdited ++ putInt 10 r.editedAtUnixMs ++ putBytes 11 (ofText r.transcriptText) ++
    putBytes 12 (ofText r.transcriptLanguage) ++ putInt 13 r.transcriptGeneratedAtUnix ++
    putInt 14 (i64OfU32 r.suiteId) ++ putLateBody r.body

def ReactionRecord.encode (r : ReactionRecord) : Bytes :=
  putBytes 1 (ofText r.targetMessageId) ++ putBytes 2 r.reactorUserId ++ putBytes 3 (ofText r.emoji) ++
    putInt 4 r.timestampMs

def PeerDeviceRecord.encode (r : PeerDeviceRecord) : Bytes :=
  putBytes 1 r.accountId ++ putBytes 2 (ofText r.deviceId) ++ putBytes 3 r.identityKey ++
    putInt 4 r.firstSeenAtUnix

def CallRecord.encode (r : CallRecord) : Bytes :=
  putBytes 1 (ofText r.id) ++ putBytes 2 r.peerUserId ++ putBool 3 r.isOutgoing ++
    putInt 4 (i64OfU32 r.status) ++ putInt 5 r.startedAtUnix ++ putInt 6 r.durationSeconds

/-! ## Fields one at a time -/

def textItem (number : Nat) (s : String) : List (Nat × Value) := bytesItem number (ofText s)

def boolItem (number : Nat) (v : Bool) : List (Nat × Value) :=
  intItem number (if v then 1 else 0)

@[simp] theorem flatMap_textItem (number : Nat) (s : String) :
    (textItem number s).flatMap emit = putBytes number (ofText s) :=
  flatMap_bytesItem number _

@[simp] theorem flatMap_boolItem (number : Nat) (v : Bool) :
    (boolItem number v).flatMap emit = putBool number v :=
  flatMap_intItem number _

/-- A record's reader goes from `a` to `b` over the fields, and knows them all. -/
structure Takes {ρ : Type} (last : Nat) (known : Known ρ) (a : ρ) (fs : List (Nat × Value))
    (b : ρ) : Prop where
  fold : fs.foldlM (readStep last known) (a, false) = .ok (b, false)
  inRange : ∀ f ∈ fs, InRange last f

namespace Takes

variable {ρ : Type} {last : Nat} {known : Known ρ} {a b c : ρ}

theorem nil : Takes last known a [] a := ⟨rfl, fun _ hf => nomatch hf⟩

theorem cons {fs : List (Nat × Value)} {rest : List (List (Nat × Value))}
    (h : Takes last known a fs b) (h' : Takes last known b rest.flatten c) :
    Takes last known a (fs :: rest).flatten c where
  fold := by
    rw [List.flatten_cons, List.foldlM_append, h.fold]
    exact h'.fold
  inRange f hf := by
    rcases List.mem_append.mp hf with hf | hf
    · exact h.inRange f hf
    · exact h'.inRange f hf

variable {number : Nat}

theorem single {v : Value} (hn : 1 ≤ number ∧ number ≤ last)
    (hv : (∃ n < 2 ^ 64, v = .varint n) ∨ ∃ t, v = .bytes t)
    (h : known a (number, v) = .ok (some b)) : Takes last known a [(number, v)] b where
  fold := by
    rw [List.foldlM_cons, readStep, if_pos hn, h]
    rfl
  inRange f hf := by
    obtain rfl := List.mem_singleton.mp hf
    exact ⟨hn.1, hn.2, hv⟩

theorem bytes (set : ρ → Bytes → ρ) (t : Bytes)
    (hn : 1 ≤ number ∧ number ≤ last := by decide) (hzero : set a [] = a := by rfl)
    (hset : ∀ t, known a (number, .bytes t) = .ok (some (set a t)) := by intro; rfl) :
    Takes last known a (bytesItem number t) (set a t) := by
  unfold bytesItem
  by_cases ht : t = []
  · subst ht
    rw [if_pos rfl, hzero]
    exact .nil
  · rw [if_neg ht]
    exact .single hn (.inr ⟨t, rfl⟩) (hset t)

theorem text (set : ρ → String → ρ) (s : String)
    (hn : 1 ≤ number ∧ number ≤ last := by decide) (hzero : set a "" = a := by rfl)
    (hset : ∀ t, known a (number, .bytes t) = (History.text t).map fun s => some (set a s) :=
      by intro; rfl) :
    Takes last known a (textItem number s) (set a s) := by
  have hread : known a (number, .bytes (ofText s)) = .ok (some (set a s)) := by
    rw [hset, History.text, toText?_ofText]
    rfl
  unfold textItem bytesItem
  by_cases hs : ofText s = []
  · have hempty : s = "" := by
      have hback := toText?_ofText s
      rw [hs] at hback
      exact (Option.some.inj hback).symm
    subst hempty
    rw [if_pos hs, hzero]
    exact .nil
  · rw [if_neg hs]
    exact .single hn (.inr ⟨_, rfl⟩) hread

theorem int (set : ρ → Int64 → ρ) (v : Int64)
    (hn : 1 ≤ number ∧ number ≤ last := by decide) (hzero : set a 0 = a := by rfl)
    (hset : ∀ v, known a (number, .varint v) = .ok (some (set a (asI64 v))) := by intro; rfl) :
    Takes last known a (intItem number v) (set a v) := by
  unfold intItem
  by_cases hv : v = 0
  · subst hv
    rw [if_pos rfl, hzero]
    exact .nil
  · have hback : asI64 v.toUInt64.toNat = v := by
      rw [asI64, UInt64.ofNat_toNat]
      rfl
    rw [if_neg hv]
    refine .single hn (.inl ⟨_, v.toUInt64.toNat_lt, rfl⟩) ?_
    rw [hset, hback]

theorem u32 (set : ρ → UInt32 → ρ) (v : UInt32)
    (hn : 1 ≤ number ∧ number ≤ last := by decide) (hzero : set a 0 = a := by rfl)
    (hset : ∀ v, known a (number, .varint v) = .ok (some (set a (asU32 v))) := by intro; rfl) :
    Takes last known a (intItem number (i64OfU32 v)) (set a v) := by
  have hnat : (i64OfU32 v).toUInt64.toNat = v.toNat := rfl
  unfold intItem
  by_cases hv : i64OfU32 v = 0
  · have hzero' : v = 0 := by
      apply UInt32.toNat_inj.mp
      rw [← hnat, hv]
      rfl
    subst hzero'
    rw [if_pos hv, hzero]
    exact .nil
  · rw [if_neg hv]
    refine .single hn (.inl ⟨_, (i64OfU32 v).toUInt64.toNat_lt, rfl⟩) ?_
    rw [hset, hnat, asU32, UInt32.ofNat_toNat]

theorem bool (set : ρ → Bool → ρ) (v : Bool)
    (hn : 1 ≤ number ∧ number ≤ last := by decide) (hzero : set a false = a := by rfl)
    (hset : ∀ v, known a (number, .varint v) = .ok (some (set a (v != 0))) := by intro; rfl) :
    Takes last known a (boolItem number v) (set a v) := by
  cases v with
  | false =>
    rw [hzero]
    exact .nil
  | true =>
    refine .single hn (.inl ⟨1, by decide, rfl⟩) ?_
    exact hset 1

end Takes

/-! ## Record by record -/

def ContactRecord.items (r : ContactRecord) : List (Nat × Value) :=
  [bytesItem 1 r.userId, textItem 2 r.username, textItem 3 r.displayName, textItem 4 r.localAlias,
    bytesItem 5 r.avatar, boolItem 6 r.isContact, boolItem 7 r.isBlocked,
    boolItem 8 r.amISharingWith, boolItem 9 r.isSharingWithMe, intItem 10 r.addedAtUnix,
    intItem 11 r.sharedWithMeAtUnix].flatten

theorem ContactRecord.takes (r : ContactRecord) : Takes 11 ContactRecord.known {} r.items r := by
  refine .cons (.bytes (fun a x => { a with userId := x }) _) ?_
  refine .cons (.text (fun a x => { a with username := x }) _) ?_
  refine .cons (.text (fun a x => { a with displayName := x }) _) ?_
  refine .cons (.text (fun a x => { a with localAlias := x }) _) ?_
  refine .cons (.bytes (fun a x => { a with avatar := x }) _) ?_
  refine .cons (.bool (fun a x => { a with isContact := x }) _) ?_
  refine .cons (.bool (fun a x => { a with isBlocked := x }) _) ?_
  refine .cons (.bool (fun a x => { a with amISharingWith := x }) _) ?_
  refine .cons (.bool (fun a x => { a with isSharingWithMe := x }) _) ?_
  refine .cons (.int (fun a x => { a with addedAtUnix := x }) _) ?_
  refine .cons (.int (fun a x => { a with sharedWithMeAtUnix := x }) _) ?_
  exact .nil

theorem ContactRecord.encode_eq (r : ContactRecord) : r.encode = r.items.flatMap emit := by
  simp [ContactRecord.encode, ContactRecord.items]

def ChatRecord.items (r : ChatRecord) : List (Nat × Value) :=
  [bytesItem 1 r.otherUserId, boolItem 2 r.isPinned, boolItem 3 r.isMuted].flatten

theorem ChatRecord.takes (r : ChatRecord) : Takes 3 ChatRecord.known {} r.items r := by
  refine .cons (.bytes (fun a x => { a with otherUserId := x }) _) ?_
  refine .cons (.bool (fun a x => { a with isPinned := x }) _) ?_
  refine .cons (.bool (fun a x => { a with isMuted := x }) _) ?_
  exact .nil

theorem ChatRecord.encode_eq (r : ChatRecord) : r.encode = r.items.flatMap emit := by
  simp [ChatRecord.encode, ChatRecord.items]

def ReactionRecord.items (r : ReactionRecord) : List (Nat × Value) :=
  [textItem 1 r.targetMessageId, bytesItem 2 r.reactorUserId, textItem 3 r.emoji,
    intItem 4 r.timestampMs].flatten

theorem ReactionRecord.takes (r : ReactionRecord) : Takes 4 ReactionRecord.known {} r.items r := by
  refine .cons (.text (fun a x => { a with targetMessageId := x }) _) ?_
  refine .cons (.bytes (fun a x => { a with reactorUserId := x }) _) ?_
  refine .cons (.text (fun a x => { a with emoji := x }) _) ?_
  refine .cons (.int (fun a x => { a with timestampMs := x }) _) ?_
  exact .nil

theorem ReactionRecord.encode_eq (r : ReactionRecord) : r.encode = r.items.flatMap emit := by
  simp [ReactionRecord.encode, ReactionRecord.items]

def PeerDeviceRecord.items (r : PeerDeviceRecord) : List (Nat × Value) :=
  [bytesItem 1 r.accountId, textItem 2 r.deviceId, bytesItem 3 r.identityKey,
    intItem 4 r.firstSeenAtUnix].flatten

theorem PeerDeviceRecord.takes (r : PeerDeviceRecord) : Takes 4 PeerDeviceRecord.known {} r.items r := by
  refine .cons (.bytes (fun a x => { a with accountId := x }) _) ?_
  refine .cons (.text (fun a x => { a with deviceId := x }) _) ?_
  refine .cons (.bytes (fun a x => { a with identityKey := x }) _) ?_
  refine .cons (.int (fun a x => { a with firstSeenAtUnix := x }) _) ?_
  exact .nil

theorem PeerDeviceRecord.encode_eq (r : PeerDeviceRecord) : r.encode = r.items.flatMap emit := by
  simp [PeerDeviceRecord.encode, PeerDeviceRecord.items]

def CallRecord.items (r : CallRecord) : List (Nat × Value) :=
  [textItem 1 r.id, bytesItem 2 r.peerUserId, boolItem 3 r.isOutgoing,
    intItem 4 (i64OfU32 r.status), intItem 5 r.startedAtUnix, intItem 6 r.durationSeconds].flatten

theorem CallRecord.takes (r : CallRecord) : Takes 6 CallRecord.known {} r.items r := by
  refine .cons (.text (fun a x => { a with id := x }) _) ?_
  refine .cons (.bytes (fun a x => { a with peerUserId := x }) _) ?_
  refine .cons (.bool (fun a x => { a with isOutgoing := x }) _) ?_
  refine .cons (.u32 (fun a x => { a with status := x }) _) ?_
  refine .cons (.int (fun a x => { a with startedAtUnix := x }) _) ?_
  refine .cons (.int (fun a x => { a with durationSeconds := x }) _) ?_
  exact .nil

theorem CallRecord.encode_eq (r : CallRecord) : r.encode = r.items.flatMap emit := by
  simp [CallRecord.encode, CallRecord.items]


/-! ## The message record -/

def contentItem : Option MessageBody → List (Nat × Value)
  | some (.content b) => [(6, .bytes b)]
  | _ => []

def lateBodyItem : Option MessageBody → List (Nat × Value)
  | some (.album b) => [(15, .bytes b)]
  | some (.profile b) => [(16, .bytes b)]
  | _ => []

def earlyBody : Option MessageBody → Option MessageBody
  | some (.content b) => some (.content b)
  | _ => none

def MessageRecord.items (r : MessageRecord) : List (Nat × Value) :=
  [textItem 1 r.id, bytesItem 2 r.fromUserId, bytesItem 3 r.toUserId, intItem 4 r.timestampUnixMs,
    boolItem 5 r.isSentByMe, contentItem r.body, textItem 7 r.replyToMessageId,
    textItem 8 r.replyToContent, boolItem 9 r.isEdited, intItem 10 r.editedAtUnixMs,
    textItem 11 r.transcriptText, textItem 12 r.transcriptLanguage,
    intItem 13 r.transcriptGeneratedAtUnix, intItem 14 (i64OfU32 r.suiteId),
    lateBodyItem r.body].flatten

variable {a r : MessageRecord}

theorem MessageRecord.takes_content (ha : a.body = none) (body : Option MessageBody) :
    Takes 16 MessageRecord.known a (contentItem body) { a with body := earlyBody body } := by
  have hnone : { a with body := none } = a := by rw [← ha]
  rcases body with _ | b | b | b
  · exact hnone ▸ .nil
  · exact .single (by decide) (.inr ⟨b, rfl⟩) rfl
  · exact hnone ▸ .nil
  · exact hnone ▸ .nil

theorem MessageRecord.takes_lateBody {body : Option MessageBody} (ha : a.body = earlyBody body) :
    Takes 16 MessageRecord.known a (lateBodyItem body) { a with body := body } := by
  have hsame : ∀ body', a.body = body' → { a with body := body' } = a := by
    rintro _ rfl
    rfl
  rcases body with _ | b | b | b
  · exact (hsame _ ha) ▸ .nil
  · exact (hsame _ ha) ▸ .nil
  · exact .single (by decide) (.inr ⟨b, rfl⟩) rfl
  · exact .single (by decide) (.inr ⟨b, rfl⟩) rfl

theorem MessageRecord.takes (r : MessageRecord) :
    Takes 16 MessageRecord.known {} r.items { r with hasUnknownFields := false } := by
  refine .cons (.text (fun a x => { a with id := x }) _) ?_
  refine .cons (.bytes (fun a x => { a with fromUserId := x }) _) ?_
  refine .cons (.bytes (fun a x => { a with toUserId := x }) _) ?_
  refine .cons (.int (fun a x => { a with timestampUnixMs := x }) _) ?_
  refine .cons (.bool (fun a x => { a with isSentByMe := x }) _) ?_
  refine .cons (MessageRecord.takes_content rfl r.body) ?_
  refine .cons (.text (fun a x => { a with replyToMessageId := x }) _) ?_
  refine .cons (.text (fun a x => { a with replyToContent := x }) _) ?_
  refine .cons (.bool (fun a x => { a with isEdited := x }) _) ?_
  refine .cons (.int (fun a x => { a with editedAtUnixMs := x }) _) ?_
  refine .cons (.text (fun a x => { a with transcriptText := x }) _) ?_
  refine .cons (.text (fun a x => { a with transcriptLanguage := x }) _) ?_
  refine .cons (.int (fun a x => { a with transcriptGeneratedAtUnix := x }) _) ?_
  refine .cons (.u32 (fun a x => { a with suiteId := x }) _) ?_
  refine .cons (MessageRecord.takes_lateBody rfl) ?_
  exact .nil

@[simp] theorem flatMap_contentItem (body : Option MessageBody) :
    (contentItem body).flatMap emit = putContent body := by
  rcases body with _ | b | b | b <;> simp [contentItem, putContent, emit]

@[simp] theorem flatMap_lateBodyItem (body : Option MessageBody) :
    (lateBodyItem body).flatMap emit = putLateBody body := by
  rcases body with _ | b | b | b <;> simp [lateBodyItem, putLateBody, emit]

theorem MessageRecord.encode_eq (r : MessageRecord) : r.encode = r.items.flatMap emit := by
  simp [MessageRecord.encode, MessageRecord.items]

/-! ## The round trip -/

/-- What a record's writer wrote, its reader reads, and it is well formed. -/
theorem read_encoded {ρ : Type} {last : Nat} {known : Known ρ} {blank r : ρ}
    {fs : List (Nat × Value)} {buf : Bytes} (hlast : last < 2 ^ 32) (hbuf : buf = fs.flatMap emit)
    (h : Takes last known blank fs r) (hlen : buf.length < 2 ^ 64) :
    read buf last known blank = .ok (r, false) ∧ wellFormed buf = .ok () ∧ fields buf = .ok fs := by
  subst hbuf
  have hfields := fields_emit (writable_of_inRange hlast h.inRange hlen)
  refine ⟨?_, ?_, hfields⟩
  · rw [read, hfields]
    exact h.fold
  · rw [wellFormed, hfields]
    rfl

theorem MessageRecord.decode_encode (hunknown : r.hasUnknownFields = false)
    (hlen : r.encode.length < 2 ^ 64) :
    MessageRecord.decode r.encode = .ok r ∧ wellFormed r.encode = .ok () := by
  obtain ⟨hread, hwell, -⟩ := read_encoded (by decide) r.encode_eq r.takes hlen
  refine ⟨?_, hwell⟩
  rw [MessageRecord.decode, hread]
  show Except.ok { r with hasUnknownFields := false } = _
  rw [← hunknown]

/-! ## The body of a message, judged without decoding it -/

/-- `message_body` goes over the fields with `seen` becoming `seen'`, and no field is unknown. -/
def Sees (seen : Bool) (fs : List (Nat × Value)) (seen' : Bool) : Prop :=
  fs.foldlM Body.see (seen, false) = .ok (seen', false)

namespace Sees

variable {seen seen' seen'' : Bool}

theorem nil : Sees seen [] seen := rfl

theorem cons {fs : List (Nat × Value)} {rest : List (List (Nat × Value))} (h : Sees seen fs seen')
    (h' : Sees seen' rest.flatten seen'') : Sees seen (fs :: rest).flatten seen'' := by
  unfold Sees at h h' ⊢
  rw [List.flatten_cons, List.foldlM_append, h]
  exact h'

variable {number : Nat}

theorem other (hn : number ∉ [6, 15, 16] ∧ 1 ≤ number ∧ number ≤ 16) (v : Value) :
    Sees seen [(number, v)] seen := by
  unfold Sees
  rw [List.foldlM_cons, Body.see, if_neg hn.1, if_pos hn.2]
  rfl

theorem bytes (hn : number ∉ [6, 15, 16] ∧ 1 ≤ number ∧ number ≤ 16) (b : Bytes) :
    Sees seen (bytesItem number b) seen := by
  unfold bytesItem
  split
  · exact nil
  · exact other hn _

theorem int (hn : number ∉ [6, 15, 16] ∧ 1 ≤ number ∧ number ≤ 16) (v : Int64) :
    Sees seen (intItem number v) seen := by
  unfold intItem
  split
  · exact nil
  · exact other hn _

end Sees

theorem sees_content (body : Option MessageBody) :
    Sees false (contentItem body) (earlyBody body).isSome := by
  rcases body with _ | b | b | b <;> rfl

theorem sees_lateBody (body : Option MessageBody) :
    Sees (earlyBody body).isSome (lateBodyItem body) body.isSome := by
  rcases body with _ | b | b | b <;> rfl

theorem MessageRecord.sees (r : MessageRecord) : Sees false r.items r.body.isSome := by
  refine .cons (.bytes (by decide) _) ?_
  refine .cons (.bytes (by decide) _) ?_
  refine .cons (.bytes (by decide) _) ?_
  refine .cons (.int (by decide) _) ?_
  refine .cons (.int (by decide) _) ?_
  refine .cons (sees_content r.body) ?_
  refine .cons (.bytes (by decide) _) ?_
  refine .cons (.bytes (by decide) _) ?_
  refine .cons (.int (by decide) _) ?_
  refine .cons (.int (by decide) _) ?_
  refine .cons (.bytes (by decide) _) ?_
  refine .cons (.bytes (by decide) _) ?_
  refine .cons (.int (by decide) _) ?_
  refine .cons (.int (by decide) _) ?_
  refine .cons (sees_lateBody r.body) ?_
  exact .nil

/-- `message_body` of an encoded message tells whether the record has a body. -/
theorem messageBody_encode (hlen : r.encode.length < 2 ^ 64) :
    messageBody r.encode = .ok (if r.body.isSome then .known else .unset) := by
  obtain ⟨-, -, hfields⟩ := read_encoded (by decide) r.encode_eq r.takes hlen
  have hsees := r.sees
  unfold Sees at hsees
  rw [messageBody, hfields]
  show ((r.items.foldlM Body.see (false, false)) >>= _) = _
  rw [hsees]
  cases r.body.isSome <;> rfl

/-! ## What a transcript carries -/

/-- What is written of a record reads back as the record and is well-formed on the wire. The bound
is the one every byte vector has. -/
def ReadsBack {ρ : Type} (encode : ρ → Bytes) (decode : Bytes → Except HistoryFailure ρ)
    (r : ρ) : Prop :=
  (encode r).length < 2 ^ 64 → decode (encode r) = .ok r ∧ wellFormed (encode r) = .ok ()

theorem readsBack_of_takes {ρ : Type} {last : Nat} {known : Known ρ} {blank r : ρ}
    {encode : ρ → Bytes} {decode : Bytes → Except HistoryFailure ρ} {fs : List (Nat × Value)}
    (hdecode : ∀ buf, decode buf = read buf last known blank >>= fun s => pure s.1)
    (hencode : encode r = fs.flatMap emit) (h : Takes last known blank fs r)
    (hlast : last < 2 ^ 32 := by decide) : ReadsBack encode decode r := by
  intro hlen
  obtain ⟨hread, hwell, -⟩ := read_encoded hlast hencode h hlen
  refine ⟨?_, hwell⟩
  rw [hdecode, hread]
  rfl

/-- Every record reads back as it was written, a message's body is seen on the wire exactly when
the record has one, and ids go to text and back. -/
theorem record_codecs_lossless :
    (∀ r, ReadsBack ContactRecord.encode ContactRecord.decode r) ∧
    (∀ r, ReadsBack ChatRecord.encode ChatRecord.decode r) ∧
    (∀ r, ReadsBack ReactionRecord.encode ReactionRecord.decode r) ∧
    (∀ r, ReadsBack PeerDeviceRecord.encode PeerDeviceRecord.decode r) ∧
    (∀ r, ReadsBack CallRecord.encode CallRecord.decode r) ∧
    (∀ r : MessageRecord, r.hasUnknownFields = false →
      ReadsBack MessageRecord.encode MessageRecord.decode r) ∧
    (∀ r : MessageRecord, r.hasUnknownFields = false → r.encode.length < 2 ^ 64 →
      (messageBody r.encode = .ok .known ↔ r.body.isSome)) ∧
    (∀ b : Bytes, b.length = 16 → ∃ t, dashed b = some t ∧ IsLowerDashed t ∧ raw t = some b) ∧
    (∀ t, IsLowerDashed t → ∃ b, raw t = some b ∧ b.length = 16 ∧ dashed b = some t) := by
  refine ⟨fun r => readsBack_of_takes (fun _ => rfl) r.encode_eq r.takes,
    fun r => readsBack_of_takes (fun _ => rfl) r.encode_eq r.takes,
    fun r => readsBack_of_takes (fun _ => rfl) r.encode_eq r.takes,
    fun r => readsBack_of_takes (fun _ => rfl) r.encode_eq r.takes,
    fun r => readsBack_of_takes (fun _ => rfl) r.encode_eq r.takes,
    fun r hunknown => r.decode_encode hunknown, ?_, fun b => raw_dashed, fun t => dashed_raw⟩
  intro r _ hlen
  rw [messageBody_encode hlen]
  cases r.body.isSome <;> simp

/-- The bound is met by a message with an empty body and the least time. -/
theorem record_codecs_lossless_sample :
    let r : MessageRecord := { body := some (.content []), timestampUnixMs := Int64.minValue }
    MessageRecord.decode r.encode = .ok r ∧ wellFormed r.encode = .ok () ∧
      messageBody r.encode = .ok .known := by
  intro r
  have hlen : r.encode.length < 2 ^ 64 := by decide +kernel
  obtain ⟨-, -, -, -, -, hmessage, hbody, -, -⟩ := record_codecs_lossless
  exact ⟨(hmessage r rfl hlen).1, (hmessage r rfl hlen).2, (hbody r rfl hlen).mpr rfl⟩

end History
