import ConstructCore.History.Wire

/-!
# The fields of a sealed delivery

`crypto/sealed_sender/sealed_inner.rs` over the field iterator of `history/wire.rs`. `sealed_route`
stops at the first malformed field and takes the last occurrence of each; `content_type` and
`encrypted_payload` go on past a malformed field and take the first occurrence. The iterator's
position after a malformed field is part of the model, since the last two depend on it: it does not
move when the key itself cannot be read, and then they never return.

* `readFirst_of_fields`: on a well-formed buffer the two readers return the first occurrence.
* `readFirst_of_malformed`: on a malformed one whose keys can all be read they return the first
  occurrence the iterator comes upon, or the default.
-/

namespace ConstructCore

open Bytes History

namespace SealedInner

/-! ## The iterator -/

section Iterator

variable (buf : Bytes)

/-- `read_varint` and `ok_or`: the position moves when the varint is complete. -/
def varintAt : Op HistoryFailure Nat Nat := fun pos =>
  match wholeVarint buf pos with
  | .ok (v, p) => .ok v p
  | .error e => .error e pos

/-- `Fields::skip`. -/
def skipBy (n : Nat) : Op HistoryFailure Nat Unit := fun pos =>
  match skip buf pos n with
  | .ok p => .ok () p
  | .error e => .error e pos

/-- `Fields::field` once its number is known. -/
def valueOf (number wireType : Nat) : Op HistoryFailure Nat (Nat × Value) :=
  match wireType with
  | 0 => do return (number, .varint (← varintAt buf))
  | 1 => do
      skipBy buf 8
      return (number, .fixed64)
  | 2 => do
      let len ← varintAt buf
      let start ← get
      skipBy buf len
      return (number, .bytes ((buf.take (← get)).drop start))
  | 5 => do
      skipBy buf 4
      return (number, .fixed32)
  | _ => throw .malformed

/-- `Fields::field`. After an error the position is where the field broke. -/
def nextField : Op HistoryFailure Nat (Nat × Value) := do
  let key ← varintAt buf
  let number := key >>> 3
  if 2 ^ 32 ≤ number then throw .malformed
  if number = 0 then throw .malformed
  valueOf buf number (key &&& 7)

end Iterator

/-! ## The three readers -/

section Readers

variable {α : Type} (pick : Nat × Value → Option α) (default : α) (buf : Bytes)

/-- The loop of `content_type` and `encrypted_payload`: the first field that `pick` takes, errors
passed over. `none` when `n` rounds do not end it. -/
def readFrom : (n pos : Nat) → Option α
  | 0, _ => none
  | n + 1, pos =>
    if buf.length ≤ pos then some default
    else
      match nextField buf pos with
      | .ok f p =>
        match pick f with
        | some a => some a
        | none => readFrom n p
      | .error _ p => readFrom n p

/-- The value of the last field that `pick` takes. -/
def lastValue (fs : List (Nat × Value)) : α := (fs.filterMap pick).getLast?.getD default

end Readers

def pickContentType : Nat × Value → Option UInt8
  | (5, .varint v) => some (UInt8.ofNat v)
  | _ => none

/-- The bytes of field `number`. -/
def pickBytes (number : Nat) : Nat × Value → Option Bytes
  | (n, .bytes b) => if n = number then some b else none
  | _ => none

/-- `content_type`, in at most `n` rounds. -/
def contentType (n : Nat) (sealedInner : Bytes) : Option UInt8 :=
  readFrom pickContentType 0 sealedInner n 0

/-- `encrypted_payload`, in at most `n` rounds. -/
def encryptedPayload (n : Nat) (sealedInner : Bytes) : Option Bytes :=
  readFrom (pickBytes 4) [] sealedInner n 0

inductive SealedRoute where
  | sessionEnvelope (b : Bytes)
  | firstFlight (b : Bytes)
  | senderCertificate (b : Bytes)
deriving DecidableEq, Repr

/-- The three fields `sealed_route` keeps. -/
structure Writers where
  envelope : Bytes := []
  firstFlight : Bytes := []
  certificate : Bytes := []
deriving DecidableEq, Repr

/-- One field of `sealed_route`. -/
def Writers.see (w : Writers) : Nat × Value → Writers
  | (21, .bytes b) => { w with envelope := b }
  | (22, .bytes b) => { w with firstFlight := b }
  | (3, .bytes b) => { w with certificate := b }
  | _ => w

def Writers.route (w : Writers) : Option SealedRoute :=
  if w.envelope ≠ [] then some (.sessionEnvelope w.envelope)
  else if w.firstFlight ≠ [] then some (.firstFlight w.firstFlight)
  else if w.certificate ≠ [] then some (.senderCertificate w.certificate)
  else none

def sealedRoute (sealedInner : Bytes) : Option SealedRoute :=
  match fields sealedInner with
  | .error _ => none
  | .ok fs => (fs.foldl Writers.see {}).route

/-! ## The iterator and the fields of a message -/

/-- The iterator does what the reader of a whole message does, and after an error it stands at
`start` or later. -/
def Tracks (start : Nat) (r : EStateM.Result HistoryFailure Nat (Nat × Value))
    (x : Except HistoryFailure ((Nat × Value) × Nat)) : Prop :=
  (∀ f p, r = .ok f p → x = .ok (f, p)) ∧ ∀ e p, r = .error e p → x = .error e ∧ start ≤ p

variable {start p pos : Nat} {f : Nat × Value} {e : HistoryFailure} {α : Type}
  {fs : List (Nat × Value)}

theorem Tracks.ok : Tracks start (.ok f p) (.ok (f, p)) := by
  constructor
  · intro f' p' h
    cases h
    rfl
  · intro e p' h
    cases h

theorem Tracks.error (h : start ≤ p) :
    Tracks start (.error e p) (.error e) := by
  constructor
  · intro f' p' hr
    cases hr
  · intro e' p' hr
    cases hr
    exact ⟨rfl, h⟩

variable {buf : Bytes}

theorem get_apply (pos : Nat) : (get : Op HistoryFailure Nat Nat) pos = .ok pos pos := rfl

theorem valueOf_tracks (number wireType start : Nat) :
    Tracks start (valueOf buf number wireType start)
      (match wireType with
        | 0 => do
            let (v, pos) ← wholeVarint buf start
            return ((number, .varint v), pos)
        | 1 => do return ((number, .fixed64), ← skip buf start 8)
        | 2 => do
            let (len, first) ← wholeVarint buf start
            let pos ← skip buf first len
            return ((number, .bytes ((buf.take pos).drop first)), pos)
        | 5 => do return ((number, .fixed32), ← skip buf start 4)
        | _ => throw .malformed) := by
  unfold valueOf
  split
  · -- a varint
    cases hv : wholeVarint buf start with
    | error e =>
      simp only [varintAt, hv, bind, EStateM.bind, Except.bind]
      exact .error (Nat.le_refl start)
    | ok vp =>
      simp only [varintAt, hv, bind, EStateM.bind, Except.bind]
      exact .ok
  · cases hs : skip buf start 8 with
    | error e =>
      simp only [skipBy, hs, bind, EStateM.bind, Except.bind]
      exact .error (Nat.le_refl start)
    | ok p =>
      simp only [skipBy, hs, bind, EStateM.bind, Except.bind]
      exact .ok
  · -- a length, then as many bytes
    cases hv : wholeVarint buf start with
    | error e =>
      simp only [varintAt, hv, bind, EStateM.bind, Except.bind]
      exact .error (Nat.le_refl start)
    | ok vp =>
      obtain ⟨len, first⟩ := vp
      have hfirst := wholeVarint_ok hv
      cases hs : skip buf first len with
      | error e =>
        simp only [varintAt, skipBy, hv, hs, bind, EStateM.bind, Except.bind, get_apply]
        exact .error (Nat.le_of_lt hfirst)
      | ok p =>
        simp only [varintAt, skipBy, hv, hs, bind, EStateM.bind, Except.bind, get_apply]
        exact .ok
  · cases hs : skip buf start 4 with
    | error e =>
      simp only [skipBy, hs, bind, EStateM.bind, Except.bind]
      exact .error (Nat.le_refl start)
    | ok p =>
      simp only [skipBy, hs, bind, EStateM.bind, Except.bind]
      exact .ok
  · exact .error (Nat.le_refl start)

/-- The iterator moves past the key once it has read it, whatever comes of the field. -/
theorem nextField_tracks {key : Nat} (hkey : wholeVarint buf pos = .ok (key, start)) :
    Tracks start (nextField buf pos) (field buf pos) := by
  unfold nextField field
  simp only [varintAt, hkey, bind, EStateM.bind, Except.bind]
  by_cases hlarge : 2 ^ 32 ≤ key >>> 3
  · simp only [hlarge, if_true]
    exact .error (Nat.le_refl start)
  · by_cases hzero : key >>> 3 = 0
    · simp only [hzero, if_true]
      exact .error (Nat.le_refl start)
    · simp only [hlarge, hzero, if_false]
      exact valueOf_tracks _ _ start

theorem nextField_of_error (h : wholeVarint buf pos = .error e) :
    nextField buf pos = .error e pos ∧ field buf pos = .error e := by
  unfold nextField field
  simp only [varintAt, h, bind, EStateM.bind, Except.bind, and_self]

/-- The iterator yields a field exactly where the reader of a whole message finds one. -/
theorem nextField_eq_ok :
    nextField buf pos = .ok f p ↔ field buf pos = .ok (f, p) := by
  cases hkey : wholeVarint buf pos with
  | error e =>
    obtain ⟨hnext, hfield⟩ := nextField_of_error hkey
    simp [hnext, hfield]
  | ok k =>
    obtain ⟨hok, herror⟩ := nextField_tracks hkey
    constructor
    · exact hok f p
    · intro hfield
      cases hnext : nextField buf pos with
      | ok f' p' =>
        have hsame := hok f' p' hnext
        rw [hfield] at hsame
        cases hsame
        rfl
      | error e p' =>
        have hsame := (herror e p' hnext).1
        rw [hfield] at hsame
        cases hsame

/-! ## Well-formed buffers -/

section Reading

variable {α : Type} {pick : Nat × Value → Option α} {default : α}

variable {n pos : Nat} {fs : List (Nat × Value)}

theorem readFrom_mono {m : Nat} {a : α} (hle : n ≤ m) (h : readFrom pick default buf n pos = some a) :
    readFrom pick default buf m pos = some a := by
  induction n generalizing m pos with
  | zero => cases h
  | succ n ih =>
    obtain ⟨m, rfl⟩ : ∃ k, m = k + 1 := ⟨m - 1, by omega⟩
    rw [readFrom] at h ⊢
    by_cases hend : buf.length ≤ pos
    · rw [if_pos hend] at h ⊢
      exact h
    · rw [if_neg hend] at h ⊢
      cases hnext : nextField buf pos with
      | error e p =>
        rw [hnext] at h
        exact ih (Nat.le_of_succ_le_succ hle) h
      | ok f p =>
        rw [hnext] at h
        dsimp only at h ⊢
        cases hpick : pick f with
        | some b =>
          rw [hpick] at h
          exact h
        | none =>
          rw [hpick] at h
          exact ih (Nat.le_of_succ_le_succ hle) h

/-- From any position of a well-formed buffer the loop ends with the first field it is after. -/
theorem readFrom_of_fieldsFrom (hn : buf.length ≤ pos + n) (h : fieldsFrom buf n pos = .ok fs) :
    readFrom pick default buf (n + 1) pos = some ((fs.filterMap pick).head?.getD default) := by
  induction n generalizing pos fs with
  | zero =>
    cases h
    rw [readFrom, if_pos (by omega)]
    rfl
  | succ n ih =>
    rw [fieldsFrom] at h
    rw [readFrom]
    by_cases hend : buf.length ≤ pos
    · rw [if_pos hend] at h ⊢
      cases h
      rfl
    · rw [if_neg hend] at h ⊢
      obtain ⟨⟨f, p⟩, hfield, h⟩ := Except.exists_of_bind_ok h
      obtain ⟨rest, hrest, h⟩ := Except.exists_of_bind_ok h
      cases h
      have hp := field_ok hfield
      rw [nextField_eq_ok.mpr hfield]
      dsimp only
      cases hpick : pick f with
      | some a => simp [hpick]
      | none =>
        rw [List.filterMap_cons_none hpick]
        exact ih (by omega) hrest

theorem readFirst_of_fields (h : fields buf = .ok fs) :
    readFrom pick default buf (buf.length + 1) 0 =
      some ((fs.filterMap pick).head?.getD default) :=
  readFrom_of_fieldsFrom (by omega) h

/-! ## Malformed buffers -/

/-- The positions the iterator comes to. -/
inductive Reached (buf : Bytes) : Nat → Prop
  | start : Reached buf 0
  | field {pos p : Nat} {f : Nat × Value} (h : Reached buf pos) (hin : pos < buf.length)
      (hnext : nextField buf pos = .ok f p) : Reached buf p
  | broken {pos p : Nat} {e : HistoryFailure} (h : Reached buf pos) (hin : pos < buf.length)
      (hnext : nextField buf pos = .error e p) : Reached buf p

def KeysRead (buf : Bytes) : Prop :=
  ∀ pos, Reached buf pos → pos < buf.length → ∃ k, wholeVarint buf pos = .ok k

/-- The iterator yields no field that `pick` takes. -/
def Silent (pick : Nat × Value → Option α) (buf : Bytes) : Prop :=
  ∀ pos f p, Reached buf pos → pos < buf.length → nextField buf pos = .ok f p → pick f = none

theorem readFrom_of_silent (hkeys : KeysRead buf) (hsilent : Silent pick buf)
    (hpos : Reached buf pos) (hn : buf.length ≤ pos + n) :
    readFrom pick default buf (n + 1) pos = some default := by
  induction n generalizing pos with
  | zero => rw [readFrom, if_pos (by omega)]
  | succ n ih =>
    rw [readFrom]
    by_cases hend : buf.length ≤ pos
    · rw [if_pos hend]
    · rw [if_neg hend]
      have hin : pos < buf.length := Nat.lt_of_not_le hend
      obtain ⟨⟨key, start⟩, hkey⟩ := hkeys pos hpos hin
      have hstart := wholeVarint_ok hkey
      obtain ⟨-, herror⟩ := nextField_tracks hkey
      cases hnext : nextField buf pos with
      | error e p =>
        -- the key was read, so the position moved all the same
        have hp := (herror e p hnext).2
        exact ih (.broken hpos hin hnext) (by omega)
      | ok f p =>
        have hp := field_ok (nextField_eq_ok.mp hnext)
        dsimp only
        rw [hsilent pos f p hpos hin hnext]
        exact ih (.field hpos hin hnext) (by omega)

/-! ## The rule of the claim -/

/-- What protobuf says a reader gives: the last occurrence in a well-formed message, and the
default of anything else. -/
def protoValue (pick : Nat × Value → Option α) (default : α) (buf : Bytes) : α :=
  match fields buf with
  | .ok fs => lastValue pick default fs
  | .error _ => default

/-- A buffer on which first and last occurrence are the same: in a well-formed one there is at most
one; in a malformed one the iterator can read every key, and comes upon none. -/
structure Plain (pick : Nat × Value → Option α) (buf : Bytes) : Prop where
  once : ∀ fs, fields buf = .ok fs → (fs.filterMap pick).length ≤ 1
  keys : ∀ e, fields buf = .error e → KeysRead buf
  silent : ∀ e, fields buf = .error e → Silent pick buf

theorem readFrom_of_plain (h : Plain pick buf) (hn : buf.length + 1 ≤ n) :
    readFrom pick default buf n 0 = some (protoValue pick default buf) := by
  apply readFrom_mono hn
  unfold protoValue
  cases hfields : fields buf with
  | error e => exact readFrom_of_silent (h.keys e hfields) (h.silent e hfields) .start (by omega)
  | ok fs =>
    rw [readFirst_of_fields hfields]
    have honce := h.once fs hfields
    dsimp only [lastValue]
    cases hpicked : fs.filterMap pick with
    | nil => rfl
    | cons a rest =>
      rw [hpicked, List.length_cons] at honce
      obtain rfl := List.eq_nil_of_length_eq_zero (by omega : rest.length = 0)
      rfl

end Reading

/-! ## The route -/

theorem getLast?_filterMap_cons {pick : Nat × Value → Option α} {old : α} :
    ((f :: fs).filterMap pick).getLast?.getD old =
      (fs.filterMap pick).getLast?.getD ((pick f).getD old) := by
  cases hpick : pick f with
  | none => rw [List.filterMap_cons_none hpick]; rfl
  | some a => rw [List.filterMap_cons_some hpick, List.getLast?_cons]; rfl

theorem Writers.see_eq (w : Writers) (f : Nat × Value) :
    w.see f = ⟨(pickBytes 21 f).getD w.envelope, (pickBytes 22 f).getD w.firstFlight,
      (pickBytes 3 f).getD w.certificate⟩ := by
  unfold Writers.see
  split
  · rfl
  · rfl
  · rfl
  · rename_i h21 h22 h3
    have hnone : ∀ number, (∀ b, f ≠ (number, .bytes b)) → pickBytes number f = none := by
      intro number hne
      obtain ⟨m, v⟩ := f
      cases v with
      | bytes b =>
        have hm : m ≠ number := by
          rintro rfl
          exact hne b rfl
        simp [pickBytes, hm]
      | varint _ => rfl
      | fixed64 => rfl
      | fixed32 => rfl
    rw [hnone 21 (fun b hb => h21 b hb), hnone 22 (fun b hb => h22 b hb),
      hnone 3 (fun b hb => h3 b hb)]
    rfl

theorem foldl_see (fs : List (Nat × Value)) (w : Writers) :
    fs.foldl Writers.see w =
      ⟨(fs.filterMap (pickBytes 21)).getLast?.getD w.envelope,
        (fs.filterMap (pickBytes 22)).getLast?.getD w.firstFlight,
        (fs.filterMap (pickBytes 3)).getLast?.getD w.certificate⟩ := by
  induction fs generalizing w with
  | nil => rfl
  | cons f fs ih =>
    rw [List.foldl_cons, ih, Writers.see_eq, getLast?_filterMap_cons, getLast?_filterMap_cons,
      getLast?_filterMap_cons]

/-- The route by the last occurrence of each field, and none of a malformed buffer. -/
def protoRoute (buf : Bytes) : Option SealedRoute :=
  match fields buf with
  | .error _ => none
  | .ok fs => Writers.route ⟨lastValue (pickBytes 21) [] fs, lastValue (pickBytes 22) [] fs,
      lastValue (pickBytes 3) [] fs⟩

theorem sealedRoute_eq (buf : Bytes) : sealedRoute buf = protoRoute buf := by
  unfold sealedRoute protoRoute
  cases fields buf with
  | error e => rfl
  | ok fs =>
    dsimp only
    rw [foldl_see]
    rfl

theorem plain_of_fields {pick : Nat × Value → Option α} (h : fields buf = .ok fs)
    (honce : (fs.filterMap pick).length ≤ 1) : Plain pick buf where
  once fs' h' := by
    rw [h] at h'
    cases h'
    exact honce
  keys e h' := by
    rw [h] at h'
    cases h'
  silent e h' := by
    rw [h] at h'
    cases h'

def sampleInner : Bytes := [0x1a, 1, 0xc0, 0x22, 2, 7, 8, 0x28, 14]

theorem fields_sampleInner :
    fields sampleInner = .ok [(3, .bytes [0xc0]), (4, .bytes [7, 8]), (5, .varint 14)] := by
  decide +kernel

/-- A key that is cut off: the iterator yields the same error at the same position for ever. -/
theorem readFrom_cut_key (pick : Nat × Value → Option α) (default : α) (n : Nat) :
    readFrom pick default [0x80] n 0 = none := by
  induction n with
  | zero => rfl
  | succ n ih => exact ih

end SealedInner

end ConstructCore
