import ConstructCore.History.Wire

/-!
# Writing fields

The `Writer` of `history/records.rs`. A field is written as its key and its value, and a zero is
not written. `emit` is what one field of the reader's kind looks like on the wire, and
`fields_emit` says that the generic reader finds in a row of such fields exactly those fields:
what a record's writer put in is what its reader is given.
-/

namespace History

open Bytes

/-! ## The writer -/

/-- `Writer::key`. -/
def fieldKey (number wireType : Nat) : Bytes := writeVarint ((number <<< 3) ||| wireType)

/-- `Writer::always_bytes`. -/
def putAlwaysBytes (number : Nat) (b : Bytes) : Bytes :=
  fieldKey number 2 ++ writeVarint b.length ++ b

/-- `Writer::bytes`. -/
def putBytes (number : Nat) (b : Bytes) : Bytes := if b = [] then [] else putAlwaysBytes number b

/-- `Writer::int`. -/
def putInt (number : Nat) (v : Int64) : Bytes :=
  if v = 0 then [] else fieldKey number 0 ++ writeVarint v.toUInt64.toNat

/-- `Writer::bool`. -/
def putBool (number : Nat) (v : Bool) : Bytes := putInt number (if v then 1 else 0)

/-! ## Fields as the reader sees them -/

def emit : Nat × Value → Bytes
  | (number, .varint v) => fieldKey number 0 ++ writeVarint v
  | (number, .bytes b) => putAlwaysBytes number b
  | (_, .fixed64) => []
  | (_, .fixed32) => []

/-- A field that `emit` writes and the reader can read. -/
def Writable : Nat × Value → Prop
  | (number, .varint v) => 1 ≤ number ∧ number < 2 ^ 32 ∧ v < 2 ^ 64
  | (number, .bytes b) => 1 ≤ number ∧ number < 2 ^ 32 ∧ b.length < 2 ^ 64
  | (_, .fixed64) => False
  | (_, .fixed32) => False

variable {number wireType : Nat} {f : Nat × Value} {fs : List (Nat × Value)}

theorem key_eq (h : wireType < 8) :
    (number <<< 3) ||| wireType = 8 * number + wireType := by
  rw [Nat.shiftLeft_eq, Nat.mul_comm, ← Nat.two_pow_add_eq_or_of_lt (i := 3) h]

theorem wholeVarint_writeVarint (pre post : Bytes) {v : Nat} (hv : v < 2 ^ 64) :
    wholeVarint (pre ++ (writeVarint v ++ post)) pre.length =
      .ok (v, pre.length + (writeVarint v).length) := by
  rw [wholeVarint, readVarint_writeVarint pre post hv]
  rfl

theorem wholeVarint_key (pre post : Bytes) (hnumber : number < 2 ^ 32) (hwire : wireType < 8) :
    wholeVarint (pre ++ (fieldKey number wireType ++ post)) pre.length =
      .ok (8 * number + wireType, pre.length + (fieldKey number wireType).length) := by
  rw [fieldKey, key_eq hwire]
  exact wholeVarint_writeVarint pre post (by omega)

theorem key_halves (number : Nat) (hwire : wireType < 8) :
    (8 * number + wireType) >>> 3 = number ∧ (8 * number + wireType) &&& 7 = wireType := by
  have hlow : (8 * number + wireType) &&& 7 = (8 * number + wireType) % 8 :=
    Nat.and_two_pow_sub_one_eq_mod _ 3
  rw [Nat.shiftRight_eq_div_pow, hlow]
  omega

theorem field_emit (pre post : Bytes) (hf : Writable f) :
    field (pre ++ (emit f ++ post)) pre.length = .ok (f, pre.length + (emit f).length) := by
  obtain ⟨number, value⟩ := f
  cases value with
  | varint v =>
    obtain ⟨hpos, hnumber, hv⟩ := hf
    obtain ⟨hhigh, hlow⟩ := key_halves number (by decide : 0 < 8)
    have hkey := wholeVarint_key pre (writeVarint v ++ post) hnumber (by decide : 0 < 8)
    have hvalue := wholeVarint_writeVarint (pre ++ fieldKey number 0) post hv
    simp only [List.append_assoc, List.length_append] at hvalue
    simp only [emit, List.append_assoc, List.length_append]
    unfold field
    simp only [hkey, hvalue, hhigh, hlow, bind, Except.bind, Nat.not_le.mpr hnumber, if_false,
      Nat.pos_iff_ne_zero.mp hpos]
    rw [← Nat.add_assoc]
    rfl
  | bytes b =>
    obtain ⟨hpos, hnumber, hlen⟩ := hf
    obtain ⟨hhigh, hlow⟩ := key_halves number (by decide : 2 < 8)
    have hkey := wholeVarint_key pre (writeVarint b.length ++ (b ++ post)) hnumber
      (by decide : 2 < 8)
    have hsize := wholeVarint_writeVarint (pre ++ fieldKey number 2) (b ++ post) hlen
    simp only [List.append_assoc, List.length_append] at hsize
    simp only [emit, putAlwaysBytes, List.append_assoc, List.length_append]
    generalize hbuf : pre ++ (fieldKey number 2 ++ (writeVarint b.length ++ (b ++ post))) = buf
      at hkey hsize ⊢
    generalize hstart : pre.length + (fieldKey number 2).length +
      (writeVarint b.length).length = start at hsize
    have hfront : buf = (pre ++ fieldKey number 2 ++ writeVarint b.length) ++ (b ++ post) := by
      simp [← hbuf]
    have hfrontLen : (pre ++ fieldKey number 2 ++ writeVarint b.length).length = start := by
      simp [← hstart, Nat.add_assoc]
    have hskip : skip buf start b.length = .ok (start + b.length) := by
      rw [skip, if_neg]
      rw [hfront, List.length_append, hfrontLen, List.length_append]
      omega
    have hslice : (buf.take (start + b.length)).drop start = b := by
      rw [List.drop_take, Nat.add_sub_cancel_left, hfront, List.drop_left' hfrontLen,
        List.take_left]
    unfold field
    simp only [hkey, hsize, hskip, hslice, hhigh, hlow, bind, Except.bind,
      Nat.not_le.mpr hnumber, if_false, Nat.pos_iff_ne_zero.mp hpos]
    rw [← hstart, Nat.add_assoc, Nat.add_assoc]
    rfl
  | fixed64 => exact hf.elim
  | fixed32 => exact hf.elim

theorem writeVarint_ne_nil (v : Nat) : writeVarint v ≠ [] := by
  rw [writeVarint, writeVarintFrom]
  split <;> exact List.cons_ne_nil _ _

theorem emit_length_pos (hf : Writable f) : 0 < (emit f).length := by
  obtain ⟨number, value⟩ := f
  have hkey : ∀ wireType, 0 < (fieldKey number wireType).length :=
    fun _ => List.length_pos_iff.mpr (writeVarint_ne_nil _)
  cases value with
  | varint v =>
    rw [emit, List.length_append]
    exact Nat.add_pos_left (hkey 0) _
  | bytes b =>
    rw [emit, putAlwaysBytes, List.length_append, List.length_append]
    exact Nat.add_pos_left (Nat.add_pos_left (hkey 2) _) _
  | fixed64 => exact hf.elim
  | fixed32 => exact hf.elim

theorem fieldsFrom_emit (hfs : ∀ f ∈ fs, Writable f) (pre : Bytes) {n : Nat}
    (hn : (fs.flatMap emit).length ≤ n) :
    fieldsFrom (pre ++ fs.flatMap emit) n pre.length = .ok fs := by
  induction fs generalizing pre n with
  | nil =>
    cases n with
    | zero => rfl
    | succ n =>
      rw [fieldsFrom, if_pos (by simp)]
  | cons f fs ih =>
    have hf := hfs f List.mem_cons_self
    have hpos := emit_length_pos hf
    rw [List.flatMap_cons, List.length_append] at hn
    obtain ⟨n, rfl⟩ : ∃ k, n = k + 1 := ⟨n - 1, by omega⟩
    have hnext := ih (fun g hg => hfs g (List.mem_cons_of_mem f hg)) (pre ++ emit f)
      (n := n) (by omega)
    rw [List.append_assoc, List.length_append] at hnext
    rw [List.flatMap_cons, fieldsFrom, if_neg (by simp only [List.length_append]; omega),
      field_emit pre _ hf]
    show (fieldsFrom _ n (pre.length + (emit f).length) >>= _) = _
    rw [hnext]
    rfl

theorem fields_emit (hfs : ∀ f ∈ fs, Writable f) :
    fields (fs.flatMap emit) = .ok fs :=
  fieldsFrom_emit hfs [] (Nat.le_refl _)

/-! ## The writer's calls as fields -/

/-- The field `Writer::bytes` writes, if it writes one. -/
def bytesItem (number : Nat) (b : Bytes) : List (Nat × Value) :=
  if b = [] then [] else [(number, .bytes b)]

/-- The field `Writer::int` writes, if it writes one. -/
def intItem (number : Nat) (v : Int64) : List (Nat × Value) :=
  if v = 0 then [] else [(number, .varint v.toUInt64.toNat)]

@[simp] theorem flatMap_bytesItem (number : Nat) (b : Bytes) :
    (bytesItem number b).flatMap emit = putBytes number b := by
  unfold bytesItem putBytes
  split <;> simp [emit]

@[simp] theorem flatMap_intItem (number : Nat) (v : Int64) :
    (intItem number v).flatMap emit = putInt number v := by
  unfold intItem putInt
  split <;> simp [emit]

/-- A field with a number from 1 to `last` that is a varint of 64 bits or bytes. -/
def InRange (last : Nat) (f : Nat × Value) : Prop :=
  1 ≤ f.1 ∧ f.1 ≤ last ∧ ((∃ v < 2 ^ 64, f.2 = .varint v) ∨ ∃ b, f.2 = .bytes b)

theorem writable_of_inRange {last : Nat} (hlast : last < 2 ^ 32) (hfs : ∀ f ∈ fs, InRange last f)
    (hlen : (fs.flatMap emit).length < 2 ^ 64) :
    ∀ f ∈ fs, Writable f := by
  intro f hf
  obtain ⟨hone, hle, hvalue⟩ := hfs f hf
  obtain ⟨number, value⟩ := f
  rcases hvalue with ⟨v, hv, rfl⟩ | ⟨b, rfl⟩
  · exact ⟨hone, Nat.lt_of_le_of_lt hle hlast, hv⟩
  · refine ⟨hone, Nat.lt_of_le_of_lt hle hlast, ?_⟩
    -- the field is a part of the buffer, and its bytes are a part of the field
    have hpart : (emit (number, .bytes b)).length ≤ (fs.flatMap emit).length := by
      obtain ⟨before, after, rfl⟩ := List.append_of_mem hf
      simp only [List.flatMap_append, List.flatMap_cons, List.length_append]
      omega
    rw [emit, putAlwaysBytes, List.length_append] at hpart
    omega

end History
