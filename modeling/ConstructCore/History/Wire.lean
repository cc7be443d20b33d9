import ConstructCore.Lib.Bytes
import ConstructCore.Lib.Incremental
import ConstructCore.Lib.Op
import Mathlib.Data.Nat.Bitwise
import Mathlib.Tactic.Ring

/-!
# The protobuf wire format of history records

As much of the wire format as the record stream reads: varints, the fields of a complete
message by number, and from them the manifest's fields and the kind of a message's body.

A varint may stand at the end of what has arrived so far. `readVarint_append` and
`readVarint_take` say that its reading depends on its own bytes only: once they are there
nothing that follows changes it, and nothing that follows is needed. `readVarint_writeVarint` is
the round trip.
-/

namespace History

open Bytes Incremental

/-- Why a snapshot was refused. -/
inductive HistoryFailure where
  | malformed
  | truncated
  | unknownVersion
  | userMismatch
  | recordOrder
  | envelopeManifestMismatch
  | v1RefusedForHistory
  | identityMismatch
  | kemKeyIdMismatch
  | qrPinMismatch
  | qrPinAbsent
  | noHybridKey
  | signatureInvalid
  | chunkOpenFailed
  | localKeysUnavailable
deriving DecidableEq, Repr

/-! ## Varints -/

/-- The bytes of a varint from the `i`-th on, of which `n` may still come. -/
def readVarintFrom (buf : Bytes) (pos : Nat) :
    (n i value : Nat) → Except HistoryFailure (Option (Nat × Nat))
  | 0, _, _ => .error .malformed
  | n + 1, i, value =>
    match buf[pos + i]? with
    | none => .ok none
    | some byte =>
      if i = 9 ∧ byte > 1 then .error .malformed
      else
        let value := value ||| ((byte &&& 0x7f).toNat <<< (7 * i))
        if byte &&& 0x80 = 0 then .ok (some (value, pos + i + 1))
        else readVarintFrom buf pos n (i + 1) value

/-- A varint at `pos` and the position after it. `none` when the buffer ends first; an error for
a varint longer than ten bytes. -/
def readVarint (buf : Bytes) (pos : Nat) : Except HistoryFailure (Option (Nat × Nat)) :=
  readVarintFrom buf pos 10 0 0

/-- At most `n` bytes with the continuation bit, and the last. -/
def writeVarintFrom : (n value : Nat) → Bytes
  | 0, value => [UInt8.ofNat value]
  | n + 1, value =>
    if 0x80 ≤ value then (UInt8.ofNat value ||| 0x80) :: writeVarintFrom n (value >>> 7)
    else [UInt8.ofNat value]

def writeVarint (value : Nat) : Bytes := writeVarintFrom 9 value

def tag (number wireType : UInt8) : UInt8 := (number <<< 3) ||| wireType

/-! ## Fields -/

/-- One field as it appears on the wire. -/
inductive Value where
  | varint (v : Nat)
  | fixed64
  | bytes (b : Bytes)
  | fixed32
deriving DecidableEq, Repr

/-- The position `n` bytes on. -/
def skip (buf : Bytes) (pos n : Nat) : Except HistoryFailure Nat :=
  if buf.length < pos + n then .error .malformed else .ok (pos + n)

def wholeVarint (buf : Bytes) (pos : Nat) : Except HistoryFailure (Nat × Nat) := do
  (← readVarint buf pos).okOr .malformed

/-- The field at `pos`, and the position after it. -/
def field (buf : Bytes) (pos : Nat) : Except HistoryFailure ((Nat × Value) × Nat) := do
  let (key, pos) ← wholeVarint buf pos
  let number := key >>> 3
  if 2 ^ 32 ≤ number then throw .malformed
  if number = 0 then throw .malformed
  match key &&& 7 with
  | 0 =>
    let (v, pos) ← wholeVarint buf pos
    return ((number, .varint v), pos)
  | 1 => return ((number, .fixed64), ← skip buf pos 8)
  | 2 =>
    let (len, start) ← wholeVarint buf pos
    let pos ← skip buf start len
    return ((number, .bytes ((buf.take pos).drop start)), pos)
  | 5 => return ((number, .fixed32), ← skip buf pos 4)
  -- groups are proto2 and absent from every schema here; 6 and 7 do not exist
  | _ => throw .malformed

/-- At most `n` fields from `pos` on. -/
def fieldsFrom (buf : Bytes) : (n pos : Nat) → Except HistoryFailure (List (Nat × Value))
  | 0, _ => .ok []
  | n + 1, pos =>
    if buf.length ≤ pos then .ok []
    else do
      let (f, pos) ← field buf pos
      return f :: (← fieldsFrom buf n pos)

/-- The fields of a complete message, in wire order. The iterator's only failure is `malformed`,
and so is every failure of those who go through it: which field it comes from makes no
difference. -/
def fields (buf : Bytes) : Except HistoryFailure (List (Nat × Value)) :=
  fieldsFrom buf buf.length 0

def wellFormed (buf : Bytes) : Except HistoryFailure Unit := do
  let _ ← fields buf

/-- The manifest fields the protocol rules read. -/
structure ManifestFields where
  formatVersion : Nat := 0
  snapshotId : Bytes := []
  userId : Bytes := []
  phase : Nat := 0
deriving DecidableEq, Repr

/-- One field of a manifest. A known number with the wrong wire type is not this schema. -/
def ManifestFields.read (m : ManifestFields) : Nat × Value → Except HistoryFailure ManifestFields
  | (1, .varint v) => .ok { m with formatVersion := v }
  | (2, .bytes b) => .ok { m with snapshotId := b }
  | (3, .bytes b) => .ok { m with userId := b }
  | (13, .varint v) => .ok { m with phase := v }
  | (1, _) | (2, _) | (3, _) | (13, _) => .error .malformed
  | _ => .ok m

def manifest (buf : Bytes) : Except HistoryFailure ManifestFields := do
  (← fields buf).foldlM ManifestFields.read {}

/-- What a message record's body says about how to treat the record. -/
inductive Body where
  | known
  | unknown
  | unset
deriving DecidableEq, Repr

/-- Whether a known and whether an unknown body was seen, after one more field. -/
def Body.see (seen : Bool × Bool) (f : Nat × Value) : Except HistoryFailure (Bool × Bool) :=
  if f.1 ∈ [6, 15, 16] then
    match f.2 with
    | .bytes _ => .ok (true, seen.2)
    | _ => .error .malformed
  else if 1 ≤ f.1 ∧ f.1 ≤ 16 then .ok seen
  else .ok (seen.1, true)

def messageBody (buf : Bytes) : Except HistoryFailure Body := do
  match ← (← fields buf).foldlM Body.see (false, false) with
  | (true, _) => return .known
  | (false, true) => return .unknown
  | (false, false) => return .unset

/-! ## What a varint's reading depends on -/

section Varint

variable {buf more : Bytes} {pos : Nat}

variable {n i value v p : Nat}

theorem readVarintFrom_succ : readVarintFrom buf pos (n + 1) i value =
    andThen (.ok buf[pos + i]?) fun byte =>
      if i = 9 ∧ byte > 1 then .error .malformed
      else if byte &&& 0x80 = 0 then
        .ok (some (value ||| ((byte &&& 0x7f).toNat <<< (7 * i)), pos + i + 1))
      else readVarintFrom buf pos n (i + 1) (value ||| ((byte &&& 0x7f).toNat <<< (7 * i))) := by
  rw [readVarintFrom]
  cases buf[pos + i]? <;> rfl

theorem readVarintFrom_append (h : readVarintFrom buf pos n i value ≠ .ok none) :
    readVarintFrom (buf ++ more) pos n i value = readVarintFrom buf pos n i value := by
  induction n generalizing i value with
  | zero => rfl
  | succ n ih =>
    rw [readVarintFrom_succ] at h
    rw [readVarintFrom_succ, readVarintFrom_succ]
    refine andThen_congr h getElem?_append_settled fun byte h => ?_
    exact guard_congr h fun h => guard_congr h ih

/-- Bytes after a varint that is complete, or that is none, do not change its reading. -/
theorem readVarint_append (h : readVarint buf pos ≠ .ok none) :
    readVarint (buf ++ more) pos = readVarint buf pos := readVarintFrom_append h

theorem readVarintFrom_ok (h : readVarintFrom buf pos n i value = .ok (some (v, p))) :
    pos + i < p ∧ p ≤ buf.length ∧
      ∀ m, p ≤ m → readVarintFrom (buf.take m) pos n i value = .ok (some (v, p)) := by
  induction n generalizing i value with
  | zero => cases h
  | succ n ih =>
    rw [readVarintFrom_succ] at h
    obtain ⟨byte, hbyte, h⟩ := of_andThen_eq_some h
    obtain ⟨hlt, -⟩ := List.getElem?_eq_some_iff.mp (Except.ok.inj hbyte)
    split at h
    · cases h
    rename_i hten
    split at h
    · rename_i hlast
      cases h
      refine ⟨by omega, by omega, fun m hm => ?_⟩
      rw [readVarintFrom_succ, List.getElem?_take_of_lt (by omega), andThen_of_some hbyte,
        if_neg hten, if_pos hlast]
    · rename_i hmore
      obtain ⟨hpos, hlen, htake⟩ := ih h
      refine ⟨by omega, hlen, fun m hm => ?_⟩
      rw [readVarintFrom_succ, List.getElem?_take_of_lt (by omega), andThen_of_some hbyte,
        if_neg hten, if_neg hmore]
      exact htake m hm

/-- A varint ends after its start and in the buffer, and its own bytes suffice to read it. -/
theorem readVarint_ok (h : readVarint buf pos = .ok (some (v, p))) :
    pos < p ∧ p ≤ buf.length ∧
      ∀ m, p ≤ m → readVarint (buf.take m) pos = .ok (some (v, p)) :=
  readVarintFrom_ok h

end Varint

/-! ## The round trip of a varint -/

theorem toNat_and_low (b : UInt8) : (b &&& 0x7f).toNat = b.toNat % 128 := by
  rw [UInt8.toNat_and]
  exact Nat.and_two_pow_sub_one_eq_mod b.toNat 7

theorem toNat_or_high_and_low (b : UInt8) : ((b ||| 0x80) &&& 0x7f).toNat = b.toNat % 128 := by
  have hnone : (0x80 : UInt8).toNat &&& (0x7f : UInt8).toNat = 0 := by decide
  rw [UInt8.toNat_and, UInt8.toNat_or, Nat.and_or_distrib_right, hnone, Nat.or_zero]
  exact Nat.and_two_pow_sub_one_eq_mod b.toNat 7

theorem or_high_and_high (b : UInt8) : (b ||| 0x80) &&& 0x80 ≠ 0 := by
  intro h
  have hzero : ((b ||| 0x80) &&& 0x80).toNat = 0 := by rw [h]; rfl
  rw [UInt8.toNat_and, UInt8.toNat_or, Nat.and_or_distrib_right, Nat.or_eq_zero_iff] at hzero
  exact absurd hzero.2 (by decide)

theorem and_high_of_lt {b : UInt8} (h : b.toNat < 128) : b &&& 0x80 = 0 := by
  rw [← UInt8.toNat_inj, UInt8.toNat_and, show (0x80 : UInt8).toNat = 2 ^ 7 from rfl,
    Nat.and_two_pow, Nat.testBit_lt_two_pow h]
  rfl

theorem or_shiftLeft_of_lt {value i bits : Nat} (h : value < 2 ^ (7 * i)) :
    value ||| (bits <<< (7 * i)) = bits * 2 ^ (7 * i) + value := by
  rw [Nat.or_comm, ← Nat.shiftLeft_add_eq_or_of_lt h, Nat.shiftLeft_eq]

theorem readVarintFrom_writeVarintFrom (post : Bytes) (n : Nat) :
    ∀ (pre : Bytes) (pos i value v : Nat), i + n = 9 → pre.length = pos + i →
      value < 2 ^ (7 * i) → v < 2 ^ (64 - 7 * i) →
      readVarintFrom (pre ++ (writeVarintFrom n v ++ post)) pos (n + 1) i value =
        .ok (some (v * 2 ^ (7 * i) + value, pre.length + (writeVarintFrom n v).length)) := by
  induction n with
  | zero =>
    -- the tenth byte holds the one bit that is left
    intro pre pos i value v hi hpre hvalue hv
    obtain rfl : i = 9 := by omega
    have hv2 : v < 2 := hv
    have hbyte : (UInt8.ofNat v).toNat = v := by rw [UInt8.toNat_ofNat']; omega
    have hone : ¬ (9 = 9 ∧ UInt8.ofNat v > 1) := by
      rintro ⟨-, hgt⟩
      have h1 : (1 : UInt8).toNat < (UInt8.ofNat v).toNat := UInt8.lt_iff_toNat_lt.mp hgt
      have h2 : (1 : UInt8).toNat = 1 := rfl
      omega
    rw [readVarintFrom, List.getElem?_append_right (by omega), ← hpre, Nat.sub_self]
    show (if 9 = 9 ∧ UInt8.ofNat v > 1 then _ else _) = _
    rw [if_neg hone]
    dsimp only
    rw [if_pos (and_high_of_lt (by omega)), toNat_and_low, hbyte, or_shiftLeft_of_lt hvalue,
      Nat.mod_eq_of_lt (by omega), hpre]
    rfl
  | succ n ih =>
    intro pre pos i value v hi hpre hvalue hv
    have hnine : ∀ b : UInt8, ¬ (i = 9 ∧ b > 1) := fun b h => by omega
    rw [readVarintFrom, List.getElem?_append_right (by omega), ← hpre, Nat.sub_self]
    by_cases hlarge : 0x80 ≤ v
    · -- seven bits and the continuation bit, then the rest of the value
      have hw : writeVarintFrom (n + 1) v =
          (UInt8.ofNat v ||| 0x80) :: writeVarintFrom n (v >>> 7) := if_pos hlarge
      have hlow : (UInt8.ofNat v).toNat % 128 = v % 128 := by rw [UInt8.toNat_ofNat']; omega
      rw [hw]
      show (if i = 9 ∧ (UInt8.ofNat v ||| 0x80) > 1 then _ else _) = _
      rw [if_neg (hnine _)]
      dsimp only
      rw [if_neg (or_high_and_high _), toNat_or_high_and_low, hlow, or_shiftLeft_of_lt hvalue]
      have hpow : 2 ^ (7 * (i + 1)) = 2 ^ (7 * i) * 128 := by rw [Nat.mul_succ, Nat.pow_add]
      have hsum : v % 128 * 2 ^ (7 * i) + value < 2 ^ (7 * (i + 1)) := by
        have : v % 128 * 2 ^ (7 * i) ≤ 127 * 2 ^ (7 * i) :=
          Nat.mul_le_mul_right _ (by omega)
        omega
      have hrest : v >>> 7 < 2 ^ (64 - 7 * (i + 1)) := by
        rw [Nat.shiftRight_eq_div_pow, Nat.div_lt_iff_lt_mul (by decide), ← Nat.pow_add]
        exact Nat.lt_of_lt_of_le hv (Nat.pow_le_pow_right (by decide) (by omega))
      have hnext := ih (pre ++ [UInt8.ofNat v ||| 0x80]) pos (i + 1)
        (v % 128 * 2 ^ (7 * i) + value) (v >>> 7) (by omega)
        (by rw [List.length_append, List.length_singleton]; omega) hsum hrest
      rw [List.append_assoc, List.singleton_append] at hnext
      rw [List.cons_append, hnext, List.length_append, List.length_singleton, List.length_cons,
        Nat.shiftRight_eq_div_pow, hpow]
      have hvalue' : v / 2 ^ 7 * (2 ^ (7 * i) * 128) + (v % 128 * 2 ^ (7 * i) + value) =
          v * 2 ^ (7 * i) + value := by
        have hdiv : v / 2 ^ 7 * 128 + v % 128 = v := Nat.div_add_mod' v 128
        calc v / 2 ^ 7 * (2 ^ (7 * i) * 128) + (v % 128 * 2 ^ (7 * i) + value)
            = (v / 2 ^ 7 * 128 + v % 128) * 2 ^ (7 * i) + value := by ring
          _ = v * 2 ^ (7 * i) + value := by rw [hdiv]
      rw [hvalue']
      congr 3
      omega
    · have hw : writeVarintFrom (n + 1) v = [UInt8.ofNat v] := if_neg hlarge
      have hbyte : (UInt8.ofNat v).toNat = v := by rw [UInt8.toNat_ofNat']; omega
      rw [hw]
      show (if i = 9 ∧ UInt8.ofNat v > 1 then _ else _) = _
      rw [if_neg (hnine _)]
      dsimp only
      rw [if_pos (and_high_of_lt (by omega)), toNat_and_low, hbyte, or_shiftLeft_of_lt hvalue,
        Nat.mod_eq_of_lt (by omega), hpre]
      rfl

variable {v pos p : Nat} {buf : Bytes}

/-- **What `writeVarint` writes of a 64-bit value is read back, whatever stands around it.** -/
theorem readVarint_writeVarint (pre post : Bytes) (hv : v < 2 ^ 64) :
    readVarint (pre ++ (writeVarint v ++ post)) pre.length =
      .ok (some (v, pre.length + (writeVarint v).length)) := by
  have h := readVarintFrom_writeVarintFrom post 9 pre pre.length 0 0 v rfl rfl
    (Nat.two_pow_pos _) hv
  rwa [Nat.mul_zero, Nat.pow_zero, Nat.mul_one, Nat.add_zero] at h

example : readVarint [0xac, 0x02, 0x07] 0 = .ok (some (300, 2)) := by decide +kernel

/-! ## The fields end with the buffer -/

theorem wholeVarint_ok (h : wholeVarint buf pos = .ok (v, p)) :
    pos < p := by
  obtain ⟨o, ho, hsome⟩ := Except.exists_of_bind_ok h
  rw [Option.okOr_eq_ok] at hsome
  subst hsome
  exact (readVarint_ok ho).1

theorem skip_ok {n : Nat} (h : skip buf pos n = .ok p) : pos ≤ p := by
  unfold skip at h
  split at h
  · cases h
  · cases h
    omega

theorem field_ok {f : Nat × Value} (h : field buf pos = .ok (f, p)) : pos < p := by
  obtain ⟨⟨key, start⟩, hkey, h⟩ := Except.exists_of_bind_ok h
  have hstart := wholeVarint_ok hkey
  dsimp only at h
  split at h
  · cases h
  split at h
  · cases h
  split at h
  · obtain ⟨⟨v, p'⟩, hv, h⟩ := Except.exists_of_bind_ok h
    cases h
    exact Nat.lt_trans hstart (wholeVarint_ok hv)
  · obtain ⟨p', hp', h⟩ := Except.exists_of_bind_ok h
    cases h
    exact Nat.lt_of_lt_of_le hstart (skip_ok hp')
  · obtain ⟨⟨len, start'⟩, hlen, h⟩ := Except.exists_of_bind_ok h
    obtain ⟨p', hp', h⟩ := Except.exists_of_bind_ok h
    cases h
    exact Nat.lt_of_lt_of_le (Nat.lt_trans hstart (wholeVarint_ok hlen)) (skip_ok hp')
  · obtain ⟨p', hp', h⟩ := Except.exists_of_bind_ok h
    cases h
    exact Nat.lt_of_lt_of_le hstart (skip_ok hp')
  · cases h

end History
