import ConstructCore.Lib.Bytes
import ConstructCore.Lib.Op

/-!
# Reading a byte string from the front

A reader is an `Op` whose state is what is left of the input. Each primitive comes with the
equivalence "it returns `a` and leaves `rest` exactly when the input is the encoding of `a`
followed by `rest`": a decoder made of them is inverted and run with the same lemmas.
-/

namespace Reader

open Bytes

variable {ε : Type} {short : ε} {b rest : Bytes}

/-- The next `n` bytes, or the error `short`. -/
def take (short : ε) (n : Nat) : Op ε Bytes Bytes := fun b =>
  if b.length < n then .error short b else .ok (b.take n) (b.drop n)

theorem take_eq_ok {n : Nat} {a : Bytes} :
    take short n b = .ok a rest ↔ a.length = n ∧ b = a ++ rest := by
  unfold take
  split
  case isTrue hshort =>
    refine ⟨fun h => (nomatch h), fun ⟨hlen, hb⟩ => ?_⟩
    rw [hb, List.length_append] at hshort
    omega
  case isFalse hlong =>
    constructor
    · intro h
      cases h
      exact ⟨List.length_take_of_le (Nat.le_of_not_lt hlong), (List.take_append_drop n b).symm⟩
    · rintro ⟨rfl, rfl⟩
      rw [List.take_left, List.drop_left]

/-- The next byte. -/
def u8 (short : ε) : Op ε Bytes UInt8
  | [] => .error short []
  | x :: rest => .ok x rest

theorem u8_eq_ok {x : UInt8} : u8 short b = .ok x rest ↔ b = x :: rest := by
  cases b with
  | nil => exact ⟨fun h => (nomatch h), fun h => (nomatch h)⟩
  | cons y tail =>
    show EStateM.Result.ok y tail = .ok x rest ↔ _
    simp

/-- The next four bytes as a little-endian number. -/
def u32 (short : ε) : Op ε Bytes UInt32 := u32OfLe <$> take short 4

/-- The next two bytes as a little-endian number. -/
def u16 (short : ε) : Op ε Bytes UInt16 := u16OfLe <$> take short 2

theorem u32_eq_ok {n : UInt32} : u32 short b = .ok n rest ↔ b = u32ToLe n ++ rest := by
  unfold u32
  rw [Op.map_eq_ok]
  constructor
  · rintro ⟨a, ha, rfl⟩
    obtain ⟨hlen, rfl⟩ := take_eq_ok.mp ha
    rw [u32ToLe_u32OfLe hlen]
  · rintro rfl
    exact ⟨u32ToLe n, take_eq_ok.mpr ⟨length_u32ToLe n, rfl⟩, u32OfLe_u32ToLe n⟩

theorem u16_eq_ok {n : UInt16} : u16 short b = .ok n rest ↔ b = u16ToLe n ++ rest := by
  unfold u16
  rw [Op.map_eq_ok]
  constructor
  · rintro ⟨a, ha, rfl⟩
    obtain ⟨hlen, rfl⟩ := take_eq_ok.mp ha
    rw [u16ToLe_u16OfLe hlen]
  · rintro rfl
    exact ⟨u16ToLe n, take_eq_ok.mpr ⟨length_u16ToLe n, rfl⟩, u16OfLe_u16ToLe n⟩

/-- A two-byte length and as many bytes. -/
def lengthPrefixed (short : ε) : Op ε Bytes Bytes := do
  let len ← u16 short
  take short len.toNat

/-- What `lengthPrefixed` reads, for at most 65535 bytes. -/
def prefixed (b : Bytes) : Bytes := u16ToLe (UInt16.ofNat b.length) ++ b

theorem lengthPrefixed_eq_ok {a : Bytes} :
    lengthPrefixed short b = .ok a rest ↔ a.length ≤ 65535 ∧ b = prefixed a ++ rest := by
  unfold lengthPrefixed
  simp only [Op.bind_eq_ok, u16_eq_ok, take_eq_ok]
  constructor
  · rintro ⟨len, t, rfl, hlen, rfl⟩
    have hlt : len.toNat < 65536 := len.toNat_lt
    refine ⟨by omega, ?_⟩
    rw [prefixed, hlen, UInt16.ofNat_toNat, List.append_assoc]
  · rintro ⟨hfits, rfl⟩
    refine ⟨UInt16.ofNat a.length, a ++ rest, List.append_assoc _ _ _, ?_, rfl⟩
    rw [UInt16.toNat_ofNat', Nat.mod_eq_of_lt (Nat.lt_succ_of_le hfits)]

/-- The next `N` bytes as an array. -/
def vector (short : ε) (N : Nat) : Op ε Bytes (Vector UInt8 N) := fun b =>
  match toVector? N (b.take N) with
  | some v => .ok v (b.drop N)
  | none => .error short b

theorem vector_eq_ok {N : Nat} {v : Vector UInt8 N} :
    vector short N b = .ok v rest ↔ b = v.toList ++ rest := by
  unfold vector
  split
  case h_1 w hw =>
    have htake := toVector?_eq_some.mp hw
    constructor
    · intro h
      cases h
      rw [← htake, List.take_append_drop]
    · rintro rfl
      have hlen : N = v.toList.length := v.length_toList.symm
      have hsame : v.toList = w.toList := by
        rw [← htake, List.take_left' hlen.symm]
      rw [List.drop_left' hlen.symm, Vector.toList_inj.mp hsame]
  case h_2 hnone =>
    refine ⟨fun h => (nomatch h), ?_⟩
    rintro rfl
    rw [List.take_left' v.length_toList] at hnone
    rw [toVector?_eq_some.mpr rfl] at hnone
    cases hnone

end Reader
