import Mathlib.Data.List.Basic
import Mathlib.Data.Nat.Bitwise
import Mathlib.Tactic.IntervalCases

/-!
# Machine words, byte strings and hex text

* `UInt32.checkedSucc`, `UInt32.satAdd`: checked and saturating addition, each with
  its value as a natural number;
* `UInt16.and_flag`: what a one-bit mask leaves;
* `leBytes w n` / `ofLeBytes`: the `w` low bytes of `n`, least significant first,
  with the two round trips `ofLeBytes_leBytes` and `leBytes_ofLeBytes`;
* `u32ToLe`, `u16ToLe`, `u32ToBe`, `u16ToBe`: the machine words, instances of it;
* `toVector?`: a byte string as a fixed-length array;
* `hexEncode` / `hexDecode`: lower-case hex text, `hexDecode_hexEncode`.
-/

namespace UInt32

/-! ## Checked and saturating arithmetic -/

/-- `checked_add(1)`. -/
def checkedSucc (n : UInt32) : Option UInt32 :=
  if n.toNat + 1 < 2 ^ 32 then some (n + 1) else none

/-- `saturating_add`. -/
def satAdd (m n : UInt32) : UInt32 :=
  if m.toNat + n.toNat < 2 ^ 32 then m + n else UInt32.ofNat (2 ^ 32 - 1)

variable {m : UInt32}

theorem toNat_of_checkedSucc {n : UInt32} (h : checkedSucc m = some n) :
    n.toNat = m.toNat + 1 := by
  unfold checkedSucc at h
  split at h
  · obtain rfl := Option.some.inj h
    rw [UInt32.toNat_add, UInt32.toNat_one]
    omega
  · cases h

theorem checkedSucc_eq_some (h : m.toNat + 1 < 2 ^ 32) :
    checkedSucc m = some (m + 1) := if_pos h

theorem toNat_satAdd (m n : UInt32) :
    (satAdd m n).toNat = min (m.toNat + n.toNat) (2 ^ 32 - 1) := by
  unfold satAdd
  split
  · rw [UInt32.toNat_add]
    omega
  · rw [UInt32.toNat_ofNat']
    omega

theorem satAdd_one_pos (m : UInt32) : 0 < satAdd m 1 := by
  rw [UInt32.lt_iff_toNat_lt, toNat_satAdd]
  simp

theorem le_satAdd_one (m : UInt32) : m ≤ satAdd m 1 := by
  have := m.toNat_lt
  rw [UInt32.le_iff_toNat_le, toNat_satAdd, UInt32.toNat_one]
  omega

/-- Saturation leaves a number in place only at the top. -/
theorem lt_satAdd_one (h : m ≠ UInt32.ofNat (2 ^ 32 - 1) ∨ satAdd m 1 ≠ UInt32.ofNat (2 ^ 32 - 1)) :
    m < satAdd m 1 := by
  have hm := m.toNat_lt
  rw [UInt32.lt_iff_toNat_lt, toNat_satAdd, UInt32.toNat_one]
  by_contra hge
  have htop : m.toNat = 2 ^ 32 - 1 := by omega
  have hmax : m = UInt32.ofNat (2 ^ 32 - 1) := by
    rw [← UInt32.toNat_inj, htop]
    rfl
  rcases h with h | h
  · exact h hmax
  · apply h
    rw [← UInt32.toNat_inj, toNat_satAdd, UInt32.toNat_one, htop]
    rfl

end UInt32

namespace UInt8

theorem left_le_max (a b : UInt8) : a ≤ max a b := by
  show a ≤ if a ≤ b then b else a
  split
  · assumption
  · exact UInt8.le_refl a

theorem right_le_max (a b : UInt8) : b ≤ max a b := by
  show b ≤ if a ≤ b then b else a
  split
  · exact UInt8.le_refl b
  · exact UInt8.le_of_lt (UInt8.not_le.mp ‹_›)

end UInt8

namespace UInt16

/-! ## Flags -/

theorem and_or_distrib_left (a b c : UInt16) : a &&& (b ||| c) = a &&& b ||| a &&& c := by
  apply UInt16.toNat_inj.mp
  simp only [UInt16.toNat_and, UInt16.toNat_or, Nat.and_or_distrib_left]

theorem and_or_distrib_right (a b c : UInt16) : (a ||| b) &&& c = a &&& c ||| b &&& c := by
  apply UInt16.toNat_inj.mp
  simp only [UInt16.toNat_and, UInt16.toNat_or, Nat.and_or_distrib_right]

/-- A one-bit mask leaves the bit or nothing. -/
theorem and_flag (w : UInt16) {flag : UInt16} {k : Nat} (hflag : flag.toNat = 2 ^ k) :
    w &&& flag = if w &&& flag != 0 then flag else 0 := by
  have hbit : (w &&& flag).toNat = (w.toNat.testBit k).toNat * 2 ^ k := by
    rw [UInt16.toNat_and, hflag, Nat.and_two_pow]
  cases hk : w.toNat.testBit k with
  | false =>
    have hzero : w &&& flag = 0 := by
      apply UInt16.toNat_inj.mp
      rw [hbit, hk]
      simp
    simp [hzero]
  | true =>
    have hfull : w &&& flag = flag := by
      apply UInt16.toNat_inj.mp
      rw [hbit, hk, hflag]
      simp
    have hne : flag ≠ 0 := by
      rintro rfl
      exact absurd hflag.symm (Nat.two_pow_pos k).ne'
    simp [hfull, hne]

end UInt16

/-- A byte string. -/
abbrev Bytes := List UInt8

instance instLawfulBEqBytes : LawfulBEq Bytes := inferInstance

namespace Bytes

/-- The UTF-8 bytes of a text. -/
def ofText (s : String) : Bytes := s.toUTF8.data.toList

/-- A byte string that is UTF-8, as a text. -/
def toText? (b : Bytes) : Option String := String.fromUTF8? ⟨b.toArray⟩

theorem toText?_ofText (s : String) : toText? (ofText s) = some s := by
  show (if h : s.toByteArray.IsValidUTF8 then some (String.fromUTF8 s.toByteArray h) else none) = _
  rw [dif_pos s.isValidUTF8]
  rfl

theorem ofText_ofList (l : List Char) :
    ofText (String.ofList l) = l.flatMap String.utf8EncodeChar := by
  unfold ofText
  rw [String.toUTF8_eq_toByteArray, String.toByteArray_ofList, List.utf8Encode,
    List.data_toByteArray]

variable {x y b : Bytes} {m n : UInt32}

/-- A character's bytes and what follows them are told apart. -/
theorem utf8EncodeChar_append_inj {c d : Char}
    (h : String.utf8EncodeChar c ++ x = String.utf8EncodeChar d ++ y) : c = d ∧ x = y := by
  have hc := ByteArray.utf8DecodeChar?_utf8EncodeChar_append (b := x.toByteArray) (c := c)
  have hd := ByteArray.utf8DecodeChar?_utf8EncodeChar_append (b := y.toByteArray) (c := d)
  rw [← List.toByteArray_append] at hc hd
  rw [h, hd] at hc
  cases hc
  exact ⟨rfl, List.append_cancel_left h⟩

/-- Two texts of the same number of characters, and what follows them, are told apart. -/
theorem ofText_append_inj {s t : String} (hlen : s.length = t.length)
    (h : ofText s ++ x = ofText t ++ y) : s = t ∧ x = y := by
  have hchars : ∀ l m : List Char, l.length = m.length →
      l.flatMap String.utf8EncodeChar ++ x = m.flatMap String.utf8EncodeChar ++ y →
      l = m ∧ x = y := by
    intro l
    induction l with
    | nil =>
      intro m hm h
      rw [List.length_eq_zero_iff.mp hm.symm] at h ⊢
      exact ⟨rfl, h⟩
    | cons c l ih =>
      intro m hm h
      cases m with
      | nil => cases hm
      | cons d m =>
        rw [List.flatMap_cons, List.flatMap_cons, List.append_assoc, List.append_assoc] at h
        obtain ⟨rfl, hrest⟩ := utf8EncodeChar_append_inj h
        obtain ⟨rfl, hxy⟩ := ih m (Nat.succ.inj hm) hrest
        exact ⟨rfl, hxy⟩
  rw [← String.ofList_toList (s := s), ← String.ofList_toList (s := t), ofText_ofList,
    ofText_ofList] at h
  obtain ⟨hlist, hxy⟩ := hchars s.toList t.toList hlen h
  exact ⟨String.toList_inj.mp hlist, hxy⟩

/-! ## Little-endian numbers -/

/-- The `w` low bytes of `n`, least significant first. -/
def leBytes : Nat → Nat → Bytes
  | 0, _ => []
  | w + 1, n => UInt8.ofNat n :: leBytes w (n / 256)

/-- The number whose little-endian bytes these are. -/
def ofLeBytes : Bytes → Nat
  | [] => 0
  | b :: bs => b.toNat + 256 * ofLeBytes bs

@[simp] theorem length_leBytes (w n : Nat) : (leBytes w n).length = w := by
  induction w generalizing n with
  | zero => rfl
  | succ w ih => simp [leBytes, ih]

theorem ofLeBytes_leBytes (w n : Nat) : ofLeBytes (leBytes w n) = n % 256 ^ w := by
  induction w generalizing n with
  | zero => simp [leBytes, ofLeBytes, Nat.mod_one]
  | succ w ih =>
    have hhead : (UInt8.ofNat n).toNat = n % 256 := UInt8.toNat_ofNat'
    rw [leBytes, ofLeBytes, ih, hhead, pow_succ, mul_comm (256 ^ w), Nat.mod_mul]

theorem leBytes_ofLeBytes (b : Bytes) : leBytes b.length (ofLeBytes b) = b := by
  induction b with
  | nil => rfl
  | cons x xs ih =>
    have hx : x.toNat < 256 := x.toNat_lt
    have hhead : UInt8.ofNat (x.toNat + 256 * ofLeBytes xs) = x := by
      apply UInt8.toNat_inj.mp
      rw [UInt8.toNat_ofNat']
      omega
    have htail : (x.toNat + 256 * ofLeBytes xs) / 256 = ofLeBytes xs := by omega
    rw [List.length_cons, ofLeBytes, leBytes, hhead, htail, ih]

theorem ofLeBytes_lt (b : Bytes) : ofLeBytes b < 256 ^ b.length := by
  induction b with
  | nil => simp [ofLeBytes]
  | cons x xs ih =>
    have hx : x.toNat < 256 := x.toNat_lt
    rw [ofLeBytes, List.length_cons, pow_succ]
    omega

/-! ## Machine words -/

/-- `u32::to_le_bytes`. -/
def u32ToLe (n : UInt32) : Bytes := leBytes 4 n.toNat

/-- `u32::from_le_bytes`. -/
def u32OfLe (b : Bytes) : UInt32 := UInt32.ofNat (ofLeBytes b)

/-- `u16::to_le_bytes`. -/
def u16ToLe (n : UInt16) : Bytes := leBytes 2 n.toNat

/-- `u16::from_le_bytes`. -/
def u16OfLe (b : Bytes) : UInt16 := UInt16.ofNat (ofLeBytes b)

/-- `u32::to_be_bytes`. -/
def u32ToBe (n : UInt32) : Bytes := (u32ToLe n).reverse

/-- `u16::to_be_bytes`. -/
def u16ToBe (n : UInt16) : Bytes := (u16ToLe n).reverse

/-- `u64::to_be_bytes`. -/
def u64ToBe (n : UInt64) : Bytes := (leBytes 8 n.toNat).reverse

@[simp] theorem length_u32ToLe (n : UInt32) : (u32ToLe n).length = 4 := length_leBytes _ _
@[simp] theorem length_u16ToLe (n : UInt16) : (u16ToLe n).length = 2 := length_leBytes _ _

@[simp] theorem length_u32ToBe (n : UInt32) : (u32ToBe n).length = 4 := by
  simp [u32ToBe]

@[simp] theorem length_u16ToBe (n : UInt16) : (u16ToBe n).length = 2 := by
  simp [u16ToBe]

@[simp] theorem u32OfLe_u32ToLe (n : UInt32) : u32OfLe (u32ToLe n) = n := by
  have hlt : n.toNat < 256 ^ 4 := n.toNat_lt
  rw [u32OfLe, u32ToLe, ofLeBytes_leBytes, Nat.mod_eq_of_lt hlt, UInt32.ofNat_toNat]

@[simp] theorem u16OfLe_u16ToLe (n : UInt16) : u16OfLe (u16ToLe n) = n := by
  have hlt : n.toNat < 256 ^ 2 := n.toNat_lt
  rw [u16OfLe, u16ToLe, ofLeBytes_leBytes, Nat.mod_eq_of_lt hlt, UInt16.ofNat_toNat]

theorem u32ToLe_u32OfLe (h : b.length = 4) : u32ToLe (u32OfLe b) = b := by
  have hlt : ofLeBytes b < 2 ^ 32 := by
    have := ofLeBytes_lt b
    rwa [h] at this
  rw [u32ToLe, u32OfLe, UInt32.toNat_ofNat', Nat.mod_eq_of_lt hlt, ← h, leBytes_ofLeBytes]

theorem u16ToLe_u16OfLe (h : b.length = 2) : u16ToLe (u16OfLe b) = b := by
  have hlt : ofLeBytes b < 2 ^ 16 := by
    have := ofLeBytes_lt b
    rwa [h] at this
  rw [u16ToLe, u16OfLe, UInt16.toNat_ofNat', Nat.mod_eq_of_lt hlt, ← h, leBytes_ofLeBytes]

theorem u32ToLe_inj : u32ToLe m = u32ToLe n ↔ m = n :=
  ⟨fun h => by rw [← u32OfLe_u32ToLe m, h, u32OfLe_u32ToLe], fun h => h ▸ rfl⟩

theorem u16ToLe_inj {m n : UInt16} : u16ToLe m = u16ToLe n ↔ m = n :=
  ⟨fun h => by rw [← u16OfLe_u16ToLe m, h, u16OfLe_u16ToLe], fun h => h ▸ rfl⟩

theorem u32ToBe_inj : u32ToBe m = u32ToBe n ↔ m = n := by
  rw [u32ToBe, u32ToBe, List.reverse_inj, u32ToLe_inj]

theorem u16ToBe_inj {m n : UInt16} : u16ToBe m = u16ToBe n ↔ m = n := by
  rw [u16ToBe, u16ToBe, List.reverse_inj, u16ToLe_inj]

/-! ## Fixed-length arrays -/

/-- The array of exactly `n` bytes with this content, as `try_into` makes it. -/
def toVector? (n : Nat) (b : Bytes) : Option (Vector UInt8 n) :=
  if h : b.length = n then some ⟨b.toArray, by simpa using h⟩ else none

theorem toVector?_eq_some {n : Nat} {v : Vector UInt8 n} :
    toVector? n b = some v ↔ b = v.toList := by
  unfold toVector?
  constructor
  · intro h
    split at h
    · obtain rfl := Option.some.inj h
      rfl
    · cases h
  · rintro rfl
    rw [dif_pos v.length_toList]
    rfl

/-! ## Hex text -/

/-- The ASCII code of a hex digit below sixteen, lower case. -/
def hexDigit (n : Nat) : UInt8 := UInt8.ofNat (if n < 10 then 48 + n else 87 + n)

/-- The value of an ASCII hex digit, in either case. -/
def hexValue (c : UInt8) : Option Nat :=
  if 48 ≤ c ∧ c ≤ 57 then some (c.toNat - 48)
  else if 97 ≤ c ∧ c ≤ 102 then some (c.toNat - 87)
  else if 65 ≤ c ∧ c ≤ 70 then some (c.toNat - 55)
  else none

/-- `hex::encode`: two lower-case digits a byte, high half first. -/
def hexEncode (b : Bytes) : Bytes :=
  b.flatMap fun x => [hexDigit (x.toNat / 16), hexDigit (x.toNat % 16)]

/-- `hex::decode`: `none` on an odd length or on a character that is no hex digit. -/
def hexDecode : Bytes → Option Bytes
  | [] => some []
  | [_] => none
  | hi :: lo :: rest => do
      let h ← hexValue hi
      let l ← hexValue lo
      let bytes ← hexDecode rest
      return UInt8.ofNat (16 * h + l) :: bytes

theorem hexValue_hexDigit {n : Nat} (h : n < 16) : hexValue (hexDigit n) = some n := by
  interval_cases n <;> rfl

@[simp] theorem length_hexEncode (b : Bytes) : (hexEncode b).length = 2 * b.length := by
  induction b with
  | nil => rfl
  | cons x xs ih =>
    show (hexEncode xs).length + 1 + 1 = 2 * (xs.length + 1)
    rw [ih]
    omega

theorem hexDecode_hexEncode (b : Bytes) : hexDecode (hexEncode b) = some b := by
  induction b with
  | nil => rfl
  | cons x xs ih =>
    have hx : x.toNat < 256 := x.toNat_lt
    have hbyte : 16 * (x.toNat / 16) + x.toNat % 16 = x.toNat := by omega
    show (do
      let h ← hexValue (hexDigit (x.toNat / 16))
      let l ← hexValue (hexDigit (x.toNat % 16))
      let bytes ← hexDecode (hexEncode xs)
      return UInt8.ofNat (16 * h + l) :: bytes) = _
    rw [hexValue_hexDigit (by omega), hexValue_hexDigit (by omega), ih]
    show some (UInt8.ofNat (16 * (x.toNat / 16) + x.toNat % 16) :: xs) = _
    rw [hbyte, UInt8.ofNat_toNat]

end Bytes
