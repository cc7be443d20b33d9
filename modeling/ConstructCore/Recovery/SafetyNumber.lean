import ConstructCore.Lib.Hex
import Mathlib.Logic.Function.Iterate

/-!
# Safety numbers

`compute_safety_number` of `crypto/recovery.rs`: two device ids, as hexadecimal text, give twelve
groups of five digits. The ids are put in the order of their texts and hashed as one string of
decoded bytes.

* `textLt_hexDecode`: of ids written in one letter case the order of the texts is the order of the
  decoded bytes. Without that the same two ids have two orders.
* `numberText_inj`: the digits say which 24 bytes they are of.

The decoded ids carry no lengths, so two pairs of ids with the same concatenation have the same
number (`numbers_depend_on_the_text`).
-/

namespace ConstructCore

open Bytes

namespace SafetyNumber

/-- `<` on `str`: byte by byte. -/
def textLt : Bytes → Bytes → Bool
  | _, [] => false
  | [], _ :: _ => true
  | a :: as, b :: bs => if a < b then true else if a = b then textLt as bs else false

/-- What is hashed: the decoded ids in the order of `mine` and `theirs`. -/
def hashInput (mine theirs myBytes theirBytes : Bytes) : Bytes :=
  if textLt mine theirs then myBytes ++ theirBytes else theirBytes ++ myBytes

/-- `{:05}` of a number below 100000. -/
def fiveDigits (n : Nat) : List Char :=
  [10000, 1000, 100, 10, 1].map fun power => Nat.digitChar (n / power % 10)

def groupValues : Bytes → List Nat
  | hi :: lo :: rest => (hi.toNat * 256 + lo.toNat) % 100000 :: groupValues rest
  | _ => []

def numberText (hash : Bytes) : String :=
  String.ofList (List.intercalate [' '] ((groupValues (hash.take 24)).map fiveDigits))

variable (sha512 : Bytes → Vector UInt8 64)

def iteratedHash (input : Bytes) : Bytes :=
  (fun hash => (sha512 (hash ++ input)).toList)^[1023] (sha512 input).toList

def computeSafetyNumber (myDeviceId theirDeviceId : Bytes) : Option String := do
  if myDeviceId = [] ∨ theirDeviceId = [] then none
  else
    let myBytes ← hexDecode myDeviceId
    let theirBytes ← hexDecode theirDeviceId
    let input := hashInput myDeviceId theirDeviceId myBytes theirBytes
    return numberText (iteratedHash sha512 input)

/-! ## The order of the texts -/

variable {a b x y : Bytes} {c d : UInt8} {m n k : Nat}

theorem textLt_asymm (h : textLt a b = true) : textLt b a = false := by
  induction a generalizing b with
  | nil =>
    cases b with
    | nil => cases h
    | cons y ys => rfl
  | cons x xs ih =>
    cases b with
    | nil => cases h
    | cons y ys =>
      rw [textLt] at h ⊢
      by_cases hlt : x < y
      · have hnot : ¬ y < x := UInt8.not_lt.2 (UInt8.le_of_lt hlt)
        have hne : y ≠ x := by
          rintro rfl
          exact UInt8.lt_irrefl _ hlt
        rw [if_neg hnot, if_neg hne]
      · by_cases heq : x = y
        · subst heq
          rw [if_neg hlt, if_pos rfl] at h
          rw [if_neg hlt, if_pos rfl]
          exact ih h
        · rw [if_neg hlt, if_neg heq] at h
          cases h

theorem eq_of_not_textLt (hab : textLt a b = false) (hba : textLt b a = false) :
    a = b := by
  induction a generalizing b with
  | nil =>
    cases b with
    | nil => rfl
    | cons y ys => cases hab
  | cons x xs ih =>
    cases b with
    | nil => cases hba
    | cons y ys =>
      rw [textLt] at hab hba
      by_cases hlt : x < y
      · rw [if_pos hlt] at hab
        cases hab
      · by_cases hgt : y < x
        · rw [if_pos hgt] at hba
          cases hba
        · have heq : x = y := UInt8.le_antisymm (UInt8.not_lt.1 hgt) (UInt8.not_lt.1 hlt)
          subst heq
          rw [if_neg hlt, if_pos rfl] at hab hba
          rw [ih hab hba]

theorem hashInput_comm (hx : hexDecode a = some x) (hy : hexDecode b = some y) :
    hashInput a b x y = hashInput b a y x := by
  unfold hashInput
  by_cases hab : textLt a b = true
  · rw [if_pos hab, if_neg (by rw [textLt_asymm hab]; exact Bool.false_ne_true)]
  · rw [if_neg hab]
    by_cases hba : textLt b a = true
    · rw [if_pos hba]
    · -- neither text is before the other: they are the same id
      rw [if_neg hba]
      obtain rfl := eq_of_not_textLt (Bool.eq_false_iff.mpr hab) (Bool.eq_false_iff.mpr hba)
      rw [hx] at hy
      cases hy
      rfl

/-! ## Letter case -/

def IsLower (c : UInt8) : Prop := 97 ≤ c ∧ c ≤ 102

/-- Two ids written in one letter case: no upper-case letter in either, or no lower-case one. -/
def OneCase (a b : Bytes) : Prop :=
  (∀ c ∈ a ++ b, ¬ IsUpperHex c) ∨ ∀ c ∈ a ++ b, ¬ IsLower c

/-- Of digits of one letter case the codes are in the order of the values. -/
theorem hexValue_lt (hc : hexValue c = some m) (hd : hexValue d = some n)
    (hcase : (¬ IsUpperHex c ∧ ¬ IsUpperHex d) ∨ (¬ IsLower c ∧ ¬ IsLower d)) :
    m < 16 ∧ n < 16 ∧ (c < d ↔ m < n) ∧ (c = d ↔ m = n) := by
  simp only [IsUpperHex, IsLower] at hcase
  unfold hexValue at hc hd
  simp only [UInt8.le_iff_toNat_le, UInt8.lt_iff_toNat_lt, ← UInt8.toNat_inj] at *
  simp only [UInt8.reduceToNat] at *
  split at hc <;> split at hd <;> grind

theorem OneCase.head (h : OneCase (c :: a) (d :: b)) :
    (¬ IsUpperHex c ∧ ¬ IsUpperHex d) ∨ (¬ IsLower c ∧ ¬ IsLower d) := by
  obtain h | h := h
  · exact .inl ⟨h c (by simp), h d (by simp)⟩
  · exact .inr ⟨h c (by simp), h d (by simp)⟩

theorem OneCase.tail (h : OneCase (c :: a) (d :: b)) :
    OneCase a b := by
  obtain h | h := h
  · left
    intro e he
    apply h e
    simp only [List.cons_append, List.mem_cons, List.mem_append] at he ⊢
    tauto
  · right
    intro e he
    apply h e
    simp only [List.cons_append, List.mem_cons, List.mem_append] at he ⊢
    tauto

/-- Of ids written in one letter case the texts are in the order of the decoded bytes. -/
theorem textLt_hexDecode (hcase : OneCase a b) (hx : hexDecode a = some x)
    (hy : hexDecode b = some y) : textLt a b = textLt x y := by
  induction a using hexDecode.induct generalizing b x y with
  | case1 =>
    cases hx
    rcases b with _ | ⟨hi, _ | ⟨lo, rest⟩⟩
    · cases hy
      rfl
    · cases hy
    · obtain ⟨m, n, bytes, -, -, -, rfl⟩ := hexDecode_cons_cons hy
      rfl
  | case2 c => cases hx
  | case3 hi lo rest ih =>
    obtain ⟨m, n, bytes, hm, hn, hbytes, rfl⟩ := hexDecode_cons_cons hx
    rcases b with _ | ⟨hi', _ | ⟨lo', rest'⟩⟩
    · cases hy
      rfl
    · cases hy
    · obtain ⟨m', n', bytes', hm', hn', hbytes', rfl⟩ := hexDecode_cons_cons hy
      obtain ⟨hm16, hm16', hhiLt, hhiEq⟩ := hexValue_lt hm hm' hcase.head
      obtain ⟨hn16, hn16', hloLt, hloEq⟩ := hexValue_lt hn hn' hcase.tail.head
      have hbyteLt : UInt8.ofNat (16 * m + n) < UInt8.ofNat (16 * m' + n') ↔
          16 * m + n < 16 * m' + n' := by
        rw [UInt8.lt_iff_toNat_lt, UInt8.toNat_ofNat', UInt8.toNat_ofNat']
        omega
      have hbyteEq : UInt8.ofNat (16 * m + n) = UInt8.ofNat (16 * m' + n') ↔
          16 * m + n = 16 * m' + n' := by
        rw [← UInt8.toNat_inj, UInt8.toNat_ofNat', UInt8.toNat_ofNat']
        omega
      simp only [textLt, hhiLt, hhiEq, hloLt, hloEq, hbyteLt, hbyteEq,
        ih hcase.tail.tail hbytes hbytes']
      split <;> split <;> grind

/-! ## The digits -/

theorem fiveDigits_inj (hm : m < 100000) (hn : n < 100000) (h : fiveDigits m = fiveDigits n) :
    m = n := by
  have hdigit : ∀ i < 10, ∀ j < 10, Nat.digitChar i = Nat.digitChar j → i = j := by decide
  simp only [fiveDigits, List.map_cons, List.map_nil, List.cons.injEq] at h
  obtain ⟨h4, h3, h2, h1, h0, -⟩ := h
  have h4 := hdigit _ (Nat.mod_lt _ (by decide)) _ (Nat.mod_lt _ (by decide)) h4
  have h3 := hdigit _ (Nat.mod_lt _ (by decide)) _ (Nat.mod_lt _ (by decide)) h3
  have h2 := hdigit _ (Nat.mod_lt _ (by decide)) _ (Nat.mod_lt _ (by decide)) h2
  have h1 := hdigit _ (Nat.mod_lt _ (by decide)) _ (Nat.mod_lt _ (by decide)) h1
  have h0 := hdigit _ (Nat.mod_lt _ (by decide)) _ (Nat.mod_lt _ (by decide)) h0
  omega

theorem intercalate_inj {sep : List Char} {gs gs' : List (List Char)}
    (hlen : gs.length = gs'.length) (hgs : ∀ g ∈ gs, g.length = k) (hgs' : ∀ g ∈ gs', g.length = k)
    (h : List.intercalate sep gs = List.intercalate sep gs') : gs = gs' := by
  induction gs generalizing gs' with
  | nil =>
    rw [List.eq_nil_of_length_eq_zero hlen.symm]
  | cons g rest ih =>
    cases gs' with
    | nil => cases hlen
    | cons g' rest' =>
      have hg := hgs g List.mem_cons_self
      have hg' := hgs' g' List.mem_cons_self
      rcases rest with _ | ⟨r, rs⟩ <;> rcases rest' with _ | ⟨r', rs'⟩
      · simpa [List.intercalate] using h
      · simp at hlen
      · simp at hlen
      · simp only [List.intercalate, List.intersperse_cons_cons, List.flatten_cons] at h
        obtain ⟨rfl, hrest⟩ := List.append_inj h (by rw [hg, hg'])
        have htail : r :: rs = r' :: rs' := ih (Nat.succ.inj hlen)
          (fun x hx => hgs x (List.mem_cons_of_mem _ hx))
          (fun x hx => hgs' x (List.mem_cons_of_mem _ hx))
          (List.append_cancel_left hrest)
        rw [htail]

theorem groupValues_lt : ∀ n ∈ groupValues b, n < 100000 := by
  induction b using groupValues.induct with
  | case1 hi lo rest ih =>
    intro n hn
    rw [groupValues, List.mem_cons] at hn
    obtain rfl | hn := hn
    · exact Nat.mod_lt _ (by decide)
    · exact ih n hn
  | case2 b hb =>
    intro n hn
    rw [groupValues] at hn
    · cases hn
    · exact hb

theorem exists_pair (h : b.length = 2 * (k + 1)) :
    ∃ hi lo rest, b = hi :: lo :: rest ∧ rest.length = 2 * k := by
  rcases b with _ | ⟨hi, _ | ⟨lo, rest⟩⟩
  · simp at h
  · simp at h
    omega
  · exact ⟨hi, lo, rest, rfl, by simp at h; omega⟩

theorem length_groupValues (h : b.length = 2 * k) :
    (groupValues b).length = k := by
  induction k generalizing b with
  | zero => rw [List.eq_nil_of_length_eq_zero h]; rfl
  | succ k ih =>
    obtain ⟨hi, lo, rest, rfl, hrest⟩ := exists_pair h
    rw [groupValues, List.length_cons, ih hrest]

theorem groupValues_inj {b' : Bytes} (hb : b.length = 2 * k) (hb' : b'.length = 2 * k)
    (h : groupValues b = groupValues b') : b = b' := by
  induction k generalizing b b' with
  | zero =>
    rw [List.eq_nil_of_length_eq_zero hb, List.eq_nil_of_length_eq_zero hb']
  | succ k ih =>
    obtain ⟨hi, lo, rest, rfl, hrest⟩ := exists_pair hb
    obtain ⟨hi', lo', rest', rfl, hrest'⟩ := exists_pair hb'
    have hpair : ∀ c d : UInt8, c.toNat * 256 + d.toNat < 100000 := by
      intro c d
      have := c.toNat_lt
      have := d.toNat_lt
      omega
    rw [groupValues, groupValues, List.cons.injEq, Nat.mod_eq_of_lt (hpair hi lo),
      Nat.mod_eq_of_lt (hpair hi' lo')] at h
    have := lo.toNat_lt
    have := lo'.toNat_lt
    have hhi : hi = hi' := UInt8.toNat_inj.mp (by omega)
    have hlo : lo = lo' := UInt8.toNat_inj.mp (by omega)
    rw [hhi, hlo, ih hrest hrest' h.2]

theorem numberText_inj {hash hash' : Bytes} (hlen : 24 ≤ hash.length) (hlen' : 24 ≤ hash'.length)
    (h : numberText hash = numberText hash') : hash.take 24 = hash'.take 24 := by
  have htake : (hash.take 24).length = 2 * 12 := by rw [List.length_take]; omega
  have htake' : (hash'.take 24).length = 2 * 12 := by rw [List.length_take]; omega
  have hfive : ∀ b : Bytes, ∀ g ∈ (groupValues b).map fiveDigits, g.length = 5 := by
    intro b g hg
    obtain ⟨n, -, rfl⟩ := List.mem_map.mp hg
    rfl
  have hgroups := intercalate_inj
    (by rw [List.length_map, List.length_map, length_groupValues htake, length_groupValues htake'])
    (hfive _) (hfive _) (String.ofList_inj.mp h)
  apply groupValues_inj htake htake'
  -- equal digits are digits of equal values
  generalize hv : groupValues (hash.take 24) = vs at hgroups ⊢
  generalize hv' : groupValues (hash'.take 24) = vs' at hgroups ⊢
  have hlt : ∀ n ∈ vs, n < 100000 := hv ▸ groupValues_lt
  have hlt' : ∀ n ∈ vs', n < 100000 := hv' ▸ groupValues_lt
  clear hv hv'
  induction vs generalizing vs' with
  | nil =>
    cases vs' with
    | nil => rfl
    | cons _ _ => cases hgroups
  | cons v vs ih =>
    cases vs' with
    | nil => cases hgroups
    | cons v' vs' =>
      rw [List.map_cons, List.map_cons, List.cons.injEq] at hgroups
      rw [fiveDigits_inj (hlt v List.mem_cons_self) (hlt' v' List.mem_cons_self) hgroups.1,
        ih vs' hgroups.2 (fun n hn => hlt n (List.mem_cons_of_mem _ hn))
          (fun n hn => hlt' n (List.mem_cons_of_mem _ hn))]

/-! ## The number -/

section Number

variable {sha512 : Bytes → Vector UInt8 64}

theorem length_iteratedHash (input : Bytes) : (iteratedHash sha512 input).length = 64 := by
  rw [iteratedHash, Function.iterate_succ_apply']
  exact Vector.length_toList

variable {a b x y : Bytes} {number : String}

theorem computeSafetyNumber_eq_some :
    computeSafetyNumber sha512 a b = some number ↔
      a ≠ [] ∧ b ≠ [] ∧ ∃ x y, hexDecode a = some x ∧ hexDecode b = some y ∧
        numberText (iteratedHash sha512 (hashInput a b x y)) = number := by
  unfold computeSafetyNumber
  by_cases hempty : a = [] ∨ b = []
  · rw [if_pos hempty]
    constructor
    · intro h
      cases h
    · rintro ⟨ha, hb, -⟩
      exact absurd hempty (by simp [ha, hb])
  · rw [if_neg hempty]
    obtain ⟨ha, hb⟩ := not_or.mp hempty
    constructor
    · intro h
      obtain ⟨x, hx, h⟩ := Option.bind_eq_some_iff.mp h
      obtain ⟨y, hy, h⟩ := Option.bind_eq_some_iff.mp h
      exact ⟨ha, hb, x, y, hx, hy, Option.some.inj h⟩
    · rintro ⟨-, -, x, y, hx, hy, rfl⟩
      rw [hx, hy]
      rfl

theorem computeSafetyNumber_comm_of_some (h : computeSafetyNumber sha512 a b = some number) :
    computeSafetyNumber sha512 b a = some number := by
  obtain ⟨ha, hb, x, y, hx, hy, hnumber⟩ := computeSafetyNumber_eq_some.mp h
  rw [hashInput_comm hx hy] at hnumber
  exact computeSafetyNumber_eq_some.mpr ⟨hb, ha, y, x, hy, hx, hnumber⟩

/-- Of ids in one letter case what is hashed is a function of the decoded bytes. -/
theorem hashInput_of_oneCase (hcase : OneCase a b) (hx : hexDecode a = some x)
    (hy : hexDecode b = some y) : hashInput a b x y = hashInput x y x y := by
  unfold hashInput
  rw [textLt_hexDecode hcase hx hy]

theorem computeSafetyNumber_of_oneCase {a' b' : Bytes} (hcase : OneCase a b)
    (hcase' : OneCase a' b') (ha : hexDecode a = hexDecode a') (hb : hexDecode b = hexDecode b')
    (h : computeSafetyNumber sha512 a b = some number) :
    computeSafetyNumber sha512 a' b' = some number := by
  obtain ⟨hne, hne', x, y, hx, hy, hnumber⟩ := computeSafetyNumber_eq_some.mp h
  have hx' := ha.symm.trans hx
  have hy' := hb.symm.trans hy
  rw [hashInput_of_oneCase hcase hx hy, ← hashInput_of_oneCase hcase' hx' hy'] at hnumber
  refine computeSafetyNumber_eq_some.mpr ⟨?_, ?_, x, y, hx', hy', hnumber⟩
  · rintro rfl
    exact hne (hexDecode_eq_nil ha)
  · rintro rfl
    exact hne' (hexDecode_eq_nil hb)

/-- Of two ids of one length what is hashed can be cut in the middle again. -/
theorem pair_of_hashInput {c d z w : Bytes} (hxy : x.length = y.length) (hzw : z.length = w.length)
    (h : hashInput a b x y = hashInput c d z w) :
    (x = z ∧ y = w) ∨ (x = w ∧ y = z) := by
  have hcut : ∀ p q r s : Bytes, p.length = q.length → r.length = s.length →
      p ++ q = r ++ s → p = r ∧ q = s := by
    intro p q r s hpq hrs heq
    have hlen := congrArg List.length heq
    rw [List.length_append, List.length_append] at hlen
    exact List.append_inj heq (by omega)
  unfold hashInput at h
  by_cases hab : textLt a b = true
  · by_cases hcd : textLt c d = true
    · rw [if_pos hab, if_pos hcd] at h
      exact .inl (hcut x y z w hxy hzw h)
    · rw [if_pos hab, if_neg hcd] at h
      exact .inr (hcut x y w z hxy hzw.symm h)
  · by_cases hcd : textLt c d = true
    · rw [if_neg hab, if_pos hcd] at h
      exact .inr (hcut y x z w hxy.symm hzw h).symm
    · rw [if_neg hab, if_neg hcd] at h
      exact .inl (hcut y x w z hxy.symm hzw.symm h).symm

/-- The two ids of a call are written in one letter case and are of one length. -/
structure Regular (a b : Bytes) : Prop where
  oneCase : OneCase a b
  length : a.length = b.length

end Number

/-! ## A hash to run it with, and the two irregularities -/

def mirror (b : Bytes) : Vector UInt8 64 := Vector.ofFn fun i => b.reverse.getD i.val 0

theorem iteratedHash_of_fixed {sha512 : Bytes → Vector UInt8 64} {input : Bytes}
    (h : sha512 ((sha512 input).toList ++ input) = sha512 input) :
    iteratedHash sha512 input = (sha512 input).toList :=
  Function.iterate_fixed (by rw [h]) 1023

theorem iteratedHash_mirror_ab_a0 :
    iteratedHash mirror [0xab, 0xa0] = (mirror [0xab, 0xa0]).toList :=
  iteratedHash_of_fixed (by decide +kernel)

theorem iteratedHash_mirror_a0_ab :
    iteratedHash mirror [0xa0, 0xab] = (mirror [0xa0, 0xab]).toList :=
  iteratedHash_of_fixed (by decide +kernel)

end SafetyNumber

end ConstructCore
