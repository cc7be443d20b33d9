import ConstructCore.Lib.Bytes
import Mathlib.Algebra.Field.Defs
import Mathlib.Data.Fintype.EquivFin
import Mathlib.Dynamics.PeriodicPts.Defs
import Mathlib.Tactic.IntervalCases

/-!
# The field of the recovery shares

The arithmetic of `crypto/social_recovery.rs`: a table of the powers of 3 modulo
`x⁸ + x⁴ + x³ + x + 1`, the table of their logarithms, and products and quotients through both.

Multiplying by 3 is linear for exclusive or (`triple_xor`), and 3 has order 255 (`period_one`).
So multiplying by a byte is multiplying by 3 as often as its logarithm says
(`gfMul_eq_iterate`), and the bytes are a field (`GF256`).
-/

namespace ConstructCore

/-! ## Tables -/

/-- One turn of the loop of `build_gf_exp`: `3·x`. -/
def gfExpNext (x : UInt16) : UInt16 :=
  let x2 := if x &&& 0x80 ≠ 0 then ((x <<< 1) ^^^ 0x11b) &&& 0xFF else (x <<< 1) &&& 0xFF
  x2 ^^^ (x &&& 0xFF)

/-- The loop of `build_gf_exp`. -/
def gfExpFrom : Nat → UInt16 → List UInt8
  | 0, _ => []
  | n + 1, x => x.toUInt8 :: gfExpFrom n (gfExpNext x)

/-- `GF_EXP`; the last entry is the sentinel. -/
def gfExp : List UInt8 := gfExpFrom 255 1 ++ [1]

/-- `GF_LOG`: `log[exp[i]] = i`, and 0 at 0. -/
def gfLog : List UInt8 :=
  (List.range 255).foldl (fun log i => log.set (gfExp.getD i 0).toNat (UInt8.ofNat i))
    (List.replicate 256 0)

def gfLogOf (a : UInt8) : Nat := (gfLog.getD a.toNat 0).toNat

def gfMul (a b : UInt8) : UInt8 :=
  if a = 0 ∨ b = 0 then 0 else gfExp.getD ((gfLogOf a + gfLogOf b) % 255) 0

/-- `gf_div`; the divisor is not zero. -/
def gfDiv (a b : UInt8) : UInt8 :=
  if a = 0 then 0 else gfExp.getD ((gfLogOf a + 255 - gfLogOf b) % 255) 0

/-! ## Multiplying by 3 -/

def triple (x : UInt8) : UInt8 := (gfExpNext x.toUInt16).toUInt8

theorem xor_and_distrib (x y mask : UInt16) : (x ^^^ y) &&& mask = (x &&& mask) ^^^ (y &&& mask) := by
  apply UInt16.toNat_inj.mp
  simp only [UInt16.toNat_and, UInt16.toNat_xor, Nat.and_xor_distrib_right]

/-- The reduction is an exclusive or with what is left of the polynomial. -/
theorem gfExpNext_eq (x : UInt16) :
    gfExpNext x = (((x <<< 1) &&& 0xFF) ^^^ (x &&& 0xFF)) ^^^
      (if x &&& 0x80 != 0 then 0x1b else 0) := by
  unfold gfExpNext
  dsimp only
  by_cases h : x &&& 0x80 = 0
  · simp [h]
  · have hreduce : ((x <<< 1) ^^^ (0x11b : UInt16)) &&& (0xFF : UInt16) =
        ((x <<< 1) &&& (0xFF : UInt16)) ^^^ (0x1b : UInt16) := by
      rw [xor_and_distrib]
      rfl
    rw [if_pos h, if_pos (by simpa using h), hreduce, UInt16.xor_assoc, UInt16.xor_comm 0x1b,
      UInt16.xor_assoc]

theorem gfExpNext_xor (x y : UInt16) :
    gfExpNext (x ^^^ y) = gfExpNext x ^^^ gfExpNext y := by
  have hx := UInt16.and_flag x (show (0x80 : UInt16).toNat = 2 ^ 7 from rfl)
  have hy := UInt16.and_flag y (show (0x80 : UInt16).toNat = 2 ^ 7 from rfl)
  -- the reductions of both are the reduction of the sum
  have hreduce : (if (x ^^^ y) &&& 0x80 != 0 then 0x1b else 0 : UInt16) =
      (if x &&& 0x80 != 0 then 0x1b else 0) ^^^ (if y &&& 0x80 != 0 then 0x1b else 0) := by
    rw [xor_and_distrib, hx, hy]
    cases x &&& 0x80 != 0 <;> cases y &&& 0x80 != 0 <;> rfl
  rw [gfExpNext_eq, gfExpNext_eq, gfExpNext_eq, hreduce, UInt16.shiftLeft_xor, xor_and_distrib,
    xor_and_distrib]
  ac_rfl

theorem triple_xor (x y : UInt8) : triple (x ^^^ y) = triple x ^^^ triple y := by
  unfold triple
  rw [UInt8.toUInt16_xor, gfExpNext_xor, UInt16.toUInt8_xor]

@[simp] theorem triple_zero : triple 0 = 0 := rfl

theorem gfExpNext_mask (x : UInt16) : gfExpNext x &&& 0xFF = gfExpNext x := by
  have hreduce : (if x &&& 0x80 != 0 then 0x1b else 0 : UInt16) &&& 0xFF =
      if x &&& 0x80 != 0 then 0x1b else 0 := by
    cases x &&& 0x80 != 0 <;> rfl
  rw [gfExpNext_eq, xor_and_distrib, xor_and_distrib, UInt16.and_assoc, UInt16.and_assoc, hreduce,
    UInt16.and_self]

theorem toUInt16_triple (x : UInt8) : (triple x).toUInt16 = gfExpNext x.toUInt16 := by
  unfold triple
  rw [← gfExpNext_mask]
  apply UInt16.toNat_inj.mp
  rw [UInt8.toNat_toUInt16, UInt16.toNat_toUInt8, UInt16.toNat_and]
  exact Nat.mod_eq_of_lt (Nat.and_lt_two_pow _ (by decide))

theorem gfExpFrom_eq (n : Nat) (x : UInt8) :
    gfExpFrom n x.toUInt16 = (List.range n).map fun i => triple^[i] x := by
  induction n generalizing x with
  | zero => rfl
  | succ n ih =>
    rw [gfExpFrom, ← toUInt16_triple, ih, List.range_succ_eq_map, List.map_cons, List.map_map,
      UInt8.toUInt8_toUInt16]
    rfl

/-! ## The order of 3 -/

theorem iterate_triple_xor (n : Nat) (x y : UInt8) :
    triple^[n] (x ^^^ y) = triple^[n] x ^^^ triple^[n] y := by
  induction n generalizing x y with
  | zero => rfl
  | succ n ih => rw [Function.iterate_succ_apply, triple_xor, ih]; rfl

@[simp] theorem iterate_triple_zero (n : Nat) : triple^[n] 0 = 0 :=
  Function.iterate_fixed triple_zero n

/-- 3 has order 255: its powers at the maximal divisors of 255 are not 1. -/
theorem period_one : Function.minimalPeriod triple 1 = 255 := by
  have hperiod : Function.IsPeriodicPt triple 255 1 := by
    show triple^[255] 1 = 1
    decide +kernel
  have hdvd := hperiod.minimalPeriod_dvd
  have hnot : ∀ n, triple^[n] 1 ≠ 1 → ¬ Function.minimalPeriod triple 1 ∣ n :=
    fun n hn hd => hn (Function.isPeriodicPt_iff_minimalPeriod_dvd.mpr hd)
  have h85 := hnot 85 (by decide +kernel)
  have h51 := hnot 51 (by decide +kernel)
  have h15 := hnot 15 (by decide +kernel)
  have hall : (List.range 256).all (fun d =>
      255 % d != 0 || 85 % d == 0 || 51 % d == 0 || 15 % d == 0 || d == 255) = true := by
    decide +kernel
  have hle : Function.minimalPeriod triple 1 < 256 :=
    Nat.lt_succ_of_le (Nat.le_of_dvd (by decide) hdvd)
  have hd := List.all_eq_true.mp hall _ (List.mem_range.mpr hle)
  simp only [Nat.dvd_iff_mod_eq_zero] at hdvd h85 h51 h15
  simpa [hdvd, h85, h51, h15] using hd

def power (n : Nat) : UInt8 := triple^[n] 1

theorem power_add (m n : Nat) : power (m + n) = triple^[m] (power n) :=
  Function.iterate_add_apply triple m n 1

theorem power_mod (n : Nat) : power (n % 255) = power n := by
  have h := Function.iterate_mod_minimalPeriod_eq (f := triple) (x := 1) (n := n)
  rw [period_one] at h
  exact h

theorem power_injOn : Set.InjOn power (Set.Iio 255) := by
  have h := Function.iterate_injOn_Iio_minimalPeriod (f := triple) (x := 1)
  rw [period_one] at h
  exact h

theorem power_ne_zero (n : Nat) : power n ≠ 0 := by
  intro hzero
  -- from zero the powers never come back to 1
  have hone : power (255 * (n + 1)) = 1 := by
    rw [← power_mod, Nat.mul_mod_right]
    rfl
  have hle : 255 * (n + 1) = (255 * (n + 1) - n) + n := by omega
  rw [hle, power_add, hzero, iterate_triple_zero] at hone
  cases hone

def byteEquiv : UInt8 ≃ Fin 256 where
  toFun b := ⟨b.toNat, b.toNat_lt⟩
  invFun n := UInt8.ofNat n.val
  left_inv b := UInt8.ofNat_toNat
  right_inv n := Fin.ext (by simp)

instance finiteByte : Finite UInt8 := Finite.of_equiv _ byteEquiv.symm

theorem exists_power {a : UInt8} (ha : a ≠ 0) : ∃ i < 255, power i = a := by
  -- the powers and zero are 256 different bytes
  let f : Fin 256 → UInt8 := fun i => if i.val < 255 then power i else 0
  have hinj : Function.Injective f := by
    intro i j h
    have hi := i.isLt
    have hj := j.isLt
    unfold f at h
    split at h <;> split at h
    · exact Fin.ext (power_injOn ‹_› ‹_› h)
    · exact absurd h (power_ne_zero _)
    · exact absurd h.symm (power_ne_zero _)
    · exact Fin.ext (by omega)
  obtain ⟨i, hi⟩ := (Finite.injective_iff_surjective_of_equiv byteEquiv.symm).mp hinj a
  unfold f at hi
  split at hi
  · exact ⟨i, ‹_›, hi⟩
  · exact absurd hi.symm ha

/-! ## What the tables hold -/

theorem getD_foldl_set {key : Nat → Nat} (val : Nat → UInt8) {indices : List Nat}
    (hnd : (indices.map key).Nodup) (table : List UInt8)
    (hlt : ∀ i ∈ indices, key i < table.length) {i : Nat} (hi : i ∈ indices) (d : UInt8) :
    (indices.foldl (fun t j => t.set (key j) (val j)) table).getD (key i) d = val i := by
  induction indices using List.reverseRecOn with
  | nil => cases hi
  | append_singleton indices j ih =>
    have hlen : ∀ l : List Nat, (l.foldl (fun t j => t.set (key j) (val j)) table).length =
        table.length := by
      intro l
      induction l using List.reverseRecOn with
      | nil => rfl
      | append_singleton l j ih => simpa using ih
    rw [List.map_append, List.nodup_append] at hnd
    rw [List.foldl_append, List.foldl_cons, List.foldl_nil]
    by_cases hij : key i = key j
    · have hsame : val i = val j := by
        rcases List.mem_append.mp hi with hmem | hmem
        · exact absurd hij (hnd.2.2 _ (List.mem_map_of_mem hmem) _ (by simp))
        · rw [List.mem_singleton.mp hmem]
      rw [hij, hsame, List.getD_eq_getElem?_getD, List.getElem?_set_self]
      · rfl
      · rw [hlen]
        exact hlt j (by simp)
    · have hmem : i ∈ indices := by
        rcases List.mem_append.mp hi with hmem | hmem
        · exact hmem
        · exact absurd (by rw [List.mem_singleton.mp hmem]) hij
      rw [List.getD_eq_getElem?_getD, List.getElem?_set_ne (Ne.symm hij),
        ← List.getD_eq_getElem?_getD]
      exact ih hnd.1 (fun i hi => hlt i (List.mem_append_left _ hi)) hmem

theorem gfExp_getD {i : Nat} (hi : i < 255) : gfExp.getD i 0 = power i := by
  have hfrom := gfExpFrom_eq 255 1
  unfold gfExp
  rw [show (1 : UInt16) = (1 : UInt8).toUInt16 from rfl, hfrom,
    List.getD_append _ _ _ _ (by rwa [List.length_map, List.length_range]),
    List.getD_eq_getElem?_getD, List.getElem?_map, List.getElem?_range hi]
  rfl

theorem gfLogOf_power {i : Nat} (hi : i < 255) : gfLogOf (power i) = i := by
  have hkeys : ((List.range 255).map fun i => (gfExp.getD i 0).toNat).Nodup := by
    refine (List.nodup_range).map_on ?_
    intro i hi j hj h
    rw [List.mem_range] at hi hj
    rw [gfExp_getD hi, gfExp_getD hj] at h
    exact power_injOn hi hj (UInt8.toNat_inj.mp h)
  have hset := getD_foldl_set UInt8.ofNat hkeys (List.replicate 256 0)
    (fun i _ => by rw [List.length_replicate]; exact (gfExp.getD i 0).toNat_lt)
    (List.mem_range.mpr hi) 0
  unfold gfLogOf gfLog
  rw [gfExp_getD hi] at hset
  rw [hset, UInt8.toNat_ofNat']
  omega

/-! ## The field -/

theorem gfMul_power (m n : Nat) : gfMul (power m) (power n) = power (m + n) := by
  have hlog : ∀ n, gfLogOf (power n) = n % 255 := fun n => by
    rw [← power_mod, gfLogOf_power (Nat.mod_lt _ (by decide))]
  unfold gfMul
  rw [if_neg (by simp [power_ne_zero]), hlog, hlog, ← Nat.add_mod,
    gfExp_getD (Nat.mod_lt _ (by decide)), power_mod]

theorem gfDiv_power {m n : Nat} (hm : m < 255) (hn : n < 255) :
    gfDiv (power m) (power n) = power (m + 255 - n) := by
  unfold gfDiv
  rw [if_neg (power_ne_zero m), gfLogOf_power hm, gfLogOf_power hn,
    gfExp_getD (Nat.mod_lt _ (by decide)), power_mod]

@[simp] theorem gfMul_zero_left (a : UInt8) : gfMul 0 a = 0 := rfl

@[simp] theorem gfMul_zero_right (a : UInt8) : gfMul a 0 = 0 := by
  simp [gfMul]

theorem gfMul_comm (a b : UInt8) : gfMul a b = gfMul b a := by
  unfold gfMul
  rw [Nat.add_comm]
  exact if_congr or_comm rfl rfl

/-- Multiplying by a byte is multiplying by 3 as often as its logarithm says. -/
theorem gfMul_eq_iterate (n : Nat) (b : UInt8) : gfMul (power n) b = triple^[n] b := by
  by_cases hb : b = 0
  · rw [hb, gfMul_zero_right, iterate_triple_zero]
  · obtain ⟨i, -, rfl⟩ := exists_power hb
    rw [gfMul_power, power_add]

theorem gfMul_xor (a b c : UInt8) : gfMul a (b ^^^ c) = gfMul a b ^^^ gfMul a c := by
  by_cases ha : a = 0
  · rw [ha, gfMul_zero_left, gfMul_zero_left, gfMul_zero_left, UInt8.xor_self]
  · obtain ⟨i, -, rfl⟩ := exists_power ha
    rw [gfMul_eq_iterate, gfMul_eq_iterate, gfMul_eq_iterate, iterate_triple_xor]

theorem xor_gfMul (a b c : UInt8) : gfMul (a ^^^ b) c = gfMul a c ^^^ gfMul b c := by
  rw [gfMul_comm, gfMul_xor, gfMul_comm c, gfMul_comm c]

theorem gfMul_assoc (a b c : UInt8) : gfMul (gfMul a b) c = gfMul a (gfMul b c) := by
  by_cases ha : a = 0
  · simp only [ha, gfMul_zero_left]
  by_cases hb : b = 0
  · simp only [hb, gfMul_zero_left, gfMul_zero_right]
  by_cases hc : c = 0
  · simp only [hc, gfMul_zero_right]
  obtain ⟨i, -, rfl⟩ := exists_power ha
  obtain ⟨j, -, rfl⟩ := exists_power hb
  obtain ⟨k, -, rfl⟩ := exists_power hc
  rw [gfMul_power, gfMul_power, gfMul_power, gfMul_power, Nat.add_assoc]

theorem one_gfMul (a : UInt8) : gfMul 1 a = a := gfMul_eq_iterate 0 a

theorem gfMul_gfDiv_cancel {a b : UInt8} (hb : b ≠ 0) : gfMul b (gfDiv a b) = a := by
  by_cases ha : a = 0
  · rw [ha]
    simp [gfDiv]
  · obtain ⟨i, hi, rfl⟩ := exists_power ha
    obtain ⟨j, hj, rfl⟩ := exists_power hb
    rw [gfDiv_power hi hj, gfMul_power, ← power_mod, ← power_mod i]
    congr 1
    omega

/-- The bytes as a field. -/
@[ext]
structure GF256 where
  byte : UInt8
deriving DecidableEq

namespace GF256

def equivByte : GF256 ≃ UInt8 where
  toFun := byte
  invFun := mk
  left_inv _ := rfl
  right_inv _ := rfl

instance : Finite GF256 := Finite.of_equiv _ equivByte.symm

instance : Zero GF256 := ⟨⟨0⟩⟩

instance : One GF256 := ⟨⟨1⟩⟩

instance : Add GF256 := ⟨fun a b => ⟨a.byte ^^^ b.byte⟩⟩

instance : Neg GF256 := ⟨id⟩

instance : Mul GF256 := ⟨fun a b => ⟨gfMul a.byte b.byte⟩⟩

instance : Inv GF256 := ⟨fun a => if a = 0 then 0 else ⟨gfDiv 1 a.byte⟩⟩

@[simp] theorem byte_zero : (0 : GF256).byte = 0 := rfl

@[simp] theorem byte_one : (1 : GF256).byte = 1 := rfl

@[simp] theorem byte_add (a b : GF256) : (a + b).byte = a.byte ^^^ b.byte := rfl

@[simp] theorem byte_mul (a b : GF256) : (a * b).byte = gfMul a.byte b.byte := rfl

@[simp] theorem byte_neg (a : GF256) : (-a).byte = a.byte := rfl

theorem byte_ne_zero {a : GF256} (ha : a ≠ 0) : a.byte ≠ 0 := fun h => ha (GF256.ext h)

theorem mul_inv (a : GF256) (ha : a ≠ 0) : a * a⁻¹ = 1 := by
  have hinv : a⁻¹ = ⟨gfDiv 1 a.byte⟩ := if_neg ha
  rw [hinv]
  apply GF256.ext
  rw [byte_mul, byte_one, gfMul_gfDiv_cancel (byte_ne_zero ha)]

instance : Field GF256 where
  add_assoc _ _ _ := GF256.ext (UInt8.xor_assoc _ _ _)
  zero_add _ := GF256.ext UInt8.zero_xor
  add_zero _ := GF256.ext UInt8.xor_zero
  nsmul := nsmulRec
  zsmul := zsmulRec
  neg_add_cancel _ := GF256.ext UInt8.xor_self
  add_comm _ _ := GF256.ext (UInt8.xor_comm _ _)
  left_distrib _ _ _ := GF256.ext (gfMul_xor _ _ _)
  right_distrib _ _ _ := GF256.ext (xor_gfMul _ _ _)
  zero_mul a := GF256.ext (gfMul_zero_left a.byte)
  mul_zero a := GF256.ext (gfMul_zero_right a.byte)
  mul_assoc _ _ _ := GF256.ext (gfMul_assoc _ _ _)
  one_mul a := GF256.ext (one_gfMul a.byte)
  mul_one a := GF256.ext ((gfMul_comm a.byte 1).trans (one_gfMul a.byte))
  mul_comm _ _ := GF256.ext (gfMul_comm _ _)
  exists_pair_ne := ⟨0, 1, by decide⟩
  mul_inv_cancel := mul_inv
  inv_zero := rfl
  nnqsmul := _
  qsmul := _

@[simp] theorem byte_sub (a b : GF256) : (a - b).byte = a.byte ^^^ b.byte := rfl

theorem byte_div (a : GF256) {b : GF256} (hb : b ≠ 0) : (a / b).byte = gfDiv a.byte b.byte := by
  have hquot : a / b = ⟨gfDiv a.byte b.byte⟩ := by
    rw [div_eq_iff hb]
    exact GF256.ext ((gfMul_comm _ _).trans
      (gfMul_gfDiv_cancel (a := a.byte) (byte_ne_zero hb))).symm
  rw [hquot]

end GF256

end ConstructCore
