import ConstructCore.Lib.Rounding
import ConstructCore.Lib.Bytes

/-!
# The size of a media blob

`padme` and `blob_len` of `media.rs`. Padmé keeps the top `⌊log₂ e⌋ + 1` bits of a length
below the highest, where `e` is the position of the highest bit, and rounds the rest up. The
code does it with two leading-zero counts, a shift and a mask on 64-bit words;
`toNat_padme` says that up to `2 ^ 63` this is the rounding within a binade of `Lib.Rounding`
with grain `padmeGrain`, and everything else is read off there.
-/

namespace ConstructCore

namespace Media

/-- `leading_zeros` of a number held in `w` bits. -/
def leadingZeros (w n : Nat) : Nat := if n = 0 then w else w - 1 - n.log2

/-- `e` of `padme`: the position of the highest bit of `len`. -/
def padmeExponent (len : UInt64) : Nat := 63 - leadingZeros 64 len.toNat

/-- `s` of `padme`: how many bits below the highest are kept. -/
def padmeKept (len : UInt64) : Nat := 32 - leadingZeros 32 (padmeExponent len)

/-- `mask` of `padme`: the bits that are cleared. -/
def padmeMask (len : UInt64) : UInt64 :=
  (1 <<< UInt64.ofNat (padmeExponent len - padmeKept len)) - 1

def padme (len : UInt64) : UInt64 :=
  if len < 2 then len
  else (len + padmeMask len) &&& ~~~(padmeMask len)

/-- No step of `padme` on `len` leaves its word: the two differences from the leading zeros, the
shift amount, the bit that is shifted, and the sum that is masked. -/
structure PadmeFits (len : UInt64) : Prop where
  exponent : leadingZeros 64 len.toNat ≤ 63
  kept : leadingZeros 32 (padmeExponent len) ≤ 32
  amount : padmeKept len ≤ padmeExponent len
  shift : padmeExponent len - padmeKept len < 64
  bit : ((1 : UInt64) <<< UInt64.ofNat (padmeExponent len - padmeKept len)).toNat =
    2 ^ (padmeExponent len - padmeKept len)
  sum : len.toNat + (padmeMask len).toNat < 2 ^ 64

/-! ## Padmé as a rounding within binades -/

/-- The bits that are cleared of a length whose highest bit is at `e`. -/
def padmeGrain (e : Nat) : Nat := e - (e.log2 + 1)

theorem padmeGrain_le (e : Nat) : padmeGrain e ≤ e :=
  Nat.sub_le e _

theorem log2_lt_self {e : Nat} (he : e ≠ 0) : e.log2 < e :=
  (Nat.log2_lt he).2 Nat.lt_two_pow_self

section Words

variable {len : UInt64} (hpos : len.toNat ≠ 0)

include hpos

theorem log2_toNat_lt : len.toNat.log2 < 64 :=
  (Nat.log2_lt hpos).2 len.toNat_lt

theorem padmeExponent_eq : padmeExponent len = len.toNat.log2 := by
  have hlt := log2_toNat_lt hpos
  simp only [padmeExponent, leadingZeros, hpos, if_false]
  omega

variable (hle : 2 ≤ len.toNat)

include hle

theorem one_le_log2 : 1 ≤ len.toNat.log2 :=
  (Nat.le_log2 hpos).2 (by simpa using hle)

theorem padmeKept_eq : padmeKept len = len.toNat.log2.log2 + 1 := by
  have he := one_le_log2 hpos hle
  have hlt := log2_toNat_lt hpos
  have hself := log2_lt_self (e := len.toNat.log2) (by omega)
  have hlog : len.toNat.log2.log2 < 6 := (Nat.log2_lt (by omega)).2 (by omega)
  have hne : len.toNat.log2 ≠ 0 := by omega
  simp only [padmeKept, padmeExponent_eq hpos, leadingZeros, hne, if_false]
  omega

theorem padmeExponent_sub_padmeKept :
    padmeExponent len - padmeKept len = padmeGrain len.toNat.log2 := by
  rw [padmeExponent_eq hpos, padmeKept_eq hpos hle, padmeGrain]

theorem toNat_shifted :
    ((1 : UInt64) <<< UInt64.ofNat (padmeExponent len - padmeKept len)).toNat =
      2 ^ padmeGrain len.toNat.log2 := by
  have hlt := log2_toNat_lt hpos
  have hgrain : padmeGrain len.toNat.log2 < 64 := by
    have := padmeGrain_le len.toNat.log2
    omega
  have hpow : 2 ^ padmeGrain len.toNat.log2 < 2 ^ 64 := Nat.pow_lt_pow_right (by decide) hgrain
  rw [padmeExponent_sub_padmeKept hpos hle, UInt64.toNat_shiftLeft, UInt64.toNat_ofNat',
    Nat.mod_eq_of_lt (hgrain.trans (by decide)), Nat.mod_eq_of_lt hgrain, UInt64.toNat_one,
    Nat.one_shiftLeft, Nat.mod_eq_of_lt hpow]

theorem toNat_padmeMask : (padmeMask len).toNat = 2 ^ padmeGrain len.toNat.log2 - 1 := by
  have hone : (1 : UInt64) ≤ 1 <<< UInt64.ofNat (padmeExponent len - padmeKept len) := by
    rw [UInt64.le_iff_toNat_le, toNat_shifted hpos hle]
    exact Nat.one_le_two_pow
  rw [padmeMask, UInt64.toNat_sub_of_le _ _ hone, toNat_shifted hpos hle, UInt64.toNat_one]

variable (hmax : len.toNat ≤ 2 ^ 63)

include hmax

/-- The mask is shorter than the length, which leaves room for both in one word. -/
theorem padme_sum_lt : len.toNat + (padmeMask len).toNat < 2 ^ 64 := by
  have hgrain : 2 ^ padmeGrain len.toNat.log2 ≤ 2 ^ len.toNat.log2 :=
    Nat.pow_le_pow_right (by decide) (padmeGrain_le _)
  have hself := Nat.log2_self_le hpos
  have hone := Nat.two_pow_pos (padmeGrain len.toNat.log2)
  rw [toNat_padmeMask hpos hle]
  omega

theorem padmeFits : PadmeFits len where
  exponent := by
    simp only [leadingZeros, hpos, if_false]
    omega
  kept := by
    have hne : len.toNat.log2 ≠ 0 := by have := one_le_log2 hpos hle; omega
    simp only [padmeExponent_eq hpos, leadingZeros, hne, if_false]
    omega
  amount := by
    rw [padmeExponent_eq hpos, padmeKept_eq hpos hle]
    exact log2_lt_self (by have := one_le_log2 hpos hle; omega)
  shift := by
    have := padmeGrain_le len.toNat.log2
    have := log2_toNat_lt hpos
    rw [padmeExponent_sub_padmeKept hpos hle]
    omega
  bit := by rw [toNat_shifted hpos hle, padmeExponent_sub_padmeKept hpos hle]
  sum := padme_sum_lt hpos hle hmax

end Words

theorem toNat_padme {len : UInt64} (hpos : 1 ≤ len.toNat) (hmax : len.toNat ≤ 2 ^ 63) :
    (padme len).toNat = binadeRound padmeGrain len.toNat := by
  by_cases hsmall : len < 2
  · have hone : len.toNat = 1 := by
      have := UInt64.lt_iff_toNat_lt.1 hsmall
      have htwo : (2 : UInt64).toNat = 2 := rfl
      omega
    simp only [padme, hsmall, if_true, hone]
    decide
  · have hle : 2 ≤ len.toNat := by
      simpa using UInt64.le_iff_toNat_le.1 (UInt64.not_lt.1 hsmall)
    have hne : len.toNat ≠ 0 := by omega
    have hsum := padme_sum_lt hne hle hmax
    have hgrain : padmeGrain len.toNat.log2 ≤ 64 := by
      have := padmeGrain_le len.toNat.log2
      have := log2_toNat_lt hne
      omega
    rw [toNat_padmeMask hne hle] at hsum
    simp only [padme, hsmall, if_false]
    rw [UInt64.toNat_and, UInt64.toNat_add, UInt64.toNat_not, toNat_padmeMask hne hle,
      Nat.mod_eq_of_lt hsum]
    exact and_complement_mask hgrain hsum

theorem padme_range {len : UInt64} (hpos : 1 ≤ len.toNat) (hmax : len.toNat ≤ 2 ^ 63) :
    1 ≤ (padme len).toNat ∧ (padme len).toNat ≤ 2 ^ 63 := by
  have hle := le_binadeRound (g := padmeGrain) len.toNat
  have htop := binadeRound_mono padmeGrain_le (by omega) hmax
  rw [binadeRound_two_pow padmeGrain_le] at htop
  rw [toNat_padme hpos hmax]
  omega

theorem le_padme {len : UInt64} (hpos : 1 ≤ len.toNat) (hmax : len.toNat ≤ 2 ^ 63) :
    len ≤ padme len := by
  rw [UInt64.le_iff_toNat_le, toNat_padme hpos hmax]
  exact le_binadeRound _

theorem padme_mono {len other : UInt64} (hpos : 1 ≤ len.toNat) (hle : len ≤ other)
    (hmax : other.toNat ≤ 2 ^ 63) : padme len ≤ padme other := by
  have hnat := UInt64.le_iff_toNat_le.1 hle
  rw [UInt64.le_iff_toNat_le, toNat_padme hpos (hnat.trans hmax),
    toNat_padme (hpos.trans hnat) hmax]
  exact binadeRound_mono padmeGrain_le (by omega) hnat

theorem padme_idem {len : UInt64} (hpos : 1 ≤ len.toNat) (hmax : len.toNat ≤ 2 ^ 63) :
    padme (padme len) = padme len := by
  obtain ⟨hpos', hmax'⟩ := padme_range hpos hmax
  rw [← UInt64.toNat_inj, toNat_padme hpos' hmax', toNat_padme hpos hmax]
  exact binadeRound_idem padmeGrain_le (by omega)

/-! ## The overhead -/

/-- A grain is at most 12 parts in a hundred of the shortest length it is applied to. From sixteen
binades up the kept bits alone give it; the bound is near at `e = 7`. -/
theorem padmeGrain_overhead (e : Nat) : 100 * (2 ^ padmeGrain e - 1) ≤ 12 * (2 ^ e + 1) := by
  by_cases hsmall : e < 8
  · interval_cases e <;> decide
  · have hlog : 3 ≤ e.log2 := (Nat.le_log2 (by omega)).2 (by omega)
    have hself := log2_lt_self (e := e) (by omega)
    have hsplit : 2 ^ e = 2 ^ padmeGrain e * 2 ^ (e.log2 + 1) := by
      rw [← Nat.pow_add, padmeGrain]
      congr 1
      omega
    have hkept : 2 ^ 4 ≤ 2 ^ (e.log2 + 1) := Nat.pow_le_pow_right (by decide) (by omega)
    have hmul := Nat.mul_le_mul_left (2 ^ padmeGrain e) hkept
    omega

theorem padme_overhead {len : UInt64} (hpos : 1 ≤ len.toNat) (hmax : len.toNat ≤ 2 ^ 63) :
    100 * ((padme len).toNat - len.toNat) ≤ 12 * len.toNat := by
  rw [toNat_padme hpos hmax]
  obtain hexact | ⟨habove, hexcess⟩ :=
    binadeRound_excess padmeGrain_le (n := len.toNat) (by omega)
  · omega
  · calc 100 * (binadeRound padmeGrain len.toNat - len.toNat)
        ≤ 100 * (2 ^ padmeGrain len.toNat.log2 - 1) := Nat.mul_le_mul_left 100 hexcess
      _ ≤ 12 * (2 ^ len.toNat.log2 + 1) := padmeGrain_overhead _
      _ ≤ 12 * len.toNat := Nat.mul_le_mul_left 12 habove

/-- **Padmé.** For every length from 1 to `2 ^ 63`: the result is no shorter and at most 12 percent
longer, longer lengths give no shorter results, a result is its own result, it is the next power of
two or a multiple of the grain with the same highest bit, and no step leaves its word. -/
theorem padme_rounds_up {len : UInt64} (hpos : 1 ≤ len.toNat) (hmax : len.toNat ≤ 2 ^ 63) :
    len ≤ padme len ∧
    100 * ((padme len).toNat - len.toNat) ≤ 12 * len.toNat ∧
    (∀ other : UInt64, len ≤ other → other.toNat ≤ 2 ^ 63 → padme len ≤ padme other) ∧
    padme (padme len) = padme len ∧
    (2 ≤ len.toNat → ∀ e, e = len.toNat.log2 →
      ((padme len).toNat = 2 ^ (e + 1) ∨
        (padme len).toNat.log2 = e ∧ 2 ^ (e - e.log2 - 1) ∣ (padme len).toNat) ∧
      PadmeFits len) := by
  refine ⟨le_padme hpos hmax, padme_overhead hpos hmax, ?_, padme_idem hpos hmax, ?_⟩
  · intro other hle hother
    exact padme_mono hpos hle hother
  · intro hle e he
    have hne : len.toNat ≠ 0 := by omega
    refine ⟨?_, padmeFits hne hle hmax⟩
    have hgrain : e - e.log2 - 1 = padmeGrain e := by rw [padmeGrain]; omega
    rw [toNat_padme hpos hmax, hgrain, he]
    exact binadeRound_cases padmeGrain_le hne

/-- At 129 bytes the overhead is fifteen, the most it is in proportion. -/
theorem padme_rounds_up_tight : (1 ≤ (129 : UInt64).toNat ∧ (129 : UInt64).toNat ≤ 2 ^ 63) ∧
    (padme 129 = 144 ∧ 129 ≤ padme 129) :=
  ⟨by decide, by decide, (padme_rounds_up (by decide) (by decide)).1⟩

end Media

end ConstructCore
