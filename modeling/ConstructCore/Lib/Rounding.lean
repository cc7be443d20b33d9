import Mathlib.Data.Nat.Log
import Mathlib.Tactic.Ring

/-!
# Rounding up, and rounding up within a binade

`roundUp grain n` is the least multiple of `grain` from `n` on. `binadeRound g n` rounds `n`
up to a multiple of a power of two that depends only on the position of its highest bit:
between `2 ^ e` and `2 ^ (e + 1)` the grain is `2 ^ g e`. A grain that divides the start of
its binade makes the rounding monotone and idempotent across the binades, whatever `g` is.
-/

namespace ConstructCore

/-! ## Multiples -/

/-- The least multiple of `grain` that is at least `n`. -/
def roundUp (grain n : Nat) : Nat := (n + (grain - 1)) / grain * grain

theorem dvd_roundUp (grain n : Nat) : grain ∣ roundUp grain n :=
  Nat.dvd_mul_left grain _

variable {grain n m : Nat}

section

variable (hgrain : 0 < grain)

include hgrain

theorem le_roundUp (n : Nat) : n ≤ roundUp grain n := by
  have hdiv := Nat.div_add_mod (n + (grain - 1)) grain
  have hmod := Nat.mod_lt (n + (grain - 1)) hgrain
  rw [Nat.mul_comm] at hdiv
  unfold roundUp
  omega

theorem roundUp_lt (n : Nat) :
    roundUp grain n < n + grain := by
  have hle := Nat.div_mul_le_self (n + (grain - 1)) grain
  unfold roundUp
  omega

/-- `roundUp` is the least of the multiples that are large enough. -/
theorem roundUp_le_of_dvd (hle : n ≤ m) (hdvd : grain ∣ m) :
    roundUp grain n ≤ m := by
  obtain ⟨q, rfl⟩ := hdvd
  have hlt := roundUp_lt hgrain n
  obtain ⟨p, hp⟩ := dvd_roundUp grain n
  rw [hp] at hlt ⊢
  have hpq : p < q + 1 := by
    apply Nat.lt_of_mul_lt_mul_left (a := grain)
    calc grain * p < n + grain := hlt
      _ ≤ grain * q + grain := by omega
      _ = grain * (q + 1) := by ring
  exact Nat.mul_le_mul_left grain (by omega)

theorem roundUp_of_dvd (hdvd : grain ∣ n) :
    roundUp grain n = n :=
  Nat.le_antisymm (roundUp_le_of_dvd hgrain (Nat.le_refl n) hdvd) (le_roundUp hgrain n)

theorem roundUp_mono (hle : n ≤ m) :
    roundUp grain n ≤ roundUp grain m :=
  roundUp_le_of_dvd hgrain (hle.trans (le_roundUp hgrain m)) (dvd_roundUp grain m)

end

/-! ## The bit masks that compute it -/

/-- Clearing the low `k` of `w` bits takes a number down to a multiple of `2 ^ k`. -/
theorem and_complement_mask {w k x : Nat} (hk : k ≤ w) (hx : x < 2 ^ w) :
    x &&& (2 ^ w - 1 - (2 ^ k - 1)) = x / 2 ^ k * 2 ^ k := by
  have hmask : 2 ^ k - 1 < 2 ^ w :=
    Nat.lt_of_lt_of_le (Nat.sub_lt (Nat.two_pow_pos k) Nat.one_pos)
      (Nat.pow_le_pow_right (by decide) hk)
  have hflip : 2 ^ w - 1 - (2 ^ k - 1) = 2 ^ w - (2 ^ k - 1 + 1) := by omega
  apply Nat.eq_of_testBit_eq
  intro i
  rw [hflip, Nat.testBit_and, Nat.testBit_two_pow_sub_succ hmask, Nat.testBit_two_pow_sub_one,
    Nat.testBit_mul_two_pow, Nat.testBit_div_two_pow]
  by_cases hik : k ≤ i
  · by_cases hiw : i < w
    · simp [hik, hiw, Nat.not_lt.2 hik, Nat.sub_add_cancel hik]
    · -- above the width there is no bit to keep
      have hzero : x.testBit i = false :=
        Nat.testBit_lt_two_pow (hx.trans_le (Nat.pow_le_pow_right (by decide) (by omega)))
      simp [hzero, Nat.sub_add_cancel hik]
  · simp [hik, Nat.lt_of_not_le hik]

/-! ## Binades -/

/-- `n` rounded up to a multiple of `2 ^ g e`, where `e` is the position of its highest bit. -/
def binadeRound (g : Nat → Nat) (n : Nat) : Nat := roundUp (2 ^ g n.log2) n

section Binades

variable {g : Nat → Nat}

theorem le_binadeRound (n : Nat) : n ≤ binadeRound g n :=
  le_roundUp (Nat.two_pow_pos _) n

theorem dvd_binadeRound (n : Nat) : 2 ^ g n.log2 ∣ binadeRound g n :=
  dvd_roundUp _ n

theorem binadeRound_lt (n : Nat) : binadeRound g n < n + 2 ^ g n.log2 :=
  roundUp_lt (Nat.two_pow_pos _) n

variable (hg : ∀ e, g e ≤ e)

include hg

/-- The rounding does not pass the end of the binade. -/
theorem binadeRound_le_two_pow (n : Nat) : binadeRound g n ≤ 2 ^ (n.log2 + 1) :=
  roundUp_le_of_dvd (Nat.two_pow_pos _) Nat.lt_log2_self.le
    (Nat.pow_dvd_pow 2 ((hg _).trans (Nat.le_succ _)))

/-- A power of two starts its binade, so it is on every grain. -/
theorem binadeRound_two_pow (j : Nat) : binadeRound g (2 ^ j) = 2 ^ j := by
  unfold binadeRound
  rw [Nat.log2_two_pow]
  exact roundUp_of_dvd (Nat.two_pow_pos _) (Nat.pow_dvd_pow 2 (hg j))

variable {n : Nat}

/-- The result is the next power of two, or it stays in the binade and on its grain. -/
theorem binadeRound_cases (hn : n ≠ 0) :
    binadeRound g n = 2 ^ (n.log2 + 1) ∨
      (binadeRound g n).log2 = n.log2 ∧ 2 ^ g n.log2 ∣ binadeRound g n := by
  by_cases htop : binadeRound g n = 2 ^ (n.log2 + 1)
  · exact .inl htop
  · have hbelow := Nat.lt_of_le_of_ne (binadeRound_le_two_pow hg n) htop
    have hfrom := (Nat.log2_self_le hn).trans (le_binadeRound (g := g) n)
    have hpos : binadeRound g n ≠ 0 := by
      have := Nat.two_pow_pos n.log2
      omega
    exact .inr ⟨(Nat.log2_eq_iff hpos).2 ⟨hfrom, hbelow⟩, dvd_binadeRound n⟩

theorem binadeRound_mono {m : Nat} (hn : n ≠ 0) (hle : n ≤ m) :
    binadeRound g n ≤ binadeRound g m := by
  have hm : m ≠ 0 := by omega
  by_cases hlog : n.log2 = m.log2
  · unfold binadeRound
    rw [hlog]
    exact roundUp_mono (Nat.two_pow_pos _) hle
  · -- a later binade starts where the earlier one ends
    have hlt : n.log2 < m.log2 := by
      apply Nat.lt_of_le_of_ne _ hlog
      rw [Nat.le_log2 hm]
      exact (Nat.log2_self_le hn).trans hle
    calc binadeRound g n ≤ 2 ^ (n.log2 + 1) := binadeRound_le_two_pow hg n
      _ ≤ 2 ^ m.log2 := Nat.pow_le_pow_right (by decide) hlt
      _ ≤ m := Nat.log2_self_le hm
      _ ≤ binadeRound g m := le_binadeRound m

theorem binadeRound_idem (hn : n ≠ 0) :
    binadeRound g (binadeRound g n) = binadeRound g n := by
  obtain htop | ⟨hlog, hdvd⟩ := binadeRound_cases hg hn
  · rw [htop]
    exact binadeRound_two_pow hg _
  · show roundUp (2 ^ g (binadeRound g n).log2) (binadeRound g n) = _
    rw [hlog]
    exact roundUp_of_dvd (Nat.two_pow_pos _) hdvd

/-- What is added is less than the grain, and nothing is added at the start of a binade. -/
theorem binadeRound_excess (hn : n ≠ 0) :
    binadeRound g n = n ∨ 2 ^ n.log2 < n ∧ binadeRound g n - n ≤ 2 ^ g n.log2 - 1 := by
  by_cases hstart : n = 2 ^ n.log2
  · left
    rw [hstart]
    exact binadeRound_two_pow hg _
  · have hfrom := Nat.log2_self_le hn
    have hlt := binadeRound_lt (g := g) n
    exact .inr ⟨by omega, by omega⟩

end Binades

end ConstructCore
