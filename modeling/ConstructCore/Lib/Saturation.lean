import ConstructCore.Lib.Table
import Mathlib.Logic.Relation

/-!
# Saturation

A loop over a list of slots: round after round, each open slot is tried against a table, and
one whose rule fires is closed and adds an entry to the table. The loop ends with the first round
that closes nothing. Whatever every single closing keeps holds at the end (`saturate_rule`), no
open slot's rule fires any more (`saturate_closed`), and there are at most as many rounds as open
slots, and one (`saturate_total`).
-/

namespace Saturation

variable {α κ ν γ : Type} [Ord κ] [Std.TransOrd κ]

/-- An item's rule against the table, and the entry it adds when the rule fires. -/
structure Rules (α κ ν γ : Type) [Ord κ] where
  fire : α → Table κ ν → Option γ
  key : α → κ
  value : α → ν

/-- Items with their marks; an open slot has none. -/
abbrev Slots (α γ : Type) := List (α × Option γ)

/-- One round: the slots and the table after it, and whether a slot was closed. -/
def round (R : Rules α κ ν γ) : Slots α γ → Table κ ν → Slots α γ × Table κ ν × Bool
  | [], t => ([], t, false)
  | (a, some m) :: rest, t =>
    let r := round R rest t
    ((a, some m) :: r.1, r.2.1, r.2.2)
  | (a, none) :: rest, t =>
    match R.fire a t with
    | none =>
      let r := round R rest t
      ((a, none) :: r.1, r.2.1, r.2.2)
    | some m =>
      let r := round R rest (t.insert (R.key a) (R.value a))
      ((a, some m) :: r.1, r.2.1, true)

/-- Rounds until one closes nothing; `none` when the fuel runs out first. -/
def saturate (R : Rules α κ ν γ) : Nat → Slots α γ → Table κ ν → Option (Slots α γ × Table κ ν)
  | 0, _, _ => none
  | fuel + 1, slots, t =>
    let r := round R slots t
    if r.2.2 then saturate R fuel r.1 r.2.1 else some (r.1, r.2.1)

/-- One slot closed. -/
inductive Closes (R : Rules α κ ν γ) :
    Slots α γ × Table κ ν → Slots α γ × Table κ ν → Prop
  | close {before after : Slots α γ} {a : α} {m : γ} {t : Table κ ν} (hfire : R.fire a t = some m) :
      Closes R (before ++ (a, none) :: after, t)
        (before ++ (a, some m) :: after, t.insert (R.key a) (R.value a))

variable {R : Rules α κ ν γ}

/-- A round is a run of closings. -/
theorem round_closes (before slots : Slots α γ) (t : Table κ ν) :
    Relation.ReflTransGen (Closes R) (before ++ slots, t)
      (before ++ (round R slots t).1, (round R slots t).2.1) := by
  induction slots generalizing before t with
  | nil => exact .refl
  | cons s rest ih =>
    obtain ⟨a, m⟩ := s
    cases m with
    | some m =>
      have hrest := ih (before ++ [(a, some m)]) t
      simp only [List.append_assoc, List.singleton_append] at hrest
      exact hrest
    | none =>
      cases hfire : R.fire a t with
      | none =>
        have hrest := ih (before ++ [(a, none)]) t
        simp only [List.append_assoc, List.singleton_append] at hrest
        simp only [round, hfire]
        exact hrest
      | some m =>
        have hrest := ih (before ++ [(a, some m)]) (t.insert (R.key a) (R.value a))
        simp only [List.append_assoc, List.singleton_append] at hrest
        simp only [round, hfire]
        exact .head (.close hfire) hrest

variable {fuel : Nat} {s s' : Slots α γ} {t t' : Table κ ν}

/-- What every closing keeps, the loop keeps. -/
theorem saturate_rule {P : Slots α γ → Table κ ν → Prop}
    (hstep : ∀ s t s' t', Closes R (s, t) (s', t') → P s t → P s' t')
    (h : saturate R fuel s t = some (s', t')) (hP : P s t) :
    P s' t' := by
  have hround : ∀ s t, P s t → P (round R s t).1 (round R s t).2.1 := by
    intro s t hP
    have hrun := round_closes (R := R) [] s t
    rw [List.nil_append, List.nil_append] at hrun
    refine Relation.ReflTransGen.head_induction_on
      (motive := fun x _ => P x.1 x.2 → P (round R s t).1 (round R s t).2.1) hrun id ?_ hP
    rintro ⟨s₁, t₁⟩ ⟨s₂, t₂⟩ hone - ih hP₁
    exact ih (hstep _ _ _ _ hone hP₁)
  induction fuel generalizing s t with
  | zero => cases h
  | succ fuel ih =>
    unfold saturate at h
    simp only at h
    split at h
    · exact ih h (hround s t hP)
    · cases h
      exact hround s t hP

/-- A round that closes nothing leaves everything as it was. -/
theorem round_idle (h : (round R s t).2.2 = false) :
    (round R s t).1 = s ∧ (round R s t).2.1 = t ∧ ∀ a, (a, none) ∈ s → R.fire a t = none := by
  induction s generalizing t with
  | nil => exact ⟨rfl, rfl, fun a ha => absurd ha List.not_mem_nil⟩
  | cons slot rest ih =>
    obtain ⟨a, m⟩ := slot
    cases m with
    | some m =>
      obtain ⟨hs, ht, hopen⟩ := ih (t := t) h
      refine ⟨congrArg _ hs, ht, fun b hb => ?_⟩
      rcases List.mem_cons.mp hb with heq | hb
      · cases heq
      · exact hopen b hb
    | none =>
      cases hfire : R.fire a t with
      | some m =>
        simp only [round, hfire] at h
        cases h
      | none =>
        simp only [round, hfire] at h ⊢
        obtain ⟨hs, ht, hopen⟩ := ih h
        refine ⟨congrArg _ hs, ht, fun b hb => ?_⟩
        rcases List.mem_cons.mp hb with heq | hb
        · cases heq
          exact hfire
        · exact hopen b hb

/-- At the end no open slot's rule fires. -/
theorem saturate_closed (h : saturate R fuel s t = some (s', t')) :
    ∀ a, (a, none) ∈ s' → R.fire a t' = none := by
  induction fuel generalizing s t with
  | zero => cases h
  | succ fuel ih =>
    unfold saturate at h
    simp only at h
    split at h
    · exact ih h
    · rename_i hidle
      obtain ⟨hs, ht, hopen⟩ := round_idle (R := R) (Bool.eq_false_iff.mpr hidle)
      rw [hs, ht] at h
      cases h
      exact hopen

/-! ## Termination -/

/-- How many slots are open. -/
def openCount (s : Slots α γ) : Nat := s.countP fun x => x.2.isNone

theorem openCount_round (s : Slots α γ) (t : Table κ ν) :
    openCount (round R s t).1 + (round R s t).2.2.toNat ≤ openCount s := by
  induction s generalizing t with
  | nil => exact Nat.le_refl _
  | cons slot rest ih =>
    obtain ⟨a, m⟩ := slot
    cases m with
    | some m => exact ih t
    | none =>
      cases hfire : R.fire a t with
      | none =>
        have := ih t
        simp only [round, hfire, openCount, List.countP_cons, Option.isNone_none, if_true]
        simp only [openCount] at this
        omega
      | some m =>
        have := ih (t.insert (R.key a) (R.value a))
        simp only [round, hfire, openCount, List.countP_cons, Option.isNone_none, if_true,
          Option.isNone_some, Bool.toNat_true]
        simp only [openCount] at this
        simp
        omega

theorem saturate_total (t : Table κ ν) (h : openCount s < fuel) :
    ∃ r, saturate R fuel s t = some r := by
  induction fuel generalizing s t with
  | zero => exact absurd h (Nat.not_lt_zero _)
  | succ fuel ih =>
    unfold saturate
    simp only
    split
    · rename_i hprogress
      have := openCount_round (R := R) s t
      rw [hprogress, Bool.toNat_true] at this
      exact ih _ (by omega)
    · exact ⟨_, rfl⟩

/-- More fuel changes no result. -/
theorem saturate_mono {more : Nat} (hle : fuel ≤ more) {r : Slots α γ × Table κ ν}
    (h : saturate R fuel s t = some r) :
    saturate R more s t = some r := by
  induction fuel generalizing s t more with
  | zero => cases h
  | succ fuel ih =>
    obtain ⟨more, rfl⟩ : ∃ n, more = n + 1 := ⟨more - 1, by omega⟩
    unfold saturate at h ⊢
    simp only at h ⊢
    split at h
    · rename_i hprogress
      rw [if_pos hprogress]
      exact ih (by omega) h
    · rename_i hidle
      rw [if_neg hidle]
      exact h

end Saturation
