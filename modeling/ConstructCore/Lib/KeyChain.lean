import ConstructCore.Lib.AgedStore

/-!
# Symmetric key chains

A chain is driven by a partial step `step : K → Option (M × K)`: from a chain state
it yields one key and the next state. `stateAt step base n` is the state after `n`
steps from `base` and `keyAt step base n` the key the `(n + 1)`-th step yields, so
that a position on a chain names a key. A chain that has moved on from `base` to its
`n`-th state still names the same keys, shifted (`keyAt_of_stateAt`).

`Advance` moves a chain forward past some of its keys and files each of them in an
`AgedStore` under the slot of its position. What the store then holds is read off the
chain: the slots passed hold the keys of their positions (`Advance.get?_slot`) and
every other slot is untouched (`Advance.get?_other`).
-/

namespace KeyChain

variable {K M : Type} (step : K → Option (M × K))

/-- The chain state after `n` steps from `base`. -/
def stateAt (base : K) : Nat → Option K
  | 0 => some base
  | n + 1 => (stateAt base n).bind fun k => (step k).map Prod.snd

/-- The key the `(n + 1)`-th step from `base` yields. -/
def keyAt (base : K) (n : Nat) : Option M :=
  (stateAt step base n).bind fun k => (step k).map Prod.fst

variable {step}

@[simp] theorem stateAt_zero (base : K) : stateAt step base 0 = some base := rfl

variable {base k k' : K} {m n : Nat}

theorem stateAt_succ_of_step {m : M} (h : stateAt step base n = some k) (hs : step k = some (m, k')) :
    stateAt step base (n + 1) = some k' := by
  simp [stateAt, h, hs]

theorem keyAt_of_step {m : M} (h : stateAt step base n = some k) (hs : step k = some (m, k')) :
    keyAt step base n = some m := by
  simp [keyAt, h, hs]

theorem stateAt_add (h : stateAt step base m = some k) (n : Nat) :
    stateAt step base (m + n) = stateAt step k n := by
  induction n with
  | zero => simpa using h
  | succ n ih => rw [← Nat.add_assoc, stateAt, ih, stateAt]

theorem keyAt_of_stateAt (h : stateAt step base m = some k) (n : Nat) :
    keyAt step base (m + n) = keyAt step k n := by
  rw [keyAt, stateAt_add h, keyAt]

/-- A chain that reached its `n`-th state passed through every earlier one. -/
theorem stateAt_of_le (hmn : m ≤ n) (h : (stateAt step base n).isSome) :
    (stateAt step base m).isSome := by
  obtain ⟨d, rfl⟩ := Nat.exists_eq_add_of_le hmn
  cases hm : stateAt step base m with
  | some k => rfl
  | none =>
    have hnone : ∀ d, stateAt step base (m + d) = none := by
      intro d
      induction d with
      | zero => exact hm
      | succ d ih => rw [← Nat.add_assoc, stateAt, ih, Option.bind_none]
    simp [hnone d] at h

/-! ## Moving a chain forward and keeping the keys it passes -/

section Advance

variable {κ : Type} [Ord κ] [Std.TransOrd κ]

/-- `Advance step slot now k n st k' n' st'`: the chain at state `k` and position `n`
moves to `k'` and `n'`, filing the key of each position it passes. -/
inductive Advance (step : K → Option (M × K)) (slot : Nat → κ) (now : Nat) :
    K → Nat → AgedStore κ M → K → Nat → AgedStore κ M → Prop
  | refl (k : K) (n : Nat) (st : AgedStore κ M) : Advance step slot now k n st k n st
  | skip {k k' k'' : K} {m : M} {n n' : Nat} {st st' : AgedStore κ M}
      (hs : step k = some (m, k'))
      (rest : Advance step slot now k' (n + 1) (st.insert (slot n) m now) k'' n' st') :
      Advance step slot now k n st k'' n' st'

namespace Advance

variable {slot : Nat → κ} {now : Nat} {k k' : K} {n n' : Nat} {st st' : AgedStore κ M}

/-- A chain whose steps are defined can be moved forward. -/
theorem exists_of_stateAt (slot : Nat → κ) (now : Nat) (n count : Nat) (st : AgedStore κ M)
    (h : KeyChain.stateAt step k count = some k') :
    ∃ st', Advance step slot now k n st k' (n + count) st' := by
  induction count generalizing k n st with
  | zero =>
    obtain rfl : k = k' := by simpa using h
    exact ⟨st, .refl k n st⟩
  | succ c ih =>
    have hsome : (KeyChain.stateAt step k 1).isSome := by
      apply stateAt_of_le (n := c + 1) (by omega)
      rw [h]
      rfl
    cases hk : step k with
    | none => simp [KeyChain.stateAt, hk] at hsome
    | some p =>
      obtain ⟨m, k₁⟩ := p
      have h1 : KeyChain.stateAt step k 1 = some k₁ :=
        stateAt_succ_of_step (stateAt_zero k) hk
      rw [show c + 1 = 1 + c by omega, stateAt_add h1] at h
      obtain ⟨st', hadv⟩ := ih (n + 1) (st.insert (slot n) m now) h
      exact ⟨st', .skip hk (by rwa [show n + (c + 1) = n + 1 + c by omega])⟩

variable (h : Advance step slot now k n st k' n' st')

include h

theorem le : n ≤ n' := by
  induction h with
  | refl => exact Nat.le_refl _
  | skip hs rest ih => omega

theorem stateAt :
    stateAt step k (n' - n) = some k' := by
  induction h with
  | refl k n st => rw [Nat.sub_self, stateAt_zero]
  | @skip k k₁ k'' m n n' st st' hs rest ih =>
    have hle := rest.le
    have h1 : KeyChain.stateAt step k 1 = some k₁ := stateAt_succ_of_step (stateAt_zero k) hs
    rw [show n' - n = 1 + (n' - (n + 1)) by omega, stateAt_add h1]
    exact ih

/-- A chain that moves takes its next key first. -/
theorem uncons (hlt : n < n') :
    ∃ m k₁, step k = some (m, k₁) ∧
      Advance step slot now k₁ (n + 1) (st.insert (slot n) m now) k' n' st' := by
  cases h with
  | refl => exact absurd hlt (Nat.lt_irrefl _)
  | skip hs rest => exact ⟨_, _, hs, rest⟩

/-- A chain that stays where it is files nothing. -/
theorem eq_of_le (hle : n' ≤ n) :
    k' = k ∧ st' = st := by
  cases h with
  | refl => exact ⟨rfl, rfl⟩
  | skip hs rest =>
    have := rest.le
    omega

theorem size_le : st.size ≤ st'.size := by
  induction h with
  | refl => exact Nat.le_refl _
  | skip hs rest ih =>
    exact Nat.le_trans Std.ExtTreeMap.size_le_size_insert ih

/-- Each position passed files one key. -/
theorem size_le_add :
    st'.size ≤ st.size + (n' - n) := by
  induction h with
  | refl => exact Nat.le_add_right _ _
  | @skip k k₁ k'' m n n' st st' hs rest ih =>
    have hle := rest.le
    have hinsert := st.size_insert_le (slot n) m now
    omega

variable [Std.LawfulEqOrd κ] [DecidableEq κ]

variable {a : κ}

/-- Slots outside the passed positions are untouched. -/
theorem get?_other (ha : ∀ i, n ≤ i → i < n' → a ≠ slot i) : st'.get? a = st.get? a := by
  induction h with
  | refl => rfl
  | @skip k k₁ k'' m n n' st st' hs rest ih =>
    have hle := rest.le
    rw [ih fun i hi hi' => ha i (by omega) hi', AgedStore.get?_insert,
      if_neg (ha n (Nat.le_refl _) (by omega))]

/-- What the store holds afterwards it held before, or it is a key of the chain filed under the
slot of a position passed. -/
theorem get?_cases {m : M} (hm : st'.get? a = some m) :
    st.get? a = some m ∨ ∃ i, a = slot i ∧ ∃ j, keyAt step k j = some m := by
  induction h with
  | refl => exact .inl hm
  | @skip k k₁ k'' m₁ n n' st st' hs rest ih =>
    have h1 : KeyChain.stateAt step k 1 = some k₁ := stateAt_succ_of_step (stateAt_zero k) hs
    rcases ih hm with hold | ⟨i, hi, j, hj⟩
    · rw [AgedStore.get?_insert] at hold
      by_cases hslot : a = slot n
      · rw [if_pos hslot] at hold
        refine .inr ⟨n, hslot, 0, ?_⟩
        rw [keyAt_of_step (stateAt_zero k) hs, hold]
      · rw [if_neg hslot] at hold
        exact .inl hold
    · refine .inr ⟨i, hi, 1 + j, ?_⟩
      rw [keyAt_of_stateAt h1, hj]

/-- What has a time afterwards had it before, or was filed now. -/
theorem time?_cases {ts : Nat} (ht : st'.time? a = some ts) : st.time? a = some ts ∨ ts = now := by
  induction h with
  | refl => exact .inl ht
  | @skip k k₁ k'' m n n' st st' hs rest ih =>
    rcases ih ht with hold | hnow
    · rw [AgedStore.time?_insert] at hold
      by_cases hslot : a = slot n
      · rw [if_pos hslot] at hold
        exact .inr (Option.some.inj hold).symm
      · rw [if_neg hslot] at hold
        exact .inl hold
    · exact .inr hnow

/-- Slots that are new and distinct each add an entry. -/
theorem size_eq (inj : ∀ i j, i < n' → j < n' → slot i = slot j → i = j)
    (hnew : ∀ i, n ≤ i → i < n' → st.get? (slot i) = none) : st'.size = st.size + (n' - n) := by
  induction h with
  | refl => omega
  | @skip k k₁ k'' m n n' st st' hs rest ih =>
    have hle := rest.le
    have hsize := AgedStore.size_insert_of_new (hnew n (Nat.le_refl _) (by omega)) m now
    rw [ih inj, hsize]
    · omega
    · intro i hi hi'
      rw [AgedStore.get?_insert, if_neg]
      · exact hnew i (by omega) hi'
      · intro heq
        have := inj i n hi' (by omega) heq
        omega

/-- The slot of a passed position holds the key of that position. -/
theorem get?_slot (inj : ∀ i j, i < n' → j < n' → slot i = slot j → i = j) {i : Nat} (hi : n ≤ i)
    (hi' : i < n') : st'.get? (slot i) = keyAt step k (i - n) := by
  induction h with
  | refl => omega
  | @skip k k₁ k'' m n n' st st' hs rest ih =>
    have h1 : KeyChain.stateAt step k 1 = some k₁ := stateAt_succ_of_step (stateAt_zero k) hs
    rcases Nat.eq_or_lt_of_le hi with rfl | hlt
    · -- the first position passed: filed at once, and no later one shares its slot
      have hother : ∀ j, n + 1 ≤ j → j < n' → slot n ≠ slot j := by
        intro j hj hj' heq
        have := inj n j hi' hj' heq
        omega
      rw [rest.get?_other hother, AgedStore.get?_insert, if_pos rfl, Nat.sub_self,
        keyAt_of_step (stateAt_zero k) hs]
    · rw [ih inj hlt hi', show i - n = 1 + (i - (n + 1)) by omega, keyAt_of_stateAt h1]

end Advance

end Advance

end KeyChain
