import Mathlib.Data.List.Nodup
import Mathlib.Logic.Function.Basic
import ConstructCore.Lib.KeyChain

/-!
# Keys taken once from a succession of chains

A receiver works on one chain at a time, takes a key off it or out of a store, files the
keys it passes, and goes to other chains. When distinct states of a chain yield distinct
keys and distinct next states (`InjectiveStep`), and no chain leads to the start of another
(`Origin`), a key names its chain and its position (`position_unique`). Then no key is taken
twice: `Receipt` is what holds of the receiver's state, the store and the keys taken so far,
with one rule for each thing the receiver does. `Settled` is the other half: on chains that
are never opened a second time no key passed is lost sight of.

`Lineage` counts the steps from an origin in a relation with unique predecessors.
-/

namespace KeyChain

/-! ## Positions that keys name -/

section Positions

variable {K M : Type} {step : K → Option (M × K)}

/-- Neither the key nor the next state of a step is that of another state. -/
structure InjectiveStep (step : K → Option (M × K)) : Prop where
  key : ∀ {a b k k' m}, step a = some (m, k) → step b = some (m, k') → a = b
  next : ∀ {a b k m m'}, step a = some (m, k) → step b = some (m', k) → a = b

/-- No chain leads to `b`. -/
def Origin (step : K → Option (M × K)) (b : K) : Prop := ∀ a m, step a ≠ some (m, b)

variable {base k b b' : K} {n i j : Nat} {m : M}

theorem exists_step_of_stateAt_succ (h : stateAt step base (n + 1) = some k) :
    ∃ a m, stateAt step base n = some a ∧ step a = some (m, k) := by
  obtain ⟨a, ha, hk⟩ := Option.bind_eq_some_iff.mp h
  obtain ⟨⟨m, k'⟩, hstep, rfl⟩ := Option.map_eq_some_iff.mp hk
  exact ⟨a, m, ha, hstep⟩

theorem exists_step_of_keyAt (h : keyAt step base n = some m) :
    ∃ a k, stateAt step base n = some a ∧ step a = some (m, k) := by
  obtain ⟨a, ha, hm⟩ := Option.bind_eq_some_iff.mp h
  obtain ⟨⟨m', k⟩, hstep, rfl⟩ := Option.map_eq_some_iff.mp hm
  exact ⟨a, k, ha, hstep⟩

theorem stateAt_unique (hinj : InjectiveStep step) (hb : Origin step b) (hb' : Origin step b')
    (h : stateAt step b i = some k) (h' : stateAt step b' j = some k) : b = b' ∧ i = j := by
  induction i generalizing j k with
  | zero =>
    obtain rfl : b = k := Option.some.inj h
    cases j with
    | zero => exact ⟨(Option.some.inj h').symm, rfl⟩
    | succ j =>
      obtain ⟨a, m, -, hstep⟩ := exists_step_of_stateAt_succ h'
      exact absurd hstep (hb a m)
  | succ i ih =>
    obtain ⟨a, m, ha, hstep⟩ := exists_step_of_stateAt_succ h
    cases j with
    | zero =>
      obtain rfl : b' = k := Option.some.inj h'
      exact absurd hstep (hb' a m)
    | succ j =>
      obtain ⟨a', m', ha', hstep'⟩ := exists_step_of_stateAt_succ h'
      obtain rfl := hinj.next hstep hstep'
      obtain ⟨hbase, hij⟩ := ih ha ha'
      exact ⟨hbase, congrArg _ hij⟩

/-- A key names its chain and its position. -/
theorem position_unique (hinj : InjectiveStep step) (hb : Origin step b) (hb' : Origin step b')
    (h : keyAt step b i = some m) (h' : keyAt step b' j = some m) : b = b' ∧ i = j := by
  obtain ⟨a, k, ha, hstep⟩ := exists_step_of_keyAt h
  obtain ⟨a', k', ha', hstep'⟩ := exists_step_of_keyAt h'
  obtain rfl := hinj.key hstep hstep'
  exact stateAt_unique hinj hb hb' ha ha'

end Positions

/-! ## The receiver -/

section Receipt

variable {K M D κ : Type} [Ord κ] [Std.TransOrd κ]

/-- `chains` are the chains opened so far, each with the name its keys are filed under. The
receiver stands on the chain `base` at state `k`, `count` keys from its start; `store` is
what it has filed and `used` the keys it has taken. -/
structure Receipt (step : K → Option (M × K)) (slot : D → Nat → κ) (bound : Nat)
    (chains : List (K × D)) (base : K) (name : D) (k : K) (count : Nat) (store : AgedStore κ M)
    (used : List M) : Prop where
  origins : ∀ p ∈ chains, Origin step p.1
  distinct : (chains.map Prod.fst).Nodup
  current : (base, name) ∈ chains
  state : stateAt step base count = some k
  stored : ∀ a m, store.get? a = some m → ∃ p ∈ chains, ∃ n < bound, a = slot p.2 n ∧
    keyAt step p.1 n = some m ∧ (p.1 = base → n < count)
  past : ∀ m ∈ used, ∃ p ∈ chains, ∃ n, keyAt step p.1 n = some m ∧ (p.1 = base → n < count)
  gone : ∀ m ∈ used, ∀ a, store.get? a ≠ some m
  once : used.Nodup

namespace Receipt

variable {step : K → Option (M × K)} {slot : D → Nat → κ} {bound : Nat} {chains : List (K × D)}
  {base : K} {name : D} {k : K} {count : Nat} {store store' : AgedStore κ M} {used : List M}

/-- A receiver on its first chain. -/
theorem start (slot : D → Nat → κ) (bound : Nat) (hbase : Origin step base) (name : D)
    (hstore : ∀ a, store.get? a = none) :
    Receipt step slot bound [(base, name)] base name base 0 store [] where
  origins p hp := by
    rw [List.mem_singleton.mp hp]
    exact hbase
  distinct := List.nodup_singleton _
  current := List.mem_singleton.mpr rfl
  state := rfl
  stored a m h := by
    rw [hstore a] at h
    cases h
  past _ h := nomatch h
  gone _ h := nomatch h
  once := .nil

variable (h : Receipt step slot bound chains base name k count store used)

include h

/-- Forgetting filed keys. -/
theorem shrink (hsub : ∀ a m, store'.get? a = some m → store.get? a = some m) :
    Receipt step slot bound chains base name k count store' used :=
  { h with
    stored := fun a m hm => h.stored a m (hsub a m hm)
    gone := fun m hm a ha => h.gone m hm a (hsub a m ha) }

/-- Going to a chain never opened before. -/
theorem openChain {base' : K} (name' : D) (horigin : Origin step base')
    (hfresh : base' ∉ chains.map Prod.fst) :
    Receipt step slot bound (chains ++ [(base', name')]) base' name' base' 0 store used := by
  have hne : ∀ p ∈ chains, p.1 ≠ base' := fun p hp heq =>
    hfresh (heq ▸ List.mem_map_of_mem hp)
  refine ⟨?_, ?_, by simp, rfl, ?_, ?_, h.gone, h.once⟩
  · intro p hp
    rcases List.mem_append.mp hp with hold | hnew
    · exact h.origins p hold
    · rw [List.mem_singleton.mp hnew]
      exact horigin
  · rw [List.map_append, List.nodup_append]
    refine ⟨h.distinct, List.nodup_singleton _, ?_⟩
    rintro b hb _ hnew rfl
    obtain rfl : b = base' := List.mem_singleton.mp hnew
    exact hfresh hb
  · intro a m ha
    obtain ⟨p, hp, n, hn, hslot, hkey, -⟩ := h.stored a m ha
    exact ⟨p, List.mem_append_left _ hp, n, hn, hslot, hkey, fun hb => absurd hb (hne p hp)⟩
  · intro m hm
    obtain ⟨p, hp, n, hkey, -⟩ := h.past m hm
    exact ⟨p, List.mem_append_left _ hp, n, hkey, fun hb => absurd hb (hne p hp)⟩

variable {a : κ} {m : M} {k' : K}

variable (hinj : InjectiveStep step)

include hinj

/-- A filed key is in one slot. -/
theorem slot_unique {a' : κ} (ha : store.get? a = some m) (ha' : store.get? a' = some m) :
    a = a' := by
  obtain ⟨p, hp, n, -, rfl, hkey, -⟩ := h.stored a m ha
  obtain ⟨p', hp', n', -, rfl, hkey', -⟩ := h.stored a' m ha'
  obtain ⟨hbase, rfl⟩ := position_unique hinj (h.origins p hp) (h.origins p' hp') hkey hkey'
  rw [List.inj_on_of_nodup_map h.distinct hp hp' hbase]

/-- A key at or past the receiver's position was neither taken nor filed. -/
theorem ahead {n : Nat} (hn : count ≤ n) (hkey : keyAt step base n = some m) :
    m ∉ used ∧ ∀ a, store.get? a ≠ some m := by
  have hpos : ∀ p ∈ chains, ∀ n', keyAt step p.1 n' = some m → (p.1 = base → n' < count) →
      False := by
    intro p hp n' hkey' hlt
    obtain ⟨hbase, rfl⟩ := position_unique hinj (h.origins p hp) (h.origins _ h.current) hkey' hkey
    exact absurd (hlt hbase) (Nat.not_lt.mpr hn)
  constructor
  · intro hm
    obtain ⟨p, hp, n', hkey', hlt⟩ := h.past m hm
    exact hpos p hp n' hkey' hlt
  · intro a ha
    obtain ⟨p, hp, n', -, -, hkey', hlt⟩ := h.stored a m ha
    exact hpos p hp n' hkey' hlt

/-- Taking the next key of the chain. -/
theorem yield (hs : step k = some (m, k')) :
    Receipt step slot bound chains base name k' (count + 1) store (used ++ [m]) := by
  have hkey := keyAt_of_step h.state hs
  obtain ⟨hfresh, hunfiled⟩ := h.ahead hinj (Nat.le_refl _) hkey
  refine { h with state := stateAt_succ_of_step h.state hs, stored := ?_, past := ?_, gone := ?_,
                  once := ?_ }
  · intro a m' ha
    obtain ⟨p, hp, n, hn, hslot, hkey', hlt⟩ := h.stored a m' ha
    exact ⟨p, hp, n, hn, hslot, hkey', fun hb => Nat.lt_succ_of_lt (hlt hb)⟩
  · intro m' hm'
    rcases List.mem_append.mp hm' with hold | hnew
    · obtain ⟨p, hp, n, hkey', hlt⟩ := h.past m' hold
      exact ⟨p, hp, n, hkey', fun hb => Nat.lt_succ_of_lt (hlt hb)⟩
    · rw [List.mem_singleton.mp hnew]
      exact ⟨(base, name), h.current, count, hkey, fun _ => Nat.lt_succ_self _⟩
  · intro m' hm'
    rcases List.mem_append.mp hm' with hold | hnew
    · exact h.gone m' hold
    · rw [List.mem_singleton.mp hnew]
      exact hunfiled
  · rw [List.nodup_append]
    refine ⟨h.once, List.nodup_singleton _, ?_⟩
    rintro m' hm' _ hnew rfl
    exact hfresh (by rw [← List.mem_singleton.mp hnew]; exact hm')

variable [Std.LawfulEqOrd κ] [DecidableEq κ]

/-- Taking a filed key. -/
theorem take (ha : store.get? a = some m) :
    Receipt step slot bound chains base name k count (store.remove a) (used ++ [m]) := by
  have hkept : ∀ a' m', (store.remove a).get? a' = some m' → a' ≠ a ∧ store.get? a' = some m' := by
    intro a' m' hm'
    rw [AgedStore.get?_remove] at hm'
    split at hm'
    · cases hm'
    · rename_i hne
      exact ⟨hne, hm'⟩
  have hshrunk := h.shrink fun a' m' hm' => (hkept a' m' hm').2
  refine { hshrunk with past := ?_, gone := ?_, once := ?_ }
  · intro m' hm'
    rcases List.mem_append.mp hm' with hold | hnew
    · exact h.past m' hold
    · rw [List.mem_singleton.mp hnew]
      obtain ⟨p, hp, n, -, -, hkey, hlt⟩ := h.stored a m ha
      exact ⟨p, hp, n, hkey, hlt⟩
  · intro m' hm' a' ha'
    rcases List.mem_append.mp hm' with hold | hnew
    · exact hshrunk.gone m' hold a' ha'
    · rw [List.mem_singleton.mp hnew] at ha'
      obtain ⟨hne, hget⟩ := hkept a' m ha'
      exact hne (h.slot_unique hinj hget ha)
  · rw [List.nodup_append]
    refine ⟨h.once, List.nodup_singleton _, ?_⟩
    rintro m' hm' _ hnew rfl
    exact h.gone m' hm' a (by rw [List.mem_singleton.mp hnew]; exact ha)

/-- Moving along the chain and filing the keys passed. -/
theorem advance {now : Nat} {count' : Nat}
    (hmove : Advance step (slot name) now k count store k' count' store') (hbound : count' ≤ bound)
    (hslot : ∀ i j, i < bound → j < bound → slot name i = slot name j → i = j) :
    Receipt step slot bound chains base name k' count' store' used := by
  have hle := hmove.le
  have hslot' : ∀ i j, i < count' → j < count' → slot name i = slot name j → i = j :=
    fun i j hi hj => hslot i j (by omega) (by omega)
  -- a slot of the moved store is one just passed, with the key of its position, or an old one
  have hget : ∀ a m, store'.get? a = some m →
      (∃ i, count ≤ i ∧ i < count' ∧ a = slot name i ∧ keyAt step base i = some m) ∨
        store.get? a = some m := by
    intro a m ha
    by_cases hpassed : ∃ i, count ≤ i ∧ i < count' ∧ a = slot name i
    · obtain ⟨i, hi, hi', rfl⟩ := hpassed
      refine .inl ⟨i, hi, hi', rfl, ?_⟩
      rw [hmove.get?_slot hslot' hi hi', ← keyAt_of_stateAt h.state] at ha
      rw [← ha]
      congr 1
      omega
    · refine .inr ?_
      rw [← hmove.get?_other fun i hi hi' heq => hpassed ⟨i, hi, hi', heq⟩]
      exact ha
  refine { h with state := ?_, stored := ?_, past := ?_, gone := ?_ }
  · rw [show count' = count + (count' - count) by omega, stateAt_add h.state]
    exact hmove.stateAt
  · intro a m ha
    rcases hget a m ha with ⟨i, -, hi', rfl, hkey⟩ | hold
    · exact ⟨(base, name), h.current, i, by omega, rfl, hkey, fun _ => hi'⟩
    · obtain ⟨p, hp, n, hn, hslot, hkey, hlt⟩ := h.stored a m hold
      exact ⟨p, hp, n, hn, hslot, hkey, fun hb => Nat.lt_of_lt_of_le (hlt hb) hle⟩
  · intro m hm
    obtain ⟨p, hp, n, hkey, hlt⟩ := h.past m hm
    exact ⟨p, hp, n, hkey, fun hb => Nat.lt_of_lt_of_le (hlt hb) hle⟩
  · intro m hm a ha
    rcases hget a m ha with ⟨i, hi, -, -, hkey⟩ | hold
    · exact (h.ahead hinj hi hkey).1 hm
    · exact h.gone m hm a hold

end Receipt

end Receipt

/-! ## Every position accounted for -/

section Settled

variable {K M D κ : Type} [Ord κ] [Std.TransOrd κ]

/-- A receiver on chains it knows by name: `base d` is the start of the chain `d` and
`reached d` how many of its keys the receiver has passed. It stands on the chain `cur` at
state `k`. Each key passed is taken (`done`), filed, or dropped from a slot in `lost`. -/
structure Settled (step : K → Option (M × K)) (slot : D → Nat → κ) (base : D → K)
    (reached : D → Nat) (opened : List D) (cur : D) (k : K) (store : AgedStore κ M)
    (done : D → Nat → Prop) (lost : κ → Prop) : Prop where
  current : cur ∈ opened
  state : stateAt step (base cur) (reached cur) = some k
  stored : ∀ a m, store.get? a = some m → ∃ d ∈ opened, ∃ n < reached d, a = slot d n ∧
    keyAt step (base d) n = some m
  passed : ∀ d ∈ opened, ∀ n < reached d, done d n ∨ lost (slot d n) ∨
    ∃ m, keyAt step (base d) n = some m ∧ store.get? (slot d n) = some m

namespace Settled

variable {step : K → Option (M × K)} {slot : D → Nat → κ} {base : D → K} {reached : D → Nat}
  {opened : List D} {cur : D} {k k' : K} {store store' : AgedStore κ M} {done : D → Nat → Prop}
  {lost : κ → Prop}

/-- A receiver that has passed nothing. -/
theorem start (hzero : reached cur = 0) (hstore : ∀ a, store.get? a = none) :
    Settled step slot base reached [cur] cur (base cur) store done lost where
  current := List.mem_singleton.mpr rfl
  state := by
    rw [hzero]
    rfl
  stored a m h := by
    rw [hstore a] at h
    cases h
  passed d hd n hn := by
    rw [List.mem_singleton.mp hd, hzero] at hn
    exact absurd hn (Nat.not_lt_zero n)

variable (h : Settled step slot base reached opened cur k store done lost)

include h

/-- Dropping keys from slots in `lost`. -/
theorem drop (hsub : ∀ a m, store'.get? a = some m → store.get? a = some m)
    (hlost : ∀ a, store.get? a ≠ none → store'.get? a = none → lost a) :
    Settled step slot base reached opened cur k store' done lost := by
  refine { h with stored := fun a m ha => h.stored a m (hsub a m ha), passed := ?_ }
  intro d hd n hn
  rcases h.passed d hd n hn with hdone | hl | ⟨m, hkey, hget⟩
  · exact .inl hdone
  · exact .inr (.inl hl)
  · cases hget' : store'.get? (slot d n) with
    | none => exact .inr (.inl (hlost _ (by rw [hget]; exact fun hn => nomatch hn) hget'))
    | some m' =>
      refine .inr (.inr ⟨m, hkey, ?_⟩)
      rw [← hget, hsub _ _ hget']

/-- More positions counted as taken, other bases and counts off the opened chains. -/
theorem mono {base' : D → K} {reached' : D → Nat} {done' : D → Nat → Prop}
    (hbase : ∀ d ∈ opened, base' d = base d) (hreached : ∀ d ∈ opened, reached' d = reached d)
    (hdone : ∀ d n, done d n → done' d n) :
    Settled step slot base' reached' opened cur k store done' lost := by
  refine ⟨h.current, ?_, ?_, ?_⟩
  · rw [hbase _ h.current, hreached _ h.current]
    exact h.state
  · intro a m ha
    obtain ⟨d, hd, n, hn, hslot, hkey⟩ := h.stored a m ha
    refine ⟨d, hd, n, ?_, hslot, ?_⟩
    · rw [hreached d hd]
      exact hn
    · rw [hbase d hd]
      exact hkey
  · intro d hd n hn
    rw [hreached d hd] at hn
    rw [hbase d hd]
    exact (h.passed d hd n hn).imp_left (hdone d n)

/-- A filed key is taken. -/
theorem take [Std.LawfulEqOrd κ] [DecidableEq κ] {d : D} {n : Nat} (hdone : done d n)
    (hslot : ∀ d' ∈ opened, ∀ n' < reached d', slot d' n' = slot d n → d' = d ∧ n' = n) :
    Settled step slot base reached opened cur k (store.remove (slot d n)) done lost := by
  refine { h with stored := ?_, passed := ?_ }
  · intro a m ha
    exact h.stored a m (AgedStore.get?_of_get?_remove ha)
  · intro d' hd' n' hn'
    by_cases heq : slot d' n' = slot d n
    · obtain ⟨rfl, rfl⟩ := hslot d' hd' n' hn' heq
      exact .inl hdone
    · rw [AgedStore.get?_remove, if_neg heq]
      exact h.passed d' hd' n' hn'

variable [DecidableEq D]

/-- The key of the current position is taken. -/
theorem yield {m : M} (hs : step k = some (m, k')) (hdone : done cur (reached cur)) :
    Settled step slot base (Function.update reached cur (reached cur + 1)) opened cur k' store done
      lost := by
  have hle : ∀ d, reached d ≤ Function.update reached cur (reached cur + 1) d := by
    intro d
    by_cases hd : d = cur
    · rw [hd, Function.update_self]
      exact Nat.le_succ _
    · exact Nat.le_of_eq (Function.update_of_ne hd _ _).symm
  refine ⟨h.current, ?_, ?_, ?_⟩
  · rw [Function.update_self]
    exact stateAt_succ_of_step h.state hs
  · intro a m' ha
    obtain ⟨d, hd, n, hn, hslot, hkey⟩ := h.stored a m' ha
    exact ⟨d, hd, n, Nat.lt_of_lt_of_le hn (hle d), hslot, hkey⟩
  · intro d hd n hn
    by_cases hcur : d = cur
    · subst hcur
      rw [Function.update_self] at hn
      rcases Nat.lt_succ_iff_lt_or_eq.mp hn with hlt | rfl
      · exact h.passed d hd n hlt
      · exact .inl hdone
    · rw [Function.update_of_ne hcur] at hn
      exact h.passed d hd n hn

/-- Going to a chain of a new name. -/
theorem openChain {name : D} (hfresh : name ∉ opened) (b : K) :
    Settled step slot (Function.update base name b) (Function.update reached name 0)
      (opened ++ [name]) name b store done lost := by
  have hne : ∀ d ∈ opened, d ≠ name := fun d hd heq => hfresh (heq ▸ hd)
  refine ⟨by simp, ?_, ?_, ?_⟩
  · rw [Function.update_self, Function.update_self]
    rfl
  · intro a m ha
    obtain ⟨d, hd, n, hn, hslot, hkey⟩ := h.stored a m ha
    refine ⟨d, List.mem_append_left _ hd, n, ?_, hslot, ?_⟩
    · rw [Function.update_of_ne (hne d hd)]
      exact hn
    · rw [Function.update_of_ne (hne d hd)]
      exact hkey
  · intro d hd n hn
    rcases List.mem_append.mp hd with hold | hnew
    · rw [Function.update_of_ne (hne d hold)] at hn ⊢
      exact h.passed d hold n hn
    · rw [List.mem_singleton.mp hnew, Function.update_self] at hn
      exact absurd hn (Nat.not_lt_zero n)

/-- Moving along the current chain and filing the keys passed. -/
theorem advance [Std.LawfulEqOrd κ] [DecidableEq κ] {now count' : Nat}
    (hmove : Advance step (slot cur) now k (reached cur) store k' count' store')
    (hslot : ∀ d ∈ opened, ∀ i j, i < max (reached d) count' → j < count' →
      slot d i = slot cur j → d = cur ∧ i = j) :
    Settled step slot base (Function.update reached cur count') opened cur k' store' done lost := by
  have hle := hmove.le
  have hcur := hslot cur h.current
  have hinj : ∀ i j, i < count' → j < count' → slot cur i = slot cur j → i = j :=
    fun i j hi hj heq => (hcur i j (by omega) hj heq).2
  have hkeyAt : ∀ i, reached cur ≤ i → keyAt step k (i - reached cur) = keyAt step (base cur) i := by
    intro i hi
    rw [← keyAt_of_stateAt h.state, Nat.add_sub_cancel' hi]
  refine ⟨h.current, ?_, ?_, ?_⟩
  · rw [Function.update_self, ← Nat.add_sub_cancel' hle, stateAt_add h.state]
    exact hmove.stateAt
  · intro a m ha
    by_cases hpassed : ∃ i, reached cur ≤ i ∧ i < count' ∧ a = slot cur i
    · obtain ⟨i, hi, hi', rfl⟩ := hpassed
      rw [hmove.get?_slot hinj hi hi', hkeyAt i hi] at ha
      refine ⟨cur, h.current, i, ?_, rfl, ha⟩
      rw [Function.update_self]
      exact hi'
    · rw [hmove.get?_other fun i hi hi' heq => hpassed ⟨i, hi, hi', heq⟩] at ha
      obtain ⟨d, hd, n, hn, hslot, hkey⟩ := h.stored a m ha
      refine ⟨d, hd, n, ?_, hslot, hkey⟩
      by_cases hdc : d = cur
      · rw [hdc, Function.update_self]
        exact Nat.lt_of_lt_of_le (hdc ▸ hn) hle
      · rw [Function.update_of_ne hdc]
        exact hn
  · intro d hd n hn
    -- a position just passed is filed; no other slot has changed
    by_cases hpassed : ∃ i, reached cur ≤ i ∧ i < count' ∧ slot d n = slot cur i
    · obtain ⟨i, hi, hi', heq⟩ := hpassed
      have hbound : n < max (reached d) count' := by
        by_cases hdc : d = cur
        · rw [hdc, Function.update_self] at hn
          omega
        · rw [Function.update_of_ne hdc] at hn
          omega
      obtain ⟨rfl, rfl⟩ := hslot d hd n i hbound hi' heq
      have hget := hmove.get?_slot hinj hi hi'
      rw [hkeyAt n hi] at hget
      have hsome : (stateAt step (base d) (n + 1)).isSome := by
        refine stateAt_of_le (n := count') hi' ?_
        rw [← Nat.add_sub_cancel' hle, stateAt_add h.state, hmove.stateAt]
        rfl
      obtain ⟨k'', hk''⟩ := Option.isSome_iff_exists.mp hsome
      obtain ⟨a, m, ha, hstep⟩ := exists_step_of_stateAt_succ hk''
      have hkey := keyAt_of_step ha hstep
      exact .inr (.inr ⟨m, hkey, hget.trans hkey⟩)
    · rw [hmove.get?_other fun i hi hi' heq => hpassed ⟨i, hi, hi', heq⟩]
      refine h.passed d hd n ?_
      by_cases hdc : d = cur
      · subst hdc
        rw [Function.update_self] at hn
        by_contra hge
        exact hpassed ⟨n, Nat.not_lt.mp hge, hn, rfl⟩
      · rw [Function.update_of_ne hdc] at hn
        exact hn

end Settled

end Settled

/-! ## Lineages -/

/-- `x` is `n` steps of `R` from `a`. -/
inductive Lineage {α : Type} (R : α → α → Prop) (a : α) : Nat → α → Prop
  | origin : Lineage R a 0 a
  | step {n : Nat} {x y : α} (h : Lineage R a n x) (hxy : R x y) : Lineage R a (n + 1) y

/-- With unique predecessors and none for the origin, a descendant has one distance. -/
theorem Lineage.unique {α : Type} {R : α → α → Prop} {a x : α}
    (hpred : ∀ {x x' y}, R x y → R x' y → x = x') (horigin : ∀ x, ¬ R x a) {n m : Nat}
    (h : Lineage R a n x) (h' : Lineage R a m x) : n = m := by
  induction h generalizing m with
  | origin =>
    cases h' with
    | origin => rfl
    | step _ hxy => exact absurd hxy (horigin _)
  | step _ hxy ih =>
    cases h' with
    | origin => exact absurd hxy (horigin _)
    | step h' hxy' =>
      obtain rfl := hpred hxy hxy'
      exact congrArg _ (ih h')

end KeyChain
