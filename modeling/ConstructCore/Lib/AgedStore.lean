import Mathlib.Data.List.Basic

/-!
# A keyed store whose entries carry the time they were stored

Two maps with one key set: the stored values and the time each was stored. The
structure carries the equality of the two key sets, so an entry without a time
(or a time without an entry) cannot be built. Values leave the store one at a
time (`remove`) or by age (`evict`).

Every operation has one lookup lemma for each map (`get?_insert`, `time?_evict`,
…); `AgedStore.ext_lookup` says the two lookups determine the store, so no proof
below this module looks at the maps.
-/

/-- Pairs are compared by their first component, then by their second. -/
instance instOrdPair {α β : Type} [Ord α] [Ord β] : Ord (α × β) := lexOrd

/-- Values by key, with the time each was stored. -/
@[ext] structure AgedStore (κ ν : Type) [Ord κ] [Std.TransOrd κ] where
  values : Std.ExtTreeMap κ ν
  timestamps : Std.ExtTreeMap κ Nat
  sameKeys : ∀ k, k ∈ values ↔ k ∈ timestamps

namespace AgedStore

variable {κ ν : Type} [Ord κ] [Std.TransOrd κ]

/-- The store with no entry. -/
def empty : AgedStore κ ν := ⟨∅, ∅, fun _ => by simp⟩

instance : Inhabited (AgedStore κ ν) := ⟨empty⟩

/-- The value stored under `k`. -/
def get? (st : AgedStore κ ν) (k : κ) : Option ν := st.values[k]?

/-- The time at which the value under `k` was stored. -/
def time? (st : AgedStore κ ν) (k : κ) : Option Nat := st.timestamps[k]?

/-- The number of entries. -/
def size (st : AgedStore κ ν) : Nat := st.values.size

/-- Store `v` under `k` at time `now`. -/
def insert (st : AgedStore κ ν) (k : κ) (v : ν) (now : Nat) : AgedStore κ ν where
  values := st.values.insert k v
  timestamps := st.timestamps.insert k now
  sameKeys a := by
    rw [Std.ExtTreeMap.mem_insert, Std.ExtTreeMap.mem_insert, st.sameKeys]

/-- Drop the entry under `k`. -/
def remove (st : AgedStore κ ν) (k : κ) : AgedStore κ ν where
  values := st.values.erase k
  timestamps := st.timestamps.erase k
  sameKeys a := by
    rw [Std.ExtTreeMap.mem_erase, Std.ExtTreeMap.mem_erase, st.sameKeys]

/-- The entry under `k` is at least `maxAge` old at `now`, or has no time. -/
def isExpired (st : AgedStore κ ν) (now : Nat) (maxAge : Int) (k : κ) : Bool :=
  match st.timestamps[k]? with
  | some ts => decide (maxAge ≤ (now : Int) - ts)
  | none => true

variable [Std.LawfulEqOrd κ]

/-- Drop every entry that is at least `maxAge` old at `now`. -/
def evict (st : AgedStore κ ν) (now : Nat) (maxAge : Int) : AgedStore κ ν where
  values := st.values.filter fun k _ => !st.isExpired now maxAge k
  timestamps := st.timestamps.filter fun k _ => !st.isExpired now maxAge k
  sameKeys a := by
    simp [Std.ExtTreeMap.mem_filter, st.sameKeys]

/-- The entries as a list, each with its time. -/
def entries (st : AgedStore κ ν) : List (κ × ν × Nat) :=
  st.values.toList.map fun p => (p.1, p.2, (st.timestamps[p.1]?).getD 0)

/-- Store every entry of a list. -/
def insertAll (st : AgedStore κ ν) (l : List (κ × ν × Nat)) : AgedStore κ ν :=
  l.foldl (fun st e => st.insert e.1 e.2.1 e.2.2) st

/-! ## Lookups -/

variable {st : AgedStore κ ν} {k : κ} {v : ν} {now : Nat} {maxAge : Int} {l : List (κ × ν × Nat)}

theorem ext_lookup {st' : AgedStore κ ν} (hv : ∀ k, st.get? k = st'.get? k)
    (ht : ∀ k, st.time? k = st'.time? k) : st = st' :=
  AgedStore.ext (Std.ExtTreeMap.ext_getElem? hv) (Std.ExtTreeMap.ext_getElem? ht)

omit [Std.LawfulEqOrd κ] in
theorem isSome_time? (st : AgedStore κ ν) (k : κ) :
    (st.time? k).isSome = (st.get? k).isSome := by
  rw [Bool.eq_iff_iff, time?, get?, Std.ExtTreeMap.isSome_getElem?_iff_mem,
    Std.ExtTreeMap.isSome_getElem?_iff_mem]
  exact (st.sameKeys k).symm

omit [Std.LawfulEqOrd κ] in
theorem time?_of_get? (h : st.get? k = some v) :
    ∃ t, st.time? k = some t := by
  rw [← Option.isSome_iff_exists, isSome_time?, h]
  rfl

omit [Std.LawfulEqOrd κ] in
@[simp] theorem get?_empty (k : κ) : (empty : AgedStore κ ν).get? k = none := by
  simp [get?, empty]

omit [Std.LawfulEqOrd κ] in
@[simp] theorem time?_empty (k : κ) : (empty : AgedStore κ ν).time? k = none := by
  simp [time?, empty]

theorem get?_insert [DecidableEq κ] (st : AgedStore κ ν) (k a : κ) (v : ν) (now : Nat) :
    (st.insert k v now).get? a = if a = k then some v else st.get? a := by
  simp only [get?, insert, Std.ExtTreeMap.getElem?_insert, Std.LawfulEqOrd.compare_eq_iff_eq]
  exact if_congr eq_comm rfl rfl

theorem time?_insert [DecidableEq κ] (st : AgedStore κ ν) (k a : κ) (v : ν) (now : Nat) :
    (st.insert k v now).time? a = if a = k then some now else st.time? a := by
  simp only [time?, insert, Std.ExtTreeMap.getElem?_insert, Std.LawfulEqOrd.compare_eq_iff_eq]
  exact if_congr eq_comm rfl rfl

theorem get?_remove [DecidableEq κ] (st : AgedStore κ ν) (k a : κ) :
    (st.remove k).get? a = if a = k then none else st.get? a := by
  simp only [get?, remove, Std.ExtTreeMap.getElem?_erase, Std.LawfulEqOrd.compare_eq_iff_eq]
  exact if_congr eq_comm rfl rfl

theorem get?_evict (st : AgedStore κ ν) (now : Nat) (maxAge : Int) (k : κ) :
    (st.evict now maxAge).get? k = if st.isExpired now maxAge k then none else st.get? k := by
  simp only [get?, evict, Std.ExtTreeMap.getElem?_filter', Option.filter]
  cases st.values[k]? <;> cases st.isExpired now maxAge k <;> rfl

theorem time?_evict (st : AgedStore κ ν) (now : Nat) (maxAge : Int) (k : κ) :
    (st.evict now maxAge).time? k =
      if st.isExpired now maxAge k then none else st.time? k := by
  simp only [time?, evict, Std.ExtTreeMap.getElem?_filter', Option.filter]
  cases st.timestamps[k]? <;> cases st.isExpired now maxAge k <;> rfl

/-- Eviction takes entries away and changes none. -/
theorem get?_of_get?_evict (h : (st.evict now maxAge).get? k = some v) : st.get? k = some v := by
  rw [get?_evict] at h
  split at h
  · cases h
  · exact h

omit [Std.LawfulEqOrd κ] in
theorem size_insert_le (st : AgedStore κ ν) (k : κ) (v : ν) (now : Nat) :
    (st.insert k v now).size ≤ st.size + 1 :=
  Std.ExtTreeMap.size_insert_le

omit [Std.LawfulEqOrd κ] in
theorem size_insert_of_new (h : st.get? k = none) (v : ν) (now : Nat) :
    (st.insert k v now).size = st.size + 1 := by
  have hnot : k ∉ st.values := by
    rw [← Std.ExtTreeMap.isSome_getElem?_iff_mem]
    unfold get? at h
    rw [h]
    exact Bool.false_ne_true
  unfold size insert
  rw [Std.ExtTreeMap.size_insert, if_neg (by rwa [Std.ExtTreeMap.contains_iff_mem])]

/-- A store whose entries are all too old is emptied. -/
theorem size_evict_of_old (h : ∀ k ts, st.time? k = some ts → maxAge ≤ (now : Int) - ts) :
    (st.evict now maxAge).size = 0 := by
  have hempty : (st.evict now maxAge).values = ∅ := by
    apply Std.ExtTreeMap.ext_getElem?
    intro k
    have hget := get?_evict st now maxAge k
    unfold get? at hget
    rw [hget]
    cases hexp : st.isExpired now maxAge k with
    | true => simp
    | false =>
      unfold isExpired at hexp
      cases hts : st.timestamps[k]? with
      | none =>
        rw [hts] at hexp
        cases hexp
      | some ts =>
        rw [hts] at hexp
        exact absurd (h k ts hts) (of_decide_eq_false hexp)
  unfold size
  rw [hempty]
  exact Std.ExtTreeMap.size_empty

omit [Std.LawfulEqOrd κ] in
theorem size_remove_le (st : AgedStore κ ν) (k : κ) : (st.remove k).size ≤ st.size :=
  Std.ExtTreeMap.size_erase_le

theorem size_evict_le (st : AgedStore κ ν) (now : Nat) (maxAge : Int) :
    (st.evict now maxAge).size ≤ st.size :=
  Std.ExtTreeMap.size_filter_le_size

/-- `st'` is `st` less entries that are at least `maxAge` old at `now`. -/
def EvictedByAge (now : Nat) (maxAge : Int) (st st' : AgedStore κ ν) : Prop :=
  ∀ k, (st'.get? k = st.get? k ∧ st'.time? k = st.time? k) ∨
    (st'.get? k = none ∧ st'.time? k = none ∧
      ∃ ts, st.time? k = some ts ∧ maxAge ≤ (now : Int) - ts)

omit [Std.LawfulEqOrd κ] in
theorem EvictedByAge.refl (now : Nat) (maxAge : Int) (st : AgedStore κ ν) :
    EvictedByAge now maxAge st st :=
  fun _ => .inl ⟨rfl, rfl⟩

theorem evictedByAge_evict (now : Nat) (maxAge : Int) (st : AgedStore κ ν) :
    EvictedByAge now maxAge st (st.evict now maxAge) := by
  intro k
  rw [get?_evict, time?_evict]
  cases hold : st.isExpired now maxAge k with
  | false => exact .inl ⟨rfl, rfl⟩
  | true =>
    cases ht : st.time? k with
    | none =>
      -- no entry at all: nothing was evicted here
      have hget : st.get? k = none := by
        rw [← Option.isNone_iff_eq_none, ← Option.not_isSome, ← isSome_time?, ht]
        rfl
      exact .inl ⟨hget.symm ▸ rfl, rfl⟩
    | some ts =>
      refine .inr ⟨rfl, rfl, ts, rfl, ?_⟩
      unfold time? at ht
      simpa only [isExpired, ht, decide_eq_true_eq] using hold

theorem get?_of_get?_remove [DecidableEq κ] {a : κ} (h : (st.remove k).get? a = some v) :
    st.get? a = some v := by
  rw [get?_remove] at h
  split at h
  · cases h
  · exact h

/-! ## Entries -/

theorem mem_entries {t : Nat} :
    (k, v, t) ∈ st.entries ↔ st.get? k = some v ∧ st.time? k = some t := by
  unfold entries
  rw [List.mem_map]
  constructor
  · rintro ⟨⟨k', v'⟩, hmem, heq⟩
    have hget : st.get? k' = some v' := Std.ExtTreeMap.mem_toList_iff_getElem?_eq_some.mp hmem
    obtain ⟨t', ht'⟩ := time?_of_get? hget
    unfold time? at ht'
    simp only [ht', Option.getD_some, Prod.mk.injEq] at heq
    obtain ⟨rfl, rfl, rfl⟩ := heq
    exact ⟨hget, ht'⟩
  · rintro ⟨hget, ht⟩
    refine ⟨(k, v), Std.ExtTreeMap.mem_toList_iff_getElem?_eq_some.mpr hget, ?_⟩
    unfold time? at ht
    simp only [ht, Option.getD_some]

/-- No two entries share a key. -/
theorem entries_distinct (st : AgedStore κ ν) :
    st.entries.Pairwise fun a b => a.1 ≠ b.1 := by
  unfold entries
  rw [List.pairwise_map]
  refine Std.ExtTreeMap.distinct_keys_toList.imp ?_
  intro a b hab heq
  exact hab (Std.LawfulEqOrd.compare_eq_iff_eq.mpr heq)

omit [Std.LawfulEqOrd κ] in
theorem length_entries (st : AgedStore κ ν) : st.entries.length = st.size := by
  unfold entries size
  rw [List.length_map, Std.ExtTreeMap.length_toList]

theorem insertAll_of_not_mem [DecidableEq κ] (st : AgedStore κ ν) (h : ∀ e ∈ l, e.1 ≠ k) :
    (st.insertAll l).get? k = st.get? k ∧ (st.insertAll l).time? k = st.time? k := by
  induction l generalizing st with
  | nil => exact ⟨rfl, rfl⟩
  | cons e l ih =>
    have hne : k ≠ e.1 := fun he => h e List.mem_cons_self he.symm
    have hrest := ih (st.insert e.1 e.2.1 e.2.2) fun e' he' => h e' (List.mem_cons_of_mem _ he')
    rw [get?_insert, time?_insert, if_neg hne, if_neg hne] at hrest
    exact hrest

theorem insertAll_of_mem [DecidableEq κ] (st : AgedStore κ ν) (hd : l.Pairwise fun a b => a.1 ≠ b.1)
    {e : κ × ν × Nat} (he : e ∈ l) :
    (st.insertAll l).get? e.1 = some e.2.1 ∧ (st.insertAll l).time? e.1 = some e.2.2 := by
  induction l generalizing st with
  | nil => cases he
  | cons a l ih =>
    rw [List.pairwise_cons] at hd
    rcases List.mem_cons.mp he with rfl | hmem
    · have hrest := insertAll_of_not_mem (st.insert e.1 e.2.1 e.2.2) (l := l) (k := e.1)
        fun b hb hab => hd.1 b hb hab.symm
      rw [get?_insert, time?_insert, if_pos rfl, if_pos rfl] at hrest
      exact hrest
    · exact ih (st.insert a.1 a.2.1 a.2.2) hd.2 hmem

/-- A store is rebuilt from its entries. -/
theorem insertAll_entries [DecidableEq κ] (st : AgedStore κ ν) :
    (empty : AgedStore κ ν).insertAll st.entries = st := by
  have hlookup : ∀ k, (empty.insertAll st.entries).get? k = st.get? k ∧
      (empty.insertAll st.entries).time? k = st.time? k := by
    intro k
    cases hget : st.get? k with
    | some v =>
      obtain ⟨t, ht⟩ := time?_of_get? hget
      have := insertAll_of_mem empty st.entries_distinct (mem_entries.mpr ⟨hget, ht⟩)
      rw [ht]
      exact this
    | none =>
      have hnot : ∀ e ∈ st.entries, e.1 ≠ k := by
        rintro ⟨k', v, t⟩ hmem rfl
        rw [(mem_entries.mp hmem).1] at hget
        cases hget
      have htime : st.time? k = none := by
        rw [← Option.isNone_iff_eq_none, ← Option.not_isSome, isSome_time?, hget]
        rfl
      have := insertAll_of_not_mem (empty : AgedStore κ ν) hnot
      rw [get?_empty, time?_empty] at this
      rw [htime]
      exact this
  exact ext_lookup (fun k => (hlookup k).1) fun k => (hlookup k).2

end AgedStore
