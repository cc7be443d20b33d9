import Mathlib.Data.List.Basic

/-!
# Finite maps

`Table κ ν` is a finite map with one lookup lemma for each update, stated with `=` on the
keys. `onKey` updates the value under one key and leaves a missing key missing.
-/

/-- A finite map. -/
abbrev Table (κ ν : Type) [Ord κ] := Std.ExtTreeMap κ ν

namespace Table

variable {κ ν : Type} [Ord κ] [Std.TransOrd κ] [Std.LawfulEqOrd κ] [DecidableEq κ]

/-- Update the value under `k`, if there is one. -/
def onKey (t : Table κ ν) (k : κ) (f : ν → ν) : Table κ ν :=
  match t[k]? with
  | some v => t.insert k (f v)
  | none => t

theorem lookup_insert (t : Table κ ν) (k a : κ) (v : ν) :
    (t.insert k v)[a]? = if a = k then some v else t[a]? := by
  simp only [Std.ExtTreeMap.getElem?_insert, Std.LawfulEqOrd.compare_eq_iff_eq]
  exact if_congr eq_comm rfl rfl

@[simp] theorem lookup_insert_self (t : Table κ ν) (k : κ) (v : ν) :
    (t.insert k v)[k]? = some v := by
  rw [lookup_insert, if_pos rfl]

variable {k a : κ} {t : Table κ ν}

theorem lookup_insert_of_ne (t : Table κ ν) (v : ν) (h : a ≠ k) :
    (t.insert k v)[a]? = t[a]? := by
  rw [lookup_insert, if_neg h]

theorem lookup_erase (t : Table κ ν) (k a : κ) :
    (t.erase k)[a]? = if a = k then none else t[a]? := by
  simp only [Std.ExtTreeMap.getElem?_erase, Std.LawfulEqOrd.compare_eq_iff_eq]
  exact if_congr eq_comm rfl rfl

theorem lookup_insertIfNew (t : Table κ ν) (k a : κ) (v : ν) :
    (t.insertIfNew k v)[a]? = if a = k then some (t[k]?.getD v) else t[a]? := by
  simp only [Std.ExtTreeMap.getElem?_insertIfNew, Std.LawfulEqOrd.compare_eq_iff_eq]
  by_cases ha : a = k
  · subst ha
    rw [if_pos rfl]
    cases hk : t[a]? with
    | none => simp [Std.ExtTreeMap.mem_iff_isSome_getElem?, hk]
    | some w => simp [Std.ExtTreeMap.mem_iff_isSome_getElem?, hk]
  · rw [if_neg ha, if_neg fun h => ha h.1.symm]

omit [DecidableEq κ] in
theorem lookup_filter (t : Table κ ν) (p : κ → ν → Bool) (a : κ) :
    (t.filter p)[a]? = t[a]?.filter (p a) := by
  simp only [Std.ExtTreeMap.getElem?_filter, Std.ExtTreeMap.getKey_eq]
  cases t[a]? with
  | none => rfl
  | some v => simp [Option.filter]

omit [DecidableEq κ] in
theorem isSome_of_filter {p : κ → ν → Bool} (h : (t.filter p)[a]?.isSome = true) :
    t[a]?.isSome = true := by
  rw [lookup_filter] at h
  cases ht : t[a]? with
  | none =>
    rw [ht] at h
    cases h
  | some v => rfl

/-! ## Updates of one key -/

@[simp] theorem insert_insert_self (t : Table κ ν) (k : κ) (v w : ν) :
    (t.insert k v).insert k w = t.insert k w := by
  apply Std.ExtTreeMap.ext_getElem?
  intro a
  simp only [lookup_insert]
  split <;> rfl

@[simp] theorem insert_erase_self (t : Table κ ν) (k : κ) (v : ν) :
    (t.erase k).insert k v = t.insert k v := by
  apply Std.ExtTreeMap.ext_getElem?
  intro a
  simp only [lookup_insert, lookup_erase]
  split <;> rfl

@[simp] theorem erase_insert_self (t : Table κ ν) (k : κ) (v : ν) :
    (t.insert k v).erase k = t.erase k := by
  apply Std.ExtTreeMap.ext_getElem?
  intro a
  simp only [lookup_insert, lookup_erase]
  split <;> rfl

@[simp] theorem erase_erase_self (t : Table κ ν) (k : κ) : (t.erase k).erase k = t.erase k := by
  apply Std.ExtTreeMap.ext_getElem?
  intro a
  simp only [lookup_erase]
  split <;> rfl

theorem erase_of_none (h : t[k]? = none) : t.erase k = t := by
  apply Std.ExtTreeMap.ext_getElem?
  intro a
  rw [lookup_erase]
  split
  · rename_i ha
    rw [ha, h]
  · rfl

theorem insert_of_some {v : ν} (h : t[k]? = some v) :
    t.insert k v = t := by
  apply Std.ExtTreeMap.ext_getElem?
  intro a
  rw [lookup_insert]
  split
  · rename_i ha
    rw [ha, h]
  · rfl

@[simp] theorem onKey_insert_self (t : Table κ ν) (k : κ) (v : ν) (f : ν → ν) :
    onKey (t.insert k v) k f = t.insert k (f v) := by
  unfold onKey
  rw [lookup_insert_self]
  exact insert_insert_self t k v (f v)

/-- A table is the table of its entries. -/
theorem ofList_toList (t : Table κ ν) : Std.ExtTreeMap.ofList t.toList = t := by
  apply Std.ExtTreeMap.ext_getElem?
  intro a
  cases ha : t[a]? with
  | some v =>
    exact Std.ExtTreeMap.getElem?_ofList_of_mem Std.ReflOrd.compare_self
      Std.ExtTreeMap.distinct_keys_toList
      (Std.ExtTreeMap.mem_toList_iff_getElem?_eq_some.mpr ha)
  | none =>
    apply Std.ExtTreeMap.getElem?_ofList_of_contains_eq_false
    rw [List.contains_eq_mem, decide_eq_false_iff_not, List.mem_map]
    rintro ⟨⟨b, v⟩, hb, rfl⟩
    rw [Std.ExtTreeMap.mem_toList_iff_getElem?_eq_some.mp hb] at ha
    cases ha

end Table
