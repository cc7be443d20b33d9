import Mathlib.Data.List.Basic

/-!
# Chunks of a list

`chunksOf n l` cuts a list into chunks of `n` elements, the last of which may be shorter.
`chunksOf_append` takes a full chunk off the front, so that a list may be cut as it arrives
(`chunksOf_flatten_append`).
-/

namespace List

variable {α : Type} {n : Nat}

/-- At most `k` chunks. -/
def chunksFrom (n : Nat) : Nat → List α → List (List α)
  | 0, _ => []
  | _ + 1, [] => []
  | k + 1, a :: l => (a :: l).take n :: chunksFrom n k ((a :: l).drop n)

/-- The chunks of a list. -/
def chunksOf (n : Nat) (l : List α) : List (List α) := chunksFrom n l.length l

theorem chunksFrom_of_le (hn : 0 < n) {k : Nat} {l : List α} (hk : l.length ≤ k) :
    chunksFrom n k l = chunksOf n l := by
  suffices hboth : ∀ k m (l : List α), l.length ≤ k → l.length ≤ m →
      chunksFrom n k l = chunksFrom n m l from hboth k _ l hk (Nat.le_refl _)
  intro k
  induction k with
  | zero =>
    intro m l hk _
    obtain rfl := List.eq_nil_of_length_eq_zero (Nat.le_zero.mp hk)
    cases m <;> rfl
  | succ k ih =>
    intro m l hk hm
    cases l with
    | nil => cases m <;> rfl
    | cons a l =>
      obtain ⟨m, rfl⟩ : ∃ j, m = j + 1 := ⟨m - 1, by rw [length_cons] at hm; omega⟩
      rw [chunksFrom, chunksFrom,
        ih m ((a :: l).drop n) (by rw [length_drop]; omega) (by rw [length_drop]; omega)]

@[simp] theorem chunksOf_nil : chunksOf n ([] : List α) = [] := rfl

theorem chunksOf_of_ne_nil (hn : 0 < n) {l : List α} (hl : l ≠ []) :
    chunksOf n l = l.take n :: chunksOf n (l.drop n) := by
  cases l with
  | nil => exact absurd rfl hl
  | cons a l =>
    show (a :: l).take n :: chunksFrom n l.length ((a :: l).drop n) = _
    rw [chunksFrom_of_le hn (by rw [length_drop, length_cons]; omega)]

/-- A full chunk in front is a chunk. -/
theorem chunksOf_append (hn : 0 < n) {x : List α} (hx : x.length = n) (y : List α) :
    chunksOf n (x ++ y) = x :: chunksOf n y := by
  have hne : x ++ y ≠ [] := fun h => by
    rw [append_eq_nil_iff] at h
    rw [h.1, length_nil] at hx
    omega
  rw [chunksOf_of_ne_nil hn hne, ← hx, take_left, drop_left]

theorem chunksOf_flatten_append (hn : 0 < n) {xs : List (List α)} (hxs : ∀ x ∈ xs, x.length = n)
    (y : List α) : chunksOf n (xs.flatten ++ y) = xs ++ chunksOf n y := by
  induction xs with
  | nil => rfl
  | cons x xs ih =>
    rw [flatten_cons, append_assoc, chunksOf_append hn (hxs x mem_cons_self),
      ih (fun z hz => hxs z (mem_cons_of_mem x hz))]
    rfl

/-- The chunks of a list are its parts, none empty and none too long. -/
theorem chunksOf_spec (hn : 0 < n) (l : List α) :
    (chunksOf n l).flatten = l ∧ ∀ c ∈ chunksOf n l, c ≠ [] ∧ c.length ≤ n := by
  induction hlen : l.length using Nat.strongRecOn generalizing l with
  | ind k ih =>
    by_cases hl : l = []
    · subst hl
      exact ⟨rfl, fun c hc => nomatch hc⟩
    · have hpos := length_pos_iff.mpr hl
      obtain ⟨hflat, hmem⟩ := ih (l.drop n).length (by rw [length_drop]; omega) _ rfl
      rw [chunksOf_of_ne_nil hn hl]
      refine ⟨by rw [flatten_cons, hflat, take_append_drop], fun c hc => ?_⟩
      rcases mem_cons.mp hc with rfl | hc
      · refine ⟨?_, length_take_le n l⟩
        rw [← length_pos_iff, length_take]
        omega
      · exact hmem c hc

theorem length_chunksOf_le (hn : 0 < n) (l : List α) : (chunksOf n l).length ≤ l.length := by
  obtain ⟨hflat, hne⟩ := chunksOf_spec hn l
  have hparts : ∀ xs : List (List α), (∀ x ∈ xs, x ≠ []) → xs.length ≤ xs.flatten.length := by
    intro xs hxs
    induction xs with
    | nil => exact Nat.le_refl _
    | cons x xs ih =>
      have hx := length_pos_iff.mpr (hxs x mem_cons_self)
      have hrest := ih fun y hy => hxs y (mem_cons_of_mem x hy)
      rw [flatten_cons, length_append, length_cons]
      omega
  have hle := hparts _ fun c hc => (hne c hc).1
  rwa [hflat] at hle

end List
