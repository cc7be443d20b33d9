import Mathlib.Data.List.Basic
import Mathlib.Data.Nat.Log
import Mathlib.Tactic.Linarith

/-!
# Binary Merkle trees over a list

The tree over a list of `n` hashes splits at the largest power of two below `n`. `root` and `path`
are its head and the siblings from a leaf up; `climb` goes the other way, from a leaf and its
siblings to a head, and fails on a list of siblings of the wrong shape.

A leaf climbs to the root by its own path (`climb_path`), and one head is climbed to, at one place,
by one leaf and one list of siblings (`climb_unique`), as far as `node` tells apart the pairs
`climbed` on the two ways.
-/

namespace Merkle

variable {H : Type}

/-- The largest power of two below `n`, for two and more. -/
def splitPoint (n : Nat) : Nat := 2 ^ Nat.log 2 (n - 1)

theorem splitPoint_pos (n : Nat) : 0 < splitPoint n := Nat.pow_pos (by decide)

theorem splitPoint_lt {n : Nat} (hn : 2 ≤ n) : splitPoint n < n := by
  have := Nat.pow_log_le_self 2 (show n - 1 ≠ 0 by omega)
  unfold splitPoint
  omega

theorem le_two_mul_splitPoint {n : Nat} (hn : 2 ≤ n) : n ≤ 2 * splitPoint n := by
  have := Nat.lt_pow_succ_log_self (b := 2) (by decide) (n - 1)
  rw [pow_succ] at this
  unfold splitPoint
  omega

/-- A tree of at most `2^(d + 1)` leaves has halves of at most `2^d`. -/
theorem splitPoint_le {n d : Nat} (hn : 2 ≤ n) (hd : n ≤ 2 ^ (d + 1)) : splitPoint n ≤ 2 ^ d := by
  refine Nat.pow_le_pow_right (by decide) ?_
  have hlt : n - 1 < 2 ^ (d + 1) := by omega
  exact Nat.lt_succ_iff.mp (Nat.log_lt_of_lt_pow (by omega) hlt)

section

variable (node : H → H → H) (empty : H)

/-- The head of the tree. -/
def root : List H → H
  | [] => empty
  | [leaf] => leaf
  | a :: b :: rest =>
    let leaves := a :: b :: rest
    let k := splitPoint leaves.length
    node (root (leaves.take k)) (root (leaves.drop k))
termination_by leaves => leaves.length
decreasing_by
  · have := splitPoint_lt (n := (a :: b :: rest).length) (by simp)
    rw [List.length_take]
    omega
  · have := splitPoint_pos (a :: b :: rest).length
    simp only [List.length_drop, List.length_cons] at this ⊢
    omega

/-- The siblings on the way from a leaf to the head, the leaf's own first. -/
def path (index : Nat) (leaves : List H) : List H :=
  if _h : 2 ≤ leaves.length then
    let k := splitPoint leaves.length
    if index < k then path index (leaves.take k) ++ [root node empty (leaves.drop k)]
    else path (index - k) (leaves.drop k) ++ [root node empty (leaves.take k)]
  else []
termination_by leaves.length
decreasing_by
  · have := splitPoint_lt _h
    rw [List.length_take]
    omega
  · have := splitPoint_pos leaves.length
    rw [List.length_drop]
    omega

/-- From a leaf to the head, by the siblings from the head down. -/
def climb (leaf : H) : List H → Nat → Nat → Option H
  | [], index, size => if size = 1 ∧ index = 0 then some leaf else none
  | sibling :: inner, index, size =>
    if size < 2 then none
    else if index < splitPoint size then
      (climb leaf inner index (splitPoint size)).map fun left => node left sibling
    else
      (climb leaf inner (index - splitPoint size) (size - splitPoint size)).map fun right =>
        node sibling right

/-- The pairs `node` is asked on that way. -/
def climbed (leaf : H) : List H → Nat → Nat → List (H × H)
  | [], _, _ => []
  | sibling :: inner, index, size =>
    if size < 2 then []
    else if index < splitPoint size then
      ((climb node leaf inner index (splitPoint size)).map fun left => (left, sibling)).toList ++
        climbed leaf inner index (splitPoint size)
    else
      ((climb node leaf inner (index - splitPoint size) (size - splitPoint size)).map fun right =>
        (sibling, right)).toList ++
        climbed leaf inner (index - splitPoint size) (size - splitPoint size)

end

variable {node : H → H → H} {empty : H} {leaves : List H} {index : Nat}

theorem root_of_two (hlen : 2 ≤ leaves.length) :
    root node empty leaves = node (root node empty (leaves.take (splitPoint leaves.length)))
      (root node empty (leaves.drop (splitPoint leaves.length))) := by
  obtain _ | ⟨a, _ | ⟨b, rest⟩⟩ := leaves
  · simp at hlen
  · simp at hlen
  · rw [root]

theorem path_of_one (hlen : leaves.length ≤ 1) : path node empty index leaves = [] := by
  rw [path, dif_neg (by omega)]

theorem path_left (hlen : 2 ≤ leaves.length) (hindex : index < splitPoint leaves.length) :
    path node empty index leaves =
      path node empty index (leaves.take (splitPoint leaves.length)) ++
        [root node empty (leaves.drop (splitPoint leaves.length))] := by
  rw [path, dif_pos hlen]
  exact if_pos hindex

theorem path_right (hlen : 2 ≤ leaves.length) (hindex : ¬ index < splitPoint leaves.length) :
    path node empty index leaves =
      path node empty (index - splitPoint leaves.length)
          (leaves.drop (splitPoint leaves.length)) ++
        [root node empty (leaves.take (splitPoint leaves.length))] := by
  rw [path, dif_pos hlen]
  exact if_neg hindex

theorem length_take_splitPoint (hlen : 2 ≤ leaves.length) :
    (leaves.take (splitPoint leaves.length)).length = splitPoint leaves.length := by
  have := splitPoint_lt hlen
  rw [List.length_take]
  omega

/-- No path is longer than the tree is deep. -/
theorem length_path_le {d : Nat} (hd : leaves.length ≤ 2 ^ d) :
    (path node empty index leaves).length ≤ d := by
  induction d generalizing leaves index with
  | zero => rw [path_of_one (by simpa using hd), List.length_nil]
  | succ d ih =>
    rcases Nat.lt_or_ge leaves.length 2 with hone | htwo
    · rw [path_of_one (by omega), List.length_nil]
      exact Nat.zero_le _
    · have hhalf := splitPoint_le htwo hd
      have hdouble := le_two_mul_splitPoint htwo
      by_cases hindex : index < splitPoint leaves.length
      · rw [path_left htwo hindex, List.length_append, List.length_singleton]
        exact Nat.succ_le_succ (ih (by rw [length_take_splitPoint htwo]; exact hhalf))
      · rw [path_right htwo hindex, List.length_append, List.length_singleton]
        refine Nat.succ_le_succ (ih ?_)
        rw [List.length_drop]
        omega

/-- A leaf climbs to the root by its own path. -/
theorem climb_path {leaf : H} (hleaf : leaves[index]? = some leaf) :
    climb node leaf (path node empty index leaves).reverse index leaves.length =
      some (root node empty leaves) := by
  induction hn : leaves.length using Nat.strong_induction_on generalizing leaves index with
  | _ n ih =>
    subst hn
    have hlt : index < leaves.length := (List.getElem?_eq_some_iff.mp hleaf).1
    rcases Nat.lt_or_ge leaves.length 2 with hone | htwo
    · obtain ⟨x, rfl⟩ := List.length_eq_one_iff.mp (show leaves.length = 1 by omega)
      have hzero : index = 0 := by simpa using hlt
      subst hzero
      rw [path_of_one (by simp), root]
      simpa [climb] using hleaf.symm
    · have hk := splitPoint_lt htwo
      have hpos := splitPoint_pos leaves.length
      by_cases hindex : index < splitPoint leaves.length
      · have hget : (leaves.take (splitPoint leaves.length))[index]? = some leaf := by
          rw [List.getElem?_take_of_lt hindex, hleaf]
        have hleft := ih _ (by rw [length_take_splitPoint htwo]; exact hk) hget rfl
        rw [length_take_splitPoint htwo] at hleft
        rw [path_left htwo hindex, List.reverse_concat, climb, if_neg (by omega), if_pos hindex,
          hleft, root_of_two htwo, Option.map_some]
      · have hget : (leaves.drop (splitPoint leaves.length))[index - splitPoint leaves.length]? =
            some leaf := by
          rw [List.getElem?_drop, Nat.add_sub_cancel' (by omega), hleaf]
        have hright := ih _ (by rw [List.length_drop]; omega) hget rfl
        rw [List.length_drop] at hright
        rw [path_right htwo hindex, List.reverse_concat, climb, if_neg (by omega), if_neg hindex,
          hright, root_of_two htwo, Option.map_some]

/-- `node` tells the pairs of the list apart. -/
def Injective (node : H → H → H) (pairs : List (H × H)) : Prop :=
  ∀ p ∈ pairs, ∀ q ∈ pairs, node p.1 p.2 = node q.1 q.2 → p = q

theorem Injective.subset {pairs pairs' : List (H × H)} (h : Injective node pairs)
    (hsub : pairs' ⊆ pairs) : Injective node pairs' :=
  fun p hp q hq => h p (hsub hp) q (hsub hq)

/-- One place under one head has one leaf and one list of siblings. -/
theorem climb_unique {leaf leaf' top : H} {siblings siblings' : List H} {index size : Nat}
    (hinj : Injective node (climbed node leaf siblings index size ++
      climbed node leaf' siblings' index size))
    (h : climb node leaf siblings index size = some top)
    (h' : climb node leaf' siblings' index size = some top) :
    leaf = leaf' ∧ siblings = siblings' := by
  induction siblings generalizing siblings' index size top with
  | nil =>
    rw [climb] at h
    split at h
    · rename_i hone
      cases siblings' with
      | nil =>
        rw [climb, if_pos hone] at h'
        exact ⟨Option.some.inj (h.trans h'.symm), rfl⟩
      | cons sibling' inner' =>
        rw [climb, if_pos (by omega)] at h'
        cases h'
    · cases h
  | cons sibling inner ih =>
    rw [climb] at h
    split at h
    · cases h
    rename_i htwo
    cases siblings' with
    | nil =>
      rw [climb, if_neg (by omega)] at h'
      cases h'
    | cons sibling' inner' =>
      rw [climb, if_neg htwo] at h'
      simp only [climbed, if_neg htwo] at hinj
      -- the same half is entered on both ways
      split at h
      · rename_i hindex
        rw [if_pos hindex] at h'
        simp only [if_pos hindex] at hinj
        obtain ⟨left, hleft, rfl⟩ := Option.map_eq_some_iff.mp h
        obtain ⟨left', hleft', hnode⟩ := Option.map_eq_some_iff.mp h'
        rw [hleft, hleft'] at hinj
        have hpair := hinj (left, sibling) (by simp) (left', sibling') (by simp) hnode.symm
        cases hpair
        obtain ⟨hleaf, hinner⟩ := ih (hinj.subset fun p hp => by
          simp only [List.mem_append] at hp ⊢
          tauto) hleft hleft'
        exact ⟨hleaf, by rw [hinner]⟩
      · rename_i hindex
        rw [if_neg hindex] at h'
        simp only [if_neg hindex] at hinj
        obtain ⟨right, hright, rfl⟩ := Option.map_eq_some_iff.mp h
        obtain ⟨right', hright', hnode⟩ := Option.map_eq_some_iff.mp h'
        rw [hright, hright'] at hinj
        have hpair := hinj (sibling, right) (by simp) (sibling', right') (by simp) hnode.symm
        cases hpair
        obtain ⟨hleaf, hinner⟩ := ih (hinj.subset fun p hp => by
          simp only [List.mem_append] at hp ⊢
          tauto) hright hright'
        exact ⟨hleaf, by rw [hinner]⟩

end Merkle
