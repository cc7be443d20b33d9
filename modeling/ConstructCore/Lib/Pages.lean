import Mathlib.Data.List.Sort
import Mathlib.Data.Prod.Lex

/-!
# Reading a table page by page

A page is the first rows, in the order of their keys, of those past a cursor. A reader asks for
page after page, with the key of the last row it got, until a page is empty.

With distinct keys and pages of at least one row, the pages together are the table in the order
of its keys (`readAll_pages`): what is past the cursor is a tail of the sorted table
(`sorted_past`), and a page is cut off its front.
-/

namespace Pages

variable {ρ κ : Type} [LinearOrder κ] {key : ρ → κ}

/-- The row is past the cursor; without one, every row is. -/
def past (key : ρ → κ) (cursor : Option κ) (r : ρ) : Bool :=
  match cursor with
  | none => true
  | some k => decide (k < key r)

/-- The rows in the order of their keys. -/
def sorted (key : ρ → κ) (rows : List ρ) : List ρ :=
  rows.insertionSort fun a b => key a ≤ key b

/-- `SELECT … WHERE key > cursor ORDER BY key LIMIT limit`. -/
def page (key : ρ → κ) (rows : List ρ) (limit : Nat) (cursor : Option κ) : List ρ :=
  (sorted key (rows.filter (past key cursor))).take limit

/-- Asks for page after page, from the last row of each, until one is empty. -/
def readAll (key : ρ → κ) (next : Option κ → List ρ) : Nat → Option κ → Option (List (List ρ))
  | 0, _ => none
  | fuel + 1, cursor =>
    match (next cursor).getLast? with
    | none => some []
    | some r => (readAll key next fuel (some (key r))).map (next cursor :: ·)

/-- The keys rise. -/
def Rising (key : ρ → κ) (rows : List ρ) : Prop := rows.Pairwise fun a b => key a < key b

variable {rows : List ρ} {cursor : Option κ}

theorem perm_sorted (key : ρ → κ) (rows : List ρ) : (sorted key rows).Perm rows :=
  List.perm_insertionSort ..

theorem rising_sorted (h : (rows.map key).Nodup) : Rising key (sorted key rows) := by
  have : IsTrans ρ fun a b => key a ≤ key b := ⟨fun _ _ _ => le_trans⟩
  have : Std.Total fun a b : ρ => key a ≤ key b := ⟨fun a b => le_total (key a) (key b)⟩
  have hle : (sorted key rows).Pairwise fun a b => key a ≤ key b :=
    List.pairwise_insertionSort _ rows
  have hne : (sorted key rows).Pairwise fun a b => key a ≠ key b :=
    List.pairwise_map.mp (((perm_sorted key rows).map key).nodup_iff.mpr h)
  exact (hle.and hne).imp fun hab => lt_of_le_of_ne hab.1 hab.2

theorem eq_of_rising {l l' : List ρ} (h : Rising key l) (h' : Rising key l') (hperm : l.Perm l') :
    l = l' :=
  hperm.eq_of_pairwise (fun _ _ _ _ hab hba => absurd hba (lt_asymm hab)) h h'

/-- What is past a cursor, sorted, is what is past it of the sorted rows. -/
theorem sorted_past (h : (rows.map key).Nodup) (cursor : Option κ) :
    sorted key (rows.filter (past key cursor)) = (sorted key rows).filter (past key cursor) := by
  apply eq_of_rising (rising_sorted (h.sublist (List.filter_sublist.map key)))
  · exact (rising_sorted h).sublist List.filter_sublist
  · exact (perm_sorted key _).trans ((perm_sorted key rows).filter _).symm

/-- Past a row of a rising list come the rows behind it. -/
theorem filter_past {xs before after : List ρ} {r : ρ} (hxs : Rising key xs)
    (h : xs.filter (past key cursor) = before ++ r :: after) :
    xs.filter (past key (some (key r))) = after := by
  have hr : past key cursor r = true := by
    have : r ∈ xs.filter (past key cursor) := by simp [h]
    exact (List.mem_filter.mp this).2
  -- what is past `r` is past the cursor
  have hpast : xs.filter (past key (some (key r))) =
      (xs.filter (past key cursor)).filter (past key (some (key r))) := by
    rw [List.filter_filter]
    apply List.filter_congr
    intro x _
    by_cases hx : key r < key x
    · cases cursor with
      | none => simp [past, hx]
      | some k =>
        have hk : k < key r := of_decide_eq_true hr
        simp [past, hx, hk.trans hx]
    · simp [past, hx]
  have hrising : Rising key (before ++ r :: after) := h ▸ hxs.sublist List.filter_sublist
  obtain ⟨-, hafter, hbefore⟩ := List.pairwise_append.mp hrising
  rw [hpast, h, List.filter_append, List.filter_cons_of_neg (by simp [past])]
  have hnone : before.filter (past key (some (key r))) = [] := by
    apply List.filter_eq_nil_iff.mpr
    intro x hx
    have := hbefore x hx r (List.mem_cons_self ..)
    simp [past, le_of_lt this]
  have hall : after.filter (past key (some (key r))) = after := by
    apply List.filter_eq_self.mpr
    intro x hx
    simpa [past] using List.rel_of_pairwise_cons hafter hx
  rw [hnone, hall, List.nil_append]

/-- **The pages are the table in the order of its keys**, from a cursor on. -/
theorem readAll_pages (h : (rows.map key).Nodup) {limit : Nat} (hlimit : 1 ≤ limit) (fuel : Nat)
    (hfuel : ((sorted key rows).filter (past key cursor)).length < fuel) :
    ∃ ps, readAll key (page key rows limit) fuel cursor = some ps ∧
      ps.flatten = (sorted key rows).filter (past key cursor) ∧ ∀ p ∈ ps, p ≠ [] := by
  induction fuel generalizing cursor with
  | zero => omega
  | succ fuel ih =>
    have hpage : page key rows limit cursor =
        ((sorted key rows).filter (past key cursor)).take limit := by
      rw [page, sorted_past h]
    rw [readAll, hpage]
    generalize hrest : (sorted key rows).filter (past key cursor) = rest at hfuel ⊢
    cases hlast : (rest.take limit).getLast? with
    | none =>
      have hnil : rest = [] := by
        rw [List.getLast?_eq_none_iff, List.take_eq_nil_iff] at hlast
        exact hlast.resolve_left (by omega)
      exact ⟨[], rfl, hnil.symm, fun _ hp => nomatch hp⟩
    | some r =>
      obtain ⟨front, hfront⟩ := List.getLast?_eq_some_iff.mp hlast
      have hsplit : rest = front ++ r :: rest.drop limit := by
        conv_lhs => rw [← List.take_append_drop limit rest, hfront]
        simp
      have hnext := filter_past (rising_sorted h) (hrest.trans hsplit)
      have hshort : ((sorted key rows).filter (past key (some (key r)))).length < fuel := by
        rw [hnext]
        have := congrArg List.length hsplit
        simp only [List.length_append, List.length_cons] at this
        omega
      obtain ⟨ps, hps, hflat, hne⟩ := ih hshort
      refine ⟨rest.take limit :: ps, ?_, ?_, ?_⟩
      · show (readAll key (page key rows limit) fuel (some (key r))).map _ = _
        rw [hps]
        rfl
      · rw [List.flatten_cons, hflat, hnext, List.take_append_drop]
      · intro p hp
        rcases List.mem_cons.mp hp with rfl | hp
        · rw [hfront]
          simp
        · exact hne p hp

end Pages
