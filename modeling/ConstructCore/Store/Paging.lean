import ConstructCore.Lib.Pages
import ConstructCore.Store.Rows
import Mathlib.Data.List.Lex
import Mathlib.Order.OrderDual

/-!
# Reading the transcript page by page

`messages_before` and `all_messages_after` of `store/src/store.rs`, and the loops of the clients
that read with them until a page is empty. Rows are ordered by `(order_key, id)`, texts by their
bytes. Going back, the rows come newest first and a page is turned round, so that the next cursor
is its first row; that is reading forward in the opposite order.
-/

namespace ConstructCore.Store

open Bytes OrderDual Pages

def textOrder (text : Bytes) : List Nat := text.map UInt8.toNat

/-- `(order_key, id)`, as rows are compared. -/
def place (cursor : Bytes × Bytes) : List Nat ×ₗ List Nat :=
  toLex (textOrder cursor.1, textOrder cursor.2)

def Message.cursor (m : Message) : Bytes × Bytes := (m.orderKey, m.id)

def Message.place (m : Message) : List Nat ×ₗ List Nat := Store.place m.cursor

def Db.columns (db : Db) : List Message := db.messages.map (·.toMessage)

def Db.ofChat (db : Db) (chatId : Bytes) : List Message := db.columns.filter (·.chatId = chatId)

def messagesBefore (db : Db) (chatId : Bytes) (before : Option (Bytes × Bytes)) (limit : Nat) :
    List Message :=
  ((((db.columns.filter fun m => m.chatId = chatId &&
      (before.isNone || before.any fun c => decide (m.place < place c))).insertionSort
    fun a b => b.place ≤ a.place)).take limit).reverse

def allMessagesAfter (db : Db) (after : Option (Bytes × Bytes)) (limit : Nat) : List Message :=
  ((db.columns.filter fun m =>
      after.isNone || after.any fun c => decide (place c < m.place)).insertionSort
    fun a b => a.place ≤ b.place).take limit

def readBack (db : Db) (chatId : Bytes) (limit : Nat) :
    Nat → Option (Bytes × Bytes) → Option (List (List Message))
  | 0, _ => none
  | fuel + 1, before =>
    match (messagesBefore db chatId before limit).head? with
    | none => some []
    | some m => (readBack db chatId limit fuel (some m.cursor)).map
        (messagesBefore db chatId before limit :: ·)

def readOn (db : Db) (limit : Nat) :
    Nat → Option (Bytes × Bytes) → Option (List (List Message))
  | 0, _ => none
  | fuel + 1, after =>
    match (allMessagesAfter db after limit).getLast? with
    | none => some []
    | some m => (readOn db limit fuel (some m.cursor)).map (allMessagesAfter db after limit :: ·)

variable {db : Db}

theorem messagesBefore_eq (chatId : Bytes) (before : Option (Bytes × Bytes)) (limit : Nat) :
    messagesBefore db chatId before limit =
      (page (fun m : Message => toDual m.place) (db.ofChat chatId) limit
        (before.map fun c => toDual (place c))).reverse := by
  unfold messagesBefore page Pages.sorted Db.ofChat
  rw [List.filter_filter]
  congr 4
  funext m
  cases before <;> simp [past, Bool.and_comm]

theorem allMessagesAfter_eq (after : Option (Bytes × Bytes)) (limit : Nat) :
    allMessagesAfter db after limit = page Message.place db.columns limit (after.map place) := by
  unfold allMessagesAfter page Pages.sorted
  congr 3
  funext m
  cases after <;> simp [past]

theorem readBack_eq (chatId : Bytes) (limit fuel : Nat) (before : Option (Bytes × Bytes)) :
    readBack db chatId limit fuel before =
      (readAll (fun m : Message => toDual m.place)
        (page (fun m : Message => toDual m.place) (db.ofChat chatId) limit) fuel
        (before.map fun c => toDual (place c))).map (List.map List.reverse) := by
  induction fuel generalizing before with
  | zero => rfl
  | succ fuel ih =>
    rw [readBack, readAll, messagesBefore_eq, List.head?_reverse]
    generalize page (fun m : Message => toDual m.place) _ limit _ = p
    cases p.getLast? with
    | none => rfl
    | some m =>
      show (readBack db chatId limit fuel (some m.cursor)).map _ = _
      rw [ih, Option.map_map, Option.map_map]
      rfl

theorem readOn_eq (limit fuel : Nat) (after : Option (Bytes × Bytes)) :
    readOn db limit fuel after =
      readAll Message.place (page Message.place db.columns limit) fuel (after.map place) := by
  induction fuel generalizing after with
  | zero => rfl
  | succ fuel ih =>
    rw [readOn, readAll, allMessagesAfter_eq]
    generalize page Message.place _ limit _ = p
    cases p.getLast? with
    | none => rfl
    | some m =>
      show (readOn db limit fuel (some m.cursor)).map _ = _
      rw [ih]
      rfl

theorem nodup_place {ms : List Message} (h : (ms.map (·.id)).Nodup) :
    (ms.map Message.place).Nodup := by
  have hinj : Function.Injective textOrder :=
    List.map_injective_iff.mpr fun _ _ => UInt8.toNat_inj.mp
  have hids : ((ms.map Message.place).map fun p => (ofLex p).2).Nodup := by
    rw [List.map_map]
    show (ms.map fun m => textOrder m.id).Nodup
    rw [← Function.comp_def, ← List.map_map]
    exact List.Nodup.map hinj h
  exact List.Nodup.of_map _ hids

/-- **Paging visits everything once.** The primary key makes the ids distinct. Read back from the
end, the pages in reverse order of reading are the chat in the order of `(order_key, id)`; read on
from the start, they are the whole store in that order. Either reader stops: `fuel` calls are
enough when there are more of them than rows. -/
theorem paging_visits_all_once (db : Db) (hids : (db.columns.map (·.id)).Nodup) (limit : Nat)
    (hlimit : 1 ≤ limit) :
    (∀ chatId fuel, (db.ofChat chatId).length < fuel →
      ∃ pages, readBack db chatId limit fuel none = some pages ∧
        pages.reverse.flatten.Perm (db.ofChat chatId) ∧
        pages.reverse.flatten.Pairwise fun a b => a.place < b.place) ∧
    (∀ fuel, db.columns.length < fuel →
      ∃ pages, readOn db limit fuel none = some pages ∧ pages.flatten.Perm db.columns ∧
        pages.flatten.Pairwise fun a b => a.place < b.place) := by
  have hplaces := nodup_place hids
  have hall : ∀ {κ : Type} [LinearOrder κ] (key : Message → κ) (rows : List Message),
      (Pages.sorted key rows).filter (past key none) = Pages.sorted key rows :=
    fun key rows => List.filter_eq_self.mpr fun _ _ => rfl
  constructor
  · intro chatId fuel hfuel
    have hchat : ((db.ofChat chatId).map fun m => toDual m.place).Nodup :=
      hplaces.sublist (List.filter_sublist.map _)
    obtain ⟨ps, hps, hflat, -⟩ := readAll_pages hchat hlimit fuel
      (by rw [hall, (perm_sorted _ _).length_eq]; exact hfuel)
    rw [hall] at hflat
    refine ⟨ps.map List.reverse, by rw [readBack_eq]; exact congrArg _ hps, ?_⟩
    -- the pages turned round, in reverse order, are the pages in order turned round
    have hreverse : (ps.map List.reverse).reverse.flatten = ps.flatten.reverse := by
      rw [List.reverse_flatten]
    rw [hreverse, hflat]
    refine ⟨(List.reverse_perm _).trans (perm_sorted _ _), ?_⟩
    exact List.pairwise_reverse.mpr ((rising_sorted hchat).imp fun h => h)
  · intro fuel hfuel
    obtain ⟨ps, hps, hflat, -⟩ := readAll_pages hplaces hlimit fuel
      (by rw [hall, (perm_sorted _ _).length_eq]; exact hfuel)
    rw [hall] at hflat
    refine ⟨ps, by rw [readOn_eq]; exact hps, ?_⟩
    rw [hflat]
    exact ⟨perm_sorted _ _, rising_sorted hplaces⟩

/-- Three messages of a chat, two of them under one order key, in pages of two. -/
theorem paging_visits_all_once_sample :
    let row := fun (rowid : Nat) (id orderKey : UInt8) =>
      ({ id := [id], chatId := [1], orderKey := [orderKey], rowid } : MessageRow)
    let db : Db := { messages := [row 1 10 7, row 2 12 5, row 3 11 7] }
    ∃ pages, readBack db [1] 2 4 none = some pages ∧ pages.reverse.flatten.Perm (db.ofChat [1]) ∧
      pages.map (·.map (·.id)) = [[[10], [11]], [[12]]] := by
  intro row db
  obtain ⟨pages, hread, hperm, -⟩ :=
    (paging_visits_all_once db (by decide +kernel) 2 (by decide)).1 [1] 4 (by decide +kernel)
  refine ⟨pages, hread, hperm, ?_⟩
  have hpages : (readBack db [1] 2 4 none).map (·.map (·.map (·.id))) =
      some [[[10], [11]], [[12]]] := by decide +kernel
  rw [hread] at hpages
  exact Option.some.inj hpages

end ConstructCore.Store
