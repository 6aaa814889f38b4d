import Mathlib.Data.List.Sort
import Megalos.Library.KeyedTable

/-!
The first rows in an order: what `ORDER BY … LIMIT n` selects from a list, ties in the
order of the list, and the table without them.
-/

namespace Selection

open KeyedTable

section Order

variable {α : Type} (before : α → α → Prop) [DecidableRel before]

def firstBy (count : Nat) (items : List α) : List α := (items.insertionSort before).take count

/-- How many of the items the order puts in front of one of them, which is known by its key. -/
def ahead {κ : Type} [DecidableEq κ] (key : α → κ) (item : α) : List α → Nat
  | [] => 0
  | first :: rest =>
      if key first = key item then rest.countP fun other => ¬before item other
      else ahead key item rest + if before first item then 1 else 0

variable {before} {count : Nat} {items : List α} {item other : α}

theorem firstBy_subset (chosen : item ∈ firstBy before count items) : item ∈ items :=
  (List.mem_insertionSort before).mp (List.mem_of_mem_take chosen)

theorem mem_drop_of_not_mem (member : item ∈ items) (left : item ∉ firstBy before count items) :
    item ∈ (items.insertionSort before).drop count := by
  have sorted := (List.mem_insertionSort before).mpr member
  rw [← List.take_append_drop count (items.insertionSort before), List.mem_append] at sorted
  exact sorted.resolve_left left

theorem firstBy_before [Std.Total before] [IsTrans α before]
    (chosen : item ∈ firstBy before count items) (member : other ∈ items)
    (left : other ∉ firstBy before count items) : before item other := by
  have sorted := List.pairwise_insertionSort before items
  rw [← List.take_append_drop count (items.insertionSort before), List.pairwise_append] at sorted
  exact sorted.2.2 item chosen other (mem_drop_of_not_mem member left)

section Place

open Classical in
theorem idxOf_orderedInsert_self [IsTrans α before] (sorted : items.Pairwise before)
    (fresh : item ∉ items) :
    (items.orderedInsert before item).idxOf item = items.countP fun other =>
      ¬before item other := by
  induction items with
  | nil => simp
  | cons first rest ih =>
      rw [List.pairwise_cons] at sorted
      rw [List.mem_cons, not_or] at fresh
      rw [List.orderedInsert_cons]
      by_cases leads : before item first
      · have all : ∀ other ∈ rest, before item other :=
          fun other member => IsTrans.trans _ _ _ leads (sorted.1 other member)
        have none : rest.countP (fun other => ¬before item other) = 0 := by
          apply List.countP_eq_zero.mpr
          intro other member
          simpa using all other member
        rw [if_pos leads, List.idxOf_cons_self, List.countP_cons, none]
        simp [leads]
      · rw [if_neg leads, List.idxOf_cons_ne _ (Ne.symm fresh.1), ih sorted.2 fresh.2,
          List.countP_cons]
        simp [leads]

open Classical in
theorem idxOf_orderedInsert_other [IsTrans α before] (sorted : items.Pairwise before)
    (differs : item ≠ other) (member : item ∈ items) :
    (items.orderedInsert before other).idxOf item =
      items.idxOf item + if before other item then 1 else 0 := by
  induction items with
  | nil => exact absurd member List.not_mem_nil
  | cons first rest ih =>
      rw [List.pairwise_cons] at sorted
      rw [List.orderedInsert_cons]
      by_cases leads : before other first
      · have leadsItem : before other item := by
          rcases List.mem_cons.mp member with rfl | inRest
          · exact leads
          · exact IsTrans.trans _ _ _ leads (sorted.1 item inRest)
        rw [if_pos leads, if_pos leadsItem, List.idxOf_cons_ne _ (Ne.symm differs)]
      · rw [if_neg leads]
        by_cases same : first = item
        · subst same
          rw [List.idxOf_cons_self, List.idxOf_cons_self, if_neg leads]
        · have inRest := (List.mem_cons.mp member).resolve_left (Ne.symm same)
          rw [List.idxOf_cons_ne _ same, List.idxOf_cons_ne _ same, ih sorted.2 inRest]
          omega

variable {κ : Type} [DecidableEq κ] {key : α → κ}

open Classical in
theorem idxOf_insertionSort [Std.Total before] [IsTrans α before] (distinct : (items.map key).Nodup)
    (member : item ∈ items) :
    (items.insertionSort before).idxOf item = ahead before key item items := by
  induction items with
  | nil => exact absurd member List.not_mem_nil
  | cons first rest ih =>
      rw [List.map_cons, List.nodup_cons] at distinct
      have sorted := List.pairwise_insertionSort before rest
      rw [List.insertionSort_cons, ahead]
      by_cases same : first = item
      · subst same
        have fresh : first ∉ rest.insertionSort before := by
          rw [List.mem_insertionSort]
          exact fun inRest => distinct.1 (List.mem_map_of_mem inRest)
        rw [if_pos rfl, idxOf_orderedInsert_self sorted fresh]
        exact (List.perm_insertionSort before rest).countP_eq _
      · have inRest := (List.mem_cons.mp member).resolve_left (Ne.symm same)
        have apart : key first ≠ key item :=
          fun sameKey => distinct.1 (sameKey ▸ List.mem_map_of_mem inRest)
        rw [if_neg apart, idxOf_orderedInsert_other sorted (Ne.symm same) ((List.mem_insertionSort before).mpr inRest),
          ih distinct.2 inRest]

/-- An item is among the first when few enough stand in front of it. -/
theorem mem_firstBy_iff [Std.Total before] [IsTrans α before] (distinct : (items.map key).Nodup)
    (member : item ∈ items) : item ∈ firstBy before count items ↔
      ahead before key item items < count := by
  classical
  rw [firstBy, List.mem_take_iff_idxOf_lt ((List.mem_insertionSort before).mpr member),
    idxOf_insertionSort distinct member]

end Place

end Order

section Tables

variable {κ ρ : Type} {key : ρ → κ} [DecidableEq κ] {table : Table key} {before : ρ → ρ → Prop}
  [DecidableRel before] {count : Nat}

def dropFirst (before : ρ → ρ → Prop) [DecidableRel before] (count : Nat) (table : Table key) :
    Table key :=
  table.deleteWhere fun row => key row ∈ (firstBy before count table.rows).map key

theorem key_mem_firstBy {row : ρ} (member : row ∈ table.rows) :
    key row ∈ (firstBy before count table.rows).map key ↔
      row ∈ firstBy before count table.rows := by
  constructor
  · intro chosen
    obtain ⟨other, isChosen, same⟩ := List.mem_map.mp chosen
    have found := Table.lookup_of_mem (firstBy_subset isChosen)
    rw [same, Table.lookup_of_mem member, Option.some.injEq] at found
    exact found ▸ isChosen
  · exact List.mem_map_of_mem

theorem dropFirst_perm (before : ρ → ρ → Prop) [DecidableRel before] (count : Nat)
    (table : Table key) :
    (dropFirst before count table).rows.Perm ((table.rows.insertionSort before).drop count) := by
  have sorted := List.perm_insertionSort before table.rows
  have apart : ∀ row ∈ (table.rows.insertionSort before).drop count,
    key row ∉ (firstBy before count table.rows).map key := by
    have distinct : ((table.rows.insertionSort before).map key).Nodup :=
      (sorted.map key).nodup_iff.mpr table.keysNodup
    rw [← List.take_append_drop count (table.rows.insertionSort before),
      List.map_append] at distinct
    intro row left chosen
    exact List.disjoint_of_nodup_append distinct chosen (List.mem_map_of_mem left)
  have none : ((table.rows.insertionSort before).take count).filter
      (fun row => !decide (key row ∈ (firstBy before count table.rows).map key)) = [] := by
    apply List.filter_eq_nil_iff.mpr
    intro row chosen
    have named : key row ∈ (firstBy before count table.rows).map key := List.mem_map_of_mem chosen
    simpa using named
  have all : ((table.rows.insertionSort before).drop count).filter
      (fun row => !decide (key row ∈ (firstBy before count table.rows).map key)) =
      (table.rows.insertionSort before).drop count := by
    apply List.filter_eq_self.mpr
    intro row left
    simpa using apart row left
  have split := sorted.symm.filter fun row =>
    !decide (key row ∈ (firstBy before count table.rows).map key)
  rw [← List.take_append_drop count (table.rows.insertionSort before), List.filter_append, none,
    all] at split
  exact split

theorem dropFirst_size (before : ρ → ρ → Prop) [DecidableRel before] (count : Nat)
    (table : Table key) :
    (dropFirst before count table).size = table.size - count := by
  rw [Table.size, (dropFirst_perm before count table).length_eq, List.length_drop,
    List.length_insertionSort, Table.size]

end Tables

end Selection
