import Mathlib.Data.Finset.Card
import Mathlib.Data.List.TakeWhile
import Megalos.Library.KeyedTable

/-!
Tables whose rows stand in the order in which their keys were last used. A bound on the
size drops only rows that were overtaken by as many other keys.
-/

namespace KeyedTable

section Uses

variable {κ : Type} [DecidableEq κ] {uses : List κ} {used wanted : κ} {bound : Nat}

/-- The uses after the last one of a key. The latest use comes first. -/
def since (uses : List κ) (wanted : κ) : List κ := uses.takeWhile (· ≠ wanted)

/-- The keys that were used after the last use of a key. -/
def overtaking (uses : List κ) (wanted : κ) : Finset κ := (since uses wanted).toFinset

/-- Fewer than so many other keys are used between a use of a key and its next one. -/
def Close (bound : Nat) (uses : List κ) : Prop :=
  ∀ before between after wanted, uses = before ++ wanted :: (between ++ wanted :: after) →
    wanted ∉ between →
    between.toFinset.card < bound

theorem since_other (differs : used ≠ wanted) :
    since (used :: uses) wanted = used :: since uses wanted :=
  List.takeWhile_cons_of_pos (by simpa using differs)

theorem overtaking_grows (uses : List κ) (differs : used ≠ wanted) :
    overtaking uses wanted ⊆ overtaking (used :: uses) wanted := by
  intro other member
  unfold overtaking at member ⊢
  rw [since_other differs, List.toFinset_cons]
  exact Finset.mem_insert_of_mem member

theorem Close.of_append {later : List κ} (close : Close bound (later ++ uses)) :
    Close bound uses := by
  intro before between after wanted split
  apply close (later ++ before) between after wanted
  rw [split, List.append_assoc]

theorem Close.reverse (close : Close bound uses) : Close bound uses.reverse := by
  intro before between after wanted split apart
  have mirrored : uses = after.reverse ++
    wanted :: (between.reverse ++ wanted :: before.reverse) := by
    rw [← List.reverse_reverse uses, split]
    simp
  have few := close _ _ _ _ mirrored (by simpa using apart)
  rwa [List.toFinset_reverse] at few

theorem Close.of_length (short : uses.length ≤ bound + 1) : Close bound uses := by
  intro before between after wanted split apart
  have length := congrArg List.length split
  have few := List.toFinset_card_le between
  simp only [List.length_append, List.length_cons] at length
  omega

theorem Close.overtaking (close : Close bound (wanted :: uses)) (usedBefore : wanted ∈ uses) :
    (overtaking uses wanted).card < bound := by
  have apart : wanted ∉ since uses wanted := by
    intro member
    simpa using List.mem_takeWhile_imp member
  obtain ⟨first, rest, split⟩ : ∃ first rest, uses.dropWhile (· ≠ wanted) = first :: rest := by
    apply List.exists_cons_of_ne_nil
    intro none
    simpa using List.dropWhile_eq_nil_iff.mp none wanted usedBefore
  have isWanted : first = wanted := by
    have stops := List.head?_dropWhile_not (· ≠ wanted) uses
    rw [split] at stops
    simpa using stops
  apply close [] (since uses wanted) rest wanted _ apart
  rw [List.nil_append, since, ← isWanted, ← split, isWanted, List.takeWhile_append_dropWhile]

end Uses

namespace Table

variable {κ ρ : Type} {key : ρ → κ} [DecidableEq κ] {table : Table key} {uses : List κ} {row : ρ}
    {wanted : κ} {count : Nat}

def InOrder (table : Table key) (uses : List κ) : Prop :=
  table.rows.Pairwise fun row later => key later ∈ since uses (key row)

theorem InOrder.deleteWhere (ordered : table.InOrder uses) (doomed : ρ → Bool) :
    (table.deleteWhere doomed).InOrder uses :=
  List.Pairwise.sublist List.filter_sublist ordered

theorem InOrder.dropOldest (ordered : table.InOrder uses) (count : Nat) :
    (table.dropOldest count).InOrder uses :=
  List.Pairwise.sublist (List.drop_sublist count table.rows) ordered

theorem InOrder.update (ordered : table.InOrder uses) (target : κ) (change : ρ → ρ)
    (keeps : ∀ row, key (change row) = key row) :
    (table.update target change keeps).InOrder uses := by
  have sameKey (row : ρ) : key (if key row = target then change row else row) = key row := by
    split
    · exact keeps row
    · rfl
  apply List.pairwise_map.mpr
  apply ordered.imp
  intro row later after
  rw [sameKey, sameKey]
  exact after

/-- The row under its key, behind all the others. -/
def toEnd (table : Table key) (row : ρ) : Table key := (table.erase (key row)).upsert row

theorem lookup_erased (table : Table key) (row : ρ) :
    (table.erase (key row)).lookup (key row) = none := by
  rw [lookup_erase, if_pos rfl]

theorem lookup_toEnd (table : Table key) (row : ρ) (wanted : κ) :
    (table.toEnd row).lookup wanted = if wanted =
      key row then some row else table.lookup wanted := by
  unfold toEnd
  rw [lookup_upsert]
  by_cases own : wanted = key row
  · rw [if_pos own, if_pos own]
  · rw [if_neg own, if_neg own, lookup_erase, if_neg own]

theorem mem_toEnd {row other : ρ} (member : other ∈ (table.toEnd row).rows) :
    other = row ∨ other ∈ table.rows := by
  unfold toEnd at member
  rw [rows_upsert_new (table.lookup_erased row), List.mem_append] at member
  rcases member with before | newest
  · exact .inr (List.mem_of_mem_filter before)
  · exact .inl (List.mem_singleton.mp newest)

theorem lookup_toEnd_known (found : table.lookup (key row) = some row) (wanted : κ) :
    (table.toEnd row).lookup wanted = table.lookup wanted := by
  rw [lookup_toEnd]
  split
  · rename_i own
    rw [own, found]
  · rfl

theorem size_toEnd (table : Table key) (row : ρ) :
    (table.toEnd row).size = (table.erase (key row)).size + 1 :=
  size_upsert_new (table.lookup_erased row)

theorem size_toEnd_known {row known : ρ} (found : table.lookup (key row) = some known) :
    (table.toEnd row).size ≤ table.size := by
  have fewer : (table.erase (key row)).size < table.size :=
    size_deleteWhere_lt found (by simpa using lookup_key found)
  rw [size_toEnd]
  omega

theorem size_le_card {keys : Finset κ} (within : ∀ row ∈ table.rows, key row ∈ keys) :
    table.size ≤ keys.card := by
  have among : (table.rows.map key).toFinset ⊆ keys := by
    intro wanted member
    obtain ⟨row, inTable, rfl⟩ := List.mem_map.mp (List.mem_toFinset.mp member)
    exact within row inTable
  calc table.size = (table.rows.map key).toFinset.card := by
        rw [List.toFinset_card_of_nodup table.keysNodup, List.length_map, size]
    _ ≤ keys.card := Finset.card_le_card among

theorem InOrder.append (ordered : table.InOrder uses) (row : ρ)
    (absent : table.lookup (key row) = none) :
    (table.upsert row).InOrder (key row :: uses) := by
  have others : ∀ other ∈ table.rows, key row ≠ key other := by
    intro other member same
    exact lookup_eq_none_iff.mp absent (same ▸ List.mem_map_of_mem member)
  unfold InOrder
  rw [rows_upsert_new absent, List.pairwise_append]
  refine ⟨?_, List.pairwise_singleton _ _, ?_⟩
  · apply List.Pairwise.imp_of_mem _ ordered
    intro other later member _ after
    rw [since_other (others other member)]
    exact List.mem_cons_of_mem _ after
  · intro other member newest isRow
    rw [List.mem_singleton.mp isRow, since_other (others other member)]
    exact List.mem_cons_self

theorem InOrder.overtaken (ordered : table.InOrder uses) (found : table.lookup wanted = some row)
    (gone : (table.dropOldest count).lookup wanted = none) :
    table.size - count ≤ (overtaking uses wanted).card := by
  have keyEq := lookup_key found
  have early : row ∈ table.rows.take count := by
    have member := lookup_mem found
    rw [← List.take_append_drop count table.rows, List.mem_append] at member
    rcases member with early | late
    · exact early
    · exact absurd (keyEq ▸ List.mem_map_of_mem late) (lookup_eq_none_iff.mp gone)
  unfold InOrder at ordered
  rw [← List.take_append_drop count table.rows, List.pairwise_append] at ordered
  have staying : ((table.dropOldest count).rows.map key).toFinset ⊆ overtaking uses wanted := by
    intro other member
    obtain ⟨later, stays, rfl⟩ := List.mem_map.mp (List.mem_toFinset.mp member)
    have after := ordered.2.2 row early later stays
    rw [keyEq] at after
    exact List.mem_toFinset.mpr after
  have size : ((table.dropOldest count).rows.map key).toFinset.card = table.size - count := by
    rw [List.toFinset_card_of_nodup (table.dropOldest count).keysNodup, List.length_map]
    exact size_dropOldest table count
  rw [← size]
  exact Finset.card_le_card staying

end Table

end KeyedTable
