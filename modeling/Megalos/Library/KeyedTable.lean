import Mathlib.Data.List.Nodup
import Mathlib.Data.List.Basic
import Mathlib.Data.List.Perm.Subperm

/-!
Tables of rows under a primary key, in insertion order: the part of SQL that a
single-table store needs (`SELECT`, `INSERT`, `UPDATE`, `DELETE`).  With pairs as
rows and their first component as key, a table is an ordered dictionary.
-/

namespace KeyedTable

/-- Rows in insertion order; no two of them share a key. -/
structure Table {κ ρ : Type} (key : ρ → κ) where
  rows : List ρ
  keysNodup : (rows.map key).Nodup

namespace Table

variable {κ ρ : Type} {key : ρ → κ}

def empty : Table key := ⟨[], List.nodup_nil⟩

instance : Inhabited (Table key) := ⟨empty⟩

def size (table : Table key) : Nat := table.rows.length

def select (table : Table key) (wanted : ρ → Bool) : List ρ := table.rows.filter wanted

/-- `SELECT … WHERE … LIMIT 1`: the first row in table order. -/
def selectOne (table : Table key) (wanted : ρ → Bool) : Option ρ := table.rows.find? wanted

def deleteWhere (table : Table key) (doomed : ρ → Bool) : Table key where
  rows := table.rows.filter fun row => !doomed row
  keysNodup := table.keysNodup.sublist (List.filter_sublist.map key)

def dropOldest (table : Table key) (count : Nat) : Table key where
  rows := table.rows.drop count
  keysNodup := table.keysNodup.sublist ((List.drop_sublist count table.rows).map key)

variable [DecidableEq κ]

def lookup (table : Table key) (wanted : κ) : Option ρ :=
  table.rows.find? fun row => key row = wanted

def contains (table : Table key) (wanted : κ) : Bool := (table.lookup wanted).isSome

/-- `INSERT`: fails when the primary key is taken. -/
def insert (table : Table key) (row : ρ) : Option (Table key) :=
  if fresh : key row ∉ table.rows.map key then
    some ⟨table.rows ++ [row], by
      rw [List.map_append, List.map_singleton]
      exact List.nodup_append.mpr ⟨table.keysNodup, by simp, by
        intro old member new isNew same
        rw [List.mem_singleton] at isNew
        subst isNew same
        exact fresh member⟩⟩
  else none

/-- `UPDATE … WHERE key = wanted`; the change keeps the primary key. -/
def update (table : Table key) (wanted : κ) (change : ρ → ρ)
    (keeps : ∀ row, key (change row) = key row := by intro row; rfl) : Table key where
  rows := table.rows.map fun row => if key row = wanted then change row else row
  keysNodup := by
    have sameKeys : (table.rows.map fun row => if key row = wanted then change row else row).map key
        = table.rows.map key := by
      rw [List.map_map]
      apply List.map_congr_left
      intro row _
      simp only [Function.comp_apply]
      split
      · exact keeps row
      · rfl
    rw [sameKeys]
    exact table.keysNodup

def erase (table : Table key) (wanted : κ) : Table key :=
  table.deleteWhere fun row => key row = wanted

/-- Replace the row under the key in place, or append it. -/
def upsert (table : Table key) (row : ρ) : Table key :=
  match table.insert row with
  | some grown => grown
  | none => ⟨table.rows.map fun old => if key old = key row then row else old, by
      have sameKeys : (table.rows.map fun old => if key old = key row then row else old).map key
          = table.rows.map key := by
        rw [List.map_map]
        apply List.map_congr_left
        intro old _
        simp only [Function.comp_apply]
        split
        · rename_i same; exact same.symm
        · rfl
      rw [sameKeys]
      exact table.keysNodup⟩

@[simp] theorem lookup_empty (wanted : κ) : (empty : Table key).lookup wanted = none := rfl

theorem lookup_key {table : Table key} {wanted : κ} {row : ρ}
    (found : table.lookup wanted = some row) : key row = wanted := by
  simpa using List.find?_some found

theorem lookup_mem {table : Table key} {wanted : κ} {row : ρ}
    (found : table.lookup wanted = some row) : row ∈ table.rows :=
  List.mem_of_find?_eq_some found

theorem lookup_of_mem {table : Table key} {row : ρ} (member : row ∈ table.rows) :
    table.lookup (key row) = some row := by
  have unique := table.keysNodup
  unfold lookup
  revert member unique
  generalize table.rows = rows
  intro member unique
  induction rows with
  | nil => simp at member
  | cons first rest ih =>
      rw [List.map_cons, List.nodup_cons] at unique
      rw [List.find?_cons]
      by_cases same : key first = key row
      · simp only [same, decide_true]
        rcases List.mem_cons.mp member with isFirst | later
        · rw [isFirst]
        · exact absurd (List.mem_map_of_mem later) (same ▸ unique.1)
      · simp only [same, decide_false]
        rcases List.mem_cons.mp member with isFirst | later
        · exact absurd (isFirst ▸ rfl) same
        · exact ih later unique.2

theorem mem_rows_iff {table : Table key} {row : ρ} :
    row ∈ table.rows ↔ table.lookup (key row) = some row :=
  ⟨lookup_of_mem, lookup_mem⟩

theorem lookup_eq_none_iff {table : Table key} {wanted : κ} :
    table.lookup wanted = none ↔ wanted ∉ table.rows.map key := by
  simp only [lookup, List.find?_eq_none, decide_eq_true_eq, List.mem_map, not_exists, not_and]

theorem selectOne_some {table : Table key} {wanted : ρ → Bool} {row : ρ}
    (found : table.selectOne wanted = some row) :
    table.lookup (key row) = some row ∧ wanted row = true :=
  ⟨lookup_of_mem (List.mem_of_find?_eq_some found), List.find?_some found⟩

theorem selectOne_none_iff {table : Table key} {wanted : ρ → Bool} :
    table.selectOne wanted = none ↔
      ∀ k row, table.lookup k = some row → wanted row = false := by
  simp only [selectOne, List.find?_eq_none, Bool.not_eq_true]
  constructor
  · intro none k row found
    exact none row (lookup_mem found)
  · intro none row member
    exact none (key row) row (lookup_of_mem member)

theorem lookup_insert {table grown : Table key} {row : ρ} (inserted : table.insert row = some grown)
    (wanted : κ) :
    grown.lookup wanted = if wanted = key row then some row else table.lookup wanted := by
  unfold insert at inserted
  split at inserted
  · rename_i fresh
    rw [Option.some.injEq] at inserted
    subst inserted
    unfold lookup
    rw [List.find?_append]
    by_cases isNew : wanted = key row
    · subst isNew
      have missing : table.rows.find? (fun old => key old = key row) = none :=
        lookup_eq_none_iff.mpr fresh
      simp [missing]
    · simp [isNew, Ne.symm isNew]
  · simp at inserted

theorem insert_isSome_iff {table : Table key} {row : ρ} :
    (table.insert row).isSome ↔ table.lookup (key row) = none := by
  rw [lookup_eq_none_iff]
  unfold insert
  split <;> simp_all

theorem find?_map_keeping {rows : List ρ} {wanted : κ} {change : ρ → ρ}
    (keeps : ∀ row ∈ rows, key (change row) = key row) :
    (rows.map change).find? (fun row => key row = wanted) =
      (rows.find? fun row => key row = wanted).map change := by
  induction rows with
  | nil => rfl
  | cons first rest ih =>
      have keepsFirst := keeps first (by simp)
      have keepsRest := ih fun row member => keeps row (by simp [member])
      rw [List.map_cons, List.find?_cons, List.find?_cons, keepsFirst]
      split
      · rfl
      · exact keepsRest

theorem lookup_update (table : Table key) (target : κ) (change : ρ → ρ)
    (keeps : ∀ row, key (change row) = key row) (wanted : κ) :
    (table.update target change keeps).lookup wanted =
      if wanted = target then (table.lookup wanted).map change else table.lookup wanted := by
  have keepsIf : ∀ row ∈ table.rows,
      key (if key row = target then change row else row) = key row := by
    intro row _
    split
    · exact keeps row
    · rfl
  unfold lookup update
  rw [find?_map_keeping keepsIf]
  cases found : table.rows.find? (fun row => key row = wanted) with
  | none => simp
  | some row =>
      have keyEq : key row = wanted := by simpa using List.find?_some found
      by_cases same : wanted = target
      · simp [keyEq, same]
      · simp [keyEq, same]

theorem lookup_deleteWhere (table : Table key) (doomed : ρ → Bool) (wanted : κ) :
    (table.deleteWhere doomed).lookup wanted =
      (table.lookup wanted).filter fun row => !doomed row := by
  cases found : table.lookup wanted with
  | none =>
      simp only [Option.filter_none]
      rw [lookup_eq_none_iff] at found ⊢
      intro member
      obtain ⟨row, kept, keyEq⟩ := List.mem_map.mp member
      exact found (List.mem_map.mpr ⟨row, List.mem_of_mem_filter kept, keyEq⟩)
  | some row =>
      have keyEq := lookup_key found
      have member := lookup_mem found
      rw [Option.filter_some]
      split
      · rename_i kept
        rw [← keyEq]
        have stays : row ∈ (table.deleteWhere doomed).rows := List.mem_filter.mpr ⟨member, kept⟩
        exact lookup_of_mem stays
      · rename_i dropped
        rw [lookup_eq_none_iff]
        intro still
        obtain ⟨other, kept, otherKey⟩ := List.mem_map.mp still
        have isRow : other = row := by
          have looked := lookup_of_mem (List.mem_of_mem_filter kept)
          rw [otherKey, found] at looked
          exact (Option.some.injEq _ _ ▸ looked).symm
        subst isRow
        exact dropped (List.mem_filter.mp kept).2

/-- Deleting by key removes the rows under the doomed keys and no other. -/
theorem lookup_deleteWhere_key (table : Table key) (doomed : κ → Bool) (wanted : κ) :
    (table.deleteWhere fun row => doomed (key row)).lookup wanted =
      if doomed wanted then none else table.lookup wanted := by
  rw [lookup_deleteWhere]
  cases found : table.lookup wanted with
  | none => simp
  | some row => cases isDoomed : doomed wanted <;> simp [Option.filter, lookup_key found, isDoomed]

theorem lookup_erase (table : Table key) (target wanted : κ) :
    (table.erase target).lookup wanted =
      if wanted = target then none else table.lookup wanted := by
  rw [erase, lookup_deleteWhere_key table fun k => k = target]
  simp

theorem lookup_upsert (table : Table key) (row : ρ) (wanted : κ) :
    (table.upsert row).lookup wanted = if wanted =
      key row then some row else table.lookup wanted := by
  unfold upsert
  split
  · rename_i grown inserted
    exact lookup_insert inserted wanted
  · rename_i taken
    have present : (table.lookup (key row)).isSome := by
      by_contra absent
      rw [Option.not_isSome_iff_eq_none] at absent
      have := insert_isSome_iff.mpr absent
      simp [taken] at this
    have keepsIf : ∀ old ∈ table.rows, key (if key old = key row then row else old) = key old := by
      intro old _
      split
      · rename_i same; exact same.symm
      · rfl
    unfold lookup at present ⊢
    dsimp only
    rw [find?_map_keeping keepsIf]
    by_cases same : wanted = key row
    · subst same
      obtain ⟨old, found⟩ := Option.isSome_iff_exists.mp present
      have keyEq : key old = key row := by simpa using List.find?_some found
      simp [found, keyEq]
    · cases found : table.rows.find? (fun old => key old = wanted) with
      | none => simp [same]
      | some old =>
          have keyEq : key old = wanted := by simpa using List.find?_some found
          simp [keyEq, same]

theorem rows_upsert_new {table : Table key} {row : ρ} (absent : table.lookup (key row) = none) :
    (table.upsert row).rows = table.rows ++ [row] := by
  have fresh := lookup_eq_none_iff.mp absent
  unfold upsert insert
  rw [dif_pos fresh]

theorem upsert_self {table : Table key} {row : ρ} (found : table.lookup (key row) = some row) :
    table.upsert row = table := by
  have member : key row ∈ table.rows.map key := List.mem_map_of_mem (lookup_mem found)
  have kept : table.rows.map (fun old => if key old = key row then row else old) = table.rows := by
    refine (List.map_congr_left fun old there => ?_).trans (List.map_id _)
    split
    · rename_i same
      have again := lookup_of_mem there
      rw [same, found, Option.some.injEq] at again
      exact again
    · rfl
  obtain ⟨rows, keysNodup⟩ := table
  unfold upsert insert
  rw [dif_neg (not_not_intro member)]
  simp only [mk.injEq]
  exact kept

theorem size_upsert_new {table : Table key} {row : ρ} (absent : table.lookup (key row) = none) :
    (table.upsert row).size = table.size + 1 := by
  unfold size
  rw [rows_upsert_new absent, List.length_append, List.length_singleton]

omit [DecidableEq κ] in
theorem size_deleteWhere_le (table : Table key) (doomed : ρ → Bool) :
    (table.deleteWhere doomed).size ≤ table.size :=
  List.length_filter_le _ _

theorem size_deleteWhere_lt {table : Table key} {doomed : ρ → Bool} {wanted : κ} {row : ρ}
    (found : table.lookup wanted = some row) (goes : doomed row = true) :
    (table.deleteWhere doomed).size < table.size := by
  apply List.length_filter_lt_length_iff_exists.mpr
  exact ⟨row, lookup_mem found, by simp [goes]⟩

theorem size_update (table : Table key) (target : κ) (change : ρ → ρ)
    (keeps : ∀ row, key (change row) = key row) :
    (table.update target change keeps).size = table.size :=
  List.length_map _

omit [DecidableEq κ] in
theorem size_dropOldest (table : Table key) (count : Nat) :
    (table.dropOldest count).size = table.size - count :=
  List.length_drop

omit [DecidableEq κ] in
@[simp] theorem dropOldest_zero (table : Table key) : table.dropOldest 0 = table := by
  cases table
  rfl

theorem lookup_of_size_zero {table : Table key} (none : table.size = 0) (wanted : κ) :
    table.lookup wanted = .none := by
  have noRows : table.rows = [] := List.length_eq_zero_iff.mp none
  rw [lookup_eq_none_iff, noRows]
  simp

theorem lookup_dropOldest_newest {table : Table key} {row : ρ}
    (absent : table.lookup (key row) = none) {count : Nat} (few : count ≤ table.size) :
    ((table.upsert row).dropOldest count).lookup (key row) = some row := by
  apply lookup_of_mem
  have rows : ((table.upsert row).dropOldest count).rows = table.rows.drop count ++ [row] := by
    calc ((table.upsert row).dropOldest count).rows = (table.upsert row).rows.drop count := rfl
      _ = (table.rows ++ [row]).drop count := by rw [rows_upsert_new absent]
      _ = table.rows.drop count ++ [row] := List.drop_append_of_le_length few
  rw [rows]
  simp

theorem lookup_dropOldest {table : Table key} {count : Nat} {wanted : κ} {row : ρ}
    (found : (table.dropOldest count).lookup wanted = some row) :
    table.lookup wanted = some row := by
  rw [← lookup_key found]
  exact lookup_of_mem (List.mem_of_mem_drop (lookup_mem found))

/-- Of two selections, one has no more rows than the other and the keys that the other lacks. -/
theorem select_length_le {table grown : Table key} {wanted admitted : ρ → Bool} (extra : List κ)
    (covered : ∀ k row, grown.lookup k = some row → admitted row = true →
      k ∈ extra ∨ ∃ old, table.lookup k = some old ∧ wanted old = true) :
    (grown.select admitted).length ≤ (table.select wanted).length + extra.length := by
  have distinct : ((grown.select admitted).map key).Nodup :=
    grown.keysNodup.sublist (List.filter_sublist.map key)
  have contained : (grown.select admitted).map key ⊆ (table.select wanted).map key ++ extra := by
    intro k member
    obtain ⟨row, selected, rfl⟩ := List.mem_map.mp member
    obtain ⟨there, meets⟩ := List.mem_filter.mp selected
    apply List.mem_append.mpr
    rcases covered (key row) row (lookup_of_mem there) meets with new | ⟨old, found, was⟩
    · exact .inr new
    · rw [← lookup_key found]
      exact .inl (List.mem_map_of_mem (List.mem_filter.mpr ⟨lookup_mem found, was⟩))
  simpa using (distinct.subperm contained).length_le

end Table

/-! Ordered dictionaries. -/

abbrev Dict (ν : Type) := Table (Prod.fst : String × ν → String)

namespace Dict

variable {ν : Type}

def get? (dict : Dict ν) (name : String) : Option ν := (dict.lookup name).map Prod.snd

def set (dict : Dict ν) (name : String) (value : ν) : Dict ν := dict.upsert (name, value)

def getD (dict : Dict ν) (name : String) (fallback : ν) : ν := (dict.get? name).getD fallback

def map {μ : Type} (dict : Dict ν) (change : ν → μ) : Dict μ where
  rows := dict.rows.map fun entry => (entry.1, change entry.2)
  keysNodup := by
    rw [List.map_map]
    exact dict.keysNodup

@[simp] theorem get?_empty (name : String) : get? (Table.empty : Dict ν) name = none := rfl

theorem get?_map {μ : Type} (dict : Dict ν) (change : ν → μ) (name : String) :
    (dict.map change).get? name = (dict.get? name).map change := by
  unfold get? Table.lookup map
  rw [List.find?_map, Option.map_map, Option.map_map]
  rfl

@[simp] theorem get?_set (dict : Dict ν) (name wanted : String) (value : ν) :
    (dict.set name value).get? wanted = if wanted = name then some value else dict.get? wanted := by
  unfold get? set
  rw [Table.lookup_upsert]
  split <;> simp

theorem set_self {dict : Dict ν} {name : String} {value : ν} (found : dict.get? name = some value) :
    dict.set name value = dict := by
  obtain ⟨⟨key, stored⟩, there, rfl⟩ := Option.map_eq_some_iff.mp found
  obtain rfl : key = name := Table.lookup_key there
  exact Table.upsert_self there

@[simp] theorem get?_erase (dict : Dict ν) (name wanted : String) :
    get? (dict.erase name) wanted = if wanted = name then none else dict.get? wanted := by
  unfold get?
  rw [Table.lookup_erase]
  split <;> simp

@[simp] theorem get?_update (dict : Dict ν) (target wanted : String) (value : ν) :
    get? (dict.update target fun entry => (entry.1, value)) wanted =
      if wanted = target then (dict.get? wanted).map fun _ => value else dict.get? wanted := by
  unfold get?
  rw [Table.lookup_update]
  by_cases same : wanted = target
  · rw [if_pos same, if_pos same, Option.map_map, Option.map_map]
    rfl
  · rw [if_neg same, if_neg same]

theorem mem_of_get? {dict : Dict ν} {name : String} {value : ν}
    (found : dict.get? name = some value) :
    (name, value) ∈ dict.rows := by
  obtain ⟨⟨key, stored⟩, there, rfl⟩ := Option.map_eq_some_iff.mp found
  rw [show key = name from Table.lookup_key there] at there
  exact Table.lookup_mem there

theorem contains_iff_get? (dict : Dict ν) (name : String) :
    dict.contains name = (dict.get? name).isSome := by
  simp [Table.contains, get?]

end Dict

end KeyedTable
