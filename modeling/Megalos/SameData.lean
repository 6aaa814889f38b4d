import Mathlib.Data.List.Forall2
import Mathlib.Data.List.Pairwise
import Mathlib.Data.List.Perm.Basic
import Megalos.CanonicalJson

/-!
YAML values as data: the entries of a mapping have no order, and reordering them does not change
the JSON data, unless a NaN key stands beside others.
-/

namespace Megalos

open JsonText

inductive SameData : Yaml → Yaml → Prop
  | refl (value : Yaml) : SameData value value
  | trans {first second third : Yaml} (left : SameData first second)
      (right : SameData second third) : SameData first third
  | order {entries others : List (Leaf × Yaml)} (perm : entries.Perm others) :
      SameData (.mapping entries) (.mapping others)
  | item {before after : List Yaml} {item other : Yaml} (same : SameData item other) :
      SameData (.seq (before ++ item :: after)) (.seq (before ++ other :: after))
  | key {key other value : Yaml} (same : SameData key other) : SameData (.pair key value)
      (.pair other value)
  | value {key value other : Yaml} (same : SameData value other) : SameData (.pair key value)
      (.pair key other)
  | entry {before after : List (Leaf × Yaml)} {key : Leaf} {value other : Yaml}
      (same : SameData value other) :
      SameData (.mapping (before ++ (key, value) :: after))
        (.mapping (before ++ (key, other) :: after))

mutual

def Yaml.Everywhere (pairsOk : Prop) (keysOk : List Leaf → Prop) : Yaml → Prop
  | .leaf _ => True
  | .seq items => EverywhereItems pairsOk keysOk items
  | .pair key value => pairsOk ∧ key.Everywhere pairsOk keysOk ∧ value.Everywhere pairsOk keysOk
  | .mapping entries => keysOk (entries.map Prod.fst) ∧ EverywhereEntries pairsOk keysOk entries

def EverywhereItems (pairsOk : Prop) (keysOk : List Leaf → Prop) : List Yaml → Prop
  | [] => True
  | item :: rest => item.Everywhere pairsOk keysOk ∧ EverywhereItems pairsOk keysOk rest

def EverywhereEntries (pairsOk : Prop) (keysOk : List Leaf → Prop) : List (Leaf × Yaml) → Prop
  | [] => True
  | (_, value) :: rest => value.Everywhere pairsOk keysOk ∧ EverywhereEntries pairsOk keysOk rest

end

def Yaml.Parsed (value : Yaml) : Prop :=
  value.Everywhere True fun keys => keys.Pairwise fun first second => keyEq first second = false

def Yaml.Sortable (value : Yaml) : Prop := value.Everywhere True Ordered

/-- What a workflow document is made of: every key is a string, and there are no pairs. -/
def Yaml.Plain (value : Yaml) : Prop :=
    value.Everywhere False fun keys => keys.all Leaf.isStr = true

/-! Reordering a mapping does not change its JSON data. -/

section Reorder

variable {floats : FloatRepr} {sorting : Sorting}

theorem jsonItems_iff {items : List Yaml} {rows : List (Json Scalar)} :
    jsonItems floats sorting items = some rows ↔
      List.Forall₂ (fun item row => item.json floats sorting = some row) items rows := by
  induction items generalizing rows with
  | nil =>
      rw [jsonItems, List.forall₂_nil_left_iff, Option.some.injEq]
      exact eq_comm
  | cons item rest ih =>
      simp only [jsonItems, Option.bind_eq_bind, Option.bind_eq_some_iff, ih, Option.pure_def,
        Option.some.injEq]
      constructor
      · rintro ⟨first, isFirst, others, pointwise, rfl⟩
        exact .cons isFirst pointwise
      · rintro (_ | ⟨isFirst, pointwise⟩)
        exact ⟨_, isFirst, _, pointwise, rfl⟩

theorem jsonEntries_iff {entries : List (Leaf × Yaml)} {rows : List (Leaf × Json Scalar)} :
    jsonEntries floats sorting entries = some rows ↔
      List.Forall₂ (fun entry row => row.1 = entry.1 ∧
        entry.2.json floats sorting = some row.2) entries rows := by
  induction entries generalizing rows with
  | nil =>
      rw [jsonEntries, List.forall₂_nil_left_iff, Option.some.injEq]
      exact eq_comm
  | cons entry rest ih =>
      obtain ⟨key, value⟩ := entry
      simp only [jsonEntries, Option.bind_eq_bind, Option.bind_eq_some_iff, ih, Option.pure_def,
        Option.some.injEq]
      constructor
      · rintro ⟨first, isFirst, others, pointwise, rfl⟩
        exact .cons ⟨rfl, isFirst⟩ pointwise
      · rintro (_ | ⟨⟨sameKey, isFirst⟩, pointwise⟩)
        rename_i row rows
        dsimp only at sameKey
        subst sameKey
        exact ⟨_, isFirst, _, pointwise, rfl⟩

theorem jsonEntries_keys {entries : List (Leaf × Yaml)} {rows : List (Leaf × Json Scalar)}
    (listed : jsonEntries floats sorting entries = some rows) :
    rows.map Prod.fst = entries.map Prod.fst := by
  have pointwise := jsonEntries_iff.mp listed
  clear listed
  induction pointwise with
  | nil => rfl
  | cons same _ ih => rw [List.map_cons, List.map_cons, same.1, ih]

theorem everywhereItems_iff {pairsOk : Prop} {keysOk : List Leaf → Prop} {items : List Yaml} :
    EverywhereItems pairsOk keysOk items ↔ ∀ item ∈ items, item.Everywhere pairsOk keysOk := by
  induction items with
  | nil => simp [EverywhereItems]
  | cons item rest ih => simp [EverywhereItems, ih]

theorem everywhereEntries_iff {pairsOk : Prop} {keysOk : List Leaf → Prop}
    {entries : List (Leaf × Yaml)} :
    EverywhereEntries pairsOk keysOk entries ↔ ∀ entry ∈ entries,
      entry.2.Everywhere pairsOk keysOk := by
  induction entries with
  | nil => simp [EverywhereEntries]
  | cons entry rest ih =>
      obtain ⟨key, value⟩ := entry
      simp [EverywhereEntries, ih]

theorem SameData.everywhere {pairsOk : Prop} {keysOk : List Leaf → Prop} {first second : Yaml}
    (same : SameData first second)
    (setwise : ∀ {keys others : List Leaf}, keys.Perm others → keysOk keys → keysOk others)
    (meets : first.Everywhere pairsOk keysOk) : second.Everywhere pairsOk keysOk := by
  induction same with
  | refl => exact meets
  | trans _ _ ih ih' => exact ih' (ih meets)
  | order perm =>
      simp only [Yaml.Everywhere, everywhereEntries_iff] at meets ⊢
      exact ⟨setwise (perm.map Prod.fst) meets.1, fun entry member =>
        meets.2 entry (perm.mem_iff.mpr member)⟩
  | item _ ih =>
      simp only [Yaml.Everywhere, everywhereItems_iff, List.forall_mem_append,
        List.forall_mem_cons] at meets ⊢
      exact ⟨meets.1, ih meets.2.1, meets.2.2⟩
  | key _ ih => exact ⟨meets.1, ih meets.2.1, meets.2.2⟩
  | value _ ih => exact ⟨meets.1, meets.2.1, ih meets.2.2⟩
  | entry _ ih =>
      simp only [Yaml.Everywhere, everywhereEntries_iff, List.forall_mem_append,
        List.forall_mem_cons, List.map_append, List.map_cons] at meets ⊢
      exact ⟨meets.1, meets.2.1, ih meets.2.2.1, meets.2.2.2⟩

theorem keyEq_comm (first second : Leaf) : keyEq first second = keyEq second first := by
  unfold keyEq
  cases left : first.number? with
  | none =>
      cases right : second.number? with
      | none => exact BEq.comm
      | some number => exact BEq.comm
  | some number =>
      cases right : second.number? with
      | none => exact BEq.comm
      | some other =>
          dsimp only
          by_cases same : number = other
          · rw [same]
          · rw [beq_eq_false_iff_ne.mpr same, beq_eq_false_iff_ne.mpr (Ne.symm same)]
            rfl

theorem lessThan_antisymm {first second : PyFloat} (isNumber : first ≠ .nan)
    (isNumber' : second ≠ .nan) (notLess : Val.lessThan first second = false)
    (notMore : Val.lessThan second first = false) : first = second := by
  cases first with
  | nan => exact absurd rfl isNumber
  | finite left =>
      cases second with
      | nan => exact absurd rfl isNumber'
      | finite right =>
          simp only [Val.lessThan, decide_eq_false_iff_not] at notLess notMore
          rw [le_antisymm (not_lt.mp notMore) (not_lt.mp notLess)]
      | infinite negative => cases negative <;> simp [Val.lessThan] at notLess notMore
  | infinite negative =>
      cases second with
      | nan => exact absurd rfl isNumber'
      | finite right => cases negative <;> simp [Val.lessThan] at notLess notMore
      | infinite negative' =>
        cases negative <;> cases negative' <;> simp [Val.lessThan] at notLess notMore ⊢

theorem number_ne_nan {key : Leaf} {number : PyFloat} (isNumber : key.number? = some number)
    (real : key ≠ .scalar .nan) : number ≠ .nan := by
  rintro rfl
  cases key with
  | scalar value =>
      cases value with
      | finite value => cases value <;> simp [Leaf.number?] at isNumber
      | nan => exact real rfl
      | _ => simp [Leaf.number?] at isNumber
  | _ => simp [Leaf.number?] at isNumber

theorem keyEq_of_incomparable {keys : List Leaf} (allowed : writable keys = true)
    (real : .scalar .nan ∉ keys) {first second : Leaf} (member : first ∈ keys)
    (member' : second ∈ keys) (notLess : keyLess first second = false)
    (notMore : keyLess second first = false) : keyEq first second = true := by
  simp only [writable, Bool.or_eq_true, Bool.and_eq_true, List.all_eq_true, beq_iff_eq] at allowed
  rcases allowed with (strings | numbers) | lone
  · have isText := strings first member
    have isText' := strings second member'
    cases first with
    | str left =>
        cases second with
        | str right =>
            simp only [keyLess, decide_eq_false_iff_not] at notLess notMore
            simp [keyEq, Leaf.number?, le_antisymm (not_lt.mp notMore) (not_lt.mp notLess)]
        | _ => simp [Leaf.isStr] at isText'
    | _ => simp [Leaf.isStr] at isText
  · obtain ⟨number, isNumber⟩ := Option.isSome_iff_exists.mp (numbers first member).1
    obtain ⟨other, isOther⟩ := Option.isSome_iff_exists.mp (numbers second member').1
    have less : ∀ {left right : Leaf} {lower upper : PyFloat}, left.number? = some lower →
        right.number? = some upper → keyLess left right = Val.lessThan lower upper := by
      intro left right lower upper isLower isUpper
      unfold keyLess
      split
      · simp [Leaf.number?] at isLower
      · simp [isLower, isUpper]
    rw [less isNumber isOther] at notLess
    rw [less isOther isNumber] at notMore
    have numberReal := number_ne_nan isNumber fun isNan => real (isNan ▸ member)
    have otherReal := number_ne_nan isOther fun isNan => real (isNan ▸ member')
    have same := lessThan_antisymm numberReal otherReal notLess notMore
    simp [keyEq, isNumber, isOther, same, otherReal]
  · rw [lone, List.mem_singleton] at member member'
    rw [member, member']
    decide

theorem writable_perm {keys others : List Leaf} (perm : keys.Perm others)
    (allowed : writable keys = true) :
    writable others = true := by
  simp only [writable, Bool.or_eq_true, List.all_eq_true, beq_iff_eq] at allowed ⊢
  rcases allowed with (strings | numbers) | lone
  · exact .inl (.inl fun key member => strings key (perm.mem_iff.mpr member))
  · exact .inl (.inr fun key member => numbers key (perm.mem_iff.mpr member))
  · rw [lone] at perm
    exact .inr (List.singleton_perm.mp perm).symm

theorem ordered_perm {keys others : List Leaf} (perm : keys.Perm others) (ordered : Ordered keys) :
    Ordered others := by
  rcases ordered with few | real
  · left
    rw [← perm.length_eq]
    exact few
  · right
    intro member
    exact real (perm.mem_iff.mpr member)

theorem sort_perm {rows others : List (Leaf × Json Scalar)} (perm : rows.Perm others)
    (allowed : writable (rows.map Prod.fst) = true) (ordered : Ordered (rows.map Prod.fst))
    (distinct : (rows.map Prod.fst).Pairwise fun first second => keyEq first second = false) :
    sorting.sort rows = sorting.sort others := by
  have keys : (rows.map Prod.fst).Perm (others.map Prod.fst) := perm.map Prod.fst
  rcases Nat.lt_or_ge 1 rows.length with several | few
  · have real : .scalar .nan ∉ rows.map Prod.fst := by
      rcases ordered with few | real
      · rw [List.length_map] at few
        omega
      · exact real
    refine List.Perm.eq_of_pairwise ?_ (sorting.sorted rows allowed ordered)
      (sorting.sorted others (writable_perm keys allowed) (ordered_perm keys ordered))
      ((sorting.perm rows).trans (perm.trans (sorting.perm others).symm))
    intro first second isRow isRow' notLess notMore
    have member : first ∈ rows := (sorting.perm rows).mem_iff.mp isRow
    have member' : second ∈ rows := perm.mem_iff.mpr ((sorting.perm others).mem_iff.mp isRow')
    have equal := keyEq_of_incomparable allowed real (List.mem_map_of_mem member)
      (List.mem_map_of_mem member')
      notMore notLess
    by_contra differs
    have symmetric : Std.Symm fun row other : Leaf × Json Scalar => keyEq row.1 other.1 = false :=
      ⟨fun row other apart => (keyEq_comm other.1 row.1).trans apart⟩
    have apart := (List.pairwise_map.mp distinct).forall member member' differs
    rw [equal] at apart
    exact Bool.noConfusion apart
  · cases rows with
    | nil => rw [perm.nil_eq]
    | cons row rest =>
        have alone : rest = [] := by
          cases rest with
          | nil => rfl
          | cons next rest => simp at few
        subst alone
        rw [List.singleton_perm.mp perm]

theorem Yaml.json_mapping {entries : List (Leaf × Yaml)} {data : Json Scalar} :
    (Yaml.mapping entries).json floats sorting = some data ↔
      ∃ rows, jsonEntries floats sorting entries = some rows ∧
        writable (entries.map Prod.fst) = true ∧
        data = .object ((sorting.sort rows).map fun row => (row.1.keyText floats, row.2)) := by
  simp only [Yaml.json, Option.bind_eq_bind, Option.bind_eq_some_iff]
  refine exists_congr fun rows => and_congr_right fun listed => ?_
  rw [jsonEntries_keys listed]
  by_cases allowed : writable (entries.map Prod.fst)
  · simp [allowed, eq_comm]
  · simp [allowed]

theorem json_order {entries others : List (Leaf × Yaml)} (perm : entries.Perm others)
    (distinct : (entries.map Prod.fst).Pairwise fun key other => keyEq key other = false)
    (ordered : Ordered (entries.map Prod.fst)) {data : Json Scalar}
    (listed : (Yaml.mapping entries).json floats sorting = some data) :
    (Yaml.mapping others).json floats sorting = some data := by
  obtain ⟨rows, isRows, allowed, rfl⟩ := Yaml.json_mapping.mp listed
  obtain ⟨otherRows, pointwise, permRows⟩ :=
    List.perm_comp_forall₂ perm.symm (jsonEntries_iff.mp isRows)
  refine Yaml.json_mapping.mpr ⟨otherRows, jsonEntries_iff.mpr pointwise,
    writable_perm (perm.map Prod.fst) allowed, ?_⟩
  rw [← jsonEntries_keys isRows] at distinct ordered allowed
  rw [sort_perm permRows.symm allowed ordered distinct]

theorem distinct_perm {keys others : List Leaf} (perm : keys.Perm others)
    (distinct : keys.Pairwise fun key other => keyEq key other = false) :
    others.Pairwise fun key other => keyEq key other = false :=
  (perm.pairwise_iff fun apart => (keyEq_comm _ _).trans apart).mp distinct

theorem jsonItems_congr {before after : List Yaml} {item other : Yaml}
    (same : item.json floats sorting = other.json floats sorting) :
    jsonItems floats sorting (before ++ item :: after) =
      jsonItems floats sorting (before ++ other :: after) := by
  induction before with
  | nil => simp only [List.nil_append, jsonItems, same]
  | cons first before ih => simp only [List.cons_append, jsonItems, ih]

theorem jsonEntries_congr {before after : List (Leaf × Yaml)} {key : Leaf} {value other : Yaml}
    (same : value.json floats sorting = other.json floats sorting) :
    jsonEntries floats sorting (before ++ (key, value) :: after) =
      jsonEntries floats sorting (before ++ (key, other) :: after) := by
  induction before with
  | nil => simp only [List.nil_append, jsonEntries, same]
  | cons first before ih => simp only [List.cons_append, jsonEntries, ih]

/-- The same data has the same JSON data, unless a NaN key stands beside others. -/
theorem SameData.json_eq {first second : Yaml} (same : SameData first second)
    (parsed : first.Parsed) (ordered : first.Sortable) :
    first.json floats sorting = second.json floats sorting := by
  induction same with
  | refl => rfl
  | trans left right ih ih' =>
      rw [ih parsed ordered,
        ih' (left.everywhere distinct_perm parsed) (left.everywhere ordered_perm ordered)]
  | order perm =>
      ext data
      constructor
      · exact json_order perm parsed.1 ordered.1
      · exact json_order perm.symm (distinct_perm (perm.map Prod.fst) parsed.1)
          (ordered_perm (perm.map Prod.fst) ordered.1)
  | item same ih =>
      simp only [Yaml.Parsed, Yaml.Sortable, Yaml.Everywhere, everywhereItems_iff,
        List.forall_mem_append, List.forall_mem_cons]
        at parsed ordered
      rw [Yaml.json, Yaml.json, jsonItems_congr (ih parsed.2.1 ordered.2.1)]
  | key _ ih => rw [Yaml.json, Yaml.json, ih parsed.2.1 ordered.2.1]
  | value _ ih => rw [Yaml.json, Yaml.json, ih parsed.2.2 ordered.2.2]
  | entry _ ih =>
      simp only [Yaml.Parsed, Yaml.Sortable, Yaml.Everywhere, everywhereEntries_iff,
        List.forall_mem_append, List.forall_mem_cons]
        at parsed ordered
      rw [Yaml.json, Yaml.json, jsonEntries_congr (ih parsed.2.2.1 ordered.2.2.1)]

theorem SameData.items (before : List Yaml) {items others : List Yaml}
    (same : List.Forall₂ SameData items others) :
    SameData (.seq (before ++ items)) (.seq (before ++ others)) := by
  induction same generalizing before with
  | nil => exact .refl _
  | @cons item other items others first _ ih =>
      have rest := ih (before ++ [other])
      rw [List.append_assoc, List.append_assoc] at rest
      exact .trans (.item first) rest

theorem SameData.entries (before : List (Leaf × Yaml)) {entries others : List (Leaf × Yaml)}
    (same : List.Forall₂ (fun entry other => entry.1 = other.1 ∧
      SameData entry.2 other.2) entries others) :
    SameData (.mapping (before ++ entries)) (.mapping (before ++ others)) := by
  induction same generalizing before with
  | nil => exact .refl _
  | @cons entry other entries others first _ ih =>
      obtain ⟨key, value⟩ := entry
      obtain ⟨otherKey, otherValue⟩ := other
      obtain ⟨rfl, same⟩ := first
      have rest := ih (before ++ [(key, otherValue)])
      rw [List.append_assoc, List.append_assoc] at rest
      exact .trans (.entry same) rest

theorem canonicalText_eq_iff {first second : Yaml} :
    canonicalText floats sorting first = canonicalText floats sorting second ↔
      first.json floats sorting = second.json floats sorting := by
  refine (Option.map_injective ?_).eq_iff
  intro left right same
  exact render_injective (String.ofList_injective same)

end Reorder

end Megalos
