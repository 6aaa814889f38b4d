import Megalos.Accepted
import Megalos.SameData

/-!
What the canonical text identifies: values that are spelled alike.  As YAML data it confuses
a key with the string that spells it, and a pair with a list of two.
-/

namespace Megalos

open JsonText

def Yaml.items? : Yaml → Option (List Yaml)
  | .seq items => some items
  | .pair key value => some [key, value]
  | _ => none

def Yaml.isPair : Yaml → Bool
  | .pair _ _ => true
  | _ => false

section Spelled

variable (floats : FloatRepr)

structure KeysAlike (keys others : List Leaf) : Prop where
  spellings : (keys.map (Leaf.keyText floats)).Perm (others.map (Leaf.keyText floats))
  order : ∀ low ∈ keys, ∀ high ∈ keys, ∀ low' ∈ others, ∀ high' ∈ others,
    low.keyText floats = low'.keyText floats →
    high.keyText floats = high'.keyText floats → keyLess low high = true →
      keyLess high' low' = false

mutual

/-- The same data up to the spelling of keys and the form of pairs. -/
def SpelledAlike : Yaml → Yaml → Prop
  | .leaf value, other => other = .leaf value
  | .seq items, other => ∃ others, other.items? = some others ∧ ItemsAlike items others
  | .pair key value, other => ∃ otherKey otherValue, other.items? = some [otherKey, otherValue] ∧
      SpelledAlike key otherKey ∧ SpelledAlike value otherValue
  | .mapping entries, other => ∃ others, other = .mapping others ∧
      KeysAlike floats (entries.map Prod.fst) (others.map Prod.fst) ∧ EntriesAlike entries others

def ItemsAlike : List Yaml → List Yaml → Prop
  | [], others => others = []
  | item :: rest, others => ∃ other later, others = other :: later ∧ SpelledAlike item other ∧
    ItemsAlike rest later

def EntriesAlike : List (Leaf × Yaml) → List (Leaf × Yaml) → Prop
  | [], _ => True
  | (key, value) :: rest, others =>
      (∀ other ∈ others, key.keyText floats = other.1.keyText floats → SpelledAlike value other.2) ∧
        EntriesAlike rest others

end

mutual

/-- Somewhere a key that is no string stands for the string that spells it, or a pair for a list of
two. -/
def Mixed : Yaml → Yaml → Prop
  | .leaf _, _ => False
  | .seq items, other => other.isPair = true ∨ ∃ others, other.items? = some others ∧
    MixedItems items others
  | .pair key value, other => other.isPair = false ∨ ∃ otherKey otherValue,
      other.items? = some [otherKey, otherValue] ∧ (Mixed key otherKey ∨ Mixed value otherValue)
  | .mapping entries, other => ∃ others, other = .mapping others ∧
      ((∃ entry ∈ entries, ∃ other ∈ others, entry.1.keyText floats = other.1.keyText floats ∧
        entry.1.isStr ≠ other.1.isStr) ∨ MixedEntries entries others)

def MixedItems : List Yaml → List Yaml → Prop
  | [], _ => False
  | item :: rest, others => ∃ other later, others = other :: later ∧
    (Mixed item other ∨ MixedItems rest later)

def MixedEntries : List (Leaf × Yaml) → List (Leaf × Yaml) → Prop
  | [], _ => False
  | (key, value) :: rest, others =>
      (∃ other ∈ others, key.keyText floats = other.1.keyText floats ∧ Mixed value other.2) ∨
        MixedEntries rest others

end

end Spelled

section Identity

variable {floats : FloatRepr} {sorting : Sorting}

theorem number_scalar {key : Leaf} {number : PyFloat} (isNumber : key.number? = some number) :
    ∃ value, key = .scalar value := by
  cases key with
  | scalar value => exact ⟨value, rfl⟩
  | _ => cases isNumber

theorem key_of_spelling {keys : List Leaf} (allowed : writable keys = true) {first second : Leaf}
    (member : first ∈ keys) (member' : second ∈ keys)
    (same : first.keyText floats = second.keyText floats) : first = second := by
  simp only [writable, Bool.or_eq_true, Bool.and_eq_true, List.all_eq_true, beq_iff_eq] at allowed
  rcases allowed with (strings | numbers) | lone
  · have isText := strings first member
    have isText' := strings second member'
    cases first with
    | str left =>
        cases second with
        | str right => exact congrArg Leaf.str same
        | _ => cases isText'
    | _ => cases isText
  · obtain ⟨number, isNumber⟩ := Option.isSome_iff_exists.mp (numbers first member).1
    obtain ⟨other, isOther⟩ := Option.isSome_iff_exists.mp (numbers second member').1
    obtain ⟨left, rfl⟩ := number_scalar isNumber
    obtain ⟨right, rfl⟩ := number_scalar isOther
    rw [Scalar.text_injective floats (congrArg String.toList same)]
  · rw [lone, List.mem_singleton] at member member'
    rw [member, member']

theorem keyEq_self {key : Leaf} (real : key ≠ .scalar .nan) : keyEq key key = true := by
  unfold keyEq
  cases isNumber : key.number? with
  | none => simp
  | some number => simp [number_ne_nan isNumber real]

theorem keyLess_self (key : Leaf) : keyLess key key = false := by
  have irreflexive : ∀ number : PyFloat, Val.lessThan number number = false := by
    intro number
    cases number with
    | infinite negative => cases negative <;> rfl
    | _ => simp [Val.lessThan]
  cases key with
  | str text => simp [keyLess]
  | scalar value =>
      unfold keyLess
      dsimp only
      cases (Leaf.scalar value).number? with
      | none => rfl
      | some number => exact irreflexive number
  | other kind => rfl

/-- What holds of different keys, none of them NaN, holds along a list that can be sorted. -/
theorem pairwise_of_distinct {keys : List Leaf} {holds : Leaf → Leaf → Prop}
    (ordered : Ordered keys)
    (distinct : keys.Pairwise fun first second => keyEq first second = false)
    (each : .scalar .nan ∉ keys → ∀ first ∈ keys, ∀ second ∈ keys, keyEq first second = false →
      holds first second) :
    keys.Pairwise holds := by
  rcases ordered with few | real
  · cases keys with
    | nil => exact .nil
    | cons key rest =>
        cases rest with
        | nil => exact List.pairwise_singleton _ key
        | cons next rest => simp at few
  · exact distinct.imp_of_mem fun {first second} member member' =>
      each real first member second member'

theorem spellings_distinct {keys : List Leaf} (allowed : writable keys = true)
    (ordered : Ordered keys)
    (distinct : keys.Pairwise fun first second => keyEq first second = false) :
    keys.Pairwise fun first second => first.keyText floats ≠ second.keyText floats := by
  refine pairwise_of_distinct ordered distinct fun real first member second member' apart same => ?_
  have equal := key_of_spelling allowed member member' same
  rw [← equal, keyEq_self fun isNan => real (isNan ▸ member)] at apart
  cases apart

section Rows

/-- The conditions under which `json.dumps` sorts the rows of a mapping, and sorts them in one way.
-/
structure Listable (keys : List Leaf) : Prop where
  writable : writable keys = true
  ordered : Ordered keys
  distinct : keys.Pairwise fun first second => keyEq first second = false

variable {rows others : List (Leaf × Json Scalar)}

theorem Listable.compares (listable : Listable (rows.map Prod.fst)) :
    ∀ first ∈ rows, ∀ second ∈ rows, first.1 ≠ second.1 →
      keyLess first.1 second.1 = true ∨ keyLess second.1 first.1 = true := by
  have compared : (rows.map Prod.fst).Pairwise fun first second =>
      keyLess first second = true ∨ keyLess second first = true := by
    refine pairwise_of_distinct listable.ordered listable.distinct fun real first member second member' apart => ?_
    by_contra neither
    simp only [not_or, Bool.not_eq_true] at neither
    rw [keyEq_of_incomparable listable.writable real member member' neither.1 neither.2] at apart
    cases apart
  have symmetric : Std.Symm fun first second : Leaf => keyLess first second = true ∨
    keyLess second first = true :=
    ⟨fun _ _ => Or.symm⟩
  intro first member second member' differs
  exact compared.forall (List.mem_map_of_mem member) (List.mem_map_of_mem member') differs

/-- The later of two spellings is not the lesser key. -/
def NotAfter (floats : FloatRepr) (keys : List Leaf) (first second : String) : Prop :=
  ∀ low ∈ keys, ∀ high ∈ keys, low.keyText floats = first → high.keyText floats = second →
    keyLess high low = false

theorem Listable.spelled (listable : Listable (rows.map Prod.fst)) :
    ((sorting.sort rows).map fun row =>
      row.1.keyText floats).Pairwise (NotAfter floats (rows.map Prod.fst)) := by
  have there : ∀ row ∈ sorting.sort rows, row.1 ∈ rows.map Prod.fst := fun row member =>
    List.mem_map_of_mem ((sorting.perm rows).mem_iff.mp member)
  rw [List.pairwise_map]
  refine (sorting.sorted rows listable.writable listable.ordered).imp_of_mem
    fun {lower upper} member member' notLess low isLow high isHigh sameLow sameHigh => ?_
  rw [key_of_spelling listable.writable isLow (there lower member) sameLow,
    key_of_spelling listable.writable isHigh (there upper member') sameHigh]
  exact notLess

theorem spellings_perm (same : (rows.map fun row =>
    row.1.keyText floats).Perm (others.map fun row => row.1.keyText floats)) :
    ((sorting.sort rows).map fun row => row.1.keyText floats).Perm
      ((sorting.sort others).map fun row => row.1.keyText floats) :=
  ((sorting.perm rows).map _).trans (same.trans ((sorting.perm others).map _).symm)

/-- In a sorted list a lesser item comes first. -/
theorem related_of_less {α : Type} {less : α → α → Bool} {related : α → α → Prop} {items : List α}
    (irrefl : ∀ item, less item item = false)
    (sorted : items.Pairwise fun first second => less second first = false)
    (all : items.Pairwise related) {first second : α} (isFirst : first ∈ items)
    (isSecond : second ∈ items) (isLess : less first second = true) : related first second := by
  induction items with
  | nil => cases isFirst
  | cons head tail ih =>
      rw [List.pairwise_cons] at sorted all
      rcases List.mem_cons.mp isFirst with rfl | later
      · rcases List.mem_cons.mp isSecond with rfl | after
        · rw [irrefl] at isLess
          cases isLess
        · exact all.1 second after
      · rcases List.mem_cons.mp isSecond with rfl | after
        · rw [sorted.1 first later] at isLess
          cases isLess
        · exact ih sorted.2 all.2 later after

theorem KeysAlike.of_spellings (sorting : Sorting) (listable : Listable (rows.map Prod.fst))
    (listable' : Listable (others.map Prod.fst))
    (same : (sorting.sort rows).map (fun row => row.1.keyText floats) =
      (sorting.sort others).map fun row => row.1.keyText floats) :
    KeysAlike floats (rows.map Prod.fst) (others.map Prod.fst) := by
  refine ⟨?_, ?_⟩
  · rw [List.map_map, List.map_map]
    exact ((sorting.perm rows).map _).symm.trans
      ((List.Perm.of_eq same).trans ((sorting.perm others).map _))
  · -- a lesser key comes first, so the key spelled like it does
    intro low isLow high isHigh low' isLow' high' isHigh' sameLow sameHigh less
    have spelled : ((sorting.sort others).map fun row => row.1.keyText floats).Pairwise
        (NotAfter floats (others.map Prod.fst)) := listable'.spelled
    rw [← same, List.pairwise_map] at spelled
    obtain ⟨first, isFirst, rfl⟩ := List.mem_map.mp isLow
    obtain ⟨second, isSecond, rfl⟩ := List.mem_map.mp isHigh
    have follows := related_of_less (fun row => keyLess_self row.1)
      (sorting.sorted rows listable.writable listable.ordered) spelled
      ((sorting.perm rows).mem_iff.mpr isFirst) ((sorting.perm rows).mem_iff.mpr isSecond) less
    exact follows low' isLow' high' isHigh' sameLow.symm sameHigh.symm

theorem KeysAlike.spellings_eq (sorting : Sorting) (listable : Listable (rows.map Prod.fst))
    (listable' : Listable (others.map Prod.fst))
    (alike : KeysAlike floats (rows.map Prod.fst) (others.map Prod.fst)) :
    (sorting.sort rows).map (fun row => row.1.keyText floats) =
      (sorting.sort others).map fun row => row.1.keyText floats := by
  have perm := alike.spellings
  rw [List.map_map, List.map_map] at perm
  have here : ∀ {row}, row ∈ sorting.sort rows → row ∈ rows := (sorting.perm rows).mem_iff.mp
  have there : ∀ {row}, row ∈ sorting.sort others → row ∈ others :=
    (sorting.perm others).mem_iff.mp
  have texts : ((sorting.sort rows).map fun row => row.1.keyText floats).Perm
      ((sorting.sort others).map fun row => row.1.keyText floats) := spellings_perm perm
  refine List.Perm.eq_of_pairwise ?_ listable.spelled ?_ texts
  · intro first second isFirst isSecond notAfter notBefore
    obtain ⟨row, isRow, rfl⟩ := List.mem_map.mp isFirst
    obtain ⟨other, isOther, rfl⟩ := List.mem_map.mp (texts.mem_iff.mpr isSecond)
    by_contra differ
    have member : row.1 ∈ rows.map Prod.fst := List.mem_map_of_mem (here isRow)
    have member' : other.1 ∈ rows.map Prod.fst := List.mem_map_of_mem (here isOther)
    rcases listable.compares row (here isRow) other (here isOther) fun same =>
      differ (by rw [same]) with less | more
    · rw [notBefore _ member' _ member rfl rfl] at less
      cases less
    · rw [notAfter _ member _ member' rfl rfl] at more
      cases more
  · rw [List.pairwise_map]
    refine (sorting.sorted others listable'.writable listable'.ordered).imp_of_mem
      fun {lower upper} member member' notLess low isLow high isHigh sameLow sameHigh => ?_
    by_contra less
    rw [Bool.not_eq_false] at less
    have isLower : lower.1 ∈ others.map Prod.fst := List.mem_map_of_mem (there member)
    have isUpper : upper.1 ∈ others.map Prod.fst := List.mem_map_of_mem (there member')
    have notMore := alike.order high isHigh low isLow upper.1 isUpper lower.1 isLower sameHigh
      sameLow less
    have differ : lower.1 ≠ upper.1 := by
      intro same
      rw [key_of_spelling listable.writable isLow isHigh (by rw [sameLow, sameHigh, same]),
        keyLess_self] at less
      cases less
    rcases listable'.compares lower (there member) upper (there member') differ with before | after
    · rw [notMore] at before
      cases before
    · rw [notLess] at after
      cases after

theorem spellings_eq_iff (sorting : Sorting) (listable : Listable (rows.map Prod.fst))
    (listable' : Listable (others.map Prod.fst)) :
    (sorting.sort rows).map (fun row => row.1.keyText floats) =
        (sorting.sort others).map (fun row => row.1.keyText floats) ↔
      KeysAlike floats (rows.map Prod.fst) (others.map Prod.fst) :=
  ⟨.of_spellings sorting listable listable', fun alike =>
    alike.spellings_eq sorting listable listable'⟩

theorem Listable.row_of_key {β : Type} {rows : List (Leaf × β)}
    (listable : Listable (rows.map Prod.fst)) {row other : Leaf × β} (member : row ∈ rows)
    (member' : other ∈ rows) (same : row.1 = other.1) : row = other := by
  have nodup : (rows.map Prod.fst).Nodup :=
    (spellings_distinct listable.writable listable.ordered listable.distinct).imp fun differ same =>
      differ (congrArg (Leaf.keyText sampleFloats) same)
  exact List.inj_on_of_nodup_map nodup member member' same

/-- Sorted mappings list the same JSON data exactly when their keys are alike, and their values
under each spelling. -/
theorem listings_eq_iff (listable : Listable (rows.map Prod.fst))
    (listable' : Listable (others.map Prod.fst)) :
    (sorting.sort rows).map (fun row => (row.1.keyText floats, row.2)) =
        (sorting.sort others).map (fun row => (row.1.keyText floats, row.2)) ↔
      KeysAlike floats (rows.map Prod.fst) (others.map Prod.fst) ∧
        ∀ row ∈ rows, ∀ other ∈ others, row.1.keyText floats = other.1.keyText floats →
          row.2 = other.2 := by
  constructor
  · intro same
    refine ⟨(spellings_eq_iff sorting listable listable').mp ?_,
      fun row member other member' spelled => ?_⟩
    · have texts := congrArg (List.map Prod.fst) same
      rwa [List.map_map, List.map_map] at texts
    · have listed : (row.1.keyText floats, row.2) ∈ (sorting.sort others).map fun row =>
        (row.1.keyText floats, row.2) := by
        rw [← same]
        exact List.mem_map_of_mem ((sorting.perm rows).mem_iff.mpr member)
      obtain ⟨found, isFound, entry⟩ := List.mem_map.mp listed
      rw [Prod.mk.injEq] at entry
      have isOther := (sorting.perm others).mem_iff.mp isFound
      have key : found.1 = other.1 :=
        key_of_spelling listable'.writable (List.mem_map_of_mem isOther)
        (List.mem_map_of_mem member') (entry.1.trans spelled)
      rw [← entry.2, listable'.row_of_key isOther member' key]
  · rintro ⟨alike, values⟩
    have texts := (spellings_eq_iff sorting listable listable').mpr alike
    have length : (sorting.sort rows).length = (sorting.sort others).length := by
      simpa using congrArg List.length texts
    refine List.ext_getElem (by simpa using length) fun index bound bound' => ?_
    rw [List.length_map] at bound bound'
    have spelled : ((sorting.sort rows)[index]).1.keyText floats =
      ((sorting.sort others)[index]).1.keyText floats := by
      have place := congrArg (fun texts => texts[index]?) texts
      simpa [List.getElem?_map, List.getElem?_eq_getElem bound,
        List.getElem?_eq_getElem bound'] using place
    rw [List.getElem_map, List.getElem_map, spelled,
      values _ ((sorting.perm rows).mem_iff.mp (List.getElem_mem bound)) _
      ((sorting.perm others).mem_iff.mp (List.getElem_mem bound')) spelled]

end Rows

/-! Values that are spelled alike. -/

/-- A parsed value that `json.dumps` takes and sorts in one way: neither a key twice, nor a NaN key
beside others. -/
def Yaml.Clear (value : Yaml) : Prop := value.Everywhere True Listable

mutual

theorem Yaml.clear : (value : Yaml) → value.Parsed → value.Sortable → {data : Json Scalar} →
    value.json floats sorting = some data → value.Clear
  | .leaf _, _, _, _, _ => trivial
  | .seq items, parsed, sortable, _, listed => by
      simp only [Yaml.json, Option.map_eq_some_iff] at listed
      obtain ⟨rows, isRows, -⟩ := listed
      exact clearItems items parsed sortable isRows
  | .pair key value, parsed, sortable, _, listed => by
      simp only [Yaml.json, Option.bind_eq_bind, Option.bind_eq_some_iff] at listed
      obtain ⟨first, isFirst, second, isSecond, -⟩ := listed
      exact ⟨trivial, Yaml.clear key parsed.2.1 sortable.2.1 isFirst,
        Yaml.clear value parsed.2.2 sortable.2.2 isSecond⟩
  | .mapping entries, parsed, sortable, _, listed => by
      obtain ⟨rows, isRows, allowed, -⟩ := Yaml.json_mapping.mp listed
      exact ⟨⟨allowed, sortable.1, parsed.1⟩, clearEntries entries parsed.2 sortable.2 isRows⟩

theorem clearItems :
    (items : List Yaml) → EverywhereItems True (fun keys => keys.Pairwise fun first second =>
      keyEq first second = false) items → EverywhereItems True Ordered items →
        {rows : List (Json Scalar)} →
    jsonItems floats sorting items = some rows → EverywhereItems True Listable items
  | [], _, _, _, _ => trivial
  | item :: rest, parsed, sortable, rows, listed => by
      obtain _ | ⟨isFirst, others⟩ := jsonItems_iff.mp listed
      exact ⟨Yaml.clear item parsed.1 sortable.1 isFirst,
        clearItems rest parsed.2 sortable.2 (jsonItems_iff.mpr others)⟩

theorem clearEntries : (entries : List (Leaf × Yaml)) →
    EverywhereEntries True (fun keys => keys.Pairwise fun first second =>
      keyEq first second = false) entries → EverywhereEntries True Ordered entries →
        {rows : List (Leaf × Json Scalar)} →
    jsonEntries floats sorting entries = some rows → EverywhereEntries True Listable entries
  | [], _, _, _, _ => trivial
  | (key, value) :: rest, parsed, sortable, rows, listed => by
      obtain _ | ⟨isFirst, others⟩ := jsonEntries_iff.mp listed
      exact ⟨Yaml.clear value parsed.1 sortable.1 isFirst.2,
        clearEntries rest parsed.2 sortable.2 (jsonEntries_iff.mpr others)⟩

end

theorem Yaml.json_items {value : Yaml} {items : List Yaml} (isItems : value.items? = some items) :
    value.json floats sorting = (jsonItems floats sorting items).map .array := by
  cases value with
  | seq others =>
      cases isItems
      rfl
  | pair key other =>
      cases isItems
      simp only [Yaml.json, jsonItems, Option.bind_eq_bind]
      cases key.json floats sorting with
      | none => rfl
      | some first => cases other.json floats sorting <;> rfl
  | _ => cases isItems

theorem Leaf.json_some {value : Leaf} {data : Json Scalar} (listed : value.json = some data) :
    (∃ scalar, value = .scalar scalar ∧ data = .scalar scalar) ∨
      ∃ text, value = .str text ∧ data = .str text := by
  cases value with
  | scalar scalar =>
      rw [Leaf.json] at listed
      split at listed
      · exact .inl ⟨scalar, rfl, (Option.some.inj listed).symm⟩
      · cases listed
  | str text => exact .inr ⟨text, rfl, (Option.some.inj listed).symm⟩
  | other kind => cases listed

theorem Leaf.json_injective {first second : Leaf} {data : Json Scalar}
    (listed : first.json = some data) (listed' : second.json = some data) : first = second := by
  rcases Leaf.json_some listed with ⟨scalar, rfl, rfl⟩ | ⟨text, rfl, rfl⟩ <;>
    rcases Leaf.json_some listed' with ⟨other, rfl, same⟩ | ⟨other, rfl, same⟩ <;> cases same
  · rfl
  · rfl

theorem Leaf.json_bare {value : Leaf} {data : Json Scalar} (listed : value.json = some data) :
    (∀ rows, data ≠ .array rows) ∧ ∀ rows, data ≠ .object rows := by
  rcases Leaf.json_some listed with ⟨scalar, -, rfl⟩ | ⟨text, -, rfl⟩
  · exact ⟨by simp, by simp⟩
  · exact ⟨by simp, by simp⟩

theorem Yaml.items_of_json {value : Yaml} {rows : List (Json Scalar)}
    (listed : value.json floats sorting = some (.array rows)) :
    ∃ items, value.items? = some items ∧ jsonItems floats sorting items = some rows := by
  cases isItems : value.items? with
  | some items =>
      rw [Yaml.json_items isItems, Option.map_eq_some_iff] at listed
      obtain ⟨others, isOthers, same⟩ := listed
      cases same
      exact ⟨items, rfl, isOthers⟩
  | none =>
      cases value with
      | leaf value => exact absurd rfl ((Leaf.json_bare listed).1 rows)
      | mapping entries =>
          obtain ⟨_, _, _, same⟩ := Yaml.json_mapping.mp listed
          cases same
      | _ => cases isItems

theorem Yaml.Clear.items {value : Yaml} (clear : value.Clear) {items : List Yaml}
    (isItems : value.items? = some items) :
    EverywhereItems True Listable items := by
  cases value with
  | seq others =>
      cases isItems
      exact clear
  | pair key other =>
      cases isItems
      exact ⟨clear.2.1, clear.2.2, trivial⟩
  | _ => cases isItems

theorem Yaml.leaf_of_json {value : Leaf} {other : Yaml} {data : Json Scalar}
    (listed : (Yaml.leaf value).json floats sorting = some data)
    (listed' : other.json floats sorting = some data) :
    other = .leaf value := by
  have bare : (∀ rows, data ≠ .array rows) ∧ ∀ rows, data ≠ .object rows :=
    Leaf.json_bare listed
  cases other with
  | leaf value' => rw [Leaf.json_injective listed' listed]
  | mapping entries =>
      obtain ⟨rows, -, -, isObject⟩ := Yaml.json_mapping.mp listed'
      exact absurd isObject (bare.2 _)
  | seq items =>
      rw [Yaml.json_items (show (Yaml.seq items).items? = some items from rfl),
        Option.map_eq_some_iff] at listed'
      obtain ⟨rows, -, isArray⟩ := listed'
      exact absurd isArray.symm (bare.1 rows)
  | pair key value =>
      rw [Yaml.json_items (show (Yaml.pair key value).items? = some [key, value] from rfl),
        Option.map_eq_some_iff] at listed'
      obtain ⟨rows, -, isArray⟩ := listed'
      exact absurd isArray.symm (bare.1 rows)

mutual

theorem json_eq_iff :
    (first second : Yaml) → first.Clear → second.Clear → {data data' : Json Scalar} →
    first.json floats sorting = some data → second.json floats sorting = some data' →
    (data = data' ↔ SpelledAlike floats first second)
  | .leaf value, second, _, _, data, data', listed, listed' => by
      rw [SpelledAlike]
      constructor
      · rintro rfl
        exact Yaml.leaf_of_json listed listed'
      · rintro rfl
        exact Option.some.inj (listed.symm.trans listed')
  | .seq items, second, clear, clear', data, data', listed, listed' => by
      rw [Yaml.json_items (show (Yaml.seq items).items? = some items from rfl),
        Option.map_eq_some_iff] at listed
      obtain ⟨rows, isRows, rfl⟩ := listed
      rw [SpelledAlike]
      constructor
      · rintro rfl
        obtain ⟨others, isItems, isOthers⟩ := Yaml.items_of_json listed'
        exact ⟨others, isItems,
          (jsonItems_eq_iff items others clear (clear'.items isItems) isRows isOthers).mp rfl⟩
      · rintro ⟨others, isItems, alike⟩
        rw [Yaml.json_items isItems, Option.map_eq_some_iff] at listed'
        obtain ⟨rows', isRows', rfl⟩ := listed'
        rw [(jsonItems_eq_iff items others clear (clear'.items isItems) isRows isRows').mpr alike]
  | .pair key value, second, clear, clear', data, data', listed, listed' => by
      rw [Yaml.json_items (show (Yaml.pair key value).items? = some [key, value] from rfl),
        Option.map_eq_some_iff] at listed
      obtain ⟨rows, isRows, rfl⟩ := listed
      obtain _ | ⟨isFirst, _ | ⟨isSecond, _ | _⟩⟩ := jsonItems_iff.mp isRows
      rw [SpelledAlike]
      constructor
      · rintro rfl
        obtain ⟨others, isItems, isOthers⟩ := Yaml.items_of_json listed'
        obtain _ | ⟨isFirst', _ | ⟨isSecond', _ | _⟩⟩ := jsonItems_iff.mp isOthers
        have clears := clear'.items isItems
        exact ⟨_, _, isItems, (json_eq_iff key _ clear.2.1 clears.1 isFirst isFirst').mp rfl,
          (json_eq_iff value _ clear.2.2 clears.2.1 isSecond isSecond').mp rfl⟩
      · rintro ⟨otherKey, otherValue, isItems, sameKey, sameValue⟩
        rw [Yaml.json_items isItems, Option.map_eq_some_iff] at listed'
        obtain ⟨rows', isRows', rfl⟩ := listed'
        obtain _ | ⟨isFirst', _ | ⟨isSecond', _ | _⟩⟩ := jsonItems_iff.mp isRows'
        have clears := clear'.items isItems
        rw [(json_eq_iff key _ clear.2.1 clears.1 isFirst isFirst').mpr sameKey,
          (json_eq_iff value _ clear.2.2 clears.2.1 isSecond isSecond').mpr sameValue]
  | .mapping entries, second, clear, clear', data, data', listed, listed' => by
      obtain ⟨rows, isRows, -, rfl⟩ := Yaml.json_mapping.mp listed
      rw [SpelledAlike]
      have keys := jsonEntries_keys isRows
      constructor
      · rintro rfl
        obtain ⟨others, rfl⟩ : ∃ others, second = .mapping others := by
          cases second with
          | mapping others => exact ⟨others, rfl⟩
          | leaf value => exact absurd rfl ((Leaf.json_bare listed').2 _)
          | _ => simp [Yaml.json, Option.bind_eq_some_iff] at listed'
        obtain ⟨rows', isRows', -, same⟩ := Yaml.json_mapping.mp listed'
        have keys' := jsonEntries_keys isRows'
        obtain ⟨alike, values⟩ :=
          (listings_eq_iff (keys ▸ clear.1) (keys' ▸ clear'.1)).mp (Json.object.inj same)
        exact ⟨others, rfl, keys ▸ keys' ▸ alike,
          (jsonEntries_eq_iff entries others clear.2 clear'.2 isRows isRows').mp values⟩
      · rintro ⟨others, rfl, alike, values⟩
        obtain ⟨rows', isRows', -, rfl⟩ := Yaml.json_mapping.mp listed'
        have keys' := jsonEntries_keys isRows'
        rw [← keys, ← keys'] at alike
        exact congrArg Json.object ((listings_eq_iff (keys ▸ clear.1) (keys' ▸ clear'.1)).mpr
          ⟨alike, (jsonEntries_eq_iff entries others clear.2 clear'.2 isRows isRows').mpr values⟩)

theorem jsonItems_eq_iff : (items others : List Yaml) → EverywhereItems True Listable items →
    EverywhereItems True Listable others → {rows rows' : List (Json Scalar)} →
    jsonItems floats sorting items = some rows → jsonItems floats sorting others = some rows' →
    (rows = rows' ↔ ItemsAlike floats items others)
  | [], others, _, _, rows, rows', listed, listed' => by
      rw [jsonItems, Option.some.injEq] at listed
      subst listed
      have pointwise := jsonItems_iff.mp listed'
      rw [ItemsAlike]
      constructor
      · rintro rfl
        exact List.forall₂_nil_right_iff.mp pointwise
      · rintro rfl
        exact (List.forall₂_nil_left_iff.mp pointwise).symm
  | item :: rest, others, clear, clear', rows, rows', listed, listed' => by
      obtain _ | ⟨isFirst, later⟩ := jsonItems_iff.mp listed
      rw [ItemsAlike]
      constructor
      · rintro rfl
        obtain _ | ⟨isFirst', later'⟩ := jsonItems_iff.mp listed'
        exact ⟨_, _, rfl, (json_eq_iff item _ clear.1 clear'.1 isFirst isFirst').mp rfl,
          (jsonItems_eq_iff rest _ clear.2 clear'.2 (jsonItems_iff.mpr later) (jsonItems_iff.mpr later')).mp rfl⟩
      · rintro ⟨other, others, rfl, alike, alikes⟩
        obtain _ | ⟨isFirst', later'⟩ := jsonItems_iff.mp listed'
        rw [(json_eq_iff item _ clear.1 clear'.1 isFirst isFirst').mpr alike,
          (jsonItems_eq_iff rest _ clear.2 clear'.2 (jsonItems_iff.mpr later) (jsonItems_iff.mpr later')).mpr alikes]

theorem jsonEntries_eq_iff :
    (entries others : List (Leaf × Yaml)) → EverywhereEntries True Listable entries →
    EverywhereEntries True Listable others → {rows rows' : List (Leaf × Json Scalar)} →
    jsonEntries floats sorting entries = some rows →
      jsonEntries floats sorting others = some rows' →
    ((∀ row ∈ rows, ∀ other ∈ rows', row.1.keyText floats = other.1.keyText floats →
      row.2 = other.2) ↔
      EntriesAlike floats entries others)
  | [], others, _, _, rows, rows', listed, listed' => by
      rw [jsonEntries, Option.some.injEq] at listed
      subst listed
      simp [EntriesAlike]
  | (key, value) :: rest, others, clear, clear', rows, rows', listed, listed' => by
      obtain _ | ⟨isFirst, later⟩ := jsonEntries_iff.mp listed
      rename_i row rows
      obtain ⟨rowKey, data⟩ := row
      obtain ⟨rfl, isData⟩ := isFirst
      have pointwise := jsonEntries_iff.mp listed'
      rw [List.forall_mem_cons, EntriesAlike,
        jsonEntries_eq_iff rest others clear.2 clear' (jsonEntries_iff.mpr later) listed']
      refine and_congr_left fun _ =>
        ⟨fun same other member spelled => ?_, fun alike row member spelled => ?_⟩
      · obtain ⟨row, isRow, sameKey, isOther⟩ := forall₂_mem_left pointwise member
        have clearOther := everywhereEntries_iff.mp clear' other member
        exact (json_eq_iff value other.2 clear.1 clearOther isData isOther).mp (same row isRow (sameKey ▸ spelled))
      · obtain ⟨other, isOther, sameKey, listedOther⟩ := forall₂_mem_right pointwise member
        have clearOther := everywhereEntries_iff.mp clear' other isOther
        exact (json_eq_iff value other.2 clear.1 clearOther isData listedOther).mpr
          (alike other isOther (sameKey ▸ spelled))

end

/-! Values that are spelled alike without being the same. -/

def SameEntry (entry other : Leaf × Yaml) : Prop := entry.1 = other.1 ∧ SameData entry.2 other.2

inductive SameShape : Yaml → Yaml → Prop
  | leaf (value : Leaf) : SameShape (.leaf value) (.leaf value)
  | seq {items others : List Yaml} (each : List.Forall₂ SameData items others) :
      SameShape (.seq items) (.seq others)
  | pair {key other value otherValue : Yaml} (sameKey : SameData key other)
      (sameValue : SameData value otherValue) : SameShape (.pair key value) (.pair other otherValue)
  | mapping {entries ordered others : List (Leaf × Yaml)} (perm : entries.Perm ordered)
      (each : List.Forall₂ SameEntry ordered others) : SameShape (.mapping entries)
        (.mapping others)

theorem forall₂_trans {α : Type} {related : α → α → Prop} {first second third : List α}
    (trans : ∀ left middle right, related left middle → related middle right → related left right)
    (left : List.Forall₂ related first second) (right : List.Forall₂ related second third) :
    List.Forall₂ related first third := by
  induction left generalizing third with
  | nil => exact right
  | cons holds _ ih =>
      obtain _ | ⟨holds', rest⟩ := right
      exact .cons (trans _ _ _ holds holds') (ih rest)

theorem SameShape.trans {first second third : Yaml} (left : SameShape first second) (right : SameShape second third) :
    SameShape first third := by
  cases left with
  | leaf => exact right
  | seq each =>
      cases right with
      | seq each' => exact .seq (forall₂_trans (fun _ _ _ => SameData.trans) each each')
  | pair sameKey sameValue =>
      cases right with
      | pair sameKey' sameValue' => exact .pair (sameKey.trans sameKey') (sameValue.trans sameValue')
  | @mapping entries ordered others perm each =>
      cases right with
      | @mapping _ ordered' _ perm' each' =>
          obtain ⟨between, perm'',
            each''⟩ : Relation.Comp List.Perm (List.Forall₂ SameEntry) ordered ordered' := by
            rw [← List.forall₂_comp_perm_eq_perm_comp_forall₂]
            exact ⟨others, each, perm'⟩
          exact .mapping (perm.trans perm'') (forall₂_trans
            (fun _ _ _ left right => ⟨left.1.trans right.1, left.2.trans right.2⟩) each'' each')

theorem SameData.shape {first second : Yaml} (same : SameData first second) :
    SameShape first second := by
  have items : ∀ {items : List Yaml}, List.Forall₂ SameData items items :=
    List.forall₂_same.mpr fun item _ => .refl item
  have entries : ∀ {entries : List (Leaf × Yaml)}, List.Forall₂ SameEntry entries entries :=
    List.forall₂_same.mpr fun entry _ => ⟨rfl, .refl entry.2⟩
  induction same with
  | refl value =>
      cases value with
      | leaf value => exact .leaf value
      | seq _ => exact .seq items
      | pair key value => exact .pair (.refl key) (.refl value)
      | mapping _ => exact .mapping (.refl _) entries
  | trans _ _ ih ih' => exact ih.trans ih'
  | order perm => exact .mapping perm entries
  | item same => exact .seq (List.rel_append items (.cons same items))
  | key same => exact .pair same (.refl _)
  | value same => exact .pair (.refl _) same
  | entry same => exact .mapping (.refl _) (List.rel_append entries (.cons ⟨rfl, same⟩ entries))

theorem entry_of_spelling {entries ordered others : List (Leaf × Yaml)}
    (listable : Listable (entries.map Prod.fst)) (perm : entries.Perm ordered)
    (each : List.Forall₂ SameEntry ordered others) :
    ∀ entry ∈ entries, ∀ other ∈ others, entry.1.keyText floats = other.1.keyText floats →
      SameEntry entry other := by
  intro entry member other member' spelled
  obtain ⟨found, isFound, same⟩ := forall₂_mem_right each member'
  have isEntry := perm.mem_iff.mpr isFound
  have key : entry.1 = found.1 := key_of_spelling listable.writable (List.mem_map_of_mem member)
    (List.mem_map_of_mem isEntry) (spelled.trans (congrArg _ same.1.symm))
  rw [listable.row_of_key member isEntry key]
  exact same

mutual

theorem unmixed : (first second : Yaml) → first.Clear → SameData first second →
    ¬Mixed floats first second
  | .leaf _, _, _, _ => by simp [Mixed]
  | .seq items, second, clear, same => by
      cases same.shape with
      | seq each =>
          rintro (isPair | ⟨others, isItems, mixed⟩)
          · cases isPair
          · cases isItems
            exact unmixedItems items _ clear each mixed
  | .pair key value, second, clear, same => by
      cases same.shape with
      | pair sameKey sameValue =>
          rintro (isPair | ⟨otherKey, otherValue, isItems, mixedKey | mixedValue⟩)
          · cases isPair
          · cases isItems
            exact unmixed key _ clear.2.1 sameKey mixedKey
          · cases isItems
            exact unmixed value _ clear.2.2 sameValue mixedValue
  | .mapping entries, second, clear, same => by
      cases same.shape with
      | mapping perm each =>
          have matched := @entry_of_spelling floats _ _ _ clear.1 perm each
          rintro ⟨others, isOthers, ⟨entry, member, other, member', spelled, kinds⟩ | mixed⟩
          · cases isOthers
            exact kinds (congrArg Leaf.isStr (matched entry member other member' spelled).1)
          · cases isOthers
            exact unmixedEntries entries _ clear.2
              (fun entry member other member' spelled =>
                (matched entry member other member' spelled).2) mixed

theorem unmixedItems : (items others : List Yaml) → EverywhereItems True Listable items →
    List.Forall₂ SameData items others → ¬MixedItems floats items others
  | [], _, _, _ => by simp [MixedItems]
  | item :: rest, others, clear, each => by
      obtain _ | ⟨same, later⟩ := each
      rintro ⟨other, later', isOthers, mixed | mixed⟩
      · cases isOthers
        exact unmixed item _ clear.1 same mixed
      · cases isOthers
        exact unmixedItems rest _ clear.2 later mixed

theorem unmixedEntries :
    (entries others : List (Leaf × Yaml)) → EverywhereEntries True Listable entries →
    (∀ entry ∈ entries, ∀ other ∈ others, entry.1.keyText floats = other.1.keyText floats →
      SameData entry.2 other.2) →
    ¬MixedEntries floats entries others
  | [], _, _, _ => by simp [MixedEntries]
  | (key, value) :: rest, others, clear, each => by
      rw [List.forall_mem_cons] at each
      rintro (⟨other, member, spelled, mixed⟩ | mixed)
      · exact unmixed value _ clear.1 (each.1 other member spelled) mixed
      · exact unmixedEntries rest others clear.2 each.2 mixed

end

theorem writable_scalar {keys : List Leaf} (allowed : writable keys = true) {key : Leaf}
    (member : key ∈ keys) (noText : key.isStr = false) : ∃ value, key = .scalar value := by
  simp only [writable, Bool.or_eq_true, Bool.and_eq_true, List.all_eq_true, beq_iff_eq] at allowed
  rcases allowed with (strings | numbers) | lone
  · rw [strings key member] at noText
    cases noText
  · obtain ⟨number, isNumber⟩ := Option.isSome_iff_exists.mp (numbers key member).1
    exact number_scalar isNumber
  · rw [lone, List.mem_singleton] at member
    exact ⟨.null, member⟩

/-- Of two mappings the spelling tells whether keys of one kind are the same. -/
theorem key_of_kind {keys others : List Leaf} (allowed : writable keys = true)
    (allowed' : writable others = true) {key other : Leaf} (member : key ∈ keys)
    (member' : other ∈ others)
    (spelled : key.keyText floats = other.keyText floats) (kind : key.isStr = other.isStr) :
    key = other := by
  cases isText : key.isStr with
  | true =>
      rw [isText] at kind
      cases key with
      | str text =>
          cases other with
          | str _ => exact congrArg Leaf.str spelled
          | _ => cases kind
      | _ => cases isText
  | false =>
      obtain ⟨left, rfl⟩ := writable_scalar allowed member isText
      obtain ⟨right, rfl⟩ := writable_scalar allowed' member' (kind ▸ isText)
      rw [Scalar.text_injective floats (congrArg String.toList spelled)]

mutual

theorem same_of_alike :
    (first second : Yaml) → first.Clear → second.Clear → SpelledAlike floats first second →
    ¬Mixed floats first second → SameData first second
  | .leaf value, second, _, _, alike, _ => by
      rw [SpelledAlike] at alike
      rw [alike]
      exact .refl _
  | .seq items, second, clear, clear', alike, unmixed => by
      obtain ⟨others, isItems, alike⟩ := alike
      rw [Mixed, not_or] at unmixed
      have same := sameItems_of_alike items others clear (clear'.items isItems) alike
        fun mixed => unmixed.2 ⟨others, isItems, mixed⟩
      cases second with
      | seq _ =>
          cases isItems
          exact SameData.items [] same
      | pair => exact absurd rfl unmixed.1
      | _ => cases isItems
  | .pair key value, second, clear, clear', alike, unmixed => by
      obtain ⟨otherKey, otherValue, isItems, alikeKey, alikeValue⟩ := alike
      rw [Mixed, not_or] at unmixed
      have clears := clear'.items isItems
      have sameKey := same_of_alike key otherKey clear.2.1 clears.1 alikeKey
        fun mixed => unmixed.2 ⟨otherKey, otherValue, isItems, .inl mixed⟩
      have sameValue := same_of_alike value otherValue clear.2.2 clears.2.1 alikeValue
        fun mixed => unmixed.2 ⟨otherKey, otherValue, isItems, .inr mixed⟩
      cases second with
      | pair _ _ =>
          cases isItems
          exact (SameData.key sameKey).trans (.value sameValue)
      | seq => exact absurd rfl unmixed.1
      | _ => cases isItems
  | .mapping entries, second, clear, clear', alike, unmixed => by
      obtain ⟨others, rfl, keys, alike⟩ := alike
      have kinds : ∀ entry ∈ entries, ∀ other ∈ others,
        entry.1.keyText floats = other.1.keyText floats →
          entry.1 = other.1 := by
        intro entry member other member' spelled
        refine key_of_kind clear.1.writable clear'.1.writable (List.mem_map_of_mem member)
          (List.mem_map_of_mem member') spelled ?_
        by_contra kinds
        exact unmixed ⟨others, rfl, .inl ⟨entry, member, other, member', spelled, kinds⟩⟩
      have values := sameEntries_of_alike entries others clear.2 clear'.2 alike
        fun mixed => unmixed ⟨others, rfl, .inr mixed⟩
      -- the other mapping, in the order of this one
      have spellings := keys.spellings
      rw [List.map_map, List.map_map] at spellings
      obtain ⟨ordered, spelled, perm⟩ := List.perm_comp_forall₂ spellings
        (show List.Forall₂ (fun (text : String) (other : Leaf × Yaml) =>
          text = other.1.keyText floats)
          (others.map fun other => other.1.keyText floats) others from by
            rw [List.forall₂_map_left_iff, List.forall₂_same]
            exact fun _ _ => rfl)
      rw [List.forall₂_map_left_iff, List.forall₂_iff_zip] at spelled
      have each : List.Forall₂ SameEntry entries ordered := by
        refine List.forall₂_iff_zip.mpr ⟨spelled.1, fun {entry other} both => ?_⟩
        obtain ⟨member, member'⟩ := List.of_mem_zip both
        have same := spelled.2 both
        exact ⟨kinds entry member other (perm.mem_iff.mp member') same,
          values entry member other (perm.mem_iff.mp member') same⟩
      exact (SameData.entries [] each).trans (.order perm)

theorem sameItems_of_alike : (items others : List Yaml) → EverywhereItems True Listable items →
    EverywhereItems True Listable others → ItemsAlike floats items others →
      ¬MixedItems floats items others →
    List.Forall₂ SameData items others
  | [], others, _, _, alike, _ => by
      rw [ItemsAlike] at alike
      rw [alike]
      exact .nil
  | item :: rest, others, clear, clear', alike, unmixed => by
      obtain ⟨other, later, rfl, alike, alikes⟩ := alike
      exact .cons
        (same_of_alike item other clear.1 clear'.1 alike fun mixed =>
          unmixed ⟨other, later, rfl, .inl mixed⟩)
        (sameItems_of_alike rest later clear.2 clear'.2 alikes fun mixed =>
          unmixed ⟨other, later, rfl, .inr mixed⟩)

theorem sameEntries_of_alike :
    (entries others : List (Leaf × Yaml)) → EverywhereEntries True Listable entries →
    EverywhereEntries True Listable others → EntriesAlike floats entries others →
      ¬MixedEntries floats entries others →
    ∀ entry ∈ entries, ∀ other ∈ others, entry.1.keyText floats = other.1.keyText floats →
      SameData entry.2 other.2
  | [], _, _, _, _, _ => by simp
  | (key, value) :: rest, others, clear, clear', alike, unmixed => by
      rw [MixedEntries, not_or] at unmixed
      refine List.forall_mem_cons.mpr ⟨fun other member spelled => ?_, ?_⟩
      · exact same_of_alike value other.2 clear.1 (everywhereEntries_iff.mp clear' other member)
          (alike.1 other member spelled) fun mixed => unmixed.1 ⟨other, member, spelled, mixed⟩
      · exact sameEntries_of_alike rest others clear.2 clear' alike.2 unmixed.2

end

mutual

theorem Yaml.Plain.sortable : (value : Yaml) → value.Plain → value.Sortable
  | .leaf _, _ => trivial
  | .seq items, plain => sortableItems items plain
  | .pair _ _, plain => plain.1.elim
  | .mapping entries, plain => by
      refine ⟨.inr ?_, sortableEntries entries plain.2⟩
      intro member
      have isText := List.all_eq_true.mp plain.1 _ member
      simp [Leaf.isStr] at isText

theorem sortableItems :
    (items : List Yaml) → EverywhereItems False (fun keys => keys.all Leaf.isStr = true) items →
    EverywhereItems True Ordered items
  | [], _ => trivial
  | item :: items, plain => ⟨Yaml.Plain.sortable item plain.1, sortableItems items plain.2⟩

theorem sortableEntries : (entries : List (Leaf × Yaml)) →
    EverywhereEntries False (fun keys => keys.all Leaf.isStr = true) entries →
      EverywhereEntries True Ordered entries
  | [], _ => trivial
  | (_, value) :: entries, plain =>
    ⟨Yaml.Plain.sortable value plain.1, sortableEntries entries plain.2⟩

end

mutual

theorem Yaml.Plain.unmixed :
    (first second : Yaml) → first.Plain → second.Plain → ¬Mixed floats first second
  | .leaf _, _, _, _ => by simp [Mixed]
  | .seq items, second, plain, plain' => by
      rintro (isPair | ⟨others, isItems, mixed⟩)
      · cases second with
        | pair key value => exact plain'.1
        | _ => cases isPair
      · cases second with
        | seq _ =>
            cases isItems
            exact plainItems_unmixed items _ plain plain' mixed
        | pair key value => exact plain'.1
        | _ => cases isItems
  | .pair _ _, _, plain, _ => plain.1.elim
  | .mapping entries, second, plain, plain' => by
      rintro ⟨others, rfl, ⟨entry, member, other, member', -, kinds⟩ | mixed⟩
      · have isText := List.all_eq_true.mp plain.1 entry.1 (List.mem_map_of_mem member)
        have isText' := List.all_eq_true.mp plain'.1 other.1 (List.mem_map_of_mem member')
        exact kinds (isText.trans isText'.symm)
      · exact plainEntries_unmixed entries others plain.2 plain'.2 mixed

theorem plainItems_unmixed : (items others : List Yaml) →
    EverywhereItems False (fun keys => keys.all Leaf.isStr = true) items →
    EverywhereItems False (fun keys => keys.all Leaf.isStr = true) others →
      ¬MixedItems floats items others
  | [], _, _, _ => by simp [MixedItems]
  | item :: rest, others, plain, plain' => by
      rintro ⟨other, later, rfl, mixed | mixed⟩
      · exact Yaml.Plain.unmixed item other plain.1 plain'.1 mixed
      · exact plainItems_unmixed rest later plain.2 plain'.2 mixed

theorem plainEntries_unmixed : (entries others : List (Leaf × Yaml)) →
    EverywhereEntries False (fun keys => keys.all Leaf.isStr = true) entries →
    EverywhereEntries False (fun keys => keys.all Leaf.isStr = true) others →
      ¬MixedEntries floats entries others
  | [], _, _, _ => by simp [MixedEntries]
  | (_, value) :: rest, others, plain, plain' => by
      rintro (⟨other, member, -, mixed⟩ | mixed)
      · exact Yaml.Plain.unmixed value other.2 plain.1 (everywhereEntries_iff.mp plain' other member) mixed
      · exact plainEntries_unmixed rest others plain.2 plain' mixed

end

theorem canonicalText_alike {first second : Yaml} (parsed : first.Parsed) (parsed' : second.Parsed)
    (sortable : first.Sortable) (sortable' : second.Sortable)
    (succeeds : (canonicalText floats sorting first).isSome)
    (succeeds' : (canonicalText floats sorting second).isSome) :
    (canonicalText floats sorting first = canonicalText floats sorting second ↔
      SpelledAlike floats first second) ∧
      (SameData first second ↔ SpelledAlike floats first second ∧ ¬Mixed floats first second) := by
  obtain ⟨data, listed⟩ := Option.isSome_iff_exists.mp (by simpa [canonicalText] using succeeds)
  obtain ⟨data', listed'⟩ := Option.isSome_iff_exists.mp (by simpa [canonicalText] using succeeds')
  have clear := Yaml.clear first parsed sortable listed
  have clear' := Yaml.clear second parsed' sortable' listed'
  have alike : canonicalText floats sorting first = canonicalText floats sorting second ↔
    SpelledAlike floats first second := by
    rw [canonicalText_eq_iff, listed, listed', Option.some.injEq]
    exact json_eq_iff first second clear clear' listed listed'
  refine ⟨alike, fun same => ⟨alike.mp ?_, unmixed first second clear same⟩, fun both => ?_⟩
  · rw [canonicalText_eq_iff]
    exact same.json_eq parsed sortable
  · exact same_of_alike first second clear clear' both.1 both.2

/-- On values with string keys and without pairs, the text identifies the data. -/
theorem canonicalText_plain {first second : Yaml} (parsed : first.Parsed) (parsed' : second.Parsed)
    (plain : first.Plain) (plain' : second.Plain)
    (succeeds : (canonicalText floats sorting first).isSome)
    (succeeds' : (canonicalText floats sorting second).isSome) :
    canonicalText floats sorting first = canonicalText floats sorting second ↔
      SameData first second := by
  have sortable := Yaml.Plain.sortable first plain
  have sortable' := Yaml.Plain.sortable second plain'
  obtain ⟨alike, same⟩ := canonicalText_alike parsed parsed' sortable sortable' succeeds succeeds'
  rw [alike, same]
  exact (and_iff_left (Yaml.Plain.unmixed first second plain plain')).symm

end Identity

/-- Spelled alike, and somewhere mixed: a key that is no string against the string that spells it,
or a pair against a list of two. -/
def Confused (floats : FloatRepr) (first second : Yaml) : Prop :=
    SpelledAlike floats first second ∧ Mixed floats first second

/-- Where no NaN key stands beside others, the canonical text identifies two values exactly when
they are not confused. -/
theorem canonicalText_identifies (floats : FloatRepr) (sorting : Sorting) {first second : Yaml}
    (parsed : first.Parsed) (parsed' : second.Parsed) (sortable : first.Sortable)
    (sortable' : second.Sortable)
    (succeeds : (canonicalText floats sorting first).isSome)
    (succeeds' : (canonicalText floats sorting second).isSome) :
    (canonicalText floats sorting first = canonicalText floats sorting second ↔
      SameData first second) ↔
      ¬Confused floats first second := by
  obtain ⟨alike, same⟩ := canonicalText_alike parsed parsed' sortable sortable' succeeds succeeds'
  rw [alike, same, Confused]
  by_cases isAlike : SpelledAlike floats first second
  · simp [isAlike]
  · simp [isAlike]

/-! The documents of the server, as YAML data. -/

def Val.leaf : Val → Leaf
  | .none => .scalar .null
  | .bool value => .scalar (.bool value)
  | .int value => .scalar (.int value)
  | .float (.finite value) => .scalar (.finite (.number value))
  | .float (.infinite negative) => .scalar (.infinite negative)
  | .float .nan => .scalar .nan
  | .str text => .str text
  | other => .other other.typeName

mutual

def Val.yaml : Val → Yaml
  | .list items => .seq (yamlItems items)
  | .dict entries => .mapping (yamlEntries entries)
  | other => .leaf other.leaf

def yamlItems : List Val → List Yaml
  | [] => []
  | item :: rest => item.yaml :: yamlItems rest

def yamlEntries : List (Val × Val) → List (Leaf × Yaml)
  | [] => []
  | (key, value) :: rest => (key.leaf, value.yaml) :: yamlEntries rest

end

/-- With a digest without collisions, fingerprints identify documents as their texts do. -/
theorem workflowFingerprint_eq_iff {env : Env} {floats : FloatRepr} {sorting : Sorting}
    {first second : Val} (digest : Function.Injective env.sha256)
    (dumps : ∀ doc ∈ [first, second],
      canonicalText floats sorting doc.yaml = some (env.canonicalDumps doc)) :
    workflowFingerprint env first = workflowFingerprint env second ↔
      first.yaml.json floats sorting = second.yaml.json floats sorting := by
  rw [← canonicalText_eq_iff, dumps first (by simp), dumps second (by simp), Option.some.injEq]
  exact digest.eq_iff

/-- The documents `1: a` and `'1': a`. -/
def intKeyed : Yaml := .mapping [(.scalar (.int 1), .leaf (.str "a"))]

def strKeyed : Yaml := .mapping [(.str "1", .leaf (.str "a"))]

theorem intKeyed_confused : intKeyed.Parsed ∧ strKeyed.Parsed ∧
    (canonicalText sampleFloats sampleSorting intKeyed).isSome ∧
    canonicalText sampleFloats sampleSorting intKeyed =
      canonicalText sampleFloats sampleSorting strKeyed ∧
    ¬SameData intKeyed strKeyed := by
  have setwise : ∀ {keys others : List Leaf}, keys.Perm others → .scalar (.int 1) ∈ keys →
      .scalar (.int 1) ∈ others := fun perm member => perm.mem_iff.mp member
  refine ⟨⟨by simp, trivial, trivial⟩, ⟨by simp, trivial, trivial⟩, by decide +kernel,
    by decide +kernel, ?_⟩
  intro same
  have kept : strKeyed.Everywhere True fun keys => .scalar (.int 1) ∈ keys :=
    same.everywhere setwise ⟨by simp, trivial, trivial⟩
  simp [strKeyed, Yaml.Everywhere] at kept

def stepYaml : Yaml := .mapping [(.str "id", .leaf (.str "a")), (.str "gates", .seq [])]

def stepYamlReordered : Yaml := .mapping [(.str "gates", .seq []), (.str "id", .leaf (.str "a"))]

theorem stepYaml_identified : canonicalText sampleFloats sampleSorting stepYaml =
    canonicalText sampleFloats sampleSorting stepYamlReordered ↔
      SameData stepYaml stepYamlReordered := by
  have parsed : stepYaml.Parsed := ⟨by decide, trivial, trivial, trivial⟩
  have parsed' : stepYamlReordered.Parsed := ⟨by decide, trivial, trivial, trivial⟩
  have sortable : stepYaml.Sortable := ⟨.inr (by simp), trivial, trivial, trivial⟩
  have sortable' : stepYamlReordered.Sortable := ⟨.inr (by simp), trivial, trivial, trivial⟩
  refine (canonicalText_identifies sampleFloats sampleSorting parsed parsed' sortable sortable' (by rfl) (by rfl)).mpr ?_
  rintro ⟨-, mixed⟩
  exact Yaml.Plain.unmixed stepYaml stepYamlReordered ⟨rfl, trivial, trivial, trivial⟩
    ⟨rfl, trivial, trivial, trivial⟩ mixed

end Megalos
