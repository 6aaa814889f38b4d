import Mathlib.Algebra.Order.Ring.Rat
import Mathlib.Data.List.Sort
import Mathlib.Data.Prod.Lex
import Mathlib.Data.String.Basic
import Mathlib.Order.WithBot
import Megalos.Library.JsonText
import Megalos.Value

/-!
`json.dumps` on what `yaml.safe_load` returns, with sorted keys and without blanks: the
text that `workflow_fingerprint` hashes.
-/

namespace Megalos

open JsonText

/-- A finite `float`; the zeros differ in their text. -/
inductive FiniteFloat where
  | number (value : Rat)
  | negativeZero
  deriving DecidableEq

inductive Scalar where
  | null
  | bool (value : Bool)
  | int (value : Int)
  | finite (value : FiniteFloat)
  | infinite (negative : Bool)
  | nan
  deriving DecidableEq

/-- What YAML can parse to a mapping key. -/
inductive Leaf where
  | scalar (value : Scalar)
  | str (text : String)
  /-- A timestamp, binary data or a set, which `json.dumps` refuses. -/
  | other (kind : String)
  deriving DecidableEq

/-- What `yaml.safe_load` can return. -/
inductive Yaml where
  | leaf (value : Leaf)
  | seq (items : List Yaml)
  /-- A tuple, as `!!omap` and `!!pairs` list them. -/
  | pair (key value : Yaml)
  | mapping (entries : List (Leaf × Yaml))

/-- `float.__repr__` on finite numbers, as documented: it reads back as the same number, and it is
no integer's text. -/
structure FloatRepr where
  text : FiniteFloat → String
  injective : Function.Injective text
  spelled : ∀ value, ∀ letter ∈ (text value).toList, letter.isDigit ∨ letter ∈ ['-', '+', '.', 'e']
  marked : ∀ value, ∃ letter ∈ (text value).toList, letter = '.' ∨ letter = 'e'

def Scalar.text (floats : FloatRepr) : Scalar → String
  | .null => "null"
  | .bool true => "true"
  | .bool false => "false"
  | .int value => toString value
  | .finite value => floats.text value
  | .infinite false => "Infinity"
  | .infinite true => "-Infinity"
  | .nan => "NaN"

/-- `int.__repr__` does not raise: the number has no more digits than Python prints. -/
def Scalar.printable : Scalar → Bool
  | .int value => decide (value.natAbs < Val.digitsLimit)
  | _ => true

section Tokens

variable {floats : FloatRepr}

def Numeric (letter : Char) : Prop := letter.isDigit ∨ letter ∈ ['-', '+', '.', 'e']

def Scalar.numeric : Scalar → Bool
  | .int _ | .finite _ => true
  | _ => false

theorem toDigits_injective : Function.Injective (Nat.toDigits 10) := by
  intro first second same
  calc first = Nat.ofDigitChars 10 (Nat.toDigits 10 first) 0 := Nat.ofDigitChars_ten_toDigits.symm
    _ = Nat.ofDigitChars 10 (Nat.toDigits 10 second) 0 := by rw [same]
    _ = second := Nat.ofDigitChars_ten_toDigits

theorem int_text (value : Int) : (toString value).toList =
    (if value < 0 then ['-'] else []) ++ Nat.toDigits 10 value.natAbs := by
  cases value with
  | ofNat size => simp [toString, Int.repr]
  | negSucc size => simp [toString, Int.repr, Int.negSucc_lt_zero]

theorem digit_of_mem {size : Nat} {letter : Char} (member : letter ∈ Nat.toDigits 10 size) :
    letter.isDigit = true :=
  Nat.isDigit_of_mem_toDigits (by decide) (by decide) member

theorem int_letters {value : Int} {letter : Char} (member : letter ∈ (toString value).toList) :
    letter.isDigit = true ∨ letter = '-' := by
  rw [int_text, List.mem_append] at member
  rcases member with sign | digits
  · right
    split at sign
    · simpa using sign
    · simp at sign
  · exact .inl (digit_of_mem digits)

theorem int_text_injective {first second : Int}
    (same : (toString first).toList = (toString second).toList) :
    first = second := by
  have noSign : ∀ size, '-' ∉ Nat.toDigits 10 size := by
    intro size member
    have digit := digit_of_mem member
    simp at digit
  rw [int_text, int_text] at same
  by_cases negative : first < 0
  · by_cases negative' : second < 0
    · rw [if_pos negative, if_pos negative'] at same
      have sizes := toDigits_injective (List.append_cancel_left same)
      omega
    · rw [if_pos negative, if_neg negative'] at same
      have member : '-' ∈ Nat.toDigits 10 second.natAbs := by
        rw [List.nil_append] at same
        rw [← same]
        simp
      exact absurd member (noSign _)
  · by_cases negative' : second < 0
    · rw [if_neg negative, if_pos negative'] at same
      have member : '-' ∈ Nat.toDigits 10 first.natAbs := by
        rw [List.nil_append] at same
        rw [same]
        simp
      exact absurd member (noSign _)
    · rw [if_neg negative, if_neg negative'] at same
      have sizes := toDigits_injective same
      omega

/-- A number's text has the letters of numbers; an integer's has no dot and no exponent. -/
theorem Scalar.text_letters (floats : FloatRepr) {value : Scalar}
    (isNumeric : value.numeric = true) :
    ∀ letter ∈ (value.text floats).toList, Numeric letter := by
  intro letter member
  cases value with
  | int value =>
      rcases int_letters member with digit | sign
      · exact .inl digit
      · exact .inr (by simp [sign])
  | finite value => exact floats.spelled value letter member
  | _ => simp [Scalar.numeric] at isNumeric

theorem Scalar.text_word (floats : FloatRepr) {value : Scalar} (word : value.numeric = false) :
    ∃ letter ∈ (value.text floats).toList, ¬Numeric letter := by
  cases value with
  | null => exact ⟨'n', by simp [Scalar.text], by simp [Numeric]⟩
  | bool value =>
      cases value with
      | false => exact ⟨'f', by simp [Scalar.text], by simp [Numeric]⟩
      | true => exact ⟨'t', by simp [Scalar.text], by simp [Numeric]⟩
  | infinite negative =>
      cases negative with
      | false => exact ⟨'I', by simp [Scalar.text], by simp [Numeric]⟩
      | true => exact ⟨'I', by simp [Scalar.text], by simp [Numeric]⟩
  | nan => exact ⟨'N', by simp [Scalar.text], by simp [Numeric]⟩
  | _ => simp [Scalar.numeric] at word

theorem Scalar.text_nonempty (floats : FloatRepr) (value : Scalar) :
    (value.text floats).toList ≠ [] := by
  cases value with
  | int value =>
      simp only [Scalar.text, int_text]
      simp [Nat.toDigits_ne_nil]
  | finite value =>
      obtain ⟨letter, member, -⟩ := floats.marked value
      exact List.ne_nil_of_mem member
  | bool value => cases value <;> simp [Scalar.text]
  | infinite negative => cases negative <;> simp [Scalar.text]
  | _ => simp [Scalar.text]

theorem Numeric.plain {letter : Char} (isNumeric : Numeric letter) : plain letter = true := by
  rcases isNumeric with digit | mark
  · by_contra shapes
    have isShape : letter ∈ ['\x22', ',', ':', '[', ']', '\x7b', '\x7d'] := by
      by_contra other
      exact shapes (by simpa [JsonText.plain] using other)
    simp only [List.mem_cons, List.not_mem_nil, or_false] at isShape
    rcases isShape with rfl | rfl | rfl | rfl | rfl | rfl | rfl <;> simp at digit
  · simp only [List.mem_cons, List.not_mem_nil, or_false] at mark
    rcases mark with rfl | rfl | rfl | rfl <;> rfl

theorem Scalar.text_plain (floats : FloatRepr) (value : Scalar) :
    ∀ letter ∈ (value.text floats).toList, plain letter = true := by
  by_cases isNumeric : value.numeric
  · intro letter member
    exact (Scalar.text_letters floats isNumeric letter member).plain
  · cases value with
    | null => simp [Scalar.text, JsonText.plain]
    | bool value => cases value <;> simp [Scalar.text, JsonText.plain]
    | infinite negative => cases negative <;> simp [Scalar.text, JsonText.plain]
    | nan => simp [Scalar.text, JsonText.plain]
    | _ => simp [Scalar.numeric] at isNumeric

theorem Scalar.word_injective (floats : FloatRepr) {first second : Scalar}
    (wordy : first.numeric = false) (wordy' : second.numeric = false)
    (same : first.text floats = second.text floats) : first = second := by
  have words : ∀ {value : Scalar}, value.numeric = false →
      value ∈ [Scalar.null, .bool true, .bool false, .infinite true, .infinite false, .nan] := by
    intro value word
    cases value with
    | bool value => cases value <;> simp
    | infinite negative => cases negative <;> simp
    | null | nan => simp
    | _ => simp [Scalar.numeric] at word
  have member := words wordy
  have member' := words wordy'
  simp only [List.mem_cons, List.not_mem_nil, or_false] at member member'
  rcases member with rfl | rfl | rfl | rfl | rfl | rfl <;> rcases member' with rfl | rfl | rfl | rfl | rfl | rfl
  all_goals first | rfl | (simp [Scalar.text] at same)

theorem Scalar.text_injective (floats : FloatRepr) {first second : Scalar}
    (same : (first.text floats).toList = (second.text floats).toList) : first = second := by
  have kind : first.numeric = second.numeric := by
    by_cases isNumeric : first.numeric
    · by_cases isNumeric' : second.numeric
      · rw [isNumeric, isNumeric']
      · obtain ⟨letter, member, foreign⟩ := Scalar.text_word floats (by simpa using isNumeric')
        exact absurd (Scalar.text_letters floats isNumeric letter (same ▸ member)) foreign
    · by_cases isNumeric' : second.numeric
      · obtain ⟨letter, member, foreign⟩ := Scalar.text_word floats (by simpa using isNumeric)
        exact absurd (Scalar.text_letters floats isNumeric' letter (same ▸ member)) foreign
      · simp [isNumeric, isNumeric']
  have unmarked : ∀ (value : Int) (number : FiniteFloat),
      (toString value).toList ≠ (floats.text number).toList := by
    intro value number equal
    obtain ⟨letter, member, mark⟩ := floats.marked number
    rw [← equal] at member
    rcases int_letters member with digit | sign
    · rcases mark with rfl | rfl <;> simp at digit
    · rcases mark with rfl | rfl <;> simp at sign
  by_cases isNumeric : first.numeric
  · rw [isNumeric] at kind
    cases first with
    | int value =>
        cases second with
        | int other => rw [int_text_injective same]
        | finite other => exact absurd same (unmarked value other)
        | _ => simp [Scalar.numeric] at kind
    | finite value =>
        cases second with
        | int other => exact absurd same.symm (unmarked other value)
        | finite other => rw [floats.injective (String.toList_inj.mp same)]
        | _ => simp [Scalar.numeric] at kind
    | _ => simp [Scalar.numeric] at isNumeric
  · have wordy : first.numeric = false := by simpa using isNumeric
    exact Scalar.word_injective floats wordy (kind ▸ wordy) (String.toList_inj.mp same)

def scalarTokens (floats : FloatRepr) : Tokens Scalar where
  token value := ⟨(value.text floats).toList, value.text_nonempty floats, value.text_plain floats⟩
  separate _ _ same := Scalar.text_injective floats same

end Tokens

/-! The keys of a mapping. -/

/-- The number behind a key; `bool` is a subclass of `int`. -/
def Leaf.number? : Leaf → Option PyFloat
  | .scalar (.bool value) => some (.finite (if value then 1 else 0))
  | .scalar (.int value) => some (.finite value)
  | .scalar (.finite (.number value)) => some (.finite value)
  | .scalar (.finite .negativeZero) => some (.finite 0)
  | .scalar (.infinite negative) => some (.infinite negative)
  | .scalar .nan => some .nan
  | _ => none

def Leaf.printable : Leaf → Bool
  | .scalar value => value.printable
  | _ => true

def Leaf.isStr : Leaf → Bool
  | .str _ => true
  | _ => false

/-- `left < right` on keys that can be compared. -/
def keyLess : Leaf → Leaf → Bool
  | .str left, .str right => decide (left < right)
  | left, right =>
      match left.number?, right.number? with
      | some first, some second => Val.lessThan first second
      | _, _ => false

def keyEq (left right : Leaf) : Bool :=
  match left.number?, right.number? with
  | some first, some second => first == second && first != .nan
  | _, _ => left == right

/-- The keys that `json.dumps` takes with `sort_keys`: strings, or numbers, or `None` alone. -/
def writable (keys : List Leaf) : Bool :=
  keys.all Leaf.isStr || keys.all (fun key => key.number?.isSome && key.printable) ||
    keys == [.scalar .null]

/-- No key is NaN, or no other key stands beside it. -/
def Ordered (keys : List Leaf) : Prop := keys.length ≤ 1 ∨ .scalar .nan ∉ keys

/-- `list.sort` on the items of a dict; it is documented where `<` orders the keys. -/
structure Sorting where
  sort : {β : Type} → List (Leaf × β) → List (Leaf × β)
  perm : ∀ {β : Type} (rows : List (Leaf × β)), (sort rows).Perm rows
  sorted : ∀ {β : Type} (rows : List (Leaf × β)), writable (rows.map Prod.fst) = true →
    Ordered (rows.map Prod.fst) →
    (sort rows).Pairwise fun lower upper => keyLess upper.1 lower.1 = false

section Dumps

variable (floats : FloatRepr) (sorting : Sorting)

def Leaf.keyText : Leaf → String
  | .scalar value => value.text floats
  | .str text => text
  | .other kind => kind

def Leaf.json : Leaf → Option (Json Scalar)
  | .scalar value => if value.printable then some (.scalar value) else none
  | .str text => some (.str text)
  | .other _ => none

mutual

/-- A value as JSON data, as `json.dumps` with `sort_keys` lists it; `none` when it raises, at a
value that has no JSON form or an integer with too many digits. -/
def Yaml.json : Yaml → Option (Json Scalar)
  | .leaf value => value.json
  | .seq items => (jsonItems items).map .array
  | .pair key value => do
      let first ← key.json
      let second ← value.json
      return .array [first, second]
  | .mapping entries => do
      let rows ← jsonEntries entries
      if writable (rows.map Prod.fst) then
        return .object ((sorting.sort rows).map fun row => (row.1.keyText floats, row.2))
      else none

def jsonItems : List Yaml → Option (List (Json Scalar))
  | [] => some []
  | item :: rest => do
      let first ← item.json
      let others ← jsonItems rest
      return first :: others

def jsonEntries : List (Leaf × Yaml) → Option (List (Leaf × Json Scalar))
  | [] => some []
  | (key, value) :: rest => do
      let first ← value.json
      let others ← jsonEntries rest
      return (key, first) :: others

end

/-- The text that `workflow_fingerprint` hashes. -/
def canonicalText (value : Yaml) : Option String :=
  (value.json floats sorting).map fun data => String.ofList (render (scalarTokens floats) data)

end Dumps

/-! A number format and a sort to compute with. -/

theorem dot_notMem_int (value : Int) : '.' ∉ (toString value).toList := by
  intro member
  rcases int_letters member with digit | sign
  · simp at digit
  · simp at sign

theorem int_text_ne_negativeZero (value : Int) : (toString value).toList ≠ ['-', '0'] := by
  intro same
  rw [int_text] at same
  by_cases negative : value < 0
  · rw [if_pos negative, List.singleton_append, List.cons.injEq] at same
    have zero : value.natAbs = 0 := toDigits_injective (by rw [same.2]; decide)
    omega
  · rw [if_neg negative, List.nil_append] at same
    have sign : '-' ∈ Nat.toDigits 10 value.natAbs := by simp [same]
    have digit := digit_of_mem sign
    simp at digit

/-- Whole numbers as Python writes them, others by numerator and denominator. -/
def sampleFloatText : FiniteFloat → String
  | .number value => toString value.num ++ "." ++ toString ((value.den : Int) - 1)
  | .negativeZero => "-0.0"

theorem sampleFloatText_number (value : Rat) : (sampleFloatText (.number value)).toList =
    (toString value.num).toList ++ '.' :: (toString ((value.den : Int) - 1)).toList := by
  simp [sampleFloatText]

theorem sampleFloatText_injective : Function.Injective sampleFloatText := by
  have cut : ∀ {num num' den den' : List Char}, '.' ∉ num → '.' ∉ den →
      num ++ '.' :: den = num' ++ '.' :: den' → num = num' ∧ den = den' := by
    intro num num' den den' noDot noDot' same
    obtain ⟨nums, -, dens⟩ := (List.append_cons_inj_of_notMem noDot noDot').mp same
    exact ⟨nums, dens⟩
  have zero : ∀ value : Rat, sampleFloatText (.number value) ≠ sampleFloatText .negativeZero := by
    intro value same
    have letters : (toString value.num).toList ++ '.' :: (toString ((value.den : Int) - 1)).toList =
        ['-', '0'] ++ '.' :: ['0'] := by
      rw [← sampleFloatText_number, same]
      rfl
    exact int_text_ne_negativeZero value.num (cut (dot_notMem_int _) (dot_notMem_int _) letters).1
  intro left right same
  cases left with
  | negativeZero =>
      cases right with
      | negativeZero => rfl
      | number value => exact absurd same.symm (zero value)
  | number left =>
      cases right with
      | negativeZero => exact absurd same (zero left)
      | number right =>
          have letters := congrArg String.toList same
          rw [sampleFloatText_number, sampleFloatText_number] at letters
          obtain ⟨nums, dens⟩ := cut (dot_notMem_int _) (dot_notMem_int _) letters
          have sameNum := int_text_injective nums
          have sameDen := int_text_injective dens
          exact congrArg FiniteFloat.number (Rat.ext sameNum (by omega))

def sampleFloats : FloatRepr where
  text := sampleFloatText
  injective := sampleFloatText_injective
  spelled value letter member := by
    have spelledInt : ∀ {value : Int}, letter ∈ (toString value).toList →
        letter.isDigit ∨ letter ∈ ['-', '+', '.', 'e'] := by
      intro value member
      rcases int_letters member with digit | sign
      · exact .inl digit
      · exact .inr (by simp [sign])
    cases value with
    | negativeZero =>
        have among : letter ∈ ['-', '0', '.', '0'] := member
        simp only [List.mem_cons, List.not_mem_nil, or_false] at among
        rcases among with rfl | rfl | rfl | rfl <;> decide
    | number value =>
        rw [sampleFloatText_number, List.mem_append, List.mem_cons] at member
        rcases member with num | dot | den
        · exact spelledInt num
        · exact .inr (by simp [dot])
        · exact spelledInt den
  marked value := by
    cases value with
    | negativeZero => exact ⟨'.', by decide, .inl rfl⟩
    | number value => exact ⟨'.', by rw [sampleFloatText_number]; simp, .inl rfl⟩

def numberRank : PyFloat → WithBot (WithTop Rat)
  | .finite value => ((value : WithTop Rat) : WithBot (WithTop Rat))
  | .infinite true => ⊥
  | _ => ⊤

def keyRank : Leaf → Lex (WithBot (WithTop Rat) × String)
  | .str text => toLex (⊤, text)
  | key => toLex ((key.number?.map numberRank).getD ⊤, "")

theorem lessThan_of_rank {lower upper : PyFloat} (ranked : numberRank lower ≤ numberRank upper) :
    Val.lessThan upper lower = false := by
  cases upper with
  | nan => rfl
  | finite right =>
      cases lower with
      | nan => rfl
      | finite left =>
          have ordered : left ≤ right := by simpa [numberRank] using ranked
          simpa [Val.lessThan] using ordered
      | infinite negative =>
          cases negative with
          | true => rfl
          | false => simp [numberRank] at ranked
  | infinite negative =>
      cases lower with
      | nan => cases negative <;> rfl
      | finite left =>
          cases negative with
          | false => rfl
          | true => simp [numberRank] at ranked
      | infinite negative' => cases negative <;> cases negative' <;> simp [numberRank,
        Val.lessThan] at ranked ⊢

theorem keyLess_of_rank {lower upper : Leaf} (ranked : keyRank lower ≤ keyRank upper) :
    keyLess upper lower = false := by
  unfold keyLess
  split
  · rename_i right left
    rw [keyRank, keyRank, Prod.Lex.toLex_le_toLex] at ranked
    rcases ranked with less | ⟨-, ordered⟩
    · simp at less
    · exact decide_eq_false (not_lt.mpr ordered)
  · split
    · rename_i notStrings first second isFirst isSecond
      apply lessThan_of_rank
      have rank : ∀ {key : Leaf} {number : PyFloat}, key.number? = some number →
          keyRank key = toLex (numberRank number, "") := by
        intro key number isNumber
        cases key with
        | str text => simp [Leaf.number?] at isNumber
        | _ => simp [keyRank, isNumber]
      rw [rank isFirst, rank isSecond, Prod.Lex.toLex_le_toLex] at ranked
      rcases ranked with less | ⟨same, -⟩
      · exact le_of_lt less
      · exact le_of_eq same
    · rfl

def sampleSorting : Sorting where
  sort rows := rows.insertionSort fun lower upper => keyRank lower.1 ≤ keyRank upper.1
  perm rows := List.perm_insertionSort _ rows
  sorted {β} rows _ _ := by
    have total : Std.Total fun lower upper : Leaf × β => keyRank lower.1 ≤ keyRank upper.1 :=
      ⟨fun lower upper => le_total _ _⟩
    have transitive : IsTrans (Leaf × β) fun lower upper => keyRank lower.1 ≤ keyRank upper.1 :=
      ⟨fun lower middle upper => le_trans⟩
    exact (List.pairwise_insertionSort _ rows).imp keyLess_of_rank

end Megalos
