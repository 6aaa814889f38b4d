import Mathlib.Algebra.Order.Ring.Rat
import Mathlib.Computability.RegularExpressions

/-!
The keywords of JSON Schema (Draft 2020-12), over any type of values that can be seen as
JSON.  A schema is the test that it makes; a keyword about one type of value passes the
values of the others.
-/

namespace JsonSchema

inductive Number where
  | finite (value : ℚ)
  | infinite (negative : Bool)
  | nan

namespace Number

def above (bound : ℚ) : Number → Bool
  | .finite value => decide (bound < value)
  | .infinite negative => !negative
  | .nan => false

def atLeast (bound : ℚ) : Number → Bool
  | .finite value => decide (bound ≤ value)
  | .infinite negative => !negative
  | .nan => false

def isInteger : Number → Bool
  | .finite value => value.den == 1
  | _ => false

end Number

/-- What a schema sees of a value.  A key of an object that is no text names no property. -/
inductive View (α : Type) where
  | null
  | boolean (value : Bool)
  | number (value : Number)
  | string (text : String)
  | array (items : List α)
  | object (property? : String → Option α) (names : List (Option String))
  | other

class Viewed (α : Type) where
  view : α → View α

open Viewed

abbrev Schema (α : Type) := α → Bool

inductive TypeName where
  | boolean
  | number
  | integer
  | string
  | array
  | object

inductive Literal where
  | boolean (value : Bool)
  | string (text : String)
  deriving DecidableEq

/-- `^…$`, or an expression that may match anywhere. -/
inductive Pattern where
  | whole (expression : RegularExpression Char)
  | somewhere (expression : RegularExpression Char)

def Pattern.occurs (pattern : Pattern) (text : String) : Bool :=
  match pattern with
  | .whole expression => expression.rmatch text.toList
  | .somewhere expression => text.toList.tails.any fun rest => rest.inits.any fun letters =>
    expression.rmatch letters

variable {α : Type} [Viewed α]

def literal? (value : α) : Option Literal :=
  match view value with
  | .boolean value => some (.boolean value)
  | .string text => some (.string text)
  | _ => none

/-! The keywords. -/

def hasType (name : TypeName) : Schema α := fun value =>
  match name, view value with
  | .boolean, .boolean _ => true
  | .number, .number _ => true
  | .integer, .number value => value.isInteger
  | .string, .string _ => true
  | .array, .array _ => true
  | .object, .object _ _ => true
  | _, _ => false

def const (expected : Literal) : Schema α := fun value => literal? value == some expected

def enum (expected : List Literal) : Schema α :=
    fun value => expected.any fun one => literal? value == some one

def required (names : List String) : Schema α := fun value =>
  match view value with
  | .object property? _ => names.all fun name => (property? name).isSome
  | _ => true

def properties (schemas : List (String × Schema α)) : Schema α := fun value =>
  match view value with
  | .object property? _ => schemas.all fun entry => (property? entry.1).all entry.2
  | _ => true

def closed (known : List String) : Schema α := fun value =>
  match view value with
  | .object _ names => names.all fun name => (name.map known.contains).getD false
  | _ => true

def items (schema : Schema α) : Schema α := fun value =>
  match view value with
  | .array members => members.all schema
  | _ => true

def minItems (least : Nat) : Schema α := fun value =>
  match view value with
  | .array members => decide (least ≤ members.length)
  | _ => true

def minLength (least : Nat) : Schema α := fun value =>
  match view value with
  | .string text => decide (least ≤ text.length)
  | _ => true

def minimum (bound : ℚ) : Schema α := fun value =>
  match view value with
  | .number value => value.atLeast bound
  | _ => true

def exclusiveMinimum (bound : ℚ) : Schema α := fun value =>
  match view value with
  | .number value => value.above bound
  | _ => true

def pattern (expected : Pattern) : Schema α := fun value =>
  match view value with
  | .string text => expected.occurs text
  | _ => true

def not (schema : Schema α) : Schema α := fun value => !schema value

def allOf (schemas : List (Schema α)) : Schema α :=
    fun value => schemas.all fun schema => schema value

def oneOf (schemas : List (Schema α)) : Schema α :=
    fun value => (schemas.filter fun schema => schema value).length == 1

def ifThen (condition consequence : Schema α) : Schema α :=
    fun value => !condition value || consequence value

/-! Expressions. -/

section Expressions

open RegularExpression

def letters (allowed : List Char) : RegularExpression Char :=
  (allowed.map RegularExpression.char).foldr (· + ·) 0

def exactly (text : String) : RegularExpression Char :=
  (text.toList.map RegularExpression.char).foldr (· * ·) 1

def range (first last : Char) : List Char :=
  (List.range (last.toNat + 1 - first.toNat)).map fun offset => Char.ofNat (first.toNat + offset)

theorem letters_rmatch {allowed text : List Char} :
    (letters allowed).rmatch text = true ↔ ∃ letter ∈ allowed, text = [letter] := by
  induction allowed with
  | nil => simp [letters]
  | cons first rest ih =>
      change (RegularExpression.char first + letters rest).rmatch text = true ↔ _
      rw [add_rmatch_iff, char_rmatch_iff, ih]
      simp

theorem letters_star_rmatch {allowed text : List Char} :
    (letters allowed).star.rmatch text = true ↔ ∀ letter ∈ text, letter ∈ allowed := by
  rw [star_rmatch_iff]
  constructor
  · rintro ⟨parts, rfl, each⟩ letter member
    obtain ⟨part, isPart, inPart⟩ := List.mem_flatten.mp member
    obtain ⟨one, isAllowed, rfl⟩ := letters_rmatch.mp (each part isPart).2
    rwa [List.mem_singleton.mp inPart]
  · intro each
    refine ⟨text.map fun letter => [letter], ?_, ?_⟩
    · rw [← List.flatMap_def, List.flatMap_singleton']
    · intro part member
      obtain ⟨letter, inText, rfl⟩ := List.mem_map.mp member
      exact ⟨by simp, letters_rmatch.mpr ⟨letter, each letter inText, rfl⟩⟩

theorem exactly_rmatch {expected : String} {text : List Char} :
    (exactly expected).rmatch text = true ↔ text = expected.toList := by
  unfold exactly
  induction expected.toList generalizing text with
  | nil => exact one_rmatch_iff text
  | cons first rest ih =>
      rw [List.map_cons, List.foldr_cons, mul_rmatch_iff]
      constructor
      · rintro ⟨front, back, rfl, isFirst, isRest⟩
        rw [(char_rmatch_iff _ _).mp isFirst, ih.mp isRest]
        rfl
      · rintro rfl
        exact ⟨[first], rest, rfl, (char_rmatch_iff _ _).mpr rfl, ih.mpr rfl⟩

theorem mem_range {first last letter : Char} (plain : last.toNat < 0xd800) :
    letter ∈ range first last ↔ first.toNat ≤ letter.toNat ∧ letter.toNat ≤ last.toNat := by
  simp only [range, List.mem_map, List.mem_range]
  constructor
  · rintro ⟨offset, below, rfl⟩
    have valid : (first.toNat + offset).isValidChar := .inl (by omega)
    have same : (Char.ofNat (first.toNat + offset)).toNat = first.toNat + offset := by
      rw [Char.ofNat, dif_pos valid]
      rfl
    omega
  · rintro ⟨lower, upper⟩
    refine ⟨letter.toNat - first.toNat, by omega, ?_⟩
    rw [Nat.add_sub_cancel' lower, Char.ofNat_toNat]

theorem somewhere_exactly {expected text : String} :
    (Pattern.somewhere (exactly expected)).occurs text = true ↔
      expected.toList <:+: text.toList := by
  simp only [Pattern.occurs, List.any_eq_true, List.mem_tails, List.mem_inits, exactly_rmatch]
  constructor
  · rintro ⟨rest, isSuffix, letters, isPrefix, rfl⟩
    exact isPrefix.isInfix.trans isSuffix.isInfix
  · rintro ⟨before, after, same⟩
    exact ⟨expected.toList ++ after, ⟨before, by simpa using same⟩, expected.toList, ⟨after, rfl⟩,
      rfl⟩

end Expressions

end JsonSchema
