import Mathlib.Algebra.GroupWithZero.Nat
import Mathlib.Data.Rat.Defs
import Mathlib.Data.List.Infix

/-!
The Python values that pass through the server: parsed YAML, parsed JSON and the
response envelopes.  Operations that Python can refuse return the exception.
-/

namespace Megalos

/-- A canonical session id: the image of `normalize_session_id`, the key of a row. -/
structure SessionId where
  text : String
  deriving DecidableEq, Repr, Inhabited

/-- Python exceptions. `uncaught` collects the classes no handler of the server names; `diverges`
stands for a loop that never ends. -/
inductive Exn where
  | sessionNotFound
  | stackFull (rootSessionId : SessionId) (currentDepth maxDepth : Nat)
  | skippedPredecessor (sid referencingStepId : String)
  | typeError (message : String)
  | valueError (message : String)
  | uncaught (kind message : String)
  | diverges
  deriving DecidableEq, Repr

/-- The value of a Python `float`; a finite one is an exact rational. -/
inductive PyFloat where
  | finite (value : Rat)
  | infinite (negative : Bool)
  | nan
  deriving DecidableEq, Repr

/-- The scalars that YAML has and JSON lacks. The moment of a `datetime` with an offset is in UTC.
-/
inductive OtherScalar where
  | date (day : Int)
  | datetime (moment : Int) (offset : Option Int)
  | bytes (octets : List UInt8)
  deriving DecidableEq, Repr

inductive Val where
  | none
  | bool (value : Bool)
  | int (value : Int)
  | float (value : PyFloat)
  | str (text : String)
  | native (scalar : OtherScalar)
  | list (items : List Val)
  | dict (entries : List (Val × Val))
  /-- The `_REF_ABSENT` object. -/
  | absent
  deriving Repr, Inhabited

namespace Val

def obj (entries : List (String × Val)) : Val :=
  .dict (entries.map fun entry => (.str entry.1, entry.2))

def strs (items : List String) : Val := .list (items.map .str)

def typeName : Val → String
  | .none => "NoneType"
  | .bool _ => "bool"
  | .int _ => "int"
  | .float _ => "float"
  | .str _ => "str"
  | .native (.date _) => "date"
  | .native (.datetime _ _) => "datetime"
  | .native (.bytes _) => "bytes"
  | .list _ => "list"
  | .dict _ => "dict"
  | .absent => "object"

/-- `bool(value)`. -/
def truthy : Val → Bool
  | .none => false
  | .bool value => value
  | .int value => value != 0
  | .float (.finite value) => value != 0
  | .float _ => true
  | .str text => text != ""
  | .native (.bytes octets) => !octets.isEmpty
  | .native _ => true
  | .list items => !items.isEmpty
  | .dict entries => !entries.isEmpty
  | .absent => true

def number? : Val → Option PyFloat
  | .bool value => some (.finite (if value then 1 else 0))
  | .int value => some (.finite value)
  | .float value => some value
  | _ => Option.none

/-- The least magnitude whose decimal digits Python does not print (`sys.get_int_max_str_digits`).
-/
@[irreducible] def digitsLimit : Nat := 10 ^ 4300

mutual

/-- `repr(value)` does not raise: no integer in it has too many digits. -/
def printable : Val → Bool
  | .int value => decide (value.natAbs < digitsLimit)
  | .list items => printableItems items
  | .dict entries => printableEntries entries
  | _ => true

def printableItems : List Val → Bool
  | [] => true
  | item :: rest => item.printable && printableItems rest

def printableEntries : List (Val × Val) → Bool
  | [] => true
  | (key, value) :: rest => key.printable && value.printable && printableEntries rest

end

def isStr (value : Val) (text : String) : Bool :=
  match value with
  | .str other => other == text
  | _ => false

/-- `==` on timestamps and bytes; two moments are compared in UTC, or both without an offset. -/
def pyEqOther : OtherScalar → OtherScalar → Bool
  | .datetime left leftOffset, .datetime right rightOffset =>
      left == right && leftOffset.isSome == rightOffset.isSome
  | left, right => left == right

def pyEqNumber : PyFloat → Val → Bool
  | .nan, _ => false
  | left, right => number? right == some left

mutual

/-- `==`: structural, with numbers compared across `bool`, `int` and `float`. -/
def pyEq : Val → Val → Bool
  | .none, .none => true
  | .absent, .absent => true
  | .str left, .str right => left == right
  | .native left, .native right => pyEqOther left right
  | .list left, .list right => pyEqItems left right
  | .dict left, .dict right => left.length == right.length && pyEqEntries left right
  | .bool left, right => pyEqNumber (.finite (if left then 1 else 0)) right
  | .int left, right => pyEqNumber (.finite left) right
  | .float left, right => pyEqNumber left right
  | _, _ => false

def pyEqItems : List Val → List Val → Bool
  | [], [] => true
  | left :: lefts, right :: rights => pyEq left right && pyEqItems lefts rights
  | _, _ => false

def pyEqEntries : List (Val × Val) → List (Val × Val) → Bool
  | [], _ => true
  | (key, value) :: rest, other =>
      other.any (fun entry => pyEq key entry.1 && pyEq value entry.2) && pyEqEntries rest other
end

def valueAt? (entries : List (Val × Val)) (key : String) : Option Val :=
  (entries.find? fun entry => entry.1.isStr key).map Prod.snd

def get? (value : Val) (key : String) : Option Val :=
  match value with
  | .dict entries => valueAt? entries key
  | _ => Option.none

/-- `value[key]`. -/
def item (value : Val) (key : String) : Except Exn Val :=
  match value with
  | .dict entries =>
      match valueAt? entries key with
      | some found => .ok found
      | Option.none => .error (.uncaught "KeyError" ("'" ++ key ++ "'"))
  | .str _ => .error (.typeError "string indices must be integers, not 'str'")
  | .list _ => .error (.typeError "list indices must be integers or slices, not str")
  | .native (.bytes _) => .error (.typeError "byte indices must be integers or slices, not str")
  | other => .error (.typeError ("'" ++ other.typeName ++ "' object is not subscriptable"))

/-- `key in value`. -/
def contains (value : Val) (key : String) : Except Exn Bool :=
  match value with
  | .dict entries => .ok (valueAt? entries key).isSome
  | .list items => .ok (items.any fun item => item.isStr key)
  | .str text => .ok (decide (key.toList <:+: text.toList))
  | .native (.bytes _) => .error (.typeError "a bytes-like object is required, not 'str'")
  | other => .error (.typeError ("argument of type '" ++ other.typeName ++ "' is not iterable"))

/-- `value.get(key)`. -/
def getKey (value : Val) (key : String) : Except Exn (Option Val) :=
  match value with
  | .dict entries => .ok (valueAt? entries key)
  | other => .error (.uncaught "AttributeError"
      ("'" ++ other.typeName ++ "' object has no attribute 'get'"))

/-- `for item in value`. -/
def iter (value : Val) : Except Exn (List Val) :=
  match value with
  | .list items => .ok items
  | .dict entries => .ok (entries.map Prod.fst)
  | .str text => .ok (text.toList.map fun letter => .str letter.toString)
  | .native (.bytes octets) => .ok (octets.map fun octet => .int octet.toNat)
  | other => .error (.typeError ("'" ++ other.typeName ++ "' object is not iterable"))

def lessThan : PyFloat → PyFloat → Bool
  | .nan, _ => false
  | _, .nan => false
  | .finite left, .finite right => decide (left < right)
  | .infinite left, .infinite right => left && !right
  | .infinite left, .finite _ => left
  | .finite _, .infinite right => !right

/-- `count >= bound` (or `count > bound` when `strict`) for an integer on the left. -/
def countReaches (count : Nat) (bound : Val) (strict : Bool) : Except Exn Bool :=
  match number? bound with
  | some limit =>
      let exact : PyFloat := .finite count
      .ok (if strict then lessThan limit exact else lessThan limit exact || limit == exact)
  | Option.none => .error (.typeError ("'" ++ (if strict then ">" else ">=") ++
      "' not supported between instances of 'int' and '" ++ bound.typeName ++ "'"))

end Val

def splitDots : List Char → List (List Char)
  | [] => [[]]
  | letter :: rest =>
      if letter = '.' then [] :: splitDots rest
      else
        match splitDots rest with
        | [] => [[letter]]
        | first :: others => (letter :: first) :: others

def splitPath (text : String) : List String := (splitDots text.toList).map String.ofList

theorem splitDots_ne_nil (letters : List Char) : splitDots letters ≠ [] := by
  cases letters with
  | nil => simp [splitDots]
  | cons letter rest =>
      simp only [splitDots]
      split
      · simp
      · split <;> simp

@[simp] theorem Val.isStr_str (text other : String) :
    (Val.str text).isStr other = (text == other) := rfl

theorem Val.isStr_iff {value : Val} {text : String} :
    value.isStr text = true ↔ value = .str text := by
  cases value <;> simp [Val.isStr]

end Megalos
