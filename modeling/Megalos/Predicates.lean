import Megalos.Sample
import Megalos.Validated

/-!
The two predicates of a precondition against what the documentation says of them:
`when_equals` compares typed JSON values, and `when_present` asks whether the ref resolves.
-/

namespace Megalos

open KeyedTable

namespace Val

/-- A JSON number; `1` and `1.0` are one number, and a boolean is none. -/
def jsonNumber? : Val → Option PyFloat
  | .int value => some (.finite value)
  | .float value => some value
  | _ => Option.none

def jsonEqNumber : PyFloat → Val → Bool
  | .nan, _ => false
  | left, right => jsonNumber? right == some left

mutual

def jsonEq : Val → Val → Bool
  | .none, .none => true
  | .absent, .absent => true
  | .bool left, .bool right => left == right
  | .str left, .str right => left == right
  | .native left, .native right => pyEqOther left right
  | .list left, .list right => jsonEqItems left right
  | .dict left, .dict right => left.length == right.length && jsonEqEntries left right
  | .int left, right => jsonEqNumber (.finite left) right
  | .float left, right => jsonEqNumber left right
  | _, _ => false

def jsonEqItems : List Val → List Val → Bool
  | [], [] => true
  | left :: lefts, right :: rights => jsonEq left right && jsonEqItems lefts rights
  | _, _ => false

def jsonEqEntries : List (Val × Val) → List (Val × Val) → Bool
  | [], _ => true
  | (key, value) :: rest, other =>
      other.any (fun entry =>
        jsonEq key entry.1 && jsonEq value entry.2) && jsonEqEntries rest other
end

mutual

/-- Where the values correspond, a boolean stands against a boolean. -/
def sameKinds : Val → Val → Bool
  | .bool _, .bool _ => true
  | .bool _, _ => false
  | _, .bool _ => false
  | .list left, .list right => sameKindsItems left right
  | .dict left, .dict right => sameKindsEntries left right
  | _, _ => true

def sameKindsItems : List Val → List Val → Bool
  | left :: lefts, right :: rights => sameKinds left right && sameKindsItems lefts rights
  | _, _ => true

/-- Each entry has an equal one on the other side that it can be told from by no boolean. -/
def sameKindsEntries : List (Val × Val) → List (Val × Val) → Bool
  | [], _ => true
  | (key, value) :: rest, other =>
      other.any (fun entry =>
        pyEq key entry.1 && sameKinds key entry.1 && (pyEq value entry.2 && sameKinds value entry.2)) &&
        sameKindsEntries rest other
end

theorem jsonEqNumber_eq (left : PyFloat) (right : Val) :
    jsonEqNumber left right = (pyEqNumber left right && !isBool right) := by
  cases left with
  | nan => rfl
  | _ => cases right <;> simp [jsonEqNumber, pyEqNumber, jsonNumber?, number?, isBool]

mutual

/-- Python's `==` is typed equality as long as no boolean stands against a number. -/
theorem jsonEq_eq : (left right : Val) →
    jsonEq left right = (pyEq left right && sameKinds left right)
  | .none, right => by cases right <;> rfl
  | .absent, right => by cases right <;> rfl
  | .bool left, right => by
      cases right with
      | bool right => cases left <;> cases right <;> rfl
      | _ => simp [jsonEq, sameKinds]
  | .str left, right => by cases right <;> simp [jsonEq, pyEq, sameKinds]
  | .native left, right => by cases right <;> simp [jsonEq, pyEq, sameKinds]
  | .int left, right => by cases right <;> simp [jsonEq, pyEq, sameKinds, jsonEqNumber_eq, isBool]
  | .float left, right => by cases right <;> simp [jsonEq, pyEq, sameKinds, jsonEqNumber_eq, isBool]
  | .list left, right => by
      cases right with
      | list right => simp [jsonEq, pyEq, sameKinds, jsonEqItems_eq left right]
      | _ => simp [jsonEq, pyEq, sameKinds]
  | .dict left, right => by
      cases right with
      | dict right =>
          simp only [jsonEq, pyEq, sameKinds, jsonEqEntries_eq left right]
          cases left.length == right.length <;> simp
      | _ => simp [jsonEq, pyEq, sameKinds]

theorem jsonEqItems_eq : (lefts rights : List Val) →
    jsonEqItems lefts rights = (pyEqItems lefts rights && sameKindsItems lefts rights)
  | [], [] => rfl
  | [], _ :: _ => rfl
  | _ :: _, [] => rfl
  | left :: lefts, right :: rights => by
      simp only [jsonEqItems, pyEqItems, sameKindsItems, jsonEq_eq left right,
        jsonEqItems_eq lefts rights]
      ac_rfl

theorem jsonEqEntries_eq : (lefts rights : List (Val × Val)) →
    jsonEqEntries lefts rights = (pyEqEntries lefts rights && sameKindsEntries lefts rights)
  | [], _ => rfl
  | (key, value) :: rest, other => by
      have head : (other.any fun entry => jsonEq key entry.1 && jsonEq value entry.2) =
        other.any fun entry =>
          pyEq key entry.1 && sameKinds key entry.1 && (pyEq value entry.2 && sameKinds value entry.2) := by
        congr 1
        funext entry
        rw [jsonEq_eq key entry.1, jsonEq_eq value entry.2]
      simp only [jsonEqEntries, pyEqEntries, sameKindsEntries, head, jsonEqEntries_eq rest other]
      cases matched : other.any fun entry =>
          pyEq key entry.1 && sameKinds key entry.1 && (pyEq value entry.2 && sameKinds value entry.2) with
      | false => simp
      | true =>
          have equal : (other.any fun entry => pyEq key entry.1 && pyEq value entry.2) = true := by
            obtain ⟨entry, member, both⟩ := List.any_eq_true.mp matched
            simp only [Bool.and_eq_true] at both
            exact List.any_eq_true.mpr ⟨entry, member, by simp [both.1.1, both.2.1]⟩
          simp [equal]
end

end Val

variable {env : Env} {pc we authored : Val} {ref : String} {data : StepData} {skipped : List String}
  {referencing : String}

theorem evaluatePrecondition_equals (declares : pc.item "when_equals" = .ok we)
    (refers : we.item "ref" = .ok (.str ref)) (compares : we.item "value" = .ok authored) :
    evaluatePrecondition env pc data skipped referencing =
      (resolveRef env (.str ref) data skipped referencing).map fun resolved =>
        (resolved.map fun value => value.pyEq authored).getD false := by
  have there : pc.contains "when_equals" = .ok true := by
    cases pc with
    | dict entries =>
        simp only [Val.item] at declares
        split at declares
        · rename_i found isFound
          simp [Val.contains, isFound]
        · cases declares
    | native scalar => cases scalar <;> cases declares
    | _ => cases declares
  unfold evaluatePrecondition
  simp only [there, declares, refers, StatefulProgram.ok_bind, if_true]
  cases resolveRef env (.str ref) data skipped referencing with
  | error raised => rfl
  | ok resolved =>
      cases resolved with
      | none => rfl
      | some value =>
          simp only [StatefulProgram.ok_bind, compares]
          rfl

/-- `when_equals` is typed equality on every pair of values except those that Python's `==` equates
with a boolean standing against a number. -/
theorem whenEquals_typed_iff (declares : pc.item "when_equals" = .ok we)
    (refers : we.item "ref" = .ok (.str ref)) (compares : we.item "value" = .ok authored) :
    (evaluatePrecondition env pc data skipped referencing = .ok true ↔
        ∃ resolved, resolveRef env (.str ref) data skipped referencing = .ok (some resolved) ∧
          resolved.jsonEq authored = true) ↔
      ∀ resolved, resolveRef env (.str ref) data skipped referencing = .ok (some resolved) →
        resolved.pyEq authored = true → resolved.sameKinds authored = true := by
  rw [evaluatePrecondition_equals declares refers compares]
  cases resolveRef env (.str ref) data skipped referencing with
  | error raised => simp [Except.map]
  | ok resolved =>
      cases resolved with
      | none => simp [Except.map]
      | some value => simp [Except.map, Val.jsonEq_eq]

def flagText : String := "\x7b\"flag\": 1\x7d"

def flagEnv : Env := sampleReading [(flagText, .obj [("flag", .int 1)])]

def flagEquals (authored : Val) : Val :=
  .obj [("when_equals", .obj [("ref", .str "step_data.a.flag"), ("value", authored)])]

theorem flag_typed : evaluatePrecondition flagEnv (flagEquals (.float (.finite 1)))
    (Dict.set Table.empty "a" flagText) [] "b" =
    .ok true ↔ ∃ resolved, resolveRef flagEnv (.str "step_data.a.flag")
    (Dict.set Table.empty "a" flagText) [] "b" =
      .ok (some resolved) ∧ resolved.jsonEq (.float (.finite 1)) = true := by
  refine (whenEquals_typed_iff rfl rfl rfl).mpr ?_
  intro resolved resolves
  have same : resolved = .int 1 := by
    have computed : resolveRef flagEnv (.str "step_data.a.flag") (Dict.set Table.empty "a" flagText)
      [] "b" =
        .ok (some (.int 1)) := by rfl
    simpa [computed] using resolves.symm
  rw [same]
  intro equal
  rfl

/-- `1` passes for `true`. -/
theorem not_always_typed :
    ¬∀ (env : Env) (pc we authored : Val) (ref : String) (data : StepData) (skipped : List String)
    (referencing : String), isValidRefPath ref = true → pc.item "when_equals" = .ok we →
    we.item "ref" = .ok (.str ref) → we.item "value" = .ok authored →
    (evaluatePrecondition env pc data skipped referencing = .ok true ↔
      ∃ resolved, resolveRef env (.str ref) data skipped referencing = .ok (some resolved) ∧
        resolved.jsonEq authored = true) := by
  intro always
  have typed := always flagEnv (flagEquals (.bool true)) _ _ _ (Dict.set Table.empty "a" flagText)
    [] "b"
    (by decide) rfl rfl rfl
  obtain ⟨resolved, resolves, equal⟩ := typed.mp (by rfl)
  have computed : resolveRef flagEnv (.str "step_data.a.flag") (Dict.set Table.empty "a" flagText)
    [] "b" =
      .ok (some (.int 1)) := by rfl
  rw [computed] at resolves
  cases resolves
  exact absurd equal (by decide)

/-! Presence. -/

/-- `when_present` holds where the ref resolves, and the two raise the same signals. -/
def PresenceAgrees (env : Env) (pc : Val) (ref : String) (data : StepData) (skipped : List String)
    (referencing : String) : Prop :=
  (evaluatePrecondition env pc data skipped referencing = .ok true ↔
    ∃ value, resolveRef env (.str ref) data skipped referencing = .ok (some value)) ∧
  ∀ sid step, evaluatePrecondition env pc data skipped referencing =
    .error (.skippedPredecessor sid step) ↔
    resolveRef env (.str ref) data skipped referencing = .error (.skippedPredecessor sid step)

/-- The content a sub-path of the ref looks into is JSON that has the sub-path. -/
def ContentHasPath (env : Env) (ref : String) (data : StepData) (skipped : List String) : Prop :=
  ∀ first sid path raw, splitPath ref = first :: sid :: path → sid ∉ skipped →
    data.get? sid = some raw →
    path = [] ∨ ∃ value, env.loads raw = .ok value ∧ (descend path value).isSome = true

theorem evaluatePrecondition_present (alone : pc.contains "when_equals" = .ok false)
    (declares : pc.item "when_present" = .ok (.str ref)) {first sid : String} {path : List String}
    (parts : splitPath ref = first :: sid :: path) :
    evaluatePrecondition env pc data skipped referencing =
      if sid ∈ skipped then .error (.skippedPredecessor sid referencing) else .ok (data.contains sid) := by
  unfold evaluatePrecondition
  simp only [alone, declares, refParts, parts, StatefulProgram.ok_bind, Bool.false_eq_true,
    if_false]
  split
  · rfl
  · rfl

def contentAt (env : Env) (path : List String) (raw : String) : Option Val :=
  if path = [] then some (.str raw)
  else
    match env.loads raw with
    | .error _ => none
    | .ok value => descend path value

theorem contentAt_isSome {path : List String} {raw : String} :
    (contentAt env path raw).isSome = true ↔
    path = [] ∨ ∃ value, env.loads raw = .ok value ∧ (descend path value).isSome = true := by
  unfold contentAt
  by_cases whole : path = []
  · simp [whole]
  · rw [if_neg whole]
    cases parsed : env.loads raw with
    | error message => simp [whole]
    | ok value => simp [whole]

/-- The resolver on stored content; text that makes `json.loads` fail in its own way raises. -/
def readAt (env : Env) (path : List String) (raw : String) : Except Exn (Option Val) :=
  if path = [] then .ok (some (.str raw))
  else
    match env.tryLoads raw with
    | .error raised => .error raised
    | .ok (.error _) => .ok none
    | .ok (.ok value) => .ok (descend path value)

theorem readAt_some {path : List String} {raw : String} {value : Val} :
    readAt env path raw = .ok (some value) ↔ contentAt env path raw = some value := by
  unfold readAt contentAt
  by_cases whole : path = []
  · simp [whole]
  rw [if_neg whole, if_neg whole]
  cases loaded : env.loads raw with
  | ok value => simp [tryLoads_parsed.mpr loaded]
  | error refused =>
      cases read : env.tryLoads raw with
      | error raised => simp
      | ok result =>
          cases result with
          | error message => simp
          | ok value => simp [tryLoads_parsed.mp read] at loaded

theorem readAt_quiet {path : List String} {raw sid step : String} :
    readAt env path raw ≠ .error (.skippedPredecessor sid step) := by
  unfold readAt
  split
  · simp
  split
  · rename_i raised read
    obtain ⟨message, rfl | rfl⟩ := tryLoads_raises read <;> simp
  · simp
  · simp

/-- The resolver: a skipped step raises, else the content is looked into. -/
theorem resolveRef_parts {first sid : String} {path : List String}
    (parts : splitPath ref = first :: sid :: path) :
    resolveRef env (.str ref) data skipped referencing =
      if sid ∈ skipped then .error (.skippedPredecessor sid referencing)
      else (data.get? sid).elim (.ok none) (readAt env path) := by
  unfold resolveRef
  simp only [refParts, parts, StatefulProgram.ok_bind]
  by_cases isSkipped : sid ∈ skipped
  · simp only [if_pos isSkipped]
    rfl
  · simp only [if_neg isSkipped]
    cases stored : data.get? sid with
    | none => rfl
    | some raw =>
        by_cases whole : path = []
        · simp [readAt, whole]
          rfl
        · simp only [List.isEmpty_iff, if_neg whole, Option.elim_some, readAt]
          cases env.tryLoads raw with
          | error raised => rfl
          | ok read => cases read <;> rfl

/-- `when_present` looks at the step alone: it agrees with the resolver unless the stored content
lacks the sub-path. -/
theorem whenPresent_agrees_iff (alone : pc.contains "when_equals" = .ok false)
    (declares : pc.item "when_present" = .ok (.str ref)) (valid : isValidRefPath ref = true) :
    PresenceAgrees env pc ref data skipped referencing ↔ ContentHasPath env ref data skipped := by
  obtain ⟨first, sid, path, parts⟩ := HasSegment.of_valid valid
  unfold PresenceAgrees ContentHasPath
  rw [evaluatePrecondition_present alone declares parts, resolveRef_parts parts]
  simp only [parts, List.cons.injEq]
  by_cases isSkipped : sid ∈ skipped
  · simp only [if_pos isSkipped]
    constructor
    · rintro - _ _ _ raw ⟨-, rfl, -⟩ unskipped
      exact absurd isSkipped unskipped
    · intro _
      exact ⟨by simp, by simp⟩
  simp only [if_neg isSkipped, Dict.contains_iff_get?]
  cases stored : data.get? sid with
  | none =>
      constructor
      · rintro - _ _ _ raw ⟨-, rfl, -⟩ - there
        simp [stored] at there
      · intro _
        exact ⟨by simp, by simp⟩
  | some raw =>
      simp only [Option.isSome_some, Option.elim_some, readAt_some, readAt_quiet, true_iff]
      constructor
      · rintro ⟨⟨value, found⟩, -⟩ _ _ _ other ⟨-, rfl, rfl⟩ - there
        rw [stored, Option.some.injEq] at there
        rw [← there]
        exact contentAt_isSome.mp (by simp [found])
      · intro has
        have found := contentAt_isSome.mpr (has first sid path raw ⟨rfl, rfl, rfl⟩ isSkipped stored)
        exact ⟨Option.isSome_iff_exists.mp found, by simp⟩

def flagPresent (path : String) : Val := .obj [("when_present", .str path)]

theorem flag_present : PresenceAgrees flagEnv (flagPresent "step_data.a.flag") "step_data.a.flag"
    (Dict.set Table.empty "a" flagText) [] "b" := by
  refine (whenPresent_agrees_iff rfl rfl (by decide)).mpr ?_
  intro first sid path raw parts _ there
  have split : splitPath "step_data.a.flag" = ["step_data", "a", "flag"] := by rfl
  rw [split] at parts
  cases parts
  cases there
  exact .inr ⟨.obj [("flag", .int 1)], rfl, rfl⟩

/-- A sub-path that the content lacks is present all the same. -/
theorem not_always_present :
    ¬∀ (env : Env) (pc : Val) (ref : String) (data : StepData) (skipped : List String)
    (referencing : String), isValidRefPath ref = true → pc.contains "when_equals" = .ok false →
    pc.item "when_present" = .ok (.str ref) →
      PresenceAgrees env pc ref data skipped referencing := by
  intro always
  have agrees := always flagEnv (flagPresent "step_data.a.depth") "step_data.a.depth"
    (Dict.set Table.empty "a" flagText) [] "b" (by decide) rfl rfl
  obtain ⟨value, resolved⟩ := agrees.1.mp (by rfl)
  have computed : resolveRef flagEnv (.str "step_data.a.depth") (Dict.set Table.empty "a" flagText)
    [] "b" = .ok none := by rfl
  rw [computed] at resolved
  cases resolved

end Megalos
