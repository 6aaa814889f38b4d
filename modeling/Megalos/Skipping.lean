import Megalos.Advancing
import Megalos.Library.FiniteRank
import Megalos.Sample
import Megalos.Validated

/-!
Skipping: the preconditions of a validated workflow against the evaluator, and the end
of the skip loop.
-/

namespace Megalos

open FiniteRank KeyedTable Relation

variable {env : Env} {registry : Option Registry} {wf : Workflow} {step : Step} {data : StepData}
  {pointer next : String} {fuel : Nat}

/-- The same environment, with more or less patience for loops. -/
def Env.withFuel (env : Env) (fuel : Nat) : Env := { env with fuel := fuel }

/-- The move of the skip loop: from a step with a precondition to the id after it. -/
def Workflow.Skips (wf : Workflow) (pointer next : String) : Prop :=
  pointer ≠ complete ∧ ∃ idx step, findStep wf (.str pointer) = some (idx, step) ∧
    step.precondition.isSome ∧
    next = wf.following idx

def Workflow.Follows (wf : Workflow) (pointer next : String) : Prop :=
  pointer ≠ complete ∧ ∃ idx step, findStep wf (.str pointer) = some (idx, step) ∧
    next = wf.following idx

/-- The preconditions that validation does not look at can be evaluated. -/
def Workflow.ToolsEvaluable (env : Env) (wf : Workflow) : Prop :=
  ∀ step ∈ wf.steps, step.isMcpToolCall = true → ∀ pc, step.precondition = some pc →
    Evaluable env pc

def Asks (pc : Val) (sid : String) : Prop :=
  ∃ ref first path, (match pc.get? "when_equals" with
      | some we => we.get? "ref"
      | none => pc.get? "when_present") = some (.str ref) ∧ splitPath ref = first :: sid :: path

def Workflow.Readable (env : Env) (wf : Workflow) (data : StepData) : Prop :=
  ∀ step ∈ wf.steps, ∀ pc, step.precondition = some pc → Megalos.Readable env data pc

/-- On the step data skipping ends, and raises nothing but the cascade, whatever the step it starts
from. -/
def Workflow.SkipsSafely (env : Env) (wf : Workflow) (data : StepData) : Prop :=
  ∀ start, wf.Names start →
    Calm (computeSkippedSteps env wf data) ∧
    ∀ forced, ∃ enough, ∀ fuel, enough ≤ fuel →
      Calm (applySkipLoop (env.withFuel fuel) (.str start) wf data forced)

/-- Every id names one step, and none is the completion sentinel. -/
def Workflow.Distinct (wf : Workflow) : Prop :=
    (wf.steps.map Step.id).Nodup ∧ complete ∉ wf.steps.map Step.id

/-! Readable preconditions. -/

theorem Workflow.Validated.allEvaluable (validated : wf.Validated env registry)
    (tools : wf.ToolsEvaluable env) (member : step ∈ wf.steps) {pc : Val}
    (guarded : step.precondition = some pc) : Evaluable env pc := by
  cases mcp : step.isMcpToolCall with
  | true => exact tools step member mcp pc guarded
  | false => exact validated.evaluable member mcp guarded

/-- The preconditions that are checked or assumed to be evaluable can be read where the contents are
legible. -/
theorem Workflow.Validated.readable (validated : wf.Validated env registry)
    (tools : wf.ToolsEvaluable env) (legible : wf.Legible env data) : wf.Readable env data :=
  fun step member _ guarded => (validated.allEvaluable tools member guarded).readable
    fun sid raw below => legible step member sid raw (.compares guarded below)

def Workflow.Surveyable (env : Env) (wf : Workflow) (data : StepData) : Prop :=
  ∀ step ∈ wf.steps, data.contains step.id = false → ∀ pc, step.precondition = some pc →
    Megalos.Readable env data pc

theorem Workflow.Readable.surveyable (readable : wf.Readable env data) : wf.Surveyable env data :=
  fun step member _ pc guarded => readable step member pc guarded

theorem skippedFrom_ok {steps : List Step} {skipped : List String}
    (readable : ∀ step ∈ steps, data.contains step.id = false → ∀ pc, step.precondition = some pc →
      Readable env data pc) :
    ∃ result, skippedFrom env data steps skipped = .ok result := by
  induction steps generalizing skipped with
  | nil => exact ⟨skipped, rfl⟩
  | cons step rest ih =>
      have later : ∀ skipped, ∃ result, skippedFrom env data rest skipped = .ok result :=
        fun skipped => ih fun other member => readable other (by simp [member])
      unfold skippedFrom
      split
      · exact later skipped
      rename_i absent
      split
      · exact later skipped
      · rename_i pc guarded
        split
        · exact later skipped
        · exact later _
        · exact later _
        · rename_i raised expected raises
          obtain ⟨sid, referencing, isCascade⟩ :=
            (readable step (by simp) (by simpa using absent) pc guarded).calm raised raises
          exact absurd isCascade (expected sid referencing)

def rankOf (rank : String → Nat) : Val → Nat
  | .str text => rank text + 1
  | _ => 0

theorem skipLoop_calm {rank : String → Nat} {place : Val} {skippedSet skipped : List String}
    (falls : ∀ {pointer next}, wf.Skips pointer next → rank next < rank pointer)
    (readable : wf.Readable env data)
    (enough : rankOf rank place < fuel) :
    Calm (skipLoop env wf data fuel place skippedSet skipped) := by
  induction fuel generalizing place skippedSet skipped with
  | zero => omega
  | succ fuel ih =>
      unfold skipLoop
      split
      · exact .ok
      rename_i unfinished
      cases at_ : findStep wf place with
      | none => exact .ok
      | some entry =>
      obtain ⟨idx, step⟩ := entry
      dsimp only
      cases guarded : step.precondition with
      | none => exact .ok
      | some pc =>
      dsimp only
      have calm : Calm (evaluatePrecondition env pc data skippedSet step.id) :=
        (readable step (findStep_mem at_) pc guarded).calm
      split
      · rename_i raised raises
        rw [raises] at calm
        obtain ⟨sid, referencing, rfl⟩ := calm raised rfl
        exact .cascade
      · exact .ok
      · obtain ⟨-, rfl⟩ := findStep_spec at_
        have less : rank (wf.following idx) < rank step.id :=
          falls ⟨by simpa using unfinished, idx, step, at_, by simp [guarded], rfl⟩
        have below : rankOf rank (.str (wf.following idx)) < fuel := by
          simp only [rankOf] at enough ⊢
          omega
        exact ih below

def Workflow.places (wf : Workflow) : List String := complete :: wf.steps.map Step.id

theorem Workflow.following_mem (wf : Workflow) (idx : Nat) : wf.following idx ∈ wf.places := by
  unfold following
  split
  · rename_i step there
    exact List.mem_cons_of_mem _ (List.mem_map_of_mem (List.mem_of_getElem? there))
  · exact List.mem_cons_self

theorem Workflow.Skips.target (skips : wf.Skips pointer next) : next ∈ wf.places := by
  obtain ⟨-, idx, step, -, -, rfl⟩ := skips
  exact wf.following_mem idx

/-- Without a cycle of moves the loop ends, within as many turns as there are places. -/
theorem applySkipLoop_calm {place : Val} (readable : wf.Readable env data)
    (acyclic : Acyclic wf.Skips) (enough : wf.places.length + 1 < env.fuel) (forced : Bool) :
    Calm (applySkipLoop env place wf data forced) := by
  obtain ⟨rank, bound, falls⟩ := exists_rank acyclic Workflow.Skips.target
  obtain ⟨skipped, computed⟩ : ∃ skipped, computeSkippedSteps env wf data = .ok skipped :=
    skippedFrom_ok readable.surveyable
  unfold applySkipLoop
  split
  · exact .ok
  · rw [computed]
    refine skipLoop_calm falls readable (lt_of_le_of_lt ?_ enough)
    cases place with
    | str pointer => exact Nat.succ_le_succ (bound pointer)
    | _ => exact Nat.zero_le _

theorem Readable.withFuel {pc : Val} (readable : Readable env data pc) (fuel : Nat) :
    Readable (env.withFuel fuel) data pc := by
  cases readable with
  | equals equals refers segment legible compared =>
    exact .equals equals refers segment legible compared
  | present other refers segment => exact .present other refers segment

theorem Workflow.Readable.withFuel (readable : wf.Readable env data) (fuel : Nat) :
    wf.Readable (env.withFuel fuel) data :=
  fun step member pc guarded => (readable step member pc guarded).withFuel fuel

/-! Of the environment, the evaluator and the resolver of arguments look at `json.loads` only. -/

section Loads

variable {other : Env} {skipped : List String} {referencing : String}

theorem resolveRef_loads (same : other.loads = env.loads) (ref : Val) :
    resolveRef other ref data skipped referencing =
      resolveRef env ref data skipped referencing := by
  have tries : other.tryLoads = env.tryLoads := by
    funext text
    rw [Env.tryLoads, Env.tryLoads, same]
  unfold resolveRef
  rw [tries]

theorem skippedFrom_loads (same : other.loads = env.loads) {steps : List Step} :
    skippedFrom other data steps skipped = skippedFrom env data steps skipped := by
  induction steps generalizing skipped with
  | nil => rfl
  | cons step rest ih =>
      simp only [skippedFrom, ih, evaluatePrecondition, resolveRef_loads same]

mutual

theorem resolveArgs_loads (same : other.loads = env.loads) : (value : Val) →
    resolveArgs other data skipped referencing value =
      resolveArgs env data skipped referencing value
  | .dict entries => by simp only [resolveArgs, resolveEntries_loads same entries]
  | .list items => by simp only [resolveArgs, resolveItems_loads same items]
  | .str text => by simp only [resolveArgs, resolveRef_loads same]
  | .none | .bool _ | .int _ | .float _ | .native _ | .absent => rfl

theorem resolveItems_loads (same : other.loads = env.loads) : (items : List Val) →
    resolveItems other data skipped referencing items =
      resolveItems env data skipped referencing items
  | [] => rfl
  | item :: rest => by simp only [resolveItems, resolveArgs_loads same item,
    resolveItems_loads same rest]

theorem resolveEntries_loads (same : other.loads = env.loads) : (entries : List (Val × Val)) →
    resolveEntries other data skipped referencing entries =
      resolveEntries env data skipped referencing entries
  | [] => rfl
  | (key, value) :: rest => by
      simp only [resolveEntries, resolveArgs_loads same value, resolveEntries_loads same rest]

end

end Loads

theorem skippedFrom_withFuel {steps : List Step} {skipped : List String} :
    skippedFrom (env.withFuel fuel) data steps skipped = skippedFrom env data steps skipped :=
  skippedFrom_loads (show (env.withFuel fuel).loads = env.loads from rfl)

/-! What an unreadable precondition does. -/

theorem not_calm {α : Type} {raised : Exn}
    (other : ∀ sid referencing, raised ≠ .skippedPredecessor sid referencing) :
    ¬Calm (.error raised : Except Exn α) := by
  intro calm
  obtain ⟨sid, referencing, isCascade⟩ := calm raised rfl
  exact other sid referencing isCascade

theorem refParts_short {ref : String} (short : ¬HasSegment ref) :
    ∀ {first sid path}, splitPath ref ≠ first :: sid :: path :=
  fun same => short ⟨_, _, _, same⟩

theorem resolveRef_short (env : Env) (data : StepData) (skipped : List String)
    (referencing : String) {ref : String} (short : ¬HasSegment ref) :
    ∃ kind message, resolveRef env (.str ref) data skipped referencing =
      .error (.uncaught kind message) := by
  unfold resolveRef
  simp only [refParts, StatefulProgram.ok_bind]
  split
  · rename_i first sid path parts
    exact absurd parts (refParts_short short)
  · exact ⟨_, _, rfl⟩

theorem resolveRef_nonText (env : Env) (data : StepData) (skipped : List String)
    (referencing : String) {ref : Val} (nonText : ∀ text, ref ≠ .str text) :
    ∃ kind message, resolveRef env ref data skipped referencing =
      .error (.uncaught kind message) := by
  cases ref with
  | str text => exact absurd rfl (nonText text)
  | _ => exact ⟨_, _, rfl⟩

/-- Below content that it chokes on `json.loads` raises an error of its own. -/
theorem resolveRef_illegible {skipped : List String} {referencing ref sid raw : String}
    (segment : HasSegment ref) (below : GoesBelow ref sid) (found : data.get? sid = some raw)
    (chokes : ¬Contained (env.loads raw))
    (kept : sid ∉ skipped) :
    ∃ raised, resolveRef env (.str ref) data skipped referencing = .error raised ∧
      env.tryLoads raw = .error raised := by
  obtain ⟨first, named, path, parts⟩ := segment
  obtain ⟨isStep, deeper⟩ := below
  rw [refStep_eq parts] at isStep
  subst isStep
  have nonempty : path.isEmpty = false := by simpa [parts, List.isEmpty_iff] using deeper
  cases read : env.tryLoads raw with
  | ok result => exact absurd (contained_iff.mpr ⟨result, read⟩) chokes
  | error raised =>
      refine ⟨raised, ?_, rfl⟩
      unfold resolveRef
      simp only [refParts, parts, StatefulProgram.ok_bind, kept, if_false, found, nonempty,
        Bool.false_eq_true, read, StatefulProgram.error_bind]

theorem not_calm_uncaught {α : Type} {kind message : String} :
    ¬Calm (.error (.uncaught kind message) : Except Exn α) :=
  not_calm (by simp)

theorem not_calm_type {α : Type} {message : String} :
    ¬Calm (.error (.typeError message) : Except Exn α) :=
  not_calm (by simp)

theorem item_not_cascade {value : Val} {key : String} {raised : Exn}
    (misses : value.item key = .error raised) :
    ∀ sid referencing, raised ≠ .skippedPredecessor sid referencing := by
  unfold Val.item at misses
  split at misses
  · split at misses
    · cases misses
    · exact Except.error.inj misses ▸ by simp
  all_goals exact Except.error.inj misses ▸ by simp

variable {skipped : List String} {referencing : String}

theorem evaluate_equals {entries : Mapping} {we : Val}
    (declared : Val.valueAt? entries "when_equals" = some we) :
    evaluatePrecondition env (.dict entries) data skipped referencing = (do
      match ← resolveRef env (← we.item "ref") data skipped referencing with
      | none => return false
      | some resolved => return resolved.pyEq (← we.item "value")) := by
  have named : (Val.dict entries).contains "when_equals" = .ok true :=
    by simp [Val.contains, declared]
  have outer : (Val.dict entries).item "when_equals" = .ok we := by simp [Val.item, declared]
  unfold evaluatePrecondition
  rw [named, outer]
  rfl

theorem evaluate_present {entries : Mapping}
    (declared : Val.valueAt? entries "when_equals" = none) :
    evaluatePrecondition env (.dict entries) data skipped referencing = (do
      match ← refParts (← (Val.dict entries).item "when_present") with
      | _ :: sid :: _ =>
          if sid ∈ skipped then throw (.skippedPredecessor sid referencing)
          return data.contains sid
      | _ => throw (.uncaught "IndexError" "list index out of range")) := by
  have named : (Val.dict entries).contains "when_equals" = .ok false :=
    by simp [Val.contains, declared]
  unfold evaluatePrecondition
  rw [named]
  rfl

theorem not_calm_loads {α : Type} {raw : String} {raised : Exn}
    (read : env.tryLoads raw = .error raised) :
    ¬Calm (.error raised : Except Exn α) := by
  obtain ⟨message, rfl | rfl⟩ := tryLoads_raises read
  · exact not_calm (by simp)
  · exact not_calm_uncaught

/-- What the evaluator makes of a `when_equals` that it cannot read. -/
theorem evaluate_equals_raises {entries : Mapping} {we : Val}
    (declared : Val.valueAt? entries "when_equals" = some we)
    (unreadable : ¬Readable env data (.dict entries))
    (unasked : ∀ sid raw, Asks (.dict entries) sid → data.get? sid = some raw → sid ∉ skipped) :
    ¬Calm (evaluatePrecondition env (.dict entries) data skipped referencing) := by
  rw [evaluate_equals declared]
  cases refers : we.item "ref" with
  | error raised => exact not_calm (item_not_cascade refers)
  | ok ref =>
      rw [StatefulProgram.ok_bind]
      by_cases isText : ∃ text, ref = .str text
      case neg =>
        obtain ⟨kind, message, raises⟩ :=
          resolveRef_nonText env data skipped referencing (not_exists.mp isText)
        rw [raises]
        exact not_calm_uncaught
      obtain ⟨text, rfl⟩ := isText
      by_cases segment : HasSegment text
      case neg =>
        obtain ⟨kind, message, raises⟩ := resolveRef_short env data skipped referencing segment
        rw [raises]
        exact not_calm_uncaught
      have isDict : ∃ fields, we = .dict fields ∧ Val.valueAt? fields "ref" = some (.str text) := by
        have there := Val.get?_of_item refers
        cases we with
        | dict fields => exact ⟨fields, rfl, there⟩
        | _ => simp [Val.get?] at there
      obtain ⟨fields, rfl, isRef⟩ := isDict
      have kept : ∀ raw, data.get? (refStep text) = some raw → refStep text ∉ skipped := by
        intro raw found
        obtain ⟨first, sid, path, parts⟩ := segment
        rw [refStep_eq parts] at found ⊢
        refine unasked sid raw ⟨text, first, path, ?_, parts⟩ found
        simp only [Val.get?, declared, isRef]
      by_cases legible : LegibleAt env data text
      case neg =>
        simp only [LegibleAt, not_forall] at legible
        obtain ⟨sid, raw, below, found, chokes⟩ := legible
        obtain ⟨raised, raises, read⟩ :=
          resolveRef_illegible segment below found chokes (below.1 ▸ kept raw (below.1 ▸ found))
        rw [raises]
        exact not_calm_loads read
      -- what is left is a missing value that the content would be compared to
      have missing : (refValue env data text).isSome ∧ Val.valueAt? fields "value" = none := by
        by_contra present
        rw [not_and] at present
        refine unreadable (.equals declared isRef segment legible fun valued => ?_)
        exact Option.isSome_iff_ne_none.mpr (present valued)
      obtain ⟨value, valued⟩ := Option.isSome_iff_exists.mp missing.1
      have stored : ∃ raw, data.get? (refStep text) = some raw := by
        cases found : data.get? (refStep text) with
        | none => simp [refValue, found] at valued
        | some raw => exact ⟨raw, rfl⟩
      obtain ⟨raw, found⟩ := stored
      rw [resolveRef_eq segment legible, if_neg (kept raw found), valued]
      simp only [StatefulProgram.ok_bind, Val.item, missing.2]
      exact not_calm_uncaught

/-- The evaluator raises on a precondition it cannot read, unless it asks for a skipped step first.
-/
theorem evaluate_raises {pc : Val} (unreadable : ¬Readable env data pc)
    (unasked : ∀ sid raw, Asks pc sid → data.get? sid = some raw → sid ∉ skipped) :
    ¬Calm (evaluatePrecondition env pc data skipped referencing) := by
  cases pc with
  | dict entries =>
      cases declared : Val.valueAt? entries "when_equals" with
      | some we => exact evaluate_equals_raises declared unreadable unasked
      | none =>
          unfold evaluatePrecondition
          simp only [Val.contains, declared, Option.isSome_none, StatefulProgram.ok_bind,
            Bool.false_eq_true, if_false, Val.item]
          cases present : Val.valueAt? entries "when_present" with
          | none => exact not_calm_uncaught
          | some ref =>
              cases ref with
              | str text =>
                  simp only [refParts, StatefulProgram.ok_bind]
                  split
                  · rename_i first sid path parts
                    exact absurd (.present declared present ⟨first, sid, path, parts⟩) unreadable
                  · exact not_calm_uncaught
              | _ => exact not_calm_uncaught
  | list items =>
      unfold evaluatePrecondition
      simp only [Val.contains, StatefulProgram.ok_bind, Val.item]
      split <;> exact not_calm_type
  | str text =>
      unfold evaluatePrecondition
      simp only [Val.contains, StatefulProgram.ok_bind, Val.item]
      split <;> exact not_calm_type
  | native scalar => cases scalar <;> exact not_calm_type
  | _ => exact not_calm_type

theorem skippedFrom_fresh {steps : List Step} {skipped result : List String}
    (computed : skippedFrom env data steps skipped = .ok result)
    (fresh : ∀ id ∈ skipped, data.contains id = false) :
    ∀ id ∈ result, data.contains id = false := by
  induction steps generalizing skipped with
  | nil =>
      rw [skippedFrom, Except.ok.injEq] at computed
      exact computed ▸ fresh
  | cons step rest ih =>
      unfold skippedFrom at computed
      split at computed
      · exact ih computed fresh
      rename_i absent
      have added : ∀ id ∈ skipped ++ [step.id], data.contains id = false := by
        intro id member
        rcases List.mem_append.mp member with old | isNew
        · exact fresh id old
        · rw [List.mem_singleton.mp isNew]
          simpa using absent
      split at computed
      · exact ih computed fresh
      split at computed
      · exact ih computed fresh
      · exact ih computed added
      · exact ih computed added
      · simp at computed

namespace Workflow

theorem Distinct.found (distinct : wf.Distinct) {idx : Nat} (there : wf.steps[idx]? = some step) :
    findStep wf (.str step.id) = some (idx, step) := by
  obtain ⟨⟨place, found⟩, at_⟩ := Option.isSome_iff_exists.mp
    (show (findStep wf (.str step.id)).isSome from findStepFrom_isSome (List.mem_of_getElem? there) rfl)
  have spec := findStep_spec at_
  rw [Val.str.injEq] at spec
  have sameId : (wf.steps.map Step.id)[place]? = (wf.steps.map Step.id)[idx]? := by
    simp [spec.1, there, spec.2]
  have samePlace : idx = place :=
    (List.getElem?_inj (by simpa using (List.getElem?_eq_some_iff.mp there).1) distinct.1).mp sameId.symm
  subst samePlace
  rw [there, Option.some.injEq] at spec
  rw [at_, ← spec.1]

theorem Distinct.follows_acyclic (distinct : wf.Distinct) : Acyclic wf.Follows := by
  let height := fun pointer : String =>
    if pointer = complete then 0
    else wf.steps.length - ((findStep wf (.str pointer)).map Prod.fst).getD wf.steps.length
  refine acyclic_of_rank height ?_
  rintro pointer next ⟨unfinished, idx, step, at_, rfl⟩
  have below : idx < wf.steps.length := (List.getElem?_eq_some_iff.mp (findStep_spec at_).1).1
  have start : height pointer = wf.steps.length - idx := by simp [height, unfinished, at_]
  rw [start]
  unfold following
  split
  · rename_i later there
    have beyond : idx + 1 < wf.steps.length := (List.getElem?_eq_some_iff.mp there).1
    have isNext : height later.id ≤ wf.steps.length - (idx + 1) := by
      simp only [height, distinct.found there]
      split <;> simp
    omega
  · simp only [height, if_true]
    omega

theorem Distinct.acyclic (distinct : wf.Distinct) : Acyclic wf.Skips :=
  distinct.follows_acyclic.mono fun ⟨unfinished, idx, step, at_, _, goes⟩ =>
    ⟨unfinished, idx, step, at_, goes⟩

theorem SkipsSafely.readable (distinct : wf.Distinct) (safe : wf.SkipsSafely env data) :
    wf.Readable env data := by
  intro step member pc guarded
  by_contra unreadable
  obtain ⟨computes, loops⟩ := safe step.id ⟨step, member, rfl⟩
  cases computed : computeSkippedSteps env wf data with
  | error raised =>
      rw [computed] at computes
      obtain ⟨sid, referencing, rfl⟩ := computes raised rfl
      exact skippedFrom_calm computed
  | ok skipped =>
      obtain ⟨enough, ends⟩ := loops false
      have calm := ends (enough + 1) (by omega)
      obtain ⟨idx, bound, there⟩ := List.getElem_of_mem member
      have at_ := distinct.found (List.getElem?_eq_some_iff.mpr ⟨bound, there⟩)
      have unfinished : (Val.str step.id).isStr complete = false := by
        rw [Val.isStr_str, beq_eq_false_iff_ne]
        intro same
        exact distinct.2 (same ▸ List.mem_map_of_mem member)
      have sameComputed : computeSkippedSteps (env.withFuel (enough + 1)) wf data = .ok skipped :=
        skippedFrom_withFuel.trans computed
      have fuelEq : (env.withFuel (enough + 1)).fuel = enough + 1 := rfl
      simp only [applySkipLoop, Bool.false_eq_true, if_false, sameComputed, fuelEq, skipLoop,
        unfinished, at_, guarded]
        at calm
      have fresh := skippedFrom_fresh computed (by simp)
      have unasked : ∀ sid raw, Asks pc sid → data.get? sid = some raw → sid ∉ skipped :=
        fun sid raw _ found member =>
          by simpa [Dict.contains_iff_get?, found] using fresh sid member
      refine @evaluate_raises env data skipped step.id pc unreadable unasked ?_
      intro raised result
      have sameResult : evaluatePrecondition (env.withFuel (enough + 1)) pc data skipped step.id =
        .error raised := result
      rw [sameResult] at calm
      exact calm raised rfl

/-- The precondition of a step of the client can be read but for the contents it goes below. -/
theorem Validated.readable_iff (validated : wf.Validated env registry) (member : step ∈ wf.steps)
    (plain : step.isMcpToolCall = false) {pc : Val} (guarded : step.precondition = some pc) :
    Megalos.Readable env data pc ↔
      ∀ sid raw, ComparesBelow pc sid → data.get? sid = some raw → Contained (env.loads raw) :=
  ⟨fun readable _ _ => readable.legible, (validated.evaluable member plain guarded).readable⟩

/-- On readable step data skipping is safe if no moves form a cycle; with distinct ids it is safe on
no other. In a validated workflow a client's precondition is unreadable only below content that
`json.loads` chokes on. -/
theorem Validated.skipsSafely (validated : wf.Validated env registry) (data : StepData) :
    (wf.Readable env data → Acyclic wf.Skips → wf.SkipsSafely env data) ∧
      (wf.Distinct → (wf.SkipsSafely env data ↔ wf.Readable env data)) ∧
      ∀ step ∈ wf.steps, step.isMcpToolCall = false → ∀ pc, step.precondition = some pc →
        (Megalos.Readable env data pc ↔
          ∀ sid raw, ComparesBelow pc sid → data.get? sid = some raw →
            Contained (env.loads raw)) := by
  have safe : wf.Readable env data → Acyclic wf.Skips → wf.SkipsSafely env data := by
    intro readable acyclic start _
    constructor
    · obtain ⟨skipped, computed⟩ : ∃ skipped, computeSkippedSteps env wf data = .ok skipped :=
        skippedFrom_ok readable.surveyable
      rw [computed]
      exact .ok
    · intro forced
      refine ⟨wf.places.length + 2, fun fuel enough => ?_⟩
      exact applySkipLoop_calm (readable.withFuel fuel) acyclic enough forced
  refine ⟨safe, fun distinct =>
    ⟨fun holds => holds.readable distinct, fun readable => safe readable distinct.acyclic⟩, ?_⟩
  exact fun step member plain pc guarded => validated.readable_iff member plain guarded

end Workflow

/-- The workflow that `load_workflow` makes of a document. -/
def loadSample (raw : Val) : Option Workflow :=
  match loadWorkflow sampleEnv (some sampleRegistry) "workflow" raw with
  | .ok doc => Workflow.load doc
  | .error _ => none

theorem loadSample_validated {raw : Val} (loads : loadSample raw = some wf) :
    wf.Validated sampleEnv (some sampleRegistry) := by
  unfold loadSample at loads
  split at loads
  · rename_i doc loaded
    exact ⟨"workflow", raw, doc, loaded, loads⟩
  · simp at loads

def guardedDoc (pc : Val) : Val :=
  workflowDoc "guarded" [stepDoc "a" [], mcpDoc "t" [("precondition", pc)], stepDoc "b" []]

theorem skipsSafely_guarded :
    ∃ wf, loadSample (guardedDoc (.obj [("when_present", .str "step_data.a")])) = some wf ∧
    wf.SkipsSafely sampleEnv (Dict.set Table.empty "a" "done") := by
  have loaded : (loadSample (guardedDoc (.obj [("when_present", .str "step_data.a")]))).isSome =
    true := by rfl
  obtain ⟨wf, loads⟩ := Option.isSome_iff_exists.mp loaded
  have ids : (loadSample (guardedDoc (.obj [("when_present", .str "step_data.a")]))).map (fun wf =>
    wf.steps.map Step.id) =
      some ["a", "t", "b"] := by rfl
  have guards : (loadSample (guardedDoc (.obj [("when_present", .str "step_data.a")]))).map
      (fun wf => wf.steps.map fun step => (step.isMcpToolCall, step.precondition)) =
      some [(false, none), (true, some (.obj [("when_present", .str "step_data.a")])),
        (false, none)] := by rfl
  rw [loads, Option.map_some, Option.some.injEq] at ids guards
  refine ⟨wf, loads, (((loadSample_validated loads).skipsSafely _).2.1 ?_).mpr ?_⟩
  · rw [Workflow.Distinct, ids]
    decide
  · intro step member pc guarded
    have among : (step.isMcpToolCall, step.precondition) ∈
        wf.steps.map fun step => (step.isMcpToolCall, step.precondition) :=
          List.mem_map_of_mem member
    rw [guards, guarded] at among
    simp only [List.mem_cons, Prod.mk.injEq, Option.some.injEq, List.not_mem_nil, or_false,
      reduceCtorEq, and_false, false_or] at among
    rw [among.2]
    exact .present rfl rfl ⟨"step_data", "a", [], by decide⟩

/-- The validator does not read the precondition of a step of the server. -/
theorem not_always_skipsSafely :
    ¬∀ env registry wf data, Workflow.Validated env registry wf → wf.SkipsSafely env data := by
  intro always
  have loaded : (loadSample (guardedDoc (.obj [("when_present", .int 5)]))).isSome = true := by rfl
  obtain ⟨wf, loads⟩ := Option.isSome_iff_exists.mp loaded
  have raises : (loadSample (guardedDoc (.obj [("when_present", .int 5)]))).map (fun wf =>
      computeSkippedSteps sampleEnv wf Table.empty) =
      some (.error (.uncaught "AttributeError" "'int' object has no attribute 'split'")) := by rfl
  rw [loads, Option.map_some, Option.some.injEq] at raises
  have calm := (always _ _ wf Table.empty (loadSample_validated loads) wf.first.id
    ⟨wf.first, by simp [Workflow.steps], rfl⟩).1
  rw [raises] at calm
  exact not_calm_uncaught calm

end Megalos
