import Megalos.ArgResolution
import Megalos.SkipWay

/-!
The way of the server between two steps of the client, place by place: where it comes to
rest, and what makes it break off.
-/

namespace Megalos

open KeyedTable Relation StatefulProgram

structure Standing where
  calls : Nat
  pointer : Val
  data : StepData

def NamesSkipped (env : Env) (step : Step) (data : StepData) (skipped : List String) : Prop :=
  ∃ args before ref after, step.get? "args" = some args ∧ refsOf args = before ++ ref :: after ∧
    (∀ earlier ∈ before, Passes env data skipped earlier) ∧ refStep ref ∈ skipped

/-- The tool cannot be called: a ref goes below content that cannot be read, or the call is due and
its timeout is too large. -/
inductive Obstructed (env : Env) (step : Step) (data : StepData) (skipped : List String) : Prop
  | illegible {args : Val} {before after : List String} {ref : String}
      (isArgs : step.get? "args" = some args)
      (parts : refsOf args = before ++ ref :: after)
      (each : ∀ earlier ∈ before, Passes env data skipped earlier)
      (kept : refStep ref ∉ skipped) (chokes : ¬LegibleAt env data ref) :
        Obstructed env step data skipped
  | large {args : Val} (isArgs : step.get? "args" = some args)
      (each : ∀ ref ∈ refsOf args, Passes env data skipped ref)
      (present : hasAbsent (substitute (resolvedValue env data) args) = false)
      (large : ¬step.TimeoutFits) : Obstructed env step data skipped

def Runs (env : Env) (registry : Option Registry) (wf : Workflow) (start after : Standing) : Prop :=
  ∃ idx step skipped envelope, wf.Meets start.pointer idx step ∧ step.isMcpToolCall = true ∧
    computeSkippedSteps env wf start.data = .ok skipped ∧
    executed env registry step start.data skipped start.calls = .ok (envelope, after.calls) ∧
    after.pointer = afterMcpStep wf idx step ∧
      after.data = start.data.set step.id (env.dumps envelope)

/-- One turn of the way: a step is run, and what is to be skipped after it is skipped. -/
def Onward (env : Env) (registry : Option Registry) (wf : Workflow) (start next : Standing) :
    Prop :=
  ∃ after, Runs env registry wf start after ∧
    SkipRests env wf after.data after.pointer next.pointer ∧
    next.calls = after.calls ∧ next.data = after.data

/-- The way ends at the standing, with the second one to be stored: at a step of the client, or
where a skipped step is named. -/
inductive Halts (env : Env) (registry : Option Registry) (wf : Workflow) (place : Standing) :
    Standing → Prop
  | waits (client : ∀ idx step, wf.Meets place.pointer idx step → step.isMcpToolCall = false) :
      Halts env registry wf place place
  | argsCascade {idx : Nat} {step : Step} {skipped : List String}
      (meets : wf.Meets place.pointer idx step)
      (mcp : step.isMcpToolCall = true)
      (computed : computeSkippedSteps env wf place.data = .ok skipped)
      (names : NamesSkipped env step place.data skipped) : Halts env registry wf place place
  | guardCascade {after : Standing} (runs : Runs env registry wf place after)
      (cascades : SkipCascades env wf after.data after.pointer) : Halts env registry wf place after

inductive Breaks (env : Env) (registry : Option Registry) (wf : Workflow) (place : Standing) : Prop
  | unsurveyable {idx : Nat} {step : Step} (meets : wf.Meets place.pointer idx step)
      (mcp : step.isMcpToolCall = true)
      (unreadable : ¬wf.Surveyable env place.data) : Breaks env registry wf place
  | obstructed {idx : Nat} {step : Step} {skipped : List String}
      (meets : wf.Meets place.pointer idx step)
      (mcp : step.isMcpToolCall = true)
      (computed : computeSkippedSteps env wf place.data = .ok skipped)
      (obstructed : Obstructed env step place.data skipped) : Breaks env registry wf place
  | misled {after : Standing} (runs : Runs env registry wf place after)
      (fails : SkipFails env wf after.data after.pointer) : Breaks env registry wf place

def ComesTo (env : Env) (registry : Option Registry) (wf : Workflow) (start last : Standing) :
    Prop :=
  ∃ place, ReflTransGen (Onward env registry wf) start place ∧ Halts env registry wf place last

def BreaksOff (env : Env) (registry : Option Registry) (wf : Workflow) (start : Standing) : Prop :=
  ∃ place, ReflTransGen (Onward env registry wf) start place ∧ Breaks env registry wf place

variable {env : Env} {registry : Option Registry} {wf : Workflow} {step : Step} {data : StepData}
  {skipped : List String} {fuel idx calls : Nat} {start place last : Standing}

/-! The tool of one step. -/

theorem passRefs_after {before after : List String} {referencing : String}
    (segments : ∀ ref ∈ before, HasSegment ref)
    (each : ∀ earlier ∈ before, Passes env data skipped earlier) :
    passRefs env data skipped referencing (before ++ after) =
      passRefs env data skipped referencing after := by
  induction before with
  | nil => rfl
  | cons first rest ih =>
      rw [List.forall_mem_cons] at segments each
      have kept : refStep first ∉ skipped := each.1.1
      rw [← ih segments.2 each.2]
      unfold passRefs
      rw [List.cons_append, List.forM_cons, resolveRef_eq segments.1 each.1.2, if_neg kept]
      rfl

inductive Called (env : Env) (step : Step) (data : StepData) (args : Val) (calls : Nat) :
    Except Exn (Val × Nat) → Prop
  | unresolved {envelope : Val}
      (absent : hasAbsent (substitute (resolvedValue env data) args) = true) :
      Called env step data args calls (.ok (envelope, calls))
  | overflowed {message : String}
      (present : hasAbsent (substitute (resolvedValue env data) args) = false)
      (large : ¬step.TimeoutFits) :
        Called env step data args calls (.error (.uncaught "OverflowError" message))
  | sent {envelope : Val} (present : hasAbsent (substitute (resolvedValue env data) args) = false)
      (fits : step.TimeoutFits) : Called env step data args calls (.ok (envelope, calls + 1))

namespace Step.Executable

theorem executed_eq (executable : step.Executable env registry) (data : StepData)
    (skipped : List String) (calls : Nat) : ∃ args rest, step.get? "args" = some args ∧
      (∀ ref ∈ refsOf args, HasSegment ref) ∧
      executed env registry step data skipped calls =
        (passRefs env data skipped step.id (refsOf args) >>= fun _ => rest) ∧
      Called env step data args calls rest := by
  obtain ⟨⟨servers, name, config, rfl, isServer, known⟩, hasTool, entries, isArgs, checked⟩ :=
    executable
  obtain ⟨tool, isTool⟩ := Option.isSome_iff_exists.mp hasTool
  have argsItem : step.item "args" = .ok (.dict entries) := by
    rw [Step.item, fieldItem, show field? step.fields "args" = _ from isArgs]
  have serverItem : step.item "server" = .ok (.str name) := by
    rw [Step.item, fieldItem, show field? step.fields "server" = _ from isServer]
  have toolItem : step.item "tool" = .ok tool := by
    rw [Step.item, fieldItem, show field? step.fields "tool" = _ from isTool]
  have registered : servers.get (.str name) = .ok config := by simp [Registry.get, known]
  have marker := findAbsentRefPath_isSome (substitute (resolvedValue env data) (.dict entries)) ""
  unfold executed
  simp only [argsItem, ok_bind, resolveArgs_dict checked, bind_assoc]
  refine ⟨.dict entries, _, isArgs, refsOfEntries_segments entries checked, rfl, ?_⟩
  cases absent : findAbsentRefPath (substitute (resolvedValue env data) (.dict entries)) "" with
  | some path =>
      rw [absent] at marker
      exact .unresolved marker.symm
  | none =>
      rw [absent] at marker
      by_cases fits : step.TimeoutFits
      · obtain ⟨timeout, isTimeout⟩ := fits.effectiveTimeout isServer known
        simp only [isTimeout, serverItem, toolItem, registered, ok_bind]
        exact .sent marker.symm fits
      · simp only [effectiveTimeout_overflow fits, error_bind]
        exact .overflowed marker.symm fits

theorem names (executable : step.Executable env registry)
    (names : NamesSkipped env step data skipped) (calls : Nat) : ∃ sid referencing,
      executed env registry step data skipped calls =
        .error (.skippedPredecessor sid referencing) := by
  obtain ⟨args, before, ref, after, isArgs, parts, each, isSkipped⟩ := names
  obtain ⟨args', rest, isArgs', segments, eq, -⟩ := executable.executed_eq data skipped calls
  rw [isArgs, Option.some.injEq] at isArgs'
  subst isArgs'
  rw [parts] at segments eq
  have cascades : resolveRef env (.str ref) data skipped step.id =
      .error (.skippedPredecessor (refStep ref) step.id) :=
        resolveRef_skipped (segments ref (by simp)) isSkipped
  rw [eq, passRefs_after (fun ref member => segments ref (by simp [member])) each, passRefs,
    List.forM_cons, cascades]
  exact ⟨_, _, rfl⟩

theorem obstructed (executable : step.Executable env registry)
    (obstructed : Obstructed env step data skipped) (calls : Nat) :
    ∃ raised, executed env registry step data skipped calls = .error raised ∧
      ∀ sid referencing, raised ≠ .skippedPredecessor sid referencing := by
  obtain ⟨args, rest, isArgs, segments, eq, called⟩ := executable.executed_eq data skipped calls
  cases obstructed with
  | @illegible _ before after ref isArgs' parts each kept chokes =>
      rw [isArgs, Option.some.injEq] at isArgs'
      subst isArgs'
      rw [parts] at segments eq
      obtain ⟨raised, raises, other⟩ :=
        @resolveRef_escapes env data skipped step.id ref (segments ref (by simp)) kept chokes
      rw [eq, passRefs_after (fun ref member => segments ref (by simp [member])) each, passRefs,
        List.forM_cons, raises]
      exact ⟨raised, rfl, other⟩
  | large isArgs' each present large =>
      rw [isArgs, Option.some.injEq] at isArgs'
      subst isArgs'
      rw [eq, ← List.append_nil (refsOf args), passRefs_after segments each]
      cases called with
      | unresolved absent => simp [present] at absent
      | overflowed => exact ⟨_, rfl, by simp⟩
      | sent _ fits => exact absurd fits large

theorem executed_cases (executable : step.Executable env registry) (data : StepData)
    (skipped : List String) (calls : Nat) : NamesSkipped env step data skipped ∨
      Obstructed env step data skipped ∨
      ∃ envelope after, executed env registry step data skipped calls = .ok (envelope, after) := by
  obtain ⟨args, rest, isArgs, segments, eq, called⟩ := executable.executed_eq data skipped calls
  have passed : Passed env data skipped step.id (refsOf args) _ := passRefs_passed segments
  generalize passRefs env data skipped step.id (refsOf args) = result at eq passed
  cases passed with
  | cascaded parts each isSkipped => exact .inl ⟨args, _, _, _, isArgs, parts, each, isSkipped⟩
  | escaped parts each kept illegible =>
    exact .inr (.inl (.illegible isArgs parts each kept illegible))
  | through each =>
      rw [ok_bind] at eq
      cases called with
      | unresolved => exact .inr (.inr ⟨_, _, eq⟩)
      | overflowed present large => exact .inr (.inl (.large isArgs each present large))
      | sent => exact .inr (.inr ⟨_, _, eq⟩)

end Step.Executable

/-! The way. -/

theorem executed_withFuel :
    executed (env.withFuel fuel) registry step data skipped calls =
      executed env registry step data skipped calls := by
  unfold executed
  simp only [resolveArgs_loads (show (env.withFuel fuel).loads = env.loads from rfl)]
  rfl

theorem Runs.withFuel {after : Standing} (runs : Runs env registry wf place after)
    (patience : Nat) :
    Runs (env.withFuel patience) registry wf place after := by
  obtain ⟨idx, step, skipped, envelope, meets, mcp, computed, ran, pointer, data⟩ := runs
  refine ⟨idx, step, skipped, envelope, meets, mcp, ?_, ?_, pointer, data⟩
  · rw [computeSkippedSteps_withFuel, computed]
  · rw [executed_withFuel, ran]

section Skipped

variable {after : Standing}

theorem Runs.goes {next : Val} (runs : Runs env registry wf place after)
    (skips : applySkipLoop env after.pointer wf after.data false = .ok (next, skipped)) :
    autoRun env registry wf (fuel + 1) place.calls place.pointer place.data =
      autoRun env registry wf fuel after.calls next after.data := by
  obtain ⟨idx, step, skipped, envelope, ⟨unfinished, found⟩, mcp, computed, ran, isPointer,
    isData⟩ := runs
  rw [isPointer, isData] at skips
  rw [autoRun, isData]
  simp only [unfinished, Bool.false_eq_true, if_false, found, mcp, if_true, computed, ran, skips]

theorem Runs.stops {sid referencing : String} (runs : Runs env registry wf place after)
    (skips : applySkipLoop env after.pointer wf after.data false =
      .error (.skippedPredecessor sid referencing)) :
    autoRun env registry wf (fuel + 1) place.calls place.pointer place.data =
      .ok (.stopped after.pointer after.data after.calls) := by
  obtain ⟨idx, step, skipped, envelope, ⟨unfinished, found⟩, mcp, computed, ran, isPointer,
    isData⟩ := runs
  rw [isPointer, isData] at skips
  rw [autoRun, isPointer, isData]
  simp only [unfinished, Bool.false_eq_true, if_false, found, mcp, if_true, computed, ran, skips]

theorem Runs.raises {raised : Exn} (runs : Runs env registry wf place after)
    (skips : applySkipLoop env after.pointer wf after.data false = .error raised)
    (other : ∀ sid referencing, raised ≠ .skippedPredecessor sid referencing) :
    autoRun env registry wf (fuel + 1) place.calls place.pointer place.data = .error raised := by
  obtain ⟨idx, step, skipped, envelope, ⟨unfinished, found⟩, mcp, computed, ran, isPointer,
    isData⟩ := runs
  rw [isPointer, isData] at skips
  rw [autoRun]
  simp only [unfinished, Bool.false_eq_true, if_false, found, mcp, if_true, computed, ran, skips]

end Skipped

/-- Where the server stands at its step, and what that step answers. -/
theorem autoRun_raises {raised : Exn} (meets : wf.Meets place.pointer idx step)
    (mcp : step.isMcpToolCall = true)
    (raises : computeSkippedSteps env wf place.data = .error raised ∨
      ∃ skipped, computeSkippedSteps env wf place.data = .ok skipped ∧
        executed env registry step place.data skipped place.calls = .error raised)
    (other : ∀ sid referencing, raised ≠ .skippedPredecessor sid referencing) :
    autoRun env registry wf (fuel + 1) place.calls place.pointer place.data = .error raised := by
  rw [autoRun]
  simp only [meets.1, meets.2, Bool.false_eq_true, if_false, mcp, if_true]
  rcases raises with computed | ⟨skipped, computed, ran⟩
  · simp only [computed]
  · simp only [computed, ran]

theorem autoRun_cascades {sid referencing : String} (meets : wf.Meets place.pointer idx step)
    (mcp : step.isMcpToolCall = true)
    (computed : computeSkippedSteps env wf place.data = .ok skipped)
    (ran : executed env registry step place.data skipped place.calls =
      .error (.skippedPredecessor sid referencing)) :
    autoRun env registry wf (fuel + 1) place.calls place.pointer place.data =
      .ok (.stopped place.pointer place.data place.calls) := by
  rw [autoRun]
  simp only [meets.1, meets.2, Bool.false_eq_true, if_false, mcp, if_true, computed, ran]

theorem autoRun_waits (client : ∀ idx step, wf.Meets place.pointer idx step →
    step.isMcpToolCall = false) :
    autoRun env registry wf (fuel + 1) place.calls place.pointer place.data =
      .ok (.arrived place.pointer place.data place.calls) := by
  rw [autoRun]
  split
  · rfl
  rename_i unfinished
  cases found : findStep wf place.pointer with
  | none => rfl
  | some entry =>
  obtain ⟨idx, step⟩ := entry
  simp [client idx step ⟨by simpa using unfinished, found⟩]

inductive Standing.Rests (last : Standing) : Advance → Prop
  | stopped : last.Rests (.stopped last.pointer last.data last.calls)
  | arrived : last.Rests (.arrived last.pointer last.data last.calls)

theorem Onward.autoRun {next : Standing} (turn : Onward env registry wf place next) :
    ∃ enough, ∀ patience,
    enough ≤ patience → ∀ fuel,
      Megalos.autoRun (env.withFuel patience) registry wf (fuel + 1) place.calls place.pointer place.data =
        Megalos.autoRun (env.withFuel patience) registry wf fuel next.calls next.pointer next.data := by
  obtain ⟨after, runs, rests, calls, data⟩ := turn
  obtain ⟨skipped, enough, skips⟩ := rests.along
  refine ⟨enough, fun patience more fuel => ?_⟩
  rw [(runs.withFuel patience).goes (skips patience more), calls, data]

theorem Halts.autoRun (executable : ∀ step ∈ wf.steps, step.isMcpToolCall = true →
    step.Executable env registry)
    (halts : Halts env registry wf place last) : ∃ advance, last.Rests advance ∧
      ∃ enough, ∀ patience,
      enough ≤ patience → ∀ fuel,
        Megalos.autoRun (env.withFuel patience) registry wf (fuel + 1) place.calls place.pointer place.data =
          .ok advance := by
  cases halts with
  | waits client => exact ⟨_, .arrived, 0, fun patience _ fuel => autoRun_waits client⟩
  | argsCascade meets mcp computed names =>
      obtain ⟨sid, referencing, ran⟩ :=
        (executable _ (findStep_mem meets.2) mcp).names names place.calls
      exact ⟨_, .stopped, 0, fun patience _ fuel =>
        autoRun_cascades meets mcp (computeSkippedSteps_withFuel.trans computed)
          (executed_withFuel.trans ran)⟩
  | guardCascade runs cascades =>
      obtain ⟨sid, referencing, enough, skips⟩ := cascades.along
      exact ⟨_, .stopped, enough, fun patience more fuel =>
        (runs.withFuel patience).stops (skips patience more)⟩

theorem Breaks.autoRun (executable : ∀ step ∈ wf.steps, step.isMcpToolCall = true →
    step.Executable env registry)
    (breaks : Breaks env registry wf place) : ∃ raised enough, ∀ patience, enough ≤ patience →
      ∀ fuel,
      Megalos.autoRun (env.withFuel patience) registry wf (fuel + 1) place.calls place.pointer place.data =
        .error raised := by
  cases breaks with
  | unsurveyable meets mcp unreadable =>
      cases computed : computeSkippedSteps env wf place.data with
      | ok skipped => exact absurd (surveyable_iff.mpr ⟨skipped, computed⟩) unreadable
      | error raised =>
          refine ⟨raised, 0, fun patience _ fuel =>
            autoRun_raises meets mcp (.inl (computeSkippedSteps_withFuel.trans computed)) ?_⟩
          rintro sid referencing rfl
          exact skippedFrom_calm computed
  | obstructed meets mcp computed obstructed =>
      obtain ⟨raised, ran, other⟩ :=
        (executable _ (findStep_mem meets.2) mcp).obstructed obstructed place.calls
      exact ⟨raised, 0, fun patience _ fuel => autoRun_raises meets mcp
        (.inr ⟨_, computeSkippedSteps_withFuel.trans computed, executed_withFuel.trans ran⟩) other⟩
  | misled runs fails =>
      obtain ⟨raised, other, enough, skips⟩ := fails.along
      exact ⟨raised, enough, fun patience more fuel =>
        (runs.withFuel patience).raises (skips patience more) other⟩

/-- With enough fuel the run ends as it does at the last place of its way. -/
theorem autoRun_along {result : Except Exn Advance}
    (path : ReflTransGen (Onward env registry wf) start place)
    (ends : ∃ enough, ∀ patience, enough ≤ patience → ∀ fuel,
      autoRun (env.withFuel patience) registry wf (fuel + 1) place.calls place.pointer place.data =
        result) :
    ∃ enough, ∀ patience, enough ≤ patience → ∀ fuel, enough ≤ fuel →
      autoRun (env.withFuel patience) registry wf fuel start.calls start.pointer start.data =
        result := by
  induction path using ReflTransGen.head_induction_on with
  | refl =>
      obtain ⟨enough, ended⟩ := ends
      refine ⟨enough + 1, fun patience more fuel some => ?_⟩
      obtain ⟨fuel, rfl⟩ : ∃ rest, fuel = rest + 1 := ⟨fuel - 1, by omega⟩
      exact ended patience (by omega) fuel
  | head turn _ ih =>
      obtain ⟨enough, ended⟩ := ih
      obtain ⟨first, goes⟩ := turn.autoRun
      refine ⟨first + enough + 1, fun patience more fuel some => ?_⟩
      obtain ⟨fuel, rfl⟩ : ∃ rest, fuel = rest + 1 := ⟨fuel - 1, by omega⟩
      rw [goes patience (by omega)]
      exact ended patience (by omega) fuel (by omega)

/-- How a run ends: at rest, or broken off. -/
inductive Ways (env : Env) (registry : Option Registry) (wf : Workflow) (start : Standing) :
    Except Exn Advance → Prop
  | rests {advance : Advance} {last : Standing} (rests : last.Rests advance)
      (comes : ComesTo env registry wf start last) : Ways env registry wf start (.ok advance)
  | breaks {raised : Exn} (breaks : BreaksOff env registry wf start) :
      Ways env registry wf start (.error raised)

theorem Ways.head {next : Standing} {result : Except Exn Advance}
    (turn : Onward env registry wf start next) (ways : Ways env registry wf next result) :
    Ways env registry wf start result := by
  cases ways with
  | rests rests comes =>
      obtain ⟨place, path, halts⟩ := comes
      exact .rests rests ⟨place, path.head turn, halts⟩
  | breaks breaks =>
      obtain ⟨place, path, breaks⟩ := breaks
      exact .breaks ⟨place, path.head turn, breaks⟩

/-- A run that does not run out of fuel has come to rest, or has broken off. -/
theorem autoRun_ways (executable : ∀ step ∈ wf.steps, step.isMcpToolCall = true →
    step.Executable env registry)
    (patience : Nat) (start : Standing)
    (finite : autoRun (env.withFuel patience) registry wf fuel start.calls start.pointer start.data ≠
      .error .diverges) :
    Ways env registry wf start
      (autoRun (env.withFuel patience) registry wf fuel start.calls start.pointer start.data) := by
  induction fuel generalizing start with
  | zero => exact absurd rfl finite
  | succ fuel ih =>
      by_cases client : ∀ idx step, wf.Meets start.pointer idx step → step.isMcpToolCall = false
      · rw [autoRun_waits client]
        exact .rests .arrived ⟨start, .refl, .waits client⟩
      simp only [not_forall, Bool.not_eq_false] at client
      obtain ⟨idx, step, meets, mcp⟩ := client
      cases computed : computeSkippedSteps env wf start.data with
      | error raised =>
          have unreadable : ¬wf.Surveyable env start.data := by
            rw [surveyable_iff, computed]
            simp
          rw [autoRun_raises meets mcp (.inl (computeSkippedSteps_withFuel.trans computed))
            fun sid referencing same => skippedFrom_calm (same ▸ computed)]
          exact .breaks ⟨start, .refl, .unsurveyable meets mcp unreadable⟩
      | ok skipped =>
      have derived : computeSkippedSteps (env.withFuel patience) wf start.data = .ok skipped :=
        computeSkippedSteps_withFuel.trans computed
      have runnable := executable step (findStep_mem meets.2) mcp
      rcases runnable.executed_cases start.data skipped start.calls with names | obstructed | ⟨envelope, calls, ran⟩
      · obtain ⟨sid, referencing, ran⟩ := runnable.names names start.calls
        rw [autoRun_cascades meets mcp derived (executed_withFuel.trans ran)]
        exact .rests .stopped ⟨start, .refl, .argsCascade meets mcp computed names⟩
      · obtain ⟨raised, ran, other⟩ := runnable.obstructed obstructed start.calls
        rw [autoRun_raises meets mcp (.inr ⟨skipped, derived, executed_withFuel.trans ran⟩) other]
        exact .breaks ⟨start, .refl, .obstructed meets mcp computed obstructed⟩
      · let after : Standing :=
          ⟨calls, afterMcpStep wf idx step, start.data.set step.id (env.dumps envelope)⟩
        have runs : Runs env registry wf start after :=
          ⟨idx, step, skipped, envelope, meets, mcp, computed, ran, rfl, rfl⟩
        have runsOn := runs.withFuel patience
        have unspent : applySkipLoop (env.withFuel patience) after.pointer wf after.data false ≠ .error .diverges := by
          intro spent
          exact finite (runsOn.raises spent (by simp))
        have skips : Skips env wf after.data after.pointer _ := applySkipLoop_skips unspent
        generalize applied : applySkipLoop (env.withFuel patience) after.pointer wf after.data false = result at skips
        cases skips with
        | @rests next skipped rests =>
            have turn : Onward env registry wf start ⟨calls, next, after.data⟩ :=
              ⟨after, runs, rests, rfl, rfl⟩
            rw [runsOn.goes applied] at finite ⊢
            exact .head turn (ih ⟨calls, next, after.data⟩ finite)
        | cascades cascades =>
            rw [runsOn.stops applied]
            exact .rests .stopped ⟨start, .refl, .guardCascade runs cascades⟩
        | fails fails other =>
            rw [runsOn.raises applied other]
            exact .breaks ⟨start, .refl, .misled runs fails⟩

theorem ComesTo.along (executable : ∀ step ∈ wf.steps, step.isMcpToolCall = true →
    step.Executable env registry)
    (comes : ComesTo env registry wf start last) : ∃ advance, last.Rests advance ∧
      ∃ enough, ∀ patience,
      enough ≤ patience → ∀ fuel, enough ≤ fuel →
        autoRun (env.withFuel patience) registry wf fuel start.calls start.pointer start.data =
          .ok advance := by
  obtain ⟨place, path, halts⟩ := comes
  obtain ⟨advance, rests, ends⟩ := halts.autoRun executable
  exact ⟨advance, rests, autoRun_along path ends⟩

theorem BreaksOff.along (executable : ∀ step ∈ wf.steps, step.isMcpToolCall = true →
    step.Executable env registry)
    (breaks : BreaksOff env registry wf start) : ∃ raised enough, ∀ patience, enough ≤ patience →
      ∀ fuel,
      enough ≤ fuel → autoRun (env.withFuel patience) registry wf fuel start.calls start.pointer start.data =
        .error raised := by
  obtain ⟨place, path, breaks⟩ := breaks
  obtain ⟨raised, ends⟩ := breaks.autoRun executable
  exact ⟨raised, autoRun_along path ends⟩

theorem ComesTo.unbroken (executable : ∀ step ∈ wf.steps, step.isMcpToolCall = true →
    step.Executable env registry)
    (comes : ComesTo env registry wf start last) : ¬BreaksOff env registry wf start := by
  intro breaks
  obtain ⟨advance, -, enough, ends⟩ := comes.along executable
  obtain ⟨raised, more, again⟩ := breaks.along executable
  cases (ends (enough + more) (by omega) (enough + more) (by omega)).symm.trans
    (again (enough + more) (by omega) (enough + more) (by omega))

theorem ComesTo.unique {other : Standing}
    (executable : ∀ step ∈ wf.steps, step.isMcpToolCall = true → step.Executable env registry)
    (comes : ComesTo env registry wf start last) (also : ComesTo env registry wf start other) :
    other = last := by
  obtain ⟨advance, rests, enough, ends⟩ := comes.along executable
  obtain ⟨advance', rests', more, again⟩ := also.along executable
  have same := (ends (enough + more) (by omega) (enough + more) (by omega)).symm.trans
    (again (enough + more) (by omega) (enough + more) (by omega))
  rw [Except.ok.injEq] at same
  subst same
  obtain ⟨calls, pointer, data⟩ := last
  obtain ⟨calls', pointer', data'⟩ := other
  cases rests <;> cases rests' <;> rfl

end Megalos
