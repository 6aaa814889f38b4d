import Megalos.SkippedSteps

/-!
The way of the skip loop, state by state: where it comes to rest, where it cascades, and where
a precondition cannot be read.
-/

namespace Megalos

open KeyedTable Relation StatefulProgram

structure SkipState where
  pointer : Val
  skippedSet : List String
  skipped : List String

def Workflow.Meets (wf : Workflow) (pointer : Val) (idx : Nat) (step : Step) : Prop :=
  pointer.isStr complete = false ∧ findStep wf pointer = some (idx, step)

def SkipState.Guarded (state : SkipState) (wf : Workflow) (idx : Nat) (step : Step) (pc : Val) :
    Prop :=
  wf.Meets state.pointer idx step ∧ step.precondition = some pc

def Oversteps (env : Env) (wf : Workflow) (data : StepData) (state next : SkipState) : Prop :=
  ∃ idx step pc, state.Guarded wf idx step pc ∧
    evaluatePrecondition env pc data state.skippedSet step.id = .ok false ∧
    next = ⟨.str (wf.following idx), state.skippedSet ++ [step.id], state.skipped ++ [step.id]⟩

def SkipReaches (env : Env) (wf : Workflow) (data : StepData) (pointer : Val) (state : SkipState) :
    Prop :=
  ∃ skipped, computeSkippedSteps env wf data = .ok skipped ∧
    ReflTransGen (Oversteps env wf data) ⟨pointer, skipped, []⟩ state

def SkipRests (env : Env) (wf : Workflow) (data : StepData) (pointer next : Val) : Prop :=
  ∃ state, SkipReaches env wf data pointer state ∧ state.pointer = next ∧
    ∀ idx step pc, state.Guarded wf idx step pc →
    evaluatePrecondition env pc data state.skippedSet step.id = .ok true

def SkipCascades (env : Env) (wf : Workflow) (data : StepData) (pointer : Val) : Prop :=
  ∃ state idx step pc sid, SkipReaches env wf data pointer state ∧ state.Guarded wf idx step pc ∧
    Asks pc sid ∧
    sid ∈ state.skippedSet

/-- A precondition cannot be read: one of those that tell the skipped steps, or one that the loop
comes to. -/
def SkipFails (env : Env) (wf : Workflow) (data : StepData) (pointer : Val) : Prop :=
  ¬wf.Surveyable env data ∨ ∃ state idx step pc, SkipReaches env wf data pointer state ∧
    state.Guarded wf idx step pc ∧
    ¬Readable env data pc ∧ ∀ sid, Asks pc sid → sid ∉ state.skippedSet

variable {env : Env} {wf : Workflow} {step : Step} {data : StepData} {pointer : Val}
  {skipped : List String} {fuel : Nat}

/-! One precondition. -/

theorem Asks.cascades {pc : Val} {sid referencing : String} (asks : Asks pc sid)
    (member : sid ∈ skipped) :
    evaluatePrecondition env pc data skipped referencing =
      .error (.skippedPredecessor sid referencing) := by
  obtain ⟨ref, first, path, refers, parts⟩ := asks
  cases pc with
  | dict entries =>
      cases declared : Val.valueAt? entries "when_equals" with
      | some we =>
          simp only [Val.get?, declared] at refers
          rw [evaluate_equals declared, Val.item_of_get refers, ok_bind, resolveRef_parts parts,
            if_pos member]
          rfl
      | none =>
          simp only [Val.get?, declared] at refers
          rw [evaluate_present declared,
            Val.item_of_get (show (Val.dict entries).get? "when_present" = _ from refers), ok_bind]
          simp only [refParts, parts, ok_bind, member, if_true]
          rfl
  | _ => simp [Val.get?] at refers

/-- A precondition cascades where it asks for a skipped step, raises where it cannot be read, and
else decides. -/
theorem evaluatePrecondition_cases (env : Env) (pc : Val) (data : StepData) (skipped : List String)
    (referencing : String) :
    (∃ sid, Asks pc sid ∧ sid ∈ skipped ∧
      evaluatePrecondition env pc data skipped referencing =
        .error (.skippedPredecessor sid referencing)) ∨
    (∀ sid, Asks pc sid → sid ∉ skipped) ∧
      ((Readable env data pc ∧
        ∃ verdict, evaluatePrecondition env pc data skipped referencing = .ok verdict) ∨
        ¬Readable env data pc ∧
          ∃ raised, evaluatePrecondition env pc data skipped referencing = .error raised ∧
          ∀ sid step, raised ≠ .skippedPredecessor sid step) := by
  by_cases asked : ∃ sid, Asks pc sid ∧ sid ∈ skipped
  · obtain ⟨sid, asks, member⟩ := asked
    exact .inl ⟨sid, asks, member, asks.cascades member⟩
  have unasked : ∀ sid, Asks pc sid → sid ∉ skipped :=
    fun sid asks member => asked ⟨sid, asks, member⟩
  refine .inr ⟨unasked, ?_⟩
  by_cases readable : Readable env data pc
  · left
    refine ⟨readable, ?_⟩
    cases evaluated : evaluatePrecondition env pc data skipped referencing with
    | ok verdict => exact ⟨verdict, rfl⟩
    | error raised =>
        obtain ⟨sid, other, rfl⟩ := readable.calm raised evaluated
        rcases evaluatePrecondition_asksOnce env pc with unreadable | ⟨asked, answer, asks, -, quiet, eq⟩
        · exact absurd readable.calm (unreadable data skipped referencing)
        · rw [eq, if_neg (unasked asked asks)] at evaluated
          exact absurd evaluated (quiet _ _ _)
  · right
    refine ⟨readable, ?_⟩
    have raises : ¬Calm (evaluatePrecondition env pc data skipped referencing) :=
      evaluate_raises readable fun sid raw asks _ => unasked sid asks
    cases evaluated : evaluatePrecondition env pc data skipped referencing with
    | ok verdict => exact absurd (evaluated ▸ .ok) raises
    | error raised =>
        refine ⟨raised, rfl, ?_⟩
        rintro sid other rfl
        exact raises (evaluated ▸ .cascade)

/-! The skip loop. -/

theorem skippedFrom_readable {steps : List Step} {result : List String}
    (computed : skippedFrom env data steps skipped = .ok result)
    (fresh : ∀ id ∈ skipped, data.contains id = false) :
    ∀ step ∈ steps, data.contains step.id = false → ∀ pc, step.precondition = some pc →
      Readable env data pc := by
  induction steps generalizing skipped with
  | nil => simp
  | cons first rest ih =>
      have added : data.contains first.id = false →
          ∀ id ∈ skipped ++ [first.id], data.contains id = false := by
        intro absent id member
        rcases List.mem_append.mp member with old | isFirst
        · exact fresh id old
        · rwa [List.mem_singleton.mp isFirst]
      refine List.forall_mem_cons.mpr ⟨fun absent pc guarded => ?_, ?_⟩
      · by_contra unreadable
        have raises : ¬Calm (evaluatePrecondition env pc data skipped first.id) := by
          refine evaluate_raises unreadable fun sid raw _ found member => ?_
          have none := fresh sid member
          rw [Dict.contains_iff_get?, found] at none
          cases none
        unfold skippedFrom at computed
        simp only [absent, Bool.false_eq_true, if_false, guarded] at computed
        split at computed
        · rename_i evaluated
          exact raises (evaluated ▸ .ok)
        · rename_i evaluated
          exact raises (evaluated ▸ .ok)
        · rename_i evaluated
          exact raises (evaluated ▸ .cascade)
        · cases computed
      · rcases skippedFrom_cons computed with ⟨later, -⟩ | ⟨later, absent, -⟩
        · exact ih later fresh
        · exact ih later (added absent)

theorem surveyable_iff :
    wf.Surveyable env data ↔ ∃ skipped, computeSkippedSteps env wf data = .ok skipped := by
  constructor
  · exact fun surveyable => skippedFrom_ok surveyable
  · rintro ⟨result, computed⟩
    exact skippedFrom_readable computed (by simp)

theorem Oversteps.skipLoop {state next : SkipState} (turn : Oversteps env wf data state next) :
    Megalos.skipLoop env wf data (fuel + 1) state.pointer state.skippedSet state.skipped =
      Megalos.skipLoop env wf data fuel next.pointer next.skippedSet next.skipped := by
  obtain ⟨idx, step, pc, ⟨⟨unfinished, found⟩, guarded⟩, fails, rfl⟩ := turn
  rw [Megalos.skipLoop]
  simp only [unfinished, Bool.false_eq_true, if_false, found, guarded, fails]

inductive SkipEnds (env : Env) (wf : Workflow) (data : StepData) (state : SkipState) :
    Except Exn (Val × List String) → Prop
  | rests (passes : ∀ idx step pc, state.Guarded wf idx step pc →
      evaluatePrecondition env pc data state.skippedSet step.id = .ok true) :
      SkipEnds env wf data state (.ok (state.pointer, state.skipped))
  | raises {idx : Nat} {step : Step} {pc : Val} {raised : Exn}
      (guarded : state.Guarded wf idx step pc)
      (fails : evaluatePrecondition env pc data state.skippedSet step.id = .error raised) :
      SkipEnds env wf data state (.error raised)

theorem SkipEnds.skipLoop {state : SkipState} {result : Except Exn (Val × List String)}
    (ends : SkipEnds env wf data state result) :
    Megalos.skipLoop env wf data (fuel + 1) state.pointer state.skippedSet state.skipped =
      result := by
  rw [Megalos.skipLoop]
  cases ends with
  | rests passes =>
      split
      · rfl
      rename_i unfinished
      cases found : findStep wf state.pointer with
      | none => rfl
      | some entry =>
      obtain ⟨idx, step⟩ := entry
      dsimp only
      cases guarded : step.precondition with
      | none => rfl
      | some pc =>
      have guard : state.Guarded wf idx step pc := ⟨⟨by simpa using unfinished, found⟩, guarded⟩
      simp only [passes idx step pc guard]
  | raises guarded fails =>
      obtain ⟨⟨unfinished, found⟩, guarded⟩ := guarded
      simp only [unfinished, Bool.false_eq_true, if_false, found, guarded, fails]

theorem SkipState.turns (env : Env) (wf : Workflow) (data : StepData) (state : SkipState) :
    (∃ next, Oversteps env wf data state next) ∨ ∃ result, SkipEnds env wf data state result := by
  by_cases met : ∃ idx step pc, state.Guarded wf idx step pc
  · obtain ⟨idx, step, pc, guarded⟩ := met
    cases evaluated : evaluatePrecondition env pc data state.skippedSet step.id with
    | error raised => exact .inr ⟨_, .raises guarded evaluated⟩
    | ok verdict =>
        cases verdict with
        | false => exact .inl ⟨_, idx, step, pc, guarded, evaluated, rfl⟩
        | true =>
            refine .inr ⟨_, .rests fun idx' step' pc' again => ?_⟩
            have same := guarded.1.2.symm.trans again.1.2
            rw [Option.some.injEq, Prod.mk.injEq] at same
            obtain ⟨rfl, rfl⟩ := same
            obtain rfl := Option.some.inj (guarded.2.symm.trans again.2)
            exact evaluated
  · exact .inr ⟨_, .rests fun idx step pc guarded => absurd ⟨idx, step, pc, guarded⟩ met⟩

/-- With enough fuel the loop ends as it does at the last state of its way. -/
theorem skipLoop_along {start last : SkipState} {result : Except Exn (Val × List String)}
    (path : ReflTransGen (Oversteps env wf data) start last)
    (ends : SkipEnds env wf data last result) :
    ∃ enough, ∀ fuel, enough ≤ fuel →
      skipLoop env wf data fuel start.pointer start.skippedSet start.skipped = result := by
  induction path using ReflTransGen.head_induction_on with
  | refl =>
      refine ⟨1, fun fuel enough => ?_⟩
      obtain ⟨fuel, rfl⟩ : ∃ rest, fuel = rest + 1 := ⟨fuel - 1, by omega⟩
      exact ends.skipLoop
  | head turn _ ih =>
      obtain ⟨enough, ended⟩ := ih
      refine ⟨enough + 1, fun fuel more => ?_⟩
      obtain ⟨fuel, rfl⟩ : ∃ rest, fuel = rest + 1 := ⟨fuel - 1, by omega⟩
      rw [turn.skipLoop]
      exact ended fuel (by omega)

theorem skipLoop_ends (start : SkipState)
    (finite : skipLoop env wf data fuel start.pointer start.skippedSet start.skipped ≠ .error .diverges) :
    ∃ last, ReflTransGen (Oversteps env wf data) start last ∧ SkipEnds env wf data last
      (skipLoop env wf data fuel start.pointer start.skippedSet start.skipped) := by
  induction fuel generalizing start with
  | zero => exact absurd rfl finite
  | succ fuel ih =>
      rcases start.turns env wf data with ⟨next, turn⟩ | ⟨result, ends⟩
      · rw [turn.skipLoop] at finite ⊢
        obtain ⟨last, path, ends⟩ := ih next finite
        exact ⟨last, path.head turn, ends⟩
      · rw [ends.skipLoop]
        exact ⟨start, .refl, ends⟩

inductive Skips (env : Env) (wf : Workflow) (data : StepData) (pointer : Val) :
    Except Exn (Val × List String) → Prop
  | rests {next : Val} {skipped : List String} (rests : SkipRests env wf data pointer next) :
      Skips env wf data pointer (.ok (next, skipped))
  | cascades {sid referencing : String} (cascades : SkipCascades env wf data pointer) :
      Skips env wf data pointer (.error (.skippedPredecessor sid referencing))
  | fails {raised : Exn} (fails : SkipFails env wf data pointer)
      (other : ∀ sid referencing, raised ≠ .skippedPredecessor sid referencing) :
      Skips env wf data pointer (.error raised)

theorem SkipReaches.ended {state : SkipState} {result : Except Exn (Val × List String)}
    (reaches : SkipReaches env wf data pointer state) (ends : SkipEnds env wf data state result) :
    Skips env wf data pointer result := by
  cases ends with
  | rests passes => exact .rests ⟨state, reaches, rfl, passes⟩
  | @raises idx step pc raised guarded fails =>
      rcases evaluatePrecondition_cases env pc data state.skippedSet step.id with
        ⟨sid, asks, member, cascades⟩ | ⟨unasked,
          ⟨readable, verdict, evaluated⟩ | ⟨unreadable, _, evaluated, other⟩⟩
      · rw [cascades] at fails
        cases fails
        exact .cascades ⟨state, idx, step, pc, sid, reaches, guarded, asks, member⟩
      · rw [evaluated] at fails
        cases fails
      · rw [evaluated] at fails
        cases fails
        exact .fails (.inr ⟨state, idx, step, pc, reaches, guarded, unreadable, unasked⟩) other

theorem computeSkippedSteps_withFuel :
    computeSkippedSteps (env.withFuel fuel) wf data = computeSkippedSteps env wf data :=
  skippedFrom_withFuel

theorem skipLoop_withFuel {pointer : Val} {skippedSet : List String} (more : Nat) :
    skipLoop (env.withFuel more) wf data fuel pointer skippedSet skipped =
      skipLoop env wf data fuel pointer skippedSet skipped := by
  induction fuel generalizing pointer skippedSet skipped with
  | zero => rfl
  | succ fuel ih =>
      unfold skipLoop
      simp only [ih]
      rfl

/-- Skipping that does not run out of patience ends in one of three ways. -/
theorem applySkipLoop_skips (finite : applySkipLoop (env.withFuel fuel) pointer wf data false ≠ .error .diverges) :
    Skips env wf data pointer (applySkipLoop (env.withFuel fuel) pointer wf data false) := by
  unfold applySkipLoop at finite ⊢
  simp only [Bool.false_eq_true, if_false, computeSkippedSteps_withFuel,
    skipLoop_withFuel] at finite ⊢
  cases computed : computeSkippedSteps env wf data with
  | error raised =>
      have unsurveyable : ¬wf.Surveyable env data := by
        rw [surveyable_iff, computed]
        simp
      refine .fails (.inl unsurveyable) ?_
      rintro sid referencing rfl
      exact skippedFrom_calm computed
  | ok skipped =>
      simp only [computed] at finite
      obtain ⟨last, path, ends⟩ := skipLoop_ends ⟨pointer, skipped, []⟩ finite
      exact SkipReaches.ended ⟨skipped, computed, path⟩ ends

theorem SkipReaches.along {state : SkipState} {result : Except Exn (Val × List String)}
    (reaches : SkipReaches env wf data pointer state) (ends : SkipEnds env wf data state result) :
    ∃ enough, ∀ fuel, enough ≤ fuel →
      applySkipLoop (env.withFuel fuel) pointer wf data false = result := by
  obtain ⟨skipped, computed, path⟩ := reaches
  obtain ⟨enough, ended⟩ := skipLoop_along path ends
  refine ⟨enough, fun fuel more => ?_⟩
  unfold applySkipLoop
  simp only [Bool.false_eq_true, if_false, computeSkippedSteps_withFuel, computed,
    skipLoop_withFuel]
  exact ended fuel more

theorem SkipRests.along {next : Val} (rests : SkipRests env wf data pointer next) :
    ∃ skipped enough, ∀ fuel, enough ≤ fuel →
      applySkipLoop (env.withFuel fuel) pointer wf data false = .ok (next, skipped) := by
  obtain ⟨state, reaches, rfl, passes⟩ := rests
  exact ⟨state.skipped, reaches.along (.rests passes)⟩

theorem SkipCascades.along (cascades : SkipCascades env wf data pointer) :
    ∃ sid referencing enough, ∀ fuel, enough ≤ fuel →
      applySkipLoop (env.withFuel fuel) pointer wf data false =
        .error (.skippedPredecessor sid referencing) := by
  obtain ⟨state, idx, step, pc, sid, reaches, guarded, asks, member⟩ := cascades
  exact ⟨sid, step.id, reaches.along (.raises guarded (asks.cascades member))⟩

theorem SkipFails.along (fails : SkipFails env wf data pointer) :
    ∃ raised, (∀ sid referencing, raised ≠ .skippedPredecessor sid referencing) ∧ ∃ enough, ∀ fuel,
      enough ≤ fuel →
      applySkipLoop (env.withFuel fuel) pointer wf data false = .error raised := by
  rcases fails with unsurveyable | ⟨state, idx, step, pc, reaches, guarded, unreadable, unasked⟩
  · cases computed : computeSkippedSteps env wf data with
    | ok skipped => exact absurd (surveyable_iff.mpr ⟨skipped, computed⟩) unsurveyable
    | error raised =>
        refine ⟨raised, ?_, 0, fun fuel _ => ?_⟩
        · rintro sid referencing rfl
          exact skippedFrom_calm computed
        · simp [applySkipLoop, computeSkippedSteps_withFuel, computed]
  · rcases evaluatePrecondition_cases env pc data state.skippedSet step.id with
      ⟨sid, asks, member, -⟩ | ⟨-, ⟨readable, -⟩ | ⟨-, raised, evaluated, other⟩⟩
    · exact absurd member (unasked sid asks)
    · exact absurd readable unreadable
    · exact ⟨raised, other, reaches.along (.raises guarded evaluated)⟩

section Exclusive

variable {next other : Val}

theorem SkipRests.unique (rests : SkipRests env wf data pointer next)
    (also : SkipRests env wf data pointer other) :
    other = next := by
  obtain ⟨first, enough, skips⟩ := rests.along
  obtain ⟨second, more, again⟩ := also.along
  have same := (again (enough + more) (by omega)).symm.trans (skips (enough + more) (by omega))
  rw [Except.ok.injEq, Prod.mk.injEq] at same
  exact same.1

theorem SkipRests.not_cascades (rests : SkipRests env wf data pointer next) :
    ¬SkipCascades env wf data pointer := by
  intro cascades
  obtain ⟨skipped, enough, skips⟩ := rests.along
  obtain ⟨sid, referencing, more, raises⟩ := cascades.along
  cases (skips (enough + more) (by omega)).symm.trans (raises (enough + more) (by omega))

theorem SkipRests.not_fails (rests : SkipRests env wf data pointer next) :
    ¬SkipFails env wf data pointer := by
  intro fails
  obtain ⟨skipped, enough, skips⟩ := rests.along
  obtain ⟨raised, -, more, raises⟩ := fails.along
  cases (skips (enough + more) (by omega)).symm.trans (raises (enough + more) (by omega))

theorem SkipCascades.not_fails (cascades : SkipCascades env wf data pointer) :
    ¬SkipFails env wf data pointer := by
  intro fails
  obtain ⟨sid, referencing, enough, skips⟩ := cascades.along
  obtain ⟨raised, different, more, raises⟩ := fails.along
  have same := (skips (enough + more) (by omega)).symm.trans (raises (enough + more) (by omega))
  exact different sid referencing (Except.error.inj same).symm

end Exclusive

end Megalos
