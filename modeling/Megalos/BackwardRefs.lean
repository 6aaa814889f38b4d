import Megalos.Sample
import Megalos.Validated

/-!
Where the ref of an accepted precondition points: to a step before, when it names one at all.
-/

namespace Megalos

variable {env : Env} {registry : Option Registry} {stem : String} {raw doc : Val} {steps : List Val}
  {position : Nat} {step : Mapping}

/-- The step has a precondition; the executor reads an explicit null as none. -/
def Carries (step : Mapping) : Prop := ∃ pc, step.get? "precondition" = some pc ∧ pc ≠ .none

def RefersTo (step : Mapping) (sid : String) : Prop :=
  ∃ ref first path, preconditionRef step = some ref ∧ isValidRefPath ref = true ∧
    splitPath ref = first :: sid :: path

def HasId (steps : List Val) (sid : String) (index : Nat) : Prop :=
  ∃ entry ∈ mappedSteps steps, entry.1 = index ∧ entry.2.get? "id" = some (.str sid)

/-- The named id is one of the list, and every step that has it comes before. -/
def RefersBack (steps : List Val) (position : Nat) (step : Mapping) : Prop :=
  ∃ sid, RefersTo step sid ∧ (∃ index, HasId steps sid index) ∧ ∀ index, HasId steps sid index →
    index < position

/-- No ref names an id that the list lacks, and the precondition of an `mcp_tool_call` step, which
nothing else checks, has a ref-path at all. -/
def RefersWithin (steps : List Val) (step : Mapping) : Prop :=
  (isMcpMapping step = true → ∃ sid, RefersTo step sid) ∧ ∀ sid, RefersTo step sid →
    ∃ index, HasId steps sid index

theorem RefersTo.unique {sid other : String} (refers : RefersTo step sid)
    (again : RefersTo step other) :
    sid = other := by
  obtain ⟨ref, first, path, found, -, parts⟩ := refers
  obtain ⟨ref', first', path', found', -, parts'⟩ := again
  rw [found, Option.some.injEq] at found'
  rw [found', parts'] at parts
  simp only [List.cons.injEq] at parts
  exact parts.2.1.symm

theorem mappedSteps_sorted : (mappedSteps steps).Pairwise fun left right => left.1 < right.1 := by
  have places : steps.zipIdx.Pairwise fun left right => left.2 < right.2 := by
    rw [← List.pairwise_map, List.zipIdx_map_snd]
    exact List.pairwise_lt_range'
  refine List.Pairwise.filterMap _ ?_ places
  rintro ⟨first, i⟩ ⟨second, j⟩ below left isLeft right isRight
  cases first with
  | dict first =>
      cases second with
      | dict second =>
          simp only [Option.some.injEq] at isLeft isRight
          rw [← isLeft, ← isRight]
          exact below
      | _ => simp at isRight
  | _ => simp at isLeft

theorem lastWithId_latest {sid : String} {index : Nat} (there : HasId steps sid index) :
    ∃ latest target, lastWithId (mappedSteps steps) sid = some (latest, target) ∧
      index ≤ latest := by
  obtain ⟨entry, mapped, rfl, named⟩ := there
  unfold lastWithId
  generalize kept : (mappedSteps steps).filter
    (fun entry => ((entry.2.get? "id").map (·.isStr sid)).getD false) = candidates
  have sorted : candidates.Pairwise fun left right => left.1 < right.1 := by
    rw [← kept]
    exact mappedSteps_sorted.filter _
  have member : entry ∈ candidates := by
    rw [← kept]
    exact List.mem_filter.mpr ⟨mapped, by simp [named]⟩
  cases last : candidates.getLast? with
  | none =>
      rw [List.getLast?_eq_none_iff] at last
      rw [last] at member
      simp at member
  | some latest =>
      refine ⟨latest.1, latest.2, rfl, ?_⟩
      obtain ⟨front, rfl⟩ := List.getLast?_eq_some_iff.mp last
      rcases List.mem_append.mp member with before | isLast
      · exact (List.pairwise_append.mp sorted).2.2 entry before latest (by simp) |>.le
      · rw [List.mem_singleton.mp isLast]

theorem validateReference_before {sid : String} {index : Nat}
    (passed : validateReference env (mappedSteps steps) position step = [])
    (refers : RefersTo step sid)
    (there : HasId steps sid index) : index < position := by
  obtain ⟨ref, first, path, found, valid, parts⟩ := refers
  obtain ⟨latest, target, isLast, below⟩ := lastWithId_latest there
  have has : step.has "precondition" = true := by
    unfold preconditionRef at found
    split at found
    · rename_i declared
      exact congrArg Option.isSome declared
    · simp at found
  simp only [validateReference, has, found, valid, parts, isLast, Bool.not_true, Bool.false_eq_true,
    if_false] at passed
  split at passed
  · simp at passed
  · split at passed
    · simp at passed
    · rename_i beyond
      omega

theorem validatePrecondition_refers {label : String} {pc : Val}
    (passed : validatePrecondition env step label = .ok [])
    (found : step.get? "precondition" = some pc) :
    ∃ sid, RefersTo step sid := by
  have named : ∀ ref, preconditionRef step = some ref → isValidRefPath ref = true →
    ∃ sid, RefersTo step sid := by
    intro ref extracted valid
    obtain ⟨first, sid, path, parts⟩ := HasSegment.of_valid valid
    exact ⟨sid, ref, first, path, extracted, valid, parts⟩
  obtain ⟨key, value, rfl, ⟨rfl, checked⟩ | ⟨rfl, checked⟩⟩ :=
    validatePrecondition_shape passed found
  · obtain ⟨fields, ref, rfl, refers, valid, -⟩ := validateWhenEquals_nil checked
    have declared : Val.valueAt? [(Val.str "when_equals", Val.dict fields)] "when_equals" =
      some (.dict fields) := rfl
    exact named ref (by simp [preconditionRef, found, declared, Val.get?, refers]) valid
  · obtain ⟨ref, rfl, valid⟩ := validateWhenPresent_nil checked
    exact named ref (by simp [preconditionRef, found, Val.valueAt?]) valid

/-- In an accepted document a precondition points back to a step exactly when it names one. -/
theorem refersBack_iff (accepted : validateWorkflow env registry stem raw = .ok ([], some doc))
    (declares : doc.get? "steps" = some (.list steps))
    (member : (position, step) ∈ mappedSteps steps)
    (carries : Carries step) : RefersBack steps position step ↔ RefersWithin steps step := by
  obtain ⟨entries, kept, -, found, -, -, passed, same⟩ := validateWorkflow_ok_nil.mp accepted
  rw [Option.some.injEq] at same
  have steps_eq : kept = steps := by
    rw [same] at declares
    change (withSchemaVersion entries).get? "steps" = _ at declares
    simpa [found] using declares
  subst steps_eq
  obtain ⟨own, -, preconditions, -⟩ := validateSteps_ok_nil.mp passed
  have reference : validateReference env (mappedSteps kept) position step = [] :=
    validateWorkflowPreconditions_nil.mp preconditions _ member
  constructor
  · rintro ⟨sid, refers, there, -⟩
    refine ⟨fun _ => ⟨sid, refers⟩, ?_⟩
    intro other again
    rwa [← refers.unique again]
  · rintro ⟨mcp, within⟩
    have named : ∃ sid, RefersTo step sid := by
      cases isMcp : isMcpMapping step with
      | true => exact mcp isMcp
      | false =>
          obtain ⟨pc, guarded, -⟩ := carries
          have checked := own position _ (mappedSteps_at member)
          simp only [validateStep, isMcp, Bool.false_eq_true, if_false] at checked
          have optional := gather_ok_nil.mp checked
            (validateStepOptionalFields env step (labelOf env step (toString position))) (by simp)
          exact validatePrecondition_refers (gather_ok_nil.mp optional
            (validatePrecondition env step (labelOf env step (toString position)))
              (by simp)) guarded
    obtain ⟨sid, refers⟩ := named
    exact ⟨sid, refers, within sid refers, fun index there =>
      validateReference_before reference refers there⟩

def unguardedStep : Mapping :=
    [("id", "a"), ("title", "a"), ("directive_template", "Answer.")].map (fun entry =>
  (Val.str entry.1, Val.str entry.2)) ++
    [(.str "gates", .list []), (.str "anti_patterns", .list [])]

/-- A step whose precondition asks for `ref`. -/
def guardedStep (ref : String) : Mapping :=
    [("id", "b"), ("title", "b"), ("directive_template", "Answer.")].map (fun entry =>
  (Val.str entry.1, Val.str entry.2)) ++
    [(.str "gates", .list []), (.str "anti_patterns", .list []),
    (.str "precondition", .obj [("when_present", .str ref)])]

def guardedMapping (ref : String) : Mapping :=
    [("name", "guarded"), ("description", "guarded"), ("category", "sample"),
  ("output_format", "text"), ("schema_version", "0.4")].map (fun entry =>
    (Val.str entry.1, Val.str entry.2)) ++
    [(.str "steps", .list [.dict unguardedStep, .dict (guardedStep ref)])]

theorem guarded_refersBack :
    RefersBack [.dict unguardedStep,
      .dict (guardedStep "step_data.a")] 1 (guardedStep "step_data.a") := by
  have accepted : validateWorkflow sampleEnv none "guarded" (.dict (guardedMapping "step_data.a")) =
      .ok ([], some (.dict (guardedMapping "step_data.a"))) := by rfl
  have carries : Carries (guardedStep "step_data.a") :=
    ⟨.obj [("when_present", .str "step_data.a")], rfl, by simp [Val.obj]⟩
  refine (refersBack_iff accepted rfl (List.mem_cons_of_mem _ (List.mem_singleton.mpr rfl)) carries).mpr ?_
  have refers : RefersTo (guardedStep "step_data.a") "a" :=
    ⟨"step_data.a", "step_data", [], rfl, by decide, by rfl⟩
  refine ⟨fun _ => ⟨"a", refers⟩, ?_⟩
  intro sid again
  rw [← refers.unique again]
  exact ⟨0, (0, unguardedStep), List.mem_cons_self, rfl, rfl⟩

/-- A ref to a step that does not exist is accepted. -/
theorem not_always_refersBack :
    ¬∀ (env : Env) (registry : Option Registry) (stem : String) (raw doc : Val)
    (steps : List Val) (position : Nat) (step : Mapping),
    validateWorkflow env registry stem raw = .ok ([], some doc) →
      doc.get? "steps" = some (.list steps) →
    (position, step) ∈ mappedSteps steps → Carries step → RefersBack steps position step := by
  intro always
  have accepted : validateWorkflow sampleEnv none "guarded" (.dict (guardedMapping "step_data.ghost")) =
      .ok ([], some (.dict (guardedMapping "step_data.ghost"))) := by rfl
  have carries : Carries (guardedStep "step_data.ghost") :=
    ⟨.obj [("when_present", .str "step_data.ghost")], rfl, by simp [Val.obj]⟩
  obtain ⟨sid, refers, ⟨index, entry, mapped, -, named⟩, -⟩ :=
    always _ _ _ _ _ _ 1 (guardedStep "step_data.ghost") accepted rfl
    (List.mem_cons_of_mem _ (List.mem_singleton.mpr rfl)) carries
  have ghost : RefersTo (guardedStep "step_data.ghost") "ghost" :=
    ⟨"step_data.ghost", "step_data", [], rfl, by decide, by rfl⟩
  rw [refers.unique ghost] at named
  have entries : mappedSteps [.dict unguardedStep, .dict (guardedStep "step_data.ghost")] =
      [(0, unguardedStep), (1, guardedStep "step_data.ghost")] := by rfl
  simp only [entries, List.mem_cons, List.not_mem_nil, or_false] at mapped
  rcases mapped with rfl | rfl
  · have isA : Mapping.get? unguardedStep "id" = some (.str "a") := by rfl
    simp [isA] at named
  · have isB : Mapping.get? (guardedStep "step_data.ghost") "id" = some (.str "b") := by rfl
    simp [isB] at named

end Megalos
