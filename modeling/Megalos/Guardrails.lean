import Megalos.Advancing
import Megalos.Sample
import Megalos.WayOn

/-!
When the guardrails of an accepted workflow can be evaluated, and where a forced
branch goes: the validator checks neither the values a trigger compares with nor
that a target is a string.
-/

namespace Megalos

open KeyedTable

def UpToFirst {α : Type} (good hit : α → Prop) : List α → Prop
  | [] => True
  | item :: rest => good item ∧ (¬hit item → UpToFirst good hit rest)

/-- `re.search` raises exactly on what is no string or does not compile. -/
def Env.SearchesWith (env : Env) (compiles : String → Bool) : Prop :=
  ∀ pattern content, (∃ found, env.reSearch pattern content = .ok found) ↔
    ∃ text, pattern = .str text ∧ compiles text = true

section Trigger

variable (env : Env) (compiles : String → Bool) (content stepId : String) (session : Session)

/-- What a counting trigger counts, the key of its limit, and whether the count must exceed the
limit. -/
def counting : String → Option (Nat × String × Bool)
  | "step_count" => some (session.stepData.size, "max", false)
  | "step_revisit" => some (session.stepVisitCounts.getD stepId 0, "max_visits", false)
  | "output_length" => some (content.length, "max_chars", true)
  | _ => none

def patternsOf (trigger : Mapping) : Val := (trigger.get? "patterns").getD (.list [])

def limitOf (trigger : Mapping) (key : String) : Val := (trigger.get? key).getD (.int 0)

def TriggerTyped (trigger : Mapping) (kind : String) : Prop :=
  if kind = "keyword_match" then
    ∃ patterns, (patternsOf trigger).iter = .ok patterns ∧
      UpToFirst (fun pattern => ∃ text, pattern = .str text ∧ compiles text = true)
        (fun pattern => env.reSearch pattern content = .ok true) patterns
  else ∀ count key strict, counting content stepId session kind = some (count, key, strict) →
    (Val.number? (limitOf trigger key)).isSome = true

def TriggerMet (trigger : Mapping) (kind : String) : Prop :=
  if kind = "keyword_match" then
    ∃ patterns, (patternsOf trigger).iter = .ok patterns ∧
      ∃ pattern ∈ patterns, env.reSearch pattern content = .ok true
  else ∃ count key strict, counting content stepId session kind = some (count, key, strict) ∧
    Val.countReaches count (limitOf trigger key) strict = .ok true

def HasTrigger (guardrail : Val) (trigger : Mapping) (kind : String) : Prop :=
  guardrail.item "trigger" = .ok (.dict trigger) ∧ (Val.dict trigger).item "type" = .ok (.str kind)

def GuardrailMet (guardrail : Val) : Prop :=
  ∃ trigger kind, HasTrigger guardrail trigger kind ∧
    TriggerMet env content stepId session trigger kind

structure GuardrailTyped (good : Val → Prop) (guardrail : Val) : Prop where
  trigger : ∀ trigger kind, HasTrigger guardrail trigger kind →
    TriggerTyped env compiles content stepId session trigger kind
  met : GuardrailMet env content stepId session guardrail → good guardrail

end Trigger

section Patterns

variable {env : Env} {compiles : String → Bool} {content stepId : String} {session : Session}
  {patterns : List Val} {guardrail : Val} {trigger : Mapping} {kind : String}

theorem anyPattern_ok (searches : env.SearchesWith compiles) :
    (∃ found, anyPattern env content patterns = .ok found) ↔
    UpToFirst (fun pattern => ∃ text, pattern = .str text ∧ compiles text = true)
    (fun pattern => env.reSearch pattern content = .ok true) patterns := by
  induction patterns with
  | nil => exact iff_of_true ⟨false, rfl⟩ trivial
  | cons pattern rest ih =>
      rw [anyPattern, UpToFirst, ← searches pattern content]
      cases searched : env.reSearch pattern content with
      | error raised => simp
      | ok found =>
          cases found with
          | true => simp
          | false =>
              dsimp only
              rw [ih]
              simp

theorem anyPattern_true (evaluates : ∃ found, anyPattern env content patterns = .ok found) :
    anyPattern env content patterns = .ok true ↔ ∃ pattern ∈ patterns,
      env.reSearch pattern content = .ok true := by
  induction patterns with
  | nil => simp [anyPattern]
  | cons pattern rest ih =>
      rw [anyPattern] at evaluates ⊢
      cases searched : env.reSearch pattern content with
      | error raised => simp [searched] at evaluates
      | ok found =>
          cases found with
          | true => simp [searched]
          | false =>
              rw [searched] at evaluates
              simp only [List.mem_cons, exists_eq_or_imp, searched]
              rw [ih evaluates]
              simp

theorem countReaches_ok {count : Nat} {bound : Val} {strict : Bool} :
    (∃ reached, Val.countReaches count bound strict = .ok reached) ↔
      (Val.number? bound).isSome = true := by
  unfold Val.countReaches
  cases Val.number? bound <;> simp

end Patterns

section Evaluation

variable {env : Env} {compiles : String → Bool} {content stepId : String} {session : Session}
  {guardrail : Val} {trigger : Mapping} {kind : String} {items : List Val}

theorem guardrailFires_of (has : HasTrigger guardrail trigger kind) :
    guardrailFires env guardrail content session stepId =
      if kind = "keyword_match" then (patternsOf trigger).iter >>= anyPattern env content
      else
        match counting content stepId session kind with
        | some (count, key, strict) => Val.countReaches count (limitOf trigger key) strict
        | none => .ok false := by
  unfold guardrailFires
  rw [has.1, StatefulProgram.ok_bind, has.2, StatefulProgram.ok_bind]
  simp only [Val.isStr_str, beq_iff_eq, Val.getKey, StatefulProgram.ok_bind]
  by_cases keyword : kind = "keyword_match"
  · rw [if_pos keyword, if_pos keyword]
    rfl
  rw [if_neg keyword, if_neg keyword]
  by_cases steps : kind = "step_count"
  · rw [if_pos steps, steps]
    rfl
  rw [if_neg steps]
  by_cases revisit : kind = "step_revisit"
  · rw [if_pos revisit, revisit]
    rfl
  rw [if_neg revisit]
  by_cases length : kind = "output_length"
  · rw [if_pos length, length]
    rfl
  rw [if_neg length]
  have none : counting content stepId session kind = none := by
    unfold counting
    split
    · exact absurd rfl steps
    · exact absurd rfl revisit
    · exact absurd rfl length
    · rfl
  rw [none]
  rfl

theorem HasTrigger.unique {other : Mapping} {otherKind : String}
    (has : HasTrigger guardrail trigger kind) (also : HasTrigger guardrail other otherKind) :
    other = trigger ∧ otherKind = kind := by
  have sameTrigger := also.1.symm.trans has.1
  rw [Except.ok.injEq, Val.dict.injEq] at sameTrigger
  subst sameTrigger
  have sameKind := also.2.symm.trans has.2
  rw [Except.ok.injEq, Val.str.injEq] at sameKind
  exact ⟨rfl, sameKind⟩

theorem fires_ok (searches : env.SearchesWith compiles) (has : HasTrigger guardrail trigger kind) :
    (∃ fires, guardrailFires env guardrail content session stepId = .ok fires) ↔
      TriggerTyped env compiles content stepId session trigger kind := by
  rw [guardrailFires_of has]
  unfold TriggerTyped
  by_cases keyword : kind = "keyword_match"
  · rw [if_pos keyword, if_pos keyword]
    cases (patternsOf trigger).iter with
    | error raised => simp [StatefulProgram.error_bind]
    | ok patterns =>
        rw [StatefulProgram.ok_bind, anyPattern_ok searches]
        simp
  · rw [if_neg keyword, if_neg keyword]
    cases counting content stepId session kind with
    | none => simp
    | some counted =>
        obtain ⟨count, key, strict⟩ := counted
        dsimp only
        rw [countReaches_ok]
        constructor
        · rintro numeric _ _ _ ⟨⟩
          exact numeric
        · intro numeric
          exact numeric count key strict rfl

theorem fires_true (has : HasTrigger guardrail trigger kind)
    (evaluates : ∃ fires, guardrailFires env guardrail content session stepId = .ok fires) :
    guardrailFires env guardrail content session stepId = .ok true ↔
      TriggerMet env content stepId session trigger kind := by
  rw [guardrailFires_of has] at evaluates ⊢
  unfold TriggerMet
  by_cases keyword : kind = "keyword_match"
  · rw [if_pos keyword] at evaluates ⊢
    rw [if_pos keyword]
    cases iterates : (patternsOf trigger).iter with
    | error raised => simp [iterates, StatefulProgram.error_bind] at evaluates
    | ok patterns =>
        rw [iterates, StatefulProgram.ok_bind] at evaluates
        rw [StatefulProgram.ok_bind, anyPattern_true evaluates]
        simp
  · rw [if_neg keyword, if_neg keyword]
    cases counting content stepId session kind with
    | none => simp
    | some counted =>
        obtain ⟨count, key, strict⟩ := counted
        constructor
        · intro reached
          exact ⟨count, key, strict, rfl, reached⟩
        · rintro ⟨_, _, _, ⟨⟩, reached⟩
          exact reached

theorem guardrailMet_iff (has : HasTrigger guardrail trigger kind)
    (evaluates : ∃ fires, guardrailFires env guardrail content session stepId = .ok fires) :
    guardrailFires env guardrail content session stepId = .ok true ↔
      GuardrailMet env content stepId session guardrail := by
  rw [fires_true has evaluates]
  constructor
  · intro met
    exact ⟨trigger, kind, has, met⟩
  · rintro ⟨other, otherKind, also, met⟩
    obtain ⟨rfl, rfl⟩ := has.unique also
    exact met

theorem evaluateGuardrails_iff {good : Val → Prop} (searches : env.SearchesWith compiles)
    (triggered : ∀ guardrail ∈ items, ∃ trigger kind, HasTrigger guardrail trigger kind) :
    ((∃ fired, evaluateGuardrails env content session stepId items = .ok fired) ∧
      ∀ guardrail, evaluateGuardrails env content session stepId items = .ok (some guardrail) →
        good guardrail) ↔
      UpToFirst (GuardrailTyped env compiles content stepId session good)
        (GuardrailMet env content stepId session)
        items := by
  induction items with
  | nil => simp [evaluateGuardrails, UpToFirst]
  | cons guardrail rest ih =>
      obtain ⟨trigger, kind, has⟩ := triggered guardrail (by simp)
      have rule := ih fun other member => triggered other (by simp [member])
      have typed : (∃ fires, guardrailFires env guardrail content session stepId = .ok fires) ↔
          TriggerTyped env compiles content stepId session trigger kind := fires_ok searches has
      have ofTyped : GuardrailTyped env compiles content stepId session good guardrail →
          TriggerTyped env compiles content stepId session trigger kind :=
            fun isTyped => isTyped.trigger trigger kind has
      have toTyped : TriggerTyped env compiles content stepId session trigger kind →
          ∀ other otherKind, HasTrigger guardrail other otherKind →
            TriggerTyped env compiles content stepId session other otherKind := by
        intro isTyped other otherKind also
        obtain ⟨rfl, rfl⟩ := has.unique also
        exact isTyped
      rw [evaluateGuardrails, UpToFirst]
      cases fires : guardrailFires env guardrail content session stepId with
      | error raised =>
          rw [fires] at typed
          constructor
          · rintro ⟨⟨fired, evaluates⟩, -⟩
            simp at evaluates
          · rintro ⟨isTyped, -⟩
            obtain ⟨hit, isHit⟩ := typed.mpr (ofTyped isTyped)
            simp at isHit
      | ok hit =>
          have isTyped := typed.mp ⟨hit, fires⟩
          have met := guardrailMet_iff has ⟨hit, fires⟩
          cases hit with
          | true =>
              have isMet := met.mp fires
              dsimp only
              constructor
              · rintro ⟨-, goods⟩
                exact ⟨⟨toTyped isTyped, fun _ => goods guardrail rfl⟩, fun notMet =>
                  absurd isMet notMet⟩
              · rintro ⟨checked, -⟩
                refine ⟨⟨some guardrail, rfl⟩, ?_⟩
                intro fired isFired
                simp only [Except.ok.injEq, Option.some.injEq] at isFired
                subst isFired
                exact checked.met isMet
          | false =>
              have notMet : ¬GuardrailMet env content stepId session guardrail := by
                intro isMet
                have isHit := met.mpr isMet
                simp [fires] at isHit
              dsimp only
              rw [rule]
              constructor
              · intro others
                exact ⟨⟨toTyped isTyped, fun isMet => absurd isMet notMet⟩, fun _ => others⟩
              · rintro ⟨-, others⟩
                exact others notMet

end Evaluation

section Accepted

variable {env : Env} {registry : Option Registry} {stem : String} {raw doc : Val} {wf : Workflow}
  {compiles : String → Bool} {session : Session} {content stepId : String}

structure GuardrailChecked (guardrail : Val) : Prop where
  trigger : ∃ trigger kind, HasTrigger guardrail trigger kind
  action : ∃ action, guardrail.item "action" = .ok (.str action)
  target : guardrail.item "action" = .ok (.str "force_branch") →
    ∃ target, guardrail.item "target_step" = .ok target

theorem Val.item_dict {entries : Mapping} {key : String} {value : Val}
    (found : entries.get? key = some value) :
    (Val.dict entries).item key = .ok value := by
  have looked : Val.valueAt? entries key = some value := found
  simp [Val.item, looked]

theorem validateGuardrail_checked {ids : List Val} {index : Nat} {guardrail : Val}
    (passed : validateGuardrail env ids index guardrail = .ok []) : GuardrailChecked guardrail := by
  cases guardrail with
  | dict entries =>
      simp only [validateGuardrail, gather_ok_nil, List.forall_mem_cons, Except.ok.injEq,
        List.flatMap_eq_nil_iff, errorIf_nil, Bool.not_eq_eq_eq_not, Bool.not_false, List.not_mem_nil, false_implies, implies_true,
        and_true] at passed
      obtain ⟨⟨-, hasTrigger, hasAction, -⟩, action, trigger, target⟩ := passed
      obtain ⟨triggerValue, isTrigger⟩ := Option.isSome_iff_exists.mp hasTrigger
      obtain ⟨actionValue, isAction⟩ := Option.isSome_iff_exists.mp hasAction
      have triggerAt : Mapping.get? entries "trigger" = some triggerValue := isTrigger
      have actionAt : Mapping.get? entries "action" = some actionValue := isAction
      rw [triggerAt] at trigger
      rw [actionAt] at action target
      obtain ⟨name, -, rfl⟩ := oneOf_check action
      refine ⟨?_, ⟨name, Val.item_dict actionAt⟩, ?_⟩
      · cases triggerValue with
        | dict fields =>
            dsimp only at trigger
            cases declared : Val.valueAt? fields "type" with
            | none => simp [declared] at trigger
            | some kindValue =>
                rw [declared] at trigger
                obtain ⟨kind, -, rfl⟩ := oneOf_check trigger
                exact ⟨fields, kind, Val.item_dict triggerAt, Val.item_dict declared⟩
        | _ => simp at trigger
      · intro forces
        have same := (Val.item_dict actionAt).symm.trans forces
        rw [Except.ok.injEq, Val.str.injEq] at same
        subst same
        cases aims : Mapping.get? entries "target_step" with
        | none => simp [aims] at target
        | some value => exact ⟨value, Val.item_dict aims⟩
  | _ => simp [validateGuardrail] at passed

theorem validateWorkflow_guardrails (validated : validateWorkflow env registry stem raw = .ok ([],
    some doc))
    (loads : Workflow.load doc = some wf) {guardrails : Val}
    (declared : wf.get? "guardrails" = some guardrails) :
    ∃ items, guardrails = .list items ∧ ∀ guardrail ∈ items, GuardrailChecked guardrail := by
  obtain ⟨entries, steps, ids, rfl, -, pass⟩ := loadWorkflow_pass (loadWorkflow_ok.mpr validated)
  obtain ⟨entries', steps', same, -, -, fields⟩ := Workflow.load_some loads
  rw [Val.dict.injEq] at same
  subst same
  rw [fields (by simp)] at declared
  have passed := pass.guardrails
  simp only [validateGuardrails, declared] at passed
  cases guardrails with
  | list items =>
      refine ⟨items, rfl, ?_⟩
      intro guardrail member
      obtain ⟨index, bound, there⟩ := List.getElem_of_mem member
      refine validateGuardrail_checked (gather_ok_nil.mp passed _ (List.mem_map.mpr ⟨(guardrail,
        index), ?_, rfl⟩))
      rw [List.mk_mem_zipIdx_iff_getElem?, ← there]
      exact List.getElem?_eq_getElem bound
  | _ => simp at passed

theorem firedGuardrail_list {items : List Val}
    (declared : wf.get? "guardrails" = some (.list items)) :
    firedGuardrail env wf content session stepId =
      evaluateGuardrails env content session stepId items := by
  unfold firedGuardrail
  rw [declared]
  cases items with
  | nil => rfl
  | cons first rest => rfl

theorem firedGuardrail_none (absent : wf.get? "guardrails" = none) :
    firedGuardrail env wf content session stepId = .ok none := by
  unfold firedGuardrail
  rw [absent]
  rfl

end Accepted

def Lands (env : Env) (registry : Option Registry) (calls : Nat) (snapshot : Session)
    (wf : Workflow) (idx : Nat) (step : Step) (content branch : String) : Prop :=
  ∃ enough, ∀ fuel, enough ≤ fuel → ∃ advance text data,
    committed (env.withFuel fuel) registry calls snapshot wf idx step content branch =
      .advanced advance ∧
    advance.stored env = some (text, data) ∧ (findStep wf (.str text)).isSome = true

/-- The guardrails are evaluated, and a forced branch goes to a step: it becomes the next step, and
the submission lands on a step, on this one if it is a step of the client. -/
structure GuardrailsHold (env : Env) (registry : Option Registry) (wf : Workflow)
    (session : Session) (idx calls : Nat) (step : Step) (content branch : String) : Prop where
  returns : ∃ fired, firedGuardrail env wf content session step.id = .ok fired
  lands : ∀ guardrail, firedGuardrail env wf content session step.id = .ok (some guardrail) →
    guardrail.item "action" = .ok (.str "force_branch") → ∃ place target,
      findStep wf (.str target.id) = some (place, target) ∧
      nextStepOf wf idx step (some guardrail) branch = .ok (.goTo (.str target.id) true) ∧
      ∀ snapshot, session = { snapshot with stepData := snapshot.stepData.set step.id content } →
        Lands env registry calls snapshot wf idx step content branch ∧
        (target.isMcpToolCall = false → 0 < env.fuel →
          committed env registry calls snapshot wf idx step content branch =
            .advanced (.arrived (.str target.id) session.stepData calls))

def RestsOnStep (env : Env) (registry : Option Registry) (wf : Workflow) (start : Standing) :
    Prop :=
  ∃ last text, ComesTo env registry wf start last ∧ columnText env last.pointer = .ok text ∧
    (findStep wf (.str text)).isSome = true

/-- A forced branch has a string as target; from a step of the server, the way goes on to a step. -/
def AimsAtStep (env : Env) (registry : Option Registry) (wf : Workflow) (session : Session)
    (calls : Nat) (content stepId : String) (guardrail : Val) : Prop :=
  guardrail.item "action" = .ok (.str "force_branch") →
    ∃ text, guardrail.item "target_step" = .ok (.str text) ∧
    ∀ place target, findStep wf (.str text) = some (place, target) → target.isMcpToolCall = true →
      session.stepData.get? stepId = some content →
      RestsOnStep env registry wf ⟨calls, .str text, session.stepData⟩

/-- Up to the first guardrail whose trigger is met, all values are of the types the evaluation
needs, and this one aims at a step. -/
def Workflow.GuardrailsTyped (env : Env) (compiles : String → Bool) (registry : Option Registry)
    (wf : Workflow) (session : Session) (calls : Nat) (content stepId : String) : Prop :=
  ∀ guardrails, wf.get? "guardrails" = some (.list guardrails) →
    UpToFirst
      (GuardrailTyped env compiles content stepId session (AimsAtStep env registry wf session calls content stepId))
      (GuardrailMet env content stepId session) guardrails

section Landing

variable {env : Env} {wf : Workflow} {session snapshot : Session} {idx calls place : Nat}
  {step target : Step} {content branch text : String} {guardrail : Val} {registry : Option Registry}

theorem nextStepOf_forced (forces : guardrail.item "action" = .ok (.str "force_branch")) :
    nextStepOf wf idx step (some guardrail) branch =
      (guardrail.item "target_step").map fun target => .goTo target true := by
  have acts : ((fun action : Val =>
    action.isStr "force_branch") <$> guardrail.item "action" : Except Exn Bool) =
      .ok true := by
    rw [forces]
    simp [Functor.map, Except.map]
  unfold nextStepOf
  dsimp only
  rw [acts, StatefulProgram.ok_bind]
  dsimp only
  cases guardrail.item "target_step" with
  | error raised => rfl
  | ok target => rfl

theorem anyPattern_withFuel {patterns : List Val} (fuel : Nat) :
    anyPattern (env.withFuel fuel) content patterns = anyPattern env content patterns := by
  induction patterns with
  | nil => rfl
  | cons pattern rest ih =>
      unfold anyPattern
      rw [ih]
      rfl

theorem firedGuardrail_withFuel {stepId : String} (fuel : Nat) :
    firedGuardrail (env.withFuel fuel) wf content session stepId =
      firedGuardrail env wf content session stepId := by
  have same : ∀ items, evaluateGuardrails (env.withFuel fuel) content session stepId items =
      evaluateGuardrails env content session stepId items := by
    intro items
    induction items with
    | nil => rfl
    | cons guardrail rest ih =>
        have patterns : anyPattern (env.withFuel fuel) content = anyPattern env content :=
          funext fun patterns => anyPattern_withFuel fuel
        have fires : guardrailFires (env.withFuel fuel) guardrail content session stepId =
            guardrailFires env guardrail content session stepId := by
          unfold guardrailFires
          rw [patterns]
        rw [evaluateGuardrails, evaluateGuardrails, ih, fires]
  unfold firedGuardrail
  simp only [same]

theorem committed_forced (fires : firedGuardrail env wf content
      { snapshot with stepData := snapshot.stepData.set step.id content } step.id =
        .ok (some guardrail))
    (forces : guardrail.item "action" = .ok (.str "force_branch"))
    (aims : guardrail.item "target_step" = .ok (.str text)) :
    committed env registry calls snapshot wf idx step content branch =
      .ofAdvance (autoRun env registry wf env.fuel calls (.str text) (snapshot.stepData.set step.id content)) := by
  have action : (some guardrail).mapM (fun guardrail => guardrail.item "action") =
      .ok (some (.str "force_branch")) := by
    simp only [Option.mapM_some, forces]
    rfl
  unfold committed
  dsimp only
  rw [fires]
  dsimp only
  rw [action]
  dsimp only
  rw [if_neg (by simp [Val.isStr])]
  have calm : guardrailWarning (some guardrail) (some (.str "force_branch")) = .ok none := rfl
  rw [calm, nextStepOf_forced forces, aims]
  rfl

theorem client_meets (found : findStep wf (.str target.id) = some (place, target))
    (plain : target.isMcpToolCall = false) :
    ∀ idx step, wf.Meets (.str target.id) idx step → step.isMcpToolCall = false := by
  intro idx step meets
  have same := found.symm.trans meets.2
  rw [Option.some.injEq, Prod.mk.injEq] at same
  exact same.2 ▸ plain

theorem RestsOnStep.waits {data : StepData}
    (found : findStep wf (.str target.id) = some (place, target))
    (plain : target.isMcpToolCall = false) :
    RestsOnStep env registry wf ⟨calls, .str target.id, data⟩ := by
  refine ⟨⟨calls, .str target.id, data⟩, target.id, ⟨_, .refl, .waits (client_meets found plain)⟩,
    rfl, ?_⟩
  rw [found]
  rfl

/-- A forced submission lands on a step exactly if the way from its target comes to rest on one. -/
theorem lands_iff (executable : ∀ step ∈ wf.steps, step.isMcpToolCall = true →
    step.Executable env registry)
    (fires : firedGuardrail env wf content
      { snapshot with stepData := snapshot.stepData.set step.id content } step.id =
        .ok (some guardrail))
    (forces : guardrail.item "action" = .ok (.str "force_branch"))
    (aims : guardrail.item "target_step" = .ok (.str text)) :
    Lands env registry calls snapshot wf idx step content branch ↔
      RestsOnStep env registry wf ⟨calls, .str text, snapshot.stepData.set step.id content⟩ := by
  have goes : ∀ fuel, committed (env.withFuel fuel) registry calls snapshot wf idx step content branch =
      .ofAdvance (autoRun (env.withFuel fuel) registry wf fuel calls (.str text)
        (snapshot.stepData.set step.id content)) :=
    fun fuel => committed_forced ((firedGuardrail_withFuel fuel).trans fires) forces aims
  constructor
  · rintro ⟨enough, lands⟩
    obtain ⟨advance, name, data, commits, stored, names⟩ := lands enough le_rfl
    rw [goes] at commits
    have ways : Ways env registry wf ⟨calls, .str text, snapshot.stepData.set step.id content⟩
        (autoRun (env.withFuel enough) registry wf enough calls (.str text)
          (snapshot.stepData.set step.id content)) := by
      refine autoRun_ways executable enough _ fun spent => ?_
      dsimp only at spent
      rw [spent] at commits
      cases commits
    generalize autoRun (env.withFuel enough) registry wf enough calls (.str text)
      (snapshot.stepData.set step.id content) = result at commits ways
    cases ways with
    | breaks => cases commits
    | @rests advanced last rests comes =>
        cases commits
        refine ⟨last, name, comes, ?_, names⟩
        have resting : advance.resting = some (last.pointer, last.data) := by cases rests <;> rfl
        simp only [Advance.stored, resting, Option.bind_some] at stored
        split at stored
        · rename_i column
          cases stored
          exact column
        · cases stored
  · rintro ⟨last, name, comes, column, names⟩
    obtain ⟨advance, rests, enough, ends⟩ := comes.along executable
    refine ⟨enough, fun fuel more => ⟨advance, name, last.data, ?_, ?_, names⟩⟩
    · rw [goes, ends fuel more fuel more]
      rfl
    · have resting : advance.resting = some (last.pointer, last.data) := by cases rests <;> rfl
      simp only [Advance.stored, resting, Option.bind_some, column]

end Landing

section Aims

variable {env : Env} {registry : Option Registry} {wf : Workflow} {session : Session}
  {idx calls : Nat} {step : Step} {content branch : String} {guardrail : Val}

theorem GuardrailsHold.aims
    (executable : ∀ step ∈ wf.steps, step.isMcpToolCall = true → step.Executable env registry)
    (holds : GuardrailsHold env registry wf session idx calls step content branch)
    (fires : firedGuardrail env wf content session step.id = .ok (some guardrail)) :
    AimsAtStep env registry wf session calls content step.id guardrail := by
  intro forces
  obtain ⟨place, target, found, goes, lands⟩ := holds.lands guardrail fires forces
  rw [nextStepOf_forced forces] at goes
  cases aims : guardrail.item "target_step" with
  | error raised => simp [aims, Except.map] at goes
  | ok value =>
      simp only [aims, Except.map, Except.ok.injEq, NextStep.goTo.injEq, and_true] at goes
      subst goes
      refine ⟨target.id, rfl, fun _ _ _ _ stored => ?_⟩
      have isSession :
          session = { session with stepData := session.stepData.set step.id content } := by
        rw [Dict.set_self stored]
      have rests := (lands_iff executable (isSession ▸ fires) forces aims).mp
        (lands session isSession).1
      rwa [Dict.set_self stored] at rests

theorem AimsAtStep.lands
    (executable : ∀ step ∈ wf.steps, step.isMcpToolCall = true → step.Executable env registry)
    (aimsAt : AimsAtStep env registry wf session calls content step.id guardrail)
    (names : ∀ text, guardrail.item "target_step" = .ok (.str text) → wf.Names text)
    (fires : firedGuardrail env wf content session step.id = .ok (some guardrail))
    (forces : guardrail.item "action" = .ok (.str "force_branch")) : ∃ place target,
      findStep wf (.str target.id) = some (place, target) ∧
      nextStepOf wf idx step (some guardrail) branch = .ok (.goTo (.str target.id) true) ∧
      ∀ snapshot, session = { snapshot with stepData := snapshot.stepData.set step.id content } →
        Lands env registry calls snapshot wf idx step content branch ∧
        (target.isMcpToolCall = false → 0 < env.fuel →
          committed env registry calls snapshot wf idx step content branch =
            .advanced (.arrived (.str target.id) session.stepData calls)) := by
  obtain ⟨text, aims, onward⟩ := aimsAt forces
  obtain ⟨⟨place, target⟩, found⟩ := Option.isSome_iff_exists.mp (names text aims).found
  obtain rfl : text = target.id := Val.str.inj (findStep_spec found).2
  refine ⟨place, target, found, ?_, ?_⟩
  · rw [nextStepOf_forced forces, aims]
    rfl
  intro snapshot isSession
  subst isSession
  refine ⟨(lands_iff executable fires forces aims).mpr ?_, fun plain fueled => ?_⟩
  · cases mcp : target.isMcpToolCall with
    | true => exact onward place target found mcp (by simp)
    | false => exact .waits found mcp
  · obtain ⟨fuel, isFuel⟩ : ∃ fuel, env.fuel = fuel + 1 := ⟨env.fuel - 1, by omega⟩
    rw [committed_forced fires forces aims, isFuel]
    exact congrArg Verdict.ofAdvance
      (@autoRun_waits env registry wf fuel ⟨calls, .str target.id, _⟩ (client_meets found plain))

end Aims

/-- For an accepted workflow the guardrails hold exactly when the values they need are well typed,
and a forced branch aims at a step. -/
theorem guardrailsHold_iff {env : Env} {registry : Option Registry} {stem : String} {raw doc : Val}
    {wf : Workflow} {compiles : String → Bool} (searches : env.SearchesWith compiles)
    (validated : validateWorkflow env registry stem raw = .ok ([], some doc)) (loads : Workflow.load doc = some wf)
    (session : Session) (idx calls : Nat) (step : Step) (content branch : String) :
    GuardrailsHold env registry wf session idx calls step content branch ↔
      wf.GuardrailsTyped env compiles registry session calls content step.id := by
  have checked : wf.Checked := loadWorkflow_checked (loadWorkflow_ok.mpr validated) loads
  have executable : ∀ step ∈ wf.steps, step.isMcpToolCall = true → step.Executable env registry :=
    fun step member mcp =>
      Workflow.Validated.executable ⟨stem, raw, doc, loadWorkflow_ok.mpr validated, loads⟩ member mcp
  cases declared : wf.get? "guardrails" with
  | none =>
      refine iff_of_true ⟨⟨none, firedGuardrail_none declared⟩, ?_⟩ ?_
      · intro guardrail fires
        rw [firedGuardrail_none declared] at fires
        simp at fires
      · intro items isItems
        rw [declared] at isItems
        simp at isItems
  | some guardrails =>
      obtain ⟨items, rfl, each⟩ := validateWorkflow_guardrails validated loads declared
      have rule : _ ↔ UpToFirst (GuardrailTyped env compiles content step.id session
          (AimsAtStep env registry wf session calls content step.id)) (GuardrailMet env content step.id session) items :=
        evaluateGuardrails_iff searches fun guardrail member => (each guardrail member).trigger
      have typedIff : wf.GuardrailsTyped env compiles registry session calls content step.id ↔ UpToFirst
          (GuardrailTyped env compiles content step.id session
            (AimsAtStep env registry wf session calls content step.id))
          (GuardrailMet env content step.id session) items := by
        constructor
        · exact fun typed => typed items declared
        · intro typed others isOthers
          rw [declared, Option.some.injEq, Val.list.injEq] at isOthers
          exact isOthers ▸ typed
      rw [typedIff, ← rule]
      constructor
      · intro holds
        rw [← firedGuardrail_list declared]
        exact ⟨holds.returns, fun guardrail fires => holds.aims executable fires⟩
      · rintro ⟨returns, aimsAt⟩
        rw [← firedGuardrail_list declared] at returns aimsAt
        refine ⟨returns, fun guardrail fires forces =>
          (aimsAt guardrail fires).lands executable ?_ fires forces⟩
        intro text aims
        have member := evaluateGuardrails_mem (by rwa [firedGuardrail_list declared] at fires)
        obtain ⟨others, isOthers, forced⟩ := checked.forced _ declared
        obtain rfl := Val.list.inj isOthers
        exact forced guardrail member (Val.get?_of_item forces) text (Val.get?_of_item aims)

/-- `re.search` on patterns without special characters. -/
def literalEnv : Env :=
  { sampleEnv with
    reSearch := fun pattern content =>
      match pattern with
      | .str text => .ok (decide (text.toList <:+: content.toList))
      | _ => .error (.typeError "first argument must be string or compiled pattern") }

theorem literalEnv_searches : literalEnv.SearchesWith fun _ => true := by
  intro pattern content
  cases pattern with
  | str text => exact iff_of_true ⟨_, rfl⟩ ⟨text, rfl, rfl⟩
  | _ => simp [literalEnv]

def forcing (trigger : List (String × Val)) (target : Val) : Val :=
  .obj [("id", .str "g"), ("trigger", .obj trigger), ("action", .str "force_branch"),
    ("message", .str "back"), ("target_step", target)]

def branchingDoc (trigger : List (String × Val)) (target : Val) : Val :=
  .obj [("name", .str "branching"), ("description", .str "branching"), ("category", .str "sample"),
    ("output_format", .str "text"), ("steps", .list [stepDoc "a" [], stepDoc "b" []]),
    ("guardrails", .list [forcing trigger target])]

def keywordTrigger : List (String × Val) :=
    [("type", .str "keyword_match"), ("patterns", .list [.str "back"])]

def atStart : Session := newSession ⟨"s"⟩ "branching" "a" none "" 0

def answered : Session := { atStart with stepData := atStart.stepData.set "a" "go back" }

def branchingWorkflow (trigger : List (String × Val)) (target : Val) : Option Workflow :=
  match validateWorkflow literalEnv none "branching" (branchingDoc trigger target) with
  | .ok ([], some doc) => Workflow.load doc
  | _ => none

theorem branchingWorkflow_accepted {trigger : List (String × Val)} {target : Val} {wf : Workflow}
    (loads : branchingWorkflow trigger target = some wf) :
    ∃ doc, validateWorkflow literalEnv none "branching" (branchingDoc trigger target) = .ok ([],
      some doc) ∧
      Workflow.load doc = some wf := by
  unfold branchingWorkflow at loads
  split at loads
  · rename_i doc accepted
    exact ⟨doc, accepted, loads⟩
  · simp at loads

theorem forcedBack_holds : ∃ wf, branchingWorkflow keywordTrigger (.str "a") = some wf ∧
    GuardrailsHold literalEnv none wf answered 0 0 wf.first "go back" "" := by
  have loaded : (branchingWorkflow keywordTrigger (.str "a")).isSome = true := by rfl
  obtain ⟨wf, loads⟩ := Option.isSome_iff_exists.mp loaded
  have declared : (branchingWorkflow keywordTrigger (.str "a")).map (fun wf =>
    wf.get? "guardrails") =
      some (some (.list [forcing keywordTrigger (.str "a")])) := by rfl
  rw [loads, Option.map_some, Option.some.injEq] at declared
  obtain ⟨doc, accepted, loadsDoc⟩ := branchingWorkflow_accepted loads
  refine ⟨wf, loads, (guardrailsHold_iff literalEnv_searches accepted loadsDoc answered 0 0 wf.first "go back" "").mpr ?_⟩
  intro guardrails isGuardrails
  rw [declared, Option.some.injEq, Val.list.injEq] at isGuardrails
  subst isGuardrails
  have has : HasTrigger (forcing keywordTrigger (.str "a"))
      (keywordTrigger.map fun entry => (.str entry.1, entry.2)) "keyword_match" := ⟨rfl, rfl⟩
  have client : (branchingWorkflow keywordTrigger (.str "a")).map (fun wf =>
      (findStep wf (.str "a")).map fun entry => entry.2.isMcpToolCall) = some (some false) := by rfl
  rw [loads, Option.map_some, Option.some.injEq] at client
  refine ⟨⟨?_, fun _ _ => ⟨"a", rfl, fun place target found mcp _ => ?_⟩⟩, fun _ => trivial⟩
  case refine_2 =>
    rw [found, Option.map_some, Option.some.injEq, mcp] at client
    cases client
  intro trigger kind also
  obtain ⟨rfl, rfl⟩ := has.unique also
  unfold TriggerTyped
  rw [if_pos rfl]
  exact ⟨[.str "back"], rfl, ⟨"back", rfl, rfl⟩, fun _ => trivial⟩

/-- A limit that is a string is accepted, and the comparison raises; a target that is a number is
accepted, and the next step is that number. -/
theorem untypedGuardrails_accepted :
    (∃ wf, branchingWorkflow [("type", .str "step_count"), ("max", .str "ten")] (.str "a") =
      some wf ∧
      firedGuardrail literalEnv wf "go back" atStart "a" =
        .error (.typeError "'>=' not supported between instances of 'int' and 'str'")) ∧
    ∃ wf, branchingWorkflow keywordTrigger (.int 7) = some wf ∧
      firedGuardrail literalEnv wf "go back" atStart "a" =
        .ok (some (forcing keywordTrigger (.int 7))) ∧
      nextStepOf wf 0 wf.first (some (forcing keywordTrigger (.int 7))) "" =
        .ok (.goTo (.int 7) true) ∧
      ∀ step ∈ wf.steps, Val.str step.id ≠ .int 7 := by
  constructor
  · have loaded : (branchingWorkflow [("type", .str "step_count"),
      ("max", .str "ten")] (.str "a")).isSome = true := by
      rfl
    obtain ⟨wf, loads⟩ := Option.isSome_iff_exists.mp loaded
    have raises : (branchingWorkflow [("type", .str "step_count"),
      ("max", .str "ten")] (.str "a")).map
        (fun wf => firedGuardrail literalEnv wf "go back" atStart "a") =
        some (.error (.typeError "'>=' not supported between instances of 'int' and 'str'")) :=
          by rfl
    rw [loads, Option.map_some, Option.some.injEq] at raises
    exact ⟨wf, loads, raises⟩
  · have loaded : (branchingWorkflow keywordTrigger (.int 7)).isSome = true := by rfl
    obtain ⟨wf, loads⟩ := Option.isSome_iff_exists.mp loaded
    have fires : (branchingWorkflow keywordTrigger (.int 7)).map
        (fun wf => firedGuardrail literalEnv wf "go back" atStart "a") =
        some (.ok (some (forcing keywordTrigger (.int 7)))) := by rfl
    rw [loads, Option.map_some, Option.some.injEq] at fires
    exact ⟨wf, loads, fires, by rw [nextStepOf_forced rfl]; rfl, fun step _ => by simp⟩

end Megalos
