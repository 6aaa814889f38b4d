import Megalos.Advancing
import Megalos.RowChange
import Megalos.Sample
import Megalos.WayOn

/-!
The artifact of a completing child: stored by the parent, or kept with the child.
-/

namespace Megalos

open ChainForest GuardedRuns KeyedTable StatefulProgram StatefulProgram.Program

variable {env : Env} {deployment : Deployment} {world : World}

/-- After the call the parent has the artifact at the step it stood at, or the child has all its
data. -/
def World.KeepsArtifact (before after : World) (child : SessionId) (artifact : String)
    (data : StepData) : Prop :=
  (∃ parent row new, before.parentOf child = some parent ∧
    before.sessions.lookup parent = some row ∧
    after.sessions.lookup parent = some new ∧ new.stepData.get? row.currentStep = some artifact) ∨
  ∃ kept, after.sessions.lookup child = some kept ∧ kept.stepData = data

inductive Unstorable : Val → Prop
  | wide {value : Int} (outside : ¬(-2 ^ 63 ≤ value ∧ value < 2 ^ 63)) : Unstorable (.int value)
  | nan : Unstorable (.float .nan)
  | none : Unstorable .none
  | list {items : List Val} : Unstorable (.list items)
  | dict {entries : Mapping} : Unstorable (.dict entries)
  | native {scalar : OtherScalar} : Unstorable (.native scalar)
  | absent : Unstorable .absent

/-- The way of a parent past its call-step ends before a pointer is stored. -/
inductive Astray (env : Env) (registry : Option Registry) (wf : Workflow) (idx : Nat)
    (callStep : Step) (data : StepData) (calls : Nat) : Prop
  | pathless (branches : callStep.flag "branches" = true)
      (default : callStep.get? "default_branch" = none) :
      Astray env registry wf idx callStep data calls
  | misled {pointer : Val} (onward : afterCallStep wf idx callStep = .ok pointer)
      (fails : SkipFails env wf data pointer) : Astray env registry wf idx callStep data calls
  | cascades {pointer : Val} (onward : afterCallStep wf idx callStep = .ok pointer)
      (cascades : SkipCascades env wf data pointer) : Astray env registry wf idx callStep data calls
  | breaks {pointer next : Val} (onward : afterCallStep wf idx callStep = .ok pointer)
      (rests : SkipRests env wf data pointer next)
      (breaks : BreaksOff env registry wf ⟨calls, next, data⟩) :
      Astray env registry wf idx callStep data calls
  | refused {pointer next : Val} {last : Standing}
      (onward : afterCallStep wf idx callStep = .ok pointer)
      (rests : SkipRests env wf data pointer next)
      (comes : ComesTo env registry wf ⟨calls, next, data⟩ last)
      (unstorable : Unstorable last.pointer) : Astray env registry wf idx callStep data calls

/-- The artifact passes at the parent's call-step, whose way on ends before a pointer is stored. -/
def LosesArtifact (env : Env) (deployment : Deployment) (world : World) (child : SessionId)
    (artifact : String) (calls : Nat) : Prop :=
  ∃ parent row wf idx step, world.ledger.Parent child parent ∧
    Resolves deployment world.ledger parent row wf ∧
    findStep wf (.str row.currentStep) = some (idx, step) ∧ step.isCall = true ∧
    validateOutput env artifact step = .ok none ∧
    Astray env deployment.registry wf idx step (row.stepData.set row.currentStep artifact) calls ∧
    row.stepData.get? row.currentStep ≠ some artifact

section Advance

variable {registry : Option Registry} {wf : Workflow} {idx calls : Nat} {callStep : Step}
    {data : StepData}

theorem columnText_error {pointer : Val} :
    (∃ raised, columnText env pointer = .error raised) ↔ Unstorable pointer := by
  constructor
  · rintro ⟨raised, refuses⟩
    unfold columnText at refuses
    split at refuses
    · cases refuses
    · split at refuses
      · cases refuses
      · rename_i outside
        exact .wide outside
    · cases refuses
    · exact .nan
    · cases refuses
    · exact .none
    · rename_i text int bool nan float none
      cases pointer with
      | list items => exact .list
      | dict entries => exact .dict
      | native scalar => exact .native
      | absent => exact .absent
      | str value => exact absurd rfl (text value)
      | int value => exact absurd rfl (int value)
      | bool value => exact absurd rfl (bool value)
      | float value => exact absurd rfl (float value)
      | none => exact absurd rfl none
  · intro unstorable
    cases unstorable with
    | wide outside => exact ⟨_, by rw [columnText, if_neg outside]⟩
    | _ => exact ⟨_, rfl⟩

theorem storedBy_none {advance : Advance} {last : Standing} (rests : last.Rests advance) :
    storedBy env (.ok advance) = none ↔ Unstorable last.pointer := by
  rw [← columnText_error]
  have resting : advance.resting = some (last.pointer, last.data) := by cases rests <;> rfl
  simp only [storedBy, Advance.stored, resting, Option.bind_some]
  cases columnText env last.pointer <;> simp

theorem afterCallStep_raises : (∃ raised, afterCallStep wf idx callStep = .error raised) ↔
    callStep.flag "branches" = true ∧ callStep.get? "default_branch" = none := by
  unfold afterCallStep
  constructor
  · rintro ⟨raised, onward⟩
    split at onward
    · rename_i branches
      refine ⟨branches, ?_⟩
      cases default : callStep.get? "default_branch" with
      | none => rfl
      | some target =>
          rw [Step.item, fieldItem,
            show field? callStep.fields "default_branch" = _ from default] at onward
          cases onward
    · cases onward
  · rintro ⟨branches, default⟩
    rw [if_pos branches, Step.item, fieldItem,
      show field? callStep.fields "default_branch" = _ from default]
    exact ⟨_, rfl⟩

/-- The causes, told apart by how skipping ends. -/
theorem astray_iff {pointer : Val} (onward : afterCallStep wf idx callStep = .ok pointer) :
    Astray env registry wf idx callStep data calls ↔ SkipFails env wf data pointer ∨
      SkipCascades env wf data pointer ∨ ∃ next, SkipRests env wf data pointer next ∧
        (BreaksOff env registry wf ⟨calls, next, data⟩ ∨
          ∃ last, ComesTo env registry wf ⟨calls, next, data⟩ last ∧ Unstorable last.pointer) := by
  constructor
  · intro astray
    cases astray with
    | pathless branches default =>
        obtain ⟨raised, raises⟩ := afterCallStep_raises.mpr ⟨branches, default⟩
        cases onward.symm.trans raises
    | misled again fails => exact .inl (Except.ok.inj (onward.symm.trans again) ▸ fails)
    | cascades again cascades =>
        exact .inr (.inl (Except.ok.inj (onward.symm.trans again) ▸ cascades))
    | breaks again rests breaks =>
        exact .inr (.inr ⟨_, Except.ok.inj (onward.symm.trans again) ▸ rests, .inl breaks⟩)
    | refused again rests comes unstorable =>
        exact .inr (.inr ⟨_, Except.ok.inj (onward.symm.trans again) ▸ rests,
          .inr ⟨_, comes, unstorable⟩⟩)
  · rintro (fails | cascades | ⟨next, rests, breaks | ⟨last, comes, unstorable⟩⟩)
    · exact .misled onward fails
    · exact .cascades onward cascades
    · exact .breaks onward rests breaks
    · exact .refused onward rests comes unstorable

theorem parentAdvance_astray
    (executable : ∀ step ∈ wf.steps, step.isMcpToolCall = true → step.Executable env registry)
    (ends : parentAdvance env registry wf idx callStep data calls ≠ .error .diverges) :
    storedBy env (parentAdvance env registry wf idx callStep data calls) = none ↔
      Astray env registry wf idx callStep data calls := by
  unfold parentAdvance at ends ⊢
  cases onward : afterCallStep wf idx callStep with
  | error raised =>
      obtain ⟨branches, default⟩ := afterCallStep_raises.mp ⟨raised, onward⟩
      exact iff_of_true rfl (.pathless branches default)
  | ok pointer =>
      rw [onward] at ends
      dsimp only at ends ⊢
      rw [astray_iff onward]
      unfold skipAndRun at ends ⊢
      have unspent : applySkipLoop env pointer wf data false ≠ .error .diverges := by
        intro spent
        simp [spent] at ends
      have skips : Skips env wf data pointer (applySkipLoop env pointer wf data false) :=
        @applySkipLoop_skips env wf data pointer env.fuel unspent
      generalize applySkipLoop env pointer wf data false = result at ends skips ⊢
      cases skips with
      | cascades cascades => exact iff_of_true rfl (.inr (.inl cascades))
      | @fails raised fails other =>
          cases raised with
          | skippedPredecessor sid referencing => exact absurd rfl (other sid referencing)
          | _ => exact iff_of_true rfl (.inl fails)
      | @rests next skipped rests =>
          dsimp only at ends ⊢
          have ways : Ways env registry wf ⟨calls, next, data⟩
              (autoRun env registry wf env.fuel calls next data) :=
            autoRun_ways executable env.fuel ⟨calls, next, data⟩ ends
          generalize autoRun env registry wf env.fuel calls next data = advanced at ways
          cases ways with
          | breaks breaks => exact iff_of_true rfl (.inr (.inr ⟨next, rests, .inl breaks⟩))
          | @rests advance last resting comes =>
              rw [storedBy_none resting]
              constructor
              · exact fun unstorable => .inr (.inr ⟨next, rests, .inr ⟨last, comes, unstorable⟩⟩)
              · rintro (fails | cascades | ⟨other, again, breaks | ⟨place, also, unstorable⟩⟩)
                · exact absurd fails rests.not_fails
                · exact absurd cascades rests.not_cascades
                · obtain rfl := rests.unique again
                  exact absurd breaks (comes.unbroken executable)
                · obtain rfl := rests.unique again
                  obtain rfl := comes.unique executable also
                  exact unstorable

end Advance

theorem parentAdvance_keeps {wf : Workflow} {idx at_ calls : Nat} {callStep step : Step}
    {data stored : StepData} {key text : String} {registry : Option Registry} (checked : wf.Checked)
    (advanced : storedBy env (parentAdvance env registry wf idx callStep data calls) = some (text,
      stored))
    (found : findStep wf (.str key) = some (at_, step)) (call : step.isCall = true) :
    stored.get? key = data.get? key := by
  cases computed : parentAdvance env registry wf idx callStep data calls with
  | error raised => simp [computed, storedBy] at advanced
  | ok advance =>
      simp only [computed, storedBy, Advance.stored] at advanced
      obtain ⟨rest, resting, bound⟩ := Option.bind_eq_some_iff.mp advanced
      have sameData : rest.2 = stored := by
        split at bound
        · simp only [Option.some.injEq, Prod.mk.injEq] at bound
          exact bound.2
        · simp at bound
      simp only [parentAdvance] at computed
      split at computed
      · simp at computed
      rcases skipAndRun_entries computed rest.1 rest.2 resting key with same | ⟨⟨idx', step',
        found', mcp⟩, -⟩
      · rw [← sameData, same]
      · rw [found, Option.some.injEq, Prod.mk.injEq] at found'
        rw [← found'.2] at mcp
        simp [checked.mcpUncalled step (findStep_mem found) mcp] at call

section Parent

variable {child parent : SessionId} {artifact : String} {row new : Session} {wf : Workflow}
  {idx calls : Nat} {step : Step} {ledger : Ledger}

theorem losesArtifact_iff (sound : world.Sound env) (owner : world.ledger.Parent child parent)
    (resolves : Resolves deployment world.ledger parent row wf)
    (at_ : findStep wf (.str row.currentStep) = some (idx, step)) (isCall : step.isCall = true)
    (valid : validateOutput env artifact step = .ok none) :
    LosesArtifact env deployment world child artifact calls ↔
      Astray env deployment.registry wf idx step (row.stepData.set row.currentStep artifact) calls ∧
        row.stepData.get? row.currentStep ≠ some artifact := by
  constructor
  · rintro ⟨other, otherRow, otherWf, otherIdx, otherStep, again, found, there, -, -, lost, absent⟩
    obtain rfl := again.unique sound.forest owner
    obtain ⟨rfl, rfl⟩ := found.unique resolves
    rw [at_, Option.some.injEq, Prod.mk.injEq] at there
    obtain ⟨rfl, rfl⟩ := there
    exact ⟨lost, absent⟩
  · rintro ⟨lost, absent⟩
    exact ⟨parent, row, wf, idx, step, owner, resolves, at_, isCall, valid, lost, absent⟩

/-- A parent that is not resolved at its call-step, or that the artifact does not suit, loses none.
-/
theorem LosesArtifact.served (sound : world.Sound env) (owner : world.ledger.Parent child parent)
    (loses : LosesArtifact env deployment world child artifact calls) :
    ∃ row wf idx step, Resolves deployment world.ledger parent row wf ∧
      findStep wf (.str row.currentStep) = some (idx, step) ∧ step.isCall = true ∧
      validateOutput env artifact step = .ok none := by
  obtain ⟨other, row, wf, idx, step, again, resolves, at_, isCall, valid, -, -⟩ := loses
  obtain rfl := again.unique sound.forest owner
  exact ⟨row, wf, idx, step, resolves, at_, isCall, valid⟩

/-- The end of a call child: it stands, and its artifact was not for the parent to take, or the
parent took it and advanced. -/
theorem Finished.kept_or_delivered {last : Session} (sound : world.Sound env)
    (finished : Finished env deployment (world.ledger.setRow child last) calls child artifact .call
      ledger) :
    ledger.row child = some last ∧ ¬LosesArtifact env deployment world child artifact calls ∨
      ∃ parent row new wf idx step, world.ledger.Parent child parent ∧
        Resolves deployment world.ledger parent row wf ∧
        findStep wf (.str row.currentStep) = some (idx, step) ∧ step.isCall = true ∧
        validateOutput env artifact step = .ok none ∧
        Applies env (parentAdvance env deployment.registry wf idx step
          (row.stepData.set row.currentStep artifact) calls) row new ∧
        parentAdvance env deployment.registry wf idx step
          (row.stepData.set row.currentStep artifact) calls ≠ .error .diverges ∧
        ledger.row parent = some new ∧ ledger.row child = none := by
  have resolvesAfter : ∀ {parent row wf}, world.ledger.Parent child parent →
      Resolves deployment world.ledger parent row wf →
      Resolves deployment (world.ledger.setRow child last) parent row wf :=
    fun owner resolves => resolves.setRow (sound.apart owner)
  have there : ∀ {parent row}, world.ledger.Parent child parent →
      ((world.ledger.setRow child last).setRow parent row).row child = some last := by
    intro parent row owner
    rw [Ledger.setRow_row, if_neg (sound.apart owner).symm, Ledger.setRow_row, if_pos rfl]
  cases finished with
  | orphan unowned =>
      refine .inl ⟨by simp, ?_⟩
      rintro ⟨parent, row, wf, idx, step, owner, -⟩
      exact unowned parent owner
  | retained owner unresolved fresh =>
      refine .inl ⟨by simp, fun loses => ?_⟩
      obtain ⟨row, wf, idx, step, resolves, -⟩ := loses.served sound owner
      exact unresolved _ _ (resolvesAfter owner resolves)
  | marked owner stale marks =>
      refine .inl ⟨there owner, fun loses => ?_⟩
      obtain ⟨row, wf, idx, step, resolves, -⟩ := loses.served sound owner
      exact (resolvesAfter owner resolves).not_stale stale
  | drifted owner resolved off escalates =>
      refine .inl ⟨there owner, fun loses => ?_⟩
      obtain ⟨row, wf, idx, step, resolves, at_, isCall, -⟩ := loses.served sound owner
      obtain ⟨rfl, rfl⟩ := (resolvesAfter owner resolves).unique resolved
      simp [off _ _ at_] at isCall
  | unchecked owner resolved atStep isCall broken =>
      refine .inl ⟨by simp, fun loses => ?_⟩
      obtain ⟨row, wf, idx, step, resolves, at_, -, valid⟩ := loses.served sound owner
      obtain ⟨rfl, rfl⟩ := (resolvesAfter owner resolves).unique resolved
      rw [atStep, Option.some.injEq, Prod.mk.injEq] at at_
      simp [← at_.2, broken] at valid
  | rejected owner resolved atStep isCall invalid escalates =>
      refine .inl ⟨there owner, fun loses => ?_⟩
      obtain ⟨row, wf, idx, step, resolves, at_, -, valid⟩ := loses.served sound owner
      obtain ⟨rfl, rfl⟩ := (resolvesAfter owner resolves).unique resolved
      rw [atStep, Option.some.injEq, Prod.mk.injEq] at at_
      simp [← at_.2, invalid] at valid
  | @delivered parent row new wf idx step owner resolved atStep isCall valid applies ends =>
      have apart := sound.apart (Ledger.Parent.of_setRow.mp owner)
      refine .inr ⟨parent, row, new, wf, idx, step, Ledger.Parent.of_setRow.mp owner,
        resolved.of_setRow apart, atStep, isCall, valid, applies, ends, by simp, ?_⟩
      rw [Ledger.setRow_row, if_neg apart.symm, Ledger.dropAbove, Ledger.dropAt_row,
        Ledger.drop_row, if_pos rfl]

theorem keepsArtifact_of_gone {after : World} {data : StepData}
    (isParent : world.parentOf child = some parent) (before : world.sessions.lookup parent = some row)
    (found : after.sessions.lookup parent = some new) (gone : after.sessions.lookup child = none) :
    world.KeepsArtifact after child artifact data ↔
      new.stepData.get? row.currentStep = some artifact := by
  constructor
  · rintro (⟨other, otherRow, otherNew, again, there, foundNew, stored⟩ | ⟨kept, there, -⟩)
    · rw [isParent, Option.some.injEq] at again
      subst again
      rw [before, Option.some.injEq] at there
      rw [found, Option.some.injEq] at foundNew
      rw [there, foundNew]
      exact stored
    · simp [gone] at there
  · exact fun stored => .inl ⟨parent, row, new, isParent, before, found, stored⟩

end Parent

def deliveryDocs : List Val := [
  workflowDoc "parent" [stepDoc "c" [("call", .str "child")], stepDoc "d" []],
  workflowDoc "child" [stepDoc "x" []]]

def delivering : World :=
  serveAll sampleEnv (appOf sampleEnv deliveryDocs) World.empty [.startWorkflow "parent" "",
    .enterSubWorkflow "s" "c"]

def callFrame (callStepId : String) (createdAt : Timestamp) : Frame :=
  ⟨sampleToken 1, sampleToken 0, 1, .call, some callStepId, createdAt⟩

def cascadingDocs : List Val := [
  workflowDoc "parent" [stepDoc "a" [],
    stepDoc "k" [("precondition",
      .obj [("when_equals", .obj [("ref", .str "step_data.a"), ("value", .str "yes")])])],
    stepDoc "c" [("call", .str "child")],
    stepDoc "n" [("precondition", .obj [("when_present", .str "step_data.k")])]],
  workflowDoc "child" [stepDoc "x" []]]

def cascading : World :=
  serveAll sampleEnv (appOf sampleEnv cascadingDocs) World.empty
    [.startWorkflow "parent" "", .submitStep "s" "a" "no" "" "", .enterSubWorkflow "s" "c"]

end Megalos
