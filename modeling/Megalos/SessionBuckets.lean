import Megalos.Eviction
import Megalos.RateWindow

/-!
Tool calls through the gate, and the buckets of the session axis: one for every id that a
call ever passed, and none is taken back when its session goes.
-/

namespace Megalos

open ChainForest GuardedRuns KeyedTable

namespace Call

def toolName : Call → String
  | .listWorkflows _ => "list_workflows"
  | .startWorkflow _ _ => "start_workflow"
  | .getState _ => "get_state"
  | .getGuidelines _ => "get_guidelines"
  | .submitStep _ _ _ _ _ => "submit_step"
  | .reviseStep _ _ => "revise_step"
  | .enterSubWorkflow _ _ => "enter_sub_workflow"
  | .pushFlow _ _ _ _ => "push_flow"
  | .popFlow _ => "pop_flow"
  | .listSessions => "list_sessions"
  | .deleteSession _ => "delete_session"
  | .generateArtifact _ _ => "generate_artifact"

/-- The parameters of the tool, with the value that the call gives each and its default. -/
def parameters : Call → List (String × String × Option String)
  | .listWorkflows category => [("category", category, some "")]
  | .startWorkflow workflowType context =>
    [("workflow_type", workflowType, none), ("context", context, none)]
  | .getState sessionId => [("session_id", sessionId, none)]
  | .getGuidelines sessionId => [("session_id", sessionId, none)]
  | .submitStep sessionId stepId content branch artifactId =>
      [("session_id", sessionId, none), ("step_id", stepId, none), ("content", content, none),
        ("branch", branch, some ""), ("artifact_id", artifactId, some "")]
  | .reviseStep sessionId stepId => [("session_id", sessionId, none), ("step_id", stepId, none)]
  | .enterSubWorkflow parentSessionId callStepId =>
      [("parent_session_id", parentSessionId, none), ("call_step_id", callStepId, none)]
  | .pushFlow sessionId workflowType pausedAtStep context =>
      [("session_id", sessionId, none), ("workflow_type", workflowType, none),
        ("paused_at_step", pausedAtStep, none), ("context", context, none)]
  | .popFlow sessionId => [("session_id", sessionId, none)]
  | .listSessions => []
  | .deleteSession sessionId => [("session_id", sessionId, none)]
  | .generateArtifact sessionId outputFormat =>
      [("session_id", sessionId, none), ("output_format", outputFormat, some "auto")]

structure CarriedBy (call : Call) (context : ToolContext) : Prop where
  tool : context.toolName = call.toolName
  given : ∀ parameter ∈ call.parameters,
    context.arguments.get? parameter.1 = some (.str parameter.2.1) ∨
    context.arguments.get? parameter.1 = none ∧ parameter.2.2 = some parameter.2.1

end Call

structure Gated where
  limiter : RateLimiter
  world : World

/-- A request on its way through the gate; no call where no tool takes its arguments. -/
structure Passage where
  deployment : Deployment
  arrival : Arrival
  call : Option Call

/-- The gate refuses the request, or lets it through to its tool or to the refusal of its arguments.
-/
inductive Admits (env : Env) (before : Gated) (passage : Passage) : Gated → Prop
  | refused {envelope : Val} {kept : RateLimiter}
      (denied : onCallTool env before.limiter passage.arrival.now passage.arrival.context =
        (some envelope, kept)) :
      Admits env before passage ⟨kept, before.world⟩
  | rejected {charged : RateLimiter}
      (passes : onCallTool env before.limiter passage.arrival.now passage.arrival.context = (none,
        charged))
      (uncalled : passage.call = none) : Admits env before passage ⟨charged, before.world⟩
  | served {charged : RateLimiter} {call : Call} {after : World}
      (passes : onCallTool env before.limiter passage.arrival.now passage.arrival.context = (none,
        charged))
      (called : passage.call = some call) (carried : call.CarriedBy passage.arrival.context)
      (serves : Serves env before.world ⟨passage.deployment, call⟩ after) :
      Admits env before passage ⟨charged, after⟩

inductive HandsBack (env : Env) (deployment : Deployment) (world : World) : Call → SessionId → Prop
  | submitted {sessionId stepId content branch artifactId : String} {session row : Session}
      {childWf wf : Workflow}
      {idx calls : Nat} {step : Step} {pointer : Val} {data : StepData} {frame : Frame}
      (submits : Submits env deployment world sessionId stepId content session childWf idx step)
      (reached : verdictOf env deployment.registry world.outbound.length session childWf idx step content branch
        artifactId = .advanced (.arrived pointer data calls))
      (atEnd : pointer.isStr complete = true)
      (framed : world.ledger.frame session.sessionId = some frame)
      (owner : world.ledger.Parent session.sessionId row.sessionId)
      (resolves : Resolves deployment world.ledger row.sessionId row wf)
      (takes : frame.frameType = .call → ∃ place callStep,
        findStep wf (.str row.currentStep) = some (place, callStep) ∧
        callStep.isCall = true ∧
          validateOutput env (data.getD childWf.last.id "") callStep = .ok none) :
      HandsBack env deployment world (.submitStep sessionId stepId content branch artifactId) session.sessionId

/-- The request is charged to no session but a live one, and takes no session that has a bucket. -/
structure Passage.Housed (env : Env) (before : Gated) (passage : Passage) : Prop where
  live : ∀ key, passage.arrival.context.sessionKey env = some key →
    (before.world.ledger.row ⟨key⟩).isSome
  stays : ∀ call sid, passage.call = some call →
    ((before.limiter.buckets .session).get? sid.text).isSome ∨
      passage.arrival.context.sessionKey env = some sid.text →
    ¬Removes env passage.deployment before.world call sid ∧
      ¬HandsBack env passage.deployment before.world call sid

section Rows

variable {env : Env} {deployment : Deployment} {world : World} {call : Call} {ledger : Ledger}
  {minted : Nat} {sid : SessionId} {row : Session}

theorem Submitted.row_gone {sessionId stepId content branch artifactId : String} {session : Session}
    {wf : Workflow} {idx : Nat} {step : Step} (sound : world.Sound env)
    (submits : Submits env deployment world sessionId stepId content session wf idx step)
    (submitted : Submitted env deployment world session wf idx step content branch artifactId ledger)
    (there : world.ledger.row sid = some row) (gone : ledger.row sid = none) :
    HandsBack env deployment world (.submitStep sessionId stepId content branch artifactId) sid := by
  have written : ∀ {base : Ledger} {target new}, base.row sid ≠ none →
    (base.setRow target new).row sid ≠ none := by
    intro base target new here
    rw [Ledger.setRow_row]
    split
    · simp
    · exact here
  have here : ∀ {target new}, (world.ledger.setRow target new).row sid ≠ none :=
    written (by simp [there])
  have own : ∀ {base : Ledger} {taken : SessionId}, base.row sid ≠ none →
    (base.drop taken).row sid = none →
      sid = taken := by
    intro base taken stays gone
    by_contra apart
    rw [Ledger.drop_row, if_neg apart] at gone
    exact stays gone
  cases submitted with
  | answered ends =>
      cases ends with
      | settled calm changes unowned => exact absurd gone here
      | failed fails changes wrapped =>
          cases wrapped with
          | root => exact absurd gone here
          | missing => exact absurd gone here
          | escalated => exact absurd gone (written here)
  | @finished pointer data calls last frame _ reached atEnd moved framed finished =>
      generalize kind : frame.frameType = frameType at finished
      cases finished with
      | orphan => exact absurd gone here
      | retained => exact absurd gone here
      | unchecked => exact absurd gone here
      | marked => exact absurd gone (written here)
      | drifted => exact absurd gone (written here)
      | rejected => exact absurd gone (written here)
      | @popped parent parentRow parentWf owner resolves =>
          rw [Ledger.Parent.of_setRow] at owner
          have before := Resolves.of_setRow (sound.apart owner) resolves
          rw [← before.sessionId_eq] at owner before
          rw [own here gone]
          exact .submitted submits reached atEnd framed owner before fun isCall =>
            nomatch kind.symm.trans isCall
      | @delivered parent parentRow new parentWf place callStep owner resolves at_ call valid applies =>
          rw [Ledger.Parent.of_setRow] at owner
          have before := Resolves.of_setRow (sound.apart owner) resolves
          rw [Ledger.setRow_row] at gone
          split at gone
          · exact nomatch gone
          rw [Ledger.dropAbove, Ledger.dropAt_row] at gone
          rw [← before.sessionId_eq] at owner before
          rw [own here gone]
          exact .submitted submits reached atEnd framed owner before fun _ =>
            ⟨place, callStep, at_, call, valid⟩

theorem Grown.row_gone {outer : Session} {workflowType fingerprint : String} {childWf : Workflow}
    {frameType : FrameType}
    (grown : Grown env world outer workflowType childWf fingerprint frameType ledger)
    (gone : ledger.row sid = none) : (world.ledger.without (world.evicted env)).row sid = none := by
  obtain ⟨now, child, childRow, -⟩ := grown.child
  have apart : sid ≠ env.token world.minted := by
    rintro rfl
    simp [childRow] at gone
  cases stays : (world.ledger.without (world.evicted env)).row sid with
  | none => rfl
  | some row =>
      by_cases isOuter : sid = outer.sessionId
      · subst isOuter
        obtain ⟨linked, found, -⟩ := grown.outerRow row stays
        simp [gone] at found
      · rw [← stays, ← grown.otherRows sid apart (.inl isOuter)]
        exact gone

/-- A session that goes was taken off the tables, or completed above another. -/
theorem Effect.row_gone (sound : world.Sound env)
    (effect : Effect env deployment world call ledger minted)
    (there : world.ledger.row sid = some row) (gone : ledger.row sid = none) :
    Removes env deployment world call sid ∨ HandsBack env deployment world call sid := by
  have evicted : ∀ makesRoom : MakesRoom env deployment world call,
      (world.ledger.without (world.evicted env)).row sid = none →
        Removes env deployment world call sid := by
    intro makesRoom gone
    rw [Ledger.without_row] at gone
    split at gone
    · exact .evicted makesRoom ‹_›
    · simp [there] at gone
  have dropped : ∀ {taken}, (world.ledger.drop taken).row sid = none → sid = taken := by
    intro taken gone
    by_contra apart
    rw [Ledger.drop_row, if_neg apart, there] at gone
    exact nomatch gone
  have written : ∀ {target new}, (world.ledger.setRow target new).row sid ≠ none := by
    intro target new
    rw [Ledger.setRow_row]
    split
    · simp
    · simp [there]
  cases effect with
  | idle => simp [there] at gone
  | marked stale marks => exact absurd gone written
  | started named loaded room unused opened =>
      rw [Ledger.setRow_row] at gone
      split at gone
      · exact nomatch gone
      · exact .inl (evicted (.started named loaded room) gone)
  | submitted submits submitted => exact .inr (submitted.row_gone sound submits there gone)
  | @revised sessionId stepId session new wf idx target revises moved =>
      rw [Ledger.setRow_row] at gone
      split at gone
      · exact nomatch gone
      cases child : revisedChild world session.sessionId target with
      | none => simp [child, Ledger.afterRevision, there] at gone
      | some frame =>
          rw [child, Ledger.afterRevision, Ledger.dropAbove, Ledger.dropAt_row] at gone
          exact .inl (dropped gone ▸ .revised revises child)
  | entered spawns calls spawned =>
      exact .inl (evicted (.spawned (.entered spawns calls)) (spawned.toGrown.row_gone gone))
  | pushed spawns named shallow room spawned =>
      exact .inl (evicted (.spawned (.pushed spawns named shallow room)) (spawned.toGrown.row_gone gone))
  | popped pops => exact .inl (dropped gone ▸ .popped pops)
  | deleted deletes => exact .inl (dropped gone ▸ .deleted deletes)

end Rows

section Buckets

variable {env : Env} {limiter : RateLimiter} {now : Axis → Rat} {context : ToolContext}
  {before after : Gated} {passage : Passage}

/-- A bucket that is there after the axes were consulted was there before, or one of them asked for
it. -/
theorem consult_found {entries : List (Axis × String)} {axis : Axis} {key : String}
    (found : (((limiter.consult now entries).2.buckets axis).get? key).isSome) :
    ((limiter.buckets axis).get? key).isSome ∨ (axis, key) ∈ entries := by
  induction entries generalizing limiter with
  | nil => exact .inl found
  | cons entry rest ih =>
      obtain ⟨consulted, asked⟩ := entry
      have first : (((limiter.tryConsume consulted asked 1 (now consulted)).2.buckets axis).get? key).isSome →
          ((limiter.buckets axis).get? key).isSome ∨ (axis, key) ∈ (consulted, asked) :: rest := by
        intro there
        obtain ⟨bucket, there⟩ := Option.isSome_iff_exists.mp there
        have earlier := RateLimiter.tryConsume_found there
        split at earlier
        · rename_i own
          exact .inr (by simp [own.1, own.2])
        · exact .inl (by simp [earlier])
      rw [RateLimiter.consult] at found
      cases consumed : limiter.tryConsume consulted asked 1 (now consulted) with
      | mk outcome charged =>
          obtain ⟨allowed, retryAfterMs⟩ := outcome
          rw [consumed] at found first
          cases allowed with
          | false => exact first found
          | true =>
              rcases ih found with there | member
              · exact first there
              · exact .inr (List.mem_cons_of_mem _ member)

theorem session_mem_axes {key : String} (member : (Axis.session, key) ∈ context.axes env) :
    context.sessionKey env = some key := by
  unfold ToolContext.axes at member
  simp only [List.mem_append, List.mem_map, Option.mem_toList, Prod.mk.injEq] at member
  rcases member with (created | ⟨_, named, -, rfl⟩) | ⟨_, _, session, -⟩
  · split at created
    · simp at created
    · simp at created
  · exact named
  · simp at session

/-- The session axis gets a bucket for the session that the request names. -/
theorem onCallTool_found {key : String}
    (found : (((onCallTool env limiter now context).2.buckets .session).get? key).isSome) :
    ((limiter.buckets .session).get? key).isSome ∨ context.sessionKey env = some key := by
  rw [onCallTool_limiter] at found
  exact (consult_found found).imp_right session_mem_axes

/-- Every bucket of the session axis belongs to a session that is there. -/
def Gated.Housed (state : Gated) : Prop :=
  ∀ key, ((state.limiter.buckets .session).get? key).isSome → (state.world.ledger.row ⟨key⟩).isSome

theorem Admits.sound (sound : before.world.Sound env) (admits : Admits env before passage after) :
    after.world.Sound env := by
  cases admits with
  | refused => exact sound
  | rejected => exact sound
  | served passes called carried serves => exact serves.sound sound

theorem Admits.keepsHoused (sound : before.world.Sound env) (housed : before.Housed)
    (tidy : passage.Housed env before) (admits : Admits env before passage after) :
    after.Housed := by
  have named : ∀ {key charged answer},
    onCallTool env before.limiter passage.arrival.now passage.arrival.context =
      (answer, charged) → ((charged.buckets .session).get? key).isSome →
      ((before.limiter.buckets .session).get? key).isSome ∨
        passage.arrival.context.sessionKey env = some key := by
    intro key charged answer gated found
    apply onCallTool_found
    rw [gated]
    exact found
  have lives : ∀ {key}, ((before.limiter.buckets .session).get? key).isSome ∨
      passage.arrival.context.sessionKey env = some key →
        (before.world.ledger.row ⟨key⟩).isSome := by
    intro key cause
    rcases cause with there | charged
    · exact housed key there
    · exact tidy.live key charged
  cases admits with
  | refused denied =>
      intro key found
      exact lives (named denied found)
  | rejected passes uncalled =>
      intro key found
      exact lives (named passes found)
  | @served charged call world passes called carried serves =>
      intro key found
      have cause := named passes found
      obtain ⟨row, there⟩ := Option.isSome_iff_exists.mp (lives cause)
      by_contra gone
      rw [Option.not_isSome_iff_eq_none] at gone
      obtain ⟨unremoved, kept⟩ := tidy.stays call ⟨key⟩ called cause
      rcases (serves.effect sound).row_gone sound there gone with removes | handsBack
      · exact unremoved removes
      · exact kept handsBack

theorem Admits.keepsCap (positive : 0 < env.sessionCap) (sound : before.world.Sound env)
    (within : before.world.sessions.size ≤ env.sessionCap)
    (admits : Admits env before passage after) :
    after.world.sessions.size ≤ env.sessionCap := by
  cases admits with
  | refused => exact within
  | rejected => exact within
  | served passes called carried serves => exact serves.keepsCap positive sound within

/-- A store of buckets that all belong to sessions is no larger than the sessions. -/
theorem Gated.Housed.size_le {state : Gated} (housed : state.Housed) :
    (state.limiter.buckets .session).size ≤ state.world.sessions.size := by
  have distinct : (((state.limiter.buckets .session).rows.map Prod.fst).map SessionId.mk).Nodup :=
    (state.limiter.buckets .session).keysNodup.map fun _ _ same => SessionId.mk.inj same
  have among : ((state.limiter.buckets .session).rows.map Prod.fst).map SessionId.mk ⊆
      state.world.sessions.rows.map Session.sessionId := by
    intro sid member
    obtain ⟨key, named, rfl⟩ := List.mem_map.mp member
    obtain ⟨entry, inTable, rfl⟩ := List.mem_map.mp named
    have there : ((state.limiter.buckets .session).get? entry.1).isSome := by
      rw [Dict.get?, Table.lookup_of_mem inTable]
      rfl
    obtain ⟨row, found⟩ := Option.isSome_iff_exists.mp (housed entry.1 there)
    rw [← World.row_sessionId found]
    exact List.mem_map_of_mem (Table.lookup_mem found)
  simpa [Table.size] using (distinct.subperm among).length_le

/-- In a run whose requests are all housed, the session axis has no more buckets than there are
sessions. -/
theorem sessionBuckets_bounded (config : RateLimitConfig)
    (run : Run (Admits env) (fun before passage => passage.Housed env before) ⟨.init config,
      World.empty⟩ after) :
    (after.limiter.buckets .session).size ≤ after.world.sessions.size ∧
      (0 < env.sessionCap → (after.limiter.buckets .session).size ≤ env.sessionCap) := by
  obtain ⟨-, housed, capped⟩ : after.world.Sound env ∧ after.Housed ∧
      (0 < env.sessionCap → after.world.sessions.size ≤ env.sessionCap) := by
    refine run.invariant (fun state => state.world.Sound env ∧ state.Housed ∧
      (0 < env.sessionCap → state.world.sessions.size ≤ env.sessionCap)) ?_ ?_
    · refine ⟨World.empty_sound, ?_, fun _ => Nat.zero_le _⟩
      intro key found
      simp [RateLimiter.buckets, RateLimiter.init] at found
    · rintro before passage after ⟨sound, housed, capped⟩ tidy admits
      exact ⟨admits.sound sound, admits.keepsHoused sound housed tidy,
        fun positive => admits.keepsCap positive sound (capped positive)⟩
  exact ⟨housed.size_le, fun positive => le_trans housed.size_le (capped positive)⟩

end Buckets

def passageOf (call : Call) (arguments : List (String × Val)) : Passage where
  deployment := appOf sampleEnv nestedDocs
  arrival := ⟨⟨call.toolName, .obj arguments, some "stdio", none⟩, fun _ => 0⟩
  call := some call

def admitAll (state : Gated) (passages : List Passage) : Gated :=
  passages.foldl (fun state passage =>
    ⟨(onCallTool sampleEnv state.limiter passage.arrival.now passage.arrival.context).2,
      serveAll sampleEnv passage.deployment state.world passage.call.toList⟩) state

theorem admits_of_passes {state : Gated} {call : Call} {arguments : List (String × Val)}
    (passes : (onCallTool sampleEnv state.limiter (passageOf call arguments).arrival.now
      (passageOf call arguments).arrival.context).1.isNone = true)
    (given : ∀ parameter ∈ call.parameters,
      (Val.obj arguments).get? parameter.1 = some (.str parameter.2.1))
    (ends : allEnd sampleEnv (appOf sampleEnv nestedDocs) state.world [call] = true) :
    Admits sampleEnv state (passageOf call arguments) (admitAll state [passageOf call arguments]) :=
  .served (Prod.ext (Option.isNone_iff_eq_none.mp passes) rfl) rfl ⟨rfl, fun parameter member =>
    .inl (given parameter member)⟩
    (serves_of_ends ends)

def startPassage : Passage :=
    passageOf (.startWorkflow "inner" "") [("workflow_type", .str "inner"), ("context", .str "")]

def statePassage : Passage := passageOf (.getState "s") [("session_id", .str "s")]

theorem oneSession_bounded :
    let after := admitAll ⟨.init {}, World.empty⟩ [startPassage, statePassage]
    (after.limiter.buckets .session).size ≤ after.world.sessions.size ∧
      (0 < sampleEnv.sessionCap → (after.limiter.buckets .session).size ≤ sampleEnv.sessionCap) :=
        by
  have starts : Admits sampleEnv ⟨.init {},
    World.empty⟩ startPassage (admitAll ⟨.init {}, World.empty⟩ [startPassage]) :=
    admits_of_passes (by rfl) (by simp [Call.parameters, Val.get?_obj, field?_cons]) (by rfl)
  have reads : Admits sampleEnv (admitAll ⟨.init {}, World.empty⟩ [startPassage]) statePassage
      (admitAll ⟨.init {}, World.empty⟩ [startPassage, statePassage]) :=
    admits_of_passes (by decide +kernel) (by simp [Call.parameters, Val.get?_obj, field?_cons])
      (by rfl)
  refine sessionBuckets_bounded {} (((Run.refl _).snoc ?_ starts).snoc ?_ reads)
  · constructor
    · intro key named
      exact nomatch named
    · rintro call sid - (there | named)
      · exact nomatch there
      · exact nomatch named
  · constructor
    · intro key named
      have isS : statePassage.arrival.context.sessionKey sampleEnv = some "s" := by decide
      rw [isS, Option.some.injEq] at named
      subst named
      rfl
    · rintro call sid called -
      cases Option.some.inj called
      constructor
      · intro removes
        cases removes with
        | evicted makesRoom => cases makesRoom with | spawned above => cases above
      · intro handsBack
        cases handsBack

/-- A call with an id that no session has. -/
theorem unknownId_unbounded : ¬∀ (env : Env) (config : RateLimitConfig) (after : Gated),
    Run (Admits env) (fun _ passage => passage.deployment.Accepted env) ⟨.init config,
      World.empty⟩ after →
      (after.limiter.buckets .session).size ≤ after.world.sessions.size := by
  intro always
  have reads : Admits sampleEnv ⟨.init {},
    World.empty⟩ statePassage (admitAll ⟨.init {}, World.empty⟩ [statePassage]) :=
    admits_of_passes (by decide +kernel) (by simp [Call.parameters, Val.get?_obj, field?_cons])
      (by rfl)
  have bounded := always sampleEnv {} _ ((Run.refl _).snoc (appOf_accepted (by decide)) reads)
  exact absurd bounded (by decide +kernel)

end Megalos
