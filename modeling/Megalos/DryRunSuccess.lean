import Megalos.DryRun
import Megalos.Replies
import Megalos.Sample

/-!
The success of a dry run: code 0 is the completion of the root session, unless a session
between two others was the one that completed.
-/

namespace Megalos

open GuardedRuns KeyedTable StatefulProgram StatefulProgram.Program

variable {env : Env} {deployment : Deployment} {terminal : Terminal} {world after : World}
  {root sid : SessionId} {repl next : Repl} {ids : List SessionId} {before ledger : Ledger}

/-- The ids that the server mints are their own canonical form: `secrets.token_urlsafe` is ASCII. -/
def MintsCanonical (env : Env) : Prop :=
    ∀ draw, env.normalizeSessionId (env.token draw).text = env.token draw

/-! The stack of the loop and the stack of the store. -/

def Chained (ledger : Ledger) (root : SessionId) : List SessionId → Prop
  | [] => False
  | [sid] => sid = root
  | upper :: lower :: rest =>
      (∃ frame, ledger.frame upper = some frame ∧ frame.frameType = .call) ∧
        ledger.Covers lower upper ∧
        Chained ledger root (lower :: rest)

theorem Ledger.Covers.kept {lower upper : SessionId} (covers : before.Covers lower upper)
    (lowerSame : ledger.frame lower = before.frame lower)
    (upperSame : ledger.frame upper = before.frame upper) :
    ledger.Covers lower upper := by
  rw [Ledger.Covers, ChainForest.Covers, ← Ledger.standing_places] at covers ⊢
  rw [Ledger.places, upperSame, Ledger.standing, lowerSame]
  exact covers

theorem Chained.kept (chained : Chained before root ids)
    (same : ∀ sid ∈ ids, ledger.frame sid = before.frame sid) :
    Chained ledger root ids := by
  induction ids with
  | nil => exact chained
  | cons upper rest ih =>
      cases rest with
      | nil => exact chained
      | cons lower rest =>
          obtain ⟨framed, covers, below⟩ := chained
          have upperSame := same upper List.mem_cons_self
          have lowerSame := same lower (by simp)
          refine ⟨upperSame ▸ framed, covers.kept lowerSame upperSame, ih below ?_⟩
          exact fun sid member => same sid (List.mem_cons_of_mem _ member)

theorem Chained.root_mem (chained : Chained ledger root ids) : root ∈ ids := by
  induction ids with
  | nil => exact chained.elim
  | cons upper rest ih =>
      cases rest with
      | nil => exact List.mem_singleton.mpr (Eq.symm chained)
      | cons lower rest => exact List.mem_cons_of_mem _ (ih chained.2.2)

theorem Chained.root_or (chained : Chained ledger root ids) (member : sid ∈ ids) :
    sid = root ∨ sid ∈ ids.dropLast := by
  induction ids with
  | nil => cases member
  | cons upper rest ih =>
      cases rest with
      | nil => exact .inl ((List.mem_singleton.mp member).trans chained)
      | cons lower rest =>
          rw [List.dropLast_cons_cons]
          rcases List.mem_cons.mp member with rfl | member
          · exact .inr List.mem_cons_self
          · exact (ih chained.2.2 member).imp_right (List.mem_cons_of_mem _)

theorem Chained.depth_lt {upper : SessionId} (chained : Chained ledger root (upper :: ids)) :
    ∀ sid ∈ ids, (ledger.standing sid).2 < (ledger.standing upper).2 := by
  induction ids generalizing upper with
  | nil => exact nofun
  | cons lower rest ih =>
      obtain ⟨⟨frame, framed, -⟩, covers, below⟩ := chained
      have step : (ledger.standing upper).2 = (ledger.standing lower).2 + 1 := by
        rw [Ledger.standing_places, ChainForest.standing_placed covers, ← Ledger.standing_places]
      intro sid member
      rcases List.mem_cons.mp member with rfl | member
      · omega
      · have := ih below sid member
        omega

def Stacked (env : Env) (world : World) (root : SessionId) (stack : List ReplFrame) : Prop :=
  ∃ ids, stack.map ReplFrame.sessionId = ids.map SessionId.text ∧
    (∀ sid ∈ ids, Issued env world.minted sid) ∧
    Chained world.ledger root ids ∧ world.ledger.frame root = none

def World.Done (world : World) (sid : SessionId) : Prop :=
  ∃ row, world.sessions.lookup sid = some row ∧ row.currentStep = complete

/-- Where the loop stands, given what the server told it last. -/
def Awaiting (env : Env) (root : SessionId) (state : Repl × World) : Prop :=
  state.1.envelope.isError = false →
    Stacked env state.2 root state.1.returned ∧
      (state.1.envelope.saysComplete = true → state.2.Done root)

/-! What a plan says about the envelope and the stack. -/

theorem Val.isError_eq (response : Val) :
    response.isError = (optionVal (response.get? "status")).isStr "error" := by
  unfold isError
  cases response.get? "status" <;> rfl

theorem Val.isError_of_status {response : Val} {text : String}
    (status : (optionVal (response.get? "status")).isStr text = true) :
    response.isError = (text == "error") := by
  rw [isError_eq, isStr_iff.mp status]
  rfl

theorem Val.saysComplete_plain {response : Val} (told : response.saysComplete = true) :
    response.isError = false :=
  isError_of_status told

inductive ActsFor (top : ReplFrame) (below : List ReplFrame) : Plan → Prop
  | submit {next : Repl} {stepId content : String} {branch : Option String}
      (same : next.stack.map ReplFrame.sessionId = (top :: below).map ReplFrame.sessionId)
      (named : next.stepId = stepId) :
      ActsFor top below (.submit next top.sessionId stepId content branch)
  | descend {next : Repl} {stepId : String}
      (same : next.stack.map ReplFrame.sessionId = (top :: below).map ReplFrame.sessionId) :
      ActsFor top below (.descend next top.sessionId stepId)

theorem Repl.retry_acts {top : ReplFrame} {below : List ReplFrame} {plan : Plan}
    (plans : repl.retry top below = .ok plan) : plan = .exit 1 ∨ ActsFor top below plan := by
  obtain ⟨errors, -, plans⟩ := except_bind_ok.mp plans
  obtain ⟨items, -, plans⟩ := except_bind_ok.mp plans
  split at plans
  · obtain ⟨message, -, plans⟩ := except_bind_ok.mp plans
    exact .inl (Except.ok.inj plans).symm
  · obtain ⟨remaining, -, plans⟩ := except_bind_ok.mp plans
    split at plans
    · exact .inl (Except.ok.inj plans).symm
    · obtain rfl := Except.ok.inj plans
      exact .inr (.submit rfl rfl)

theorem Repl.present_acts {top : ReplFrame} {below : List ReplFrame} {plan : Plan} {active : Val}
    {stepId : String} (plans : repl.present terminal active stepId top below = .ok plan) :
    plan = .exit 1 ∨ ActsFor top below plan := by
  unfold present at plans
  dsimp only at plans
  obtain ⟨title, -, plans⟩ := except_bind_ok.mp plans
  split at plans
  · obtain rfl := Except.ok.inj plans
    exact .inr (.descend rfl)
  obtain ⟨directive, -, plans⟩ := except_bind_ok.mp plans
  split at plans
  · exact .inl (Except.ok.inj plans).symm
  split at plans
  · obtain ⟨choice, -, plans⟩ := except_bind_ok.mp plans
    split at plans
    · exact .inl (Except.ok.inj plans).symm
    · obtain rfl := Except.ok.inj plans
      exact .inr (.submit rfl rfl)
    · cases plans
  · obtain rfl := Except.ok.inj plans
    exact .inr (.submit rfl rfl)

/-- A turn exits with 0 on a completion only, and acts for the frame on top on no error. -/
theorem Repl.plan_acts {plan : Plan} (plans : repl.plan terminal = .ok plan) :
    (plan = .exit 0 ∧ repl.envelope.saysComplete = true) ∨ plan = .exit 1 ∨
      repl.envelope.isError = false ∧ ∃ top below, repl.returned = top :: below ∧
        ActsFor top below plan := by
  unfold Repl.plan at plans
  split at plans
  · cases plans
  rename_i top below stack
  dsimp only at plans
  split at plans
  · rename_i invalid
    rcases repl.retry_acts plans with exits | acts
    · exact .inr (.inl exits)
    · exact .inr (.inr ⟨Val.isError_of_status invalid, top, below, stack, acts⟩)
  split at plans
  · obtain rfl := Except.ok.inj plans
    split
    · rename_i finished
      rw [Bool.and_eq_true] at finished
      exact .inl ⟨rfl, finished.1⟩
    · exact .inr (.inl rfl)
  · rename_i open_
    obtain ⟨active, -, plans⟩ := except_bind_ok.mp plans
    obtain ⟨stepId, -, plans⟩ := except_bind_ok.mp plans
    rcases repl.present_acts plans with exits | acts
    · exact .inr (.inl exits)
    · refine .inr (.inr ⟨?_, top, below, stack, acts⟩)
      rw [Val.isError_eq, Bool.eq_false_iff]
      intro failed
      exact open_ (List.any_eq_true.mpr ⟨"error", by decide, failed⟩)

theorem Repl.returned_unmarked (unmarked : repl.envelope.propagated = false) :
    repl.returned = repl.stack :=
  if_neg (Bool.not_eq_true _ ▸ unmarked)

theorem Repl.returned_marked {first second : ReplFrame} {rest : List ReplFrame} {text : String}
    (marked : repl.envelope.propagated = true)
    (names : repl.envelope.get? "session_id" = some (.str text))
    (stack : repl.stack = first :: second :: rest) (other : first.sessionId ≠ text)
    (same : second.sessionId = text) :
    repl.returned = second :: rest := by
  rw [Repl.returned, if_pos (show repl.marks _ = true from marked), names, stack]
  have notFirst : (!(optionVal (some (Val.str text))).isStr first.sessionId) = true := by
    simpa [optionVal] using fun isFirst => other isFirst.symm
  have isSecond : (!(optionVal (some (Val.str text))).isStr second.sessionId) = false :=
    by simp [optionVal, same]
  rw [List.dropWhile_cons, if_pos notFirst, List.dropWhile_cons, if_neg (by rw [isSecond]; decide)]

/-! The calls after which code 0 no longer means that the root is complete. -/

inductive Misreports (env : Env) (deployment : Deployment) (state : Repl × World) : Call → Prop
  /-- The completion of a child brings its parent to the end, and the parent is not the root. -/
  | propagated {sessionId stepId content branch : String} {child parent : Session}
      {childWf wf : Workflow}
      {childIdx idx calls : Nat} {childStep step : Step} {pointer : Val} {data : StepData}
      (deep : 2 < state.1.returned.length)
      (submits : Submits env deployment state.2 sessionId stepId content child childWf childIdx childStep)
      (reached : verdictOf env deployment.registry state.2.outbound.length child childWf childIdx childStep content branch
        "" = .advanced (.arrived pointer data calls))
      (owner : state.2.ledger.Parent child.sessionId parent.sessionId)
      (resolves : Resolves deployment state.2.ledger parent.sessionId parent wf)
      (at_ : findStep wf (.str parent.currentStep) = some (idx, step))
      (ends : EndsWith env (parentAdvance env deployment.registry wf idx step
        (parent.stepData.set parent.currentStep (data.getD childWf.last.id "")) calls)) :
      Misreports env deployment state (.submitStep sessionId stepId content branch "")
  /-- A session between the root and the one that calls is evicted. -/
  | evicted {parentSessionId callStepId : String} {frame : ReplFrame}
      (between : frame ∈ state.1.returned.tail.dropLast)
      (gone : env.normalizeSessionId frame.sessionId ∈ state.2.evicted env) :
      Misreports env deployment state (.enterSubWorkflow parentSessionId callStepId)

theorem Issued.canonical {minted : Nat} (canonical : MintsCanonical env)
    (issued : Issued env minted sid) :
    env.normalizeSessionId sid.text = sid := by
  obtain ⟨draw, -, rfl⟩ := issued
  exact canonical draw

theorem Serves.frame_of_delivery {request : Request} {child parent other : SessionId}
    {written new : Session} (sound : world.Sound env) (serves : Serves env world request after)
    (left : after.ledger =
      (((world.ledger.setRow child written).drop child).dropAbove parent).setRow parent new)
    (differs : other ≠ child) : after.ledger.frame other = world.ledger.frame other := by
  cases framed : world.ledger.frame other with
  | none =>
      rw [left, Ledger.setRow_frame, Ledger.dropAbove, Ledger.dropAt]
      dsimp only
      rw [Ledger.drop_frame, if_neg differs, Ledger.setRow_frame, framed]
      rfl
  | some frame =>
      obtain ⟨row, there⟩ := Option.isSome_iff_exists.mp (sound.housed framed)
      have stays : ∃ kept, after.ledger.row other = some kept := by
        rw [left, Ledger.setRow_row]
        split
        · exact ⟨_, rfl⟩
        · rw [Ledger.dropAbove, Ledger.dropAt_row, Ledger.drop_row, if_neg differs,
            Ledger.setRow_row, if_neg differs]
          exact ⟨row, there⟩
      obtain ⟨kept, found⟩ := stays
      rw [← framed]
      refine (serves.shape sound).frame_eq ?_ found
      exact fun fresh => Issued.not_next (fresh ▸ sound.rowIssued there)

theorem Stacked.answered {stack : List ReplFrame} {sid : SessionId} {new : Session}
    (minted : world.minted ≤ after.minted) (left : after.ledger = world.ledger.setRow sid new)
    (stacked : Stacked env world root stack)
    {others : List ReplFrame}
    (same : others.map ReplFrame.sessionId = stack.map ReplFrame.sessionId) :
    Stacked env after root others := by
  obtain ⟨ids, texts, issued, chained, bare⟩ := stacked
  refine ⟨ids, same.trans texts, fun id member => (issued id member).mono minted, chained.kept ?_,
    ?_⟩
  · exact fun id _ => by rw [left, Ledger.setRow_frame]
  · rw [left, Ledger.setRow_frame, bare]

theorem Awaiting.submitted {top : ReplFrame} {below : List ReplFrame}
    {stepId content branch : String} {envelope : Val} (canonical : MintsCanonical env)
    (sound : world.Sound env) (stack : repl.returned = top :: below)
    (stacked : Stacked env world root repl.returned)
    (same : next.stack.map ReplFrame.sessionId = (top :: below).map ReplFrame.sessionId)
    (ran : (callTool env deployment (.submitStep top.sessionId stepId content branch "")).run world = (.ok envelope, after))
    (calm : ¬Misreports env deployment (repl, world) (.submitStep top.sessionId stepId content branch "")) :
    Awaiting env root (next.answered envelope, after) := by
  intro plain
  have replied := (replies_submitStep sound top.sessionId stepId content branch).elim ran envelope rfl plain
  have serves : Serves env world ⟨deployment, .submitStep top.sessionId stepId content branch ""⟩ after :=
    ⟨_, ran, nofun⟩
  have minted := (serves.shape sound).minted_le
  rw [stack] at stacked
  have whole := stacked
  obtain ⟨ids, texts, issued, chained, bare⟩ := stacked
  cases ids with
  | nil => exact chained.elim
  | cons own rest =>
  rw [List.map_cons, List.map_cons, List.cons.injEq] at texts
  have isOwn : env.normalizeSessionId top.sessionId = own := by
    rw [texts.1]
    exact (issued own List.mem_cons_self).canonical canonical
  cases replied with
  | stayed stays =>
      obtain ⟨unmarked, new, left, done⟩ := stays
      rw [isOwn] at left done
      have unmoved : (next.answered envelope).returned = next.stack :=
        Repl.returned_unmarked unmarked
      rw [unmoved]
      refine ⟨whole.answered minted left same, fun told => ?_⟩
      obtain ⟨atEnd, unowned⟩ := done told
      cases rest with
      | nil =>
          refine ⟨new, ?_, atEnd⟩
          have isRoot : own = root := chained
          change after.ledger.row root = some new
          rw [left, Ledger.setRow_row, if_pos isRoot.symm]
      | cons lower rest => exact absurd ((Ledger.parent_iff_covers sound.forest).mpr chained.2.1) (unowned lower)
  | resumed framed digression =>
      rw [isOwn] at framed
      cases rest with
      | nil =>
          rw [show own = root from chained, bare] at framed
          cases framed
      | cons lower rest =>
          obtain ⟨⟨frame, found, called⟩, -⟩ := chained
          rw [found, Option.some.injEq] at framed
          rw [framed, digression] at called
          cases called
  | delivered submits reached delivers =>
      rename_i session written parentRow wf parentWf idx place calls step callStep pointer data parent
      obtain ⟨owner, resolves, at_, marked, -, names, new, left, done⟩ := delivers
      have isSession : session.sessionId = own := submits.resolves.sessionId_eq.trans isOwn
      have owned : world.ledger.Parent session.sessionId parent := Ledger.Parent.of_setRow.mp owner
      have before := resolves.of_setRow (sound.apart owned)
      cases rest with
      | nil =>
          obtain ⟨frame, framed, -⟩ := owned
          rw [isSession, show own = root from chained, bare] at framed
          cases framed
      | cons lower rest =>
          have covers : world.ledger.Covers parent own :=
            isSession ▸ (Ledger.parent_iff_covers sound.forest).mp owned
          obtain rfl := sound.forest.covers_lower covers chained.2.1
          have apart : ∀ other ∈ parent :: rest, other ≠ own := by
            rintro other member rfl
            exact Nat.lt_irrefl _ (chained.depth_lt _ member)
          rw [isSession] at left
          have frames : ∀ {other}, other ≠ own →
            after.ledger.frame other = world.ledger.frame other :=
            serves.frame_of_delivery sound left
          -- the loop pops the child and stands at the parent
          obtain ⟨second, others, isBelow, sameSecond, sameOthers⟩ :=
            List.map_eq_cons_iff.mp texts.2
          rw [isBelow] at same
          obtain ⟨first, more, isNext, sameFirst, sameMore⟩ := List.map_eq_cons_iff.mp same
          obtain ⟨upper, last, isMore, sameUpper, sameLast⟩ := List.map_eq_cons_iff.mp sameMore
          have popped : (next.answered envelope).returned = upper :: last := by
            refine Repl.returned_marked marked names (isMore ▸ isNext) ?_ (sameUpper.trans sameSecond)
            rw [sameFirst, texts.1]
            exact fun sameText =>
              apart parent List.mem_cons_self (congrArg SessionId.mk sameText.symm)
          rw [popped]
          refine ⟨⟨parent :: rest, ?_, ?_, ?_, ?_⟩, fun told => ?_⟩
          · rw [List.map_cons, sameUpper, sameLast, sameSecond, sameOthers]
            rfl
          · exact fun id member => (issued id (List.mem_cons_of_mem _ member)).mono minted
          · exact chained.2.2.kept fun id member => frames (apart id member)
          · rw [frames (apart root chained.2.2.root_mem), bare]
          obtain ⟨atEnd, ends⟩ := done told
          cases rest with
          | nil =>
              refine ⟨new, ?_, atEnd⟩
              have isRoot : parent = root := chained.2.2
              change after.ledger.row root = some new
              rw [left, Ledger.setRow_row, if_pos isRoot.symm]
          | cons grand rest =>
              have parentId : parentRow.sessionId = parent := before.sessionId_eq
              have deep : 2 < repl.returned.length := by
                have size := congrArg List.length texts.2
                simp only [List.length_map, List.length_cons] at size
                rw [stack, List.length_cons]
                omega
              exact absurd (.propagated deep submits reached (parentId ▸ owned) (parentId ▸ before) at_ ends) calm

theorem textItem_ok {value : Val} {key text other : String} (found : textItem value key = .ok text)
    (there : value.get? key = some (.str other)) : text = other := by
  obtain ⟨item, isItem, found⟩ := except_bind_ok.mp found
  rw [Val.item_of_get there] at isItem
  cases isItem
  exact (Except.ok.inj found).symm

theorem Repl.descended_goOn {envelope : Val}
    (enters : repl.descended deployment envelope = .ok (.goOn next)) :
    next.envelope = envelope ∧ ∃ child, next.stack = child :: repl.stack ∧
      textItem envelope "session_id" = .ok child.sessionId := by
  unfold descended at enters
  split at enters
  · cases enters
  · obtain ⟨childSid, named, enters⟩ := except_bind_ok.mp enters
    obtain ⟨name, -, enters⟩ := except_bind_ok.mp enters
    split at enters
    · cases enters
    · cases enters
      exact ⟨rfl, _, rfl, named⟩

/-- After a descent, the new child stands above the frame that called. -/
theorem Stacked.entered {stack : List ReplFrame} {callStepId workflowType : String}
    {parent : Session} {childWf : Workflow} {fingerprint : String} {top : ReplFrame}
    {below : List ReplFrame}
    (isTop : env.normalizeSessionId top.sessionId = parent.sessionId)
    (canonical : MintsCanonical env) (stacked : Stacked env world root (top :: below))
    (spawned : Spawned env world parent workflowType childWf fingerprint .call callStepId after.ledger)
    (stays : parent.sessionId ∉ world.evicted env)
    (between : ∀ frame ∈ below.dropLast, env.normalizeSessionId frame.sessionId ∉ world.evicted env)
    (minted : after.minted = world.minted + 1) {child : ReplFrame}
    (isChild : child.sessionId = (env.token world.minted).text)
    (same : stack.map ReplFrame.sessionId = (top :: below).map ReplFrame.sessionId) :
    Stacked env after root (child :: stack) := by
  obtain ⟨ids, texts, issued, chained, bare⟩ := stacked
  cases ids with
  | nil => exact chained.elim
  | cons own rest =>
  have sameTexts := texts
  rw [List.map_cons, List.map_cons, List.cons.injEq] at texts
  obtain rfl : own = parent.sessionId := by
    rw [← isTop, texts.1]
    exact ((issued own List.mem_cons_self).canonical canonical).symm
  have old : ∀ id ∈ parent.sessionId :: rest, id ≠ env.token world.minted := by
    rintro id member rfl
    exact Issued.not_next (issued _ member)
  -- who is neither on top nor the root is not evicted
  have kept : ∀ id ∈ parent.sessionId :: rest, after.ledger.frame id = world.ledger.frame id := by
    intro id member
    rw [spawned.otherFrames id (old id member), Ledger.without_frame]
    split
    · rename_i gone
      rcases chained.root_or member with rfl | inner
      · exact bare.symm
      refine absurd gone ?_
      cases rest with
      | nil => cases inner
      | cons lower rest =>
          rw [List.dropLast_cons_cons] at inner
          rcases List.mem_cons.mp inner with rfl | inner
          · exact stays
          have named : id.text ∈ below.dropLast.map ReplFrame.sessionId := by
            rw [List.map_dropLast, texts.2, ← List.map_dropLast]
            exact List.mem_map_of_mem inner
          obtain ⟨frame, isFrame, sameText⟩ := List.mem_map.mp named
          have isId : env.normalizeSessionId frame.sessionId = id := by
            rw [sameText]
            exact (issued id member).canonical canonical
          exact isId ▸ between frame isFrame
    · rfl
  obtain ⟨now, stamp, placed⟩ := spawned.frame
  have ownFrame := spawned.otherFrames parent.sessionId (old _ List.mem_cons_self)
  refine ⟨env.token world.minted :: parent.sessionId :: rest, ?_, ?_,
    ⟨⟨_, placed, rfl⟩, ?_, chained.kept kept⟩, ?_⟩
  · rw [List.map_cons, isChild, same, sameTexts]
    rfl
  · intro id member
    rw [minted]
    rcases List.mem_cons.mp member with rfl | member
    · exact ⟨world.minted, by omega, rfl⟩
    · exact (issued id member).mono (Nat.le_succ _)
  · rw [Ledger.Covers, ChainForest.Covers, ← Ledger.standing_places, Ledger.places_of_frame placed,
      Ledger.standing, ownFrame]
    rfl
  · rw [kept root chained.root_mem, bare]

theorem Awaiting.descended {top : ReplFrame} {below : List ReplFrame} {middle : Repl}
    {stepId : String} {envelope : Val} (canonical : MintsCanonical env) (sound : world.Sound env)
    (stack : repl.returned = top :: below)
    (stacked : Stacked env world root repl.returned)
    (same : middle.stack.map ReplFrame.sessionId = (top :: below).map ReplFrame.sessionId)
    (ran : (callTool env deployment (.enterSubWorkflow top.sessionId stepId)).run world =
      (.ok envelope, after))
    (enters : middle.descended deployment envelope = .ok (.goOn next))
    (calm : ¬Misreports env deployment (repl, world) (.enterSubWorkflow top.sessionId stepId)) :
    Awaiting env root (next, after) := by
  intro plain
  obtain ⟨isEnvelope, child, isNext, named⟩ := Repl.descended_goOn enters
  dsimp only at plain ⊢
  rw [isEnvelope] at plain ⊢
  have hands := (replies_enterSubWorkflow top.sessionId stepId).elim ran envelope rfl plain
  have reshaped := (ends_enterSubWorkflow sound top.sessionId stepId).elim ran
  rw [show succeeds (.ok envelope) = true from congrArg not plain] at reshaped
  have unmoved : next.returned = next.stack := Repl.returned_unmarked (isEnvelope ▸ hands.unmarked)
  refine ⟨?_, fun told => absurd (hands.unfinished.symm.trans told) (by decide)⟩
  rw [unmoved, isNext]
  rw [stack] at stacked
  have below_ : ∀ {call : Call} {success : Bool}, call = .enterSubWorkflow top.sessionId stepId →
    success = true →
      Reshaped env deployment world call success after →
        Stacked env after root (child :: middle.stack) := by
    rintro call success isCall isSuccess reshaped
    cases reshaped with
    | unmoved => cases isSuccess
    | marked => cases isSuccess
    | pushed => cases isCall
    | popped => cases isCall
    | entered spawns calls spawned minted =>
        cases isCall
        rw [Bool.and_eq_true, decide_eq_true_eq] at isSuccess
        refine stacked.entered spawns.resolves.sessionId_eq.symm canonical spawned isSuccess.1 ?_ minted
          (textItem_ok named hands.names) same
        intro frame isFrame gone
        refine calm (.evicted ?_ gone)
        rw [stack]
        exact isFrame
  exact below_ rfl rfl reshaped

theorem Awaiting.opened {targetName context : String} {reader : Reader} {wf : Workflow}
    {start : World} (sound : start.Sound env)
    (opens : (openRepl env deployment wf targetName context reader).run start = (.ok repl,
      world)) :
    world.Sound env ∧ Awaiting env (env.token start.minted) (repl, world) := by
  have opening : Wp (openRepl env deployment wf targetName context reader) (fun outcome after =>
      ∀ repl, outcome = .ok repl → after.Sound env ∧ Awaiting env (env.token start.minted)
        (repl, after)) start := by
    unfold openRepl
    refine wp_bind_of (show Wp _ (fun outcome after =>
      (callTool env deployment (.startWorkflow targetName context)).run
      start = (outcome, after)) start from rfl) ?_ fun _ _ _ => nofun
    intro envelope after ran
    have replied := (replies_startWorkflow sound targetName context).elim ran envelope rfl
    have serves : Serves env start ⟨deployment, .startWorkflow targetName context⟩ after :=
      ⟨_, ran, nofun⟩
    rw [wp_bind, wp_ofExcept]
    cases named : textItem envelope "session_id" with
    | error raised => exact nofun
    | ok text =>
        rintro repl same
        cases same
        refine ⟨serves.sound sound, fun plain => ?_⟩
        have opened := replied plain
        have stays : (⟨[⟨text, wf, -1⟩], "", envelope, reader⟩ : Repl).returned =
          [⟨text, wf, -1⟩] :=
          Repl.returned_unmarked opened.unmarked
        have minted := opened.minted
        rw [stays]
        refine ⟨⟨[env.token start.minted], ?_, ?_, rfl, opened.bare⟩, opened.done⟩
        · rw [List.map_singleton, List.map_singleton, textItem_ok named opened.names]
        · intro id member
          rw [List.mem_singleton.mp member]
          exact ⟨start.minted, show start.minted < after.minted by omega, rfl⟩
  exact opening.elim opens repl rfl

/-- Code 0 is the completion of the root session, in every run without a misreporting call. -/
theorem dryRun_success {targetName context : String} {reader : Reader} {wf : Workflow}
    {allowed : World → Request → Prop} {start opened : World} {final : Repl}
    (canonical : MintsCanonical env) (reachable : Reachable env allowed start)
    (opens : (openRepl env deployment wf targetName context reader).run start = (.ok repl, opened))
    (run : Run (Turns env deployment terminal) (fun state call =>
      ¬Misreports env deployment state call) (repl, opened)
      (final, world))
    (exits : final.plan terminal = .ok (.exit 0)) :
    ∃ row, world.sessions.lookup (env.token start.minted) = some row ∧
      row.currentStep = complete := by
  have awaiting : world.Sound env ∧ Awaiting env (env.token start.minted) (final, world) := by
    refine Run.invariant (fun state => state.2.Sound env ∧
      Awaiting env (env.token start.minted) state) run
      (Awaiting.opened reachable.sound opens) ?_
    rintro before call after ⟨sound, awaits⟩ calm turns
    cases turns with
    | submitted plans ran =>
        have serves : Serves env _ ⟨deployment, _⟩ _ := ⟨_, ran, nofun⟩
        refine ⟨serves.sound sound, ?_⟩
        rcases Repl.plan_acts plans with ⟨same, -⟩ | same | ⟨plain, top, below, stack, acts⟩
        · cases same
        · cases same
        · cases acts with
          | submit same named =>
            exact Awaiting.submitted canonical sound stack (awaits plain).1 same ran calm
    | descended plans ran enters =>
        have serves : Serves env _ ⟨deployment, _⟩ _ := ⟨_, ran, nofun⟩
        refine ⟨serves.sound sound, ?_⟩
        rcases Repl.plan_acts plans with ⟨same, -⟩ | same | ⟨plain, top, below, stack, acts⟩
        · cases same
        · cases same
        · cases acts with
          | descend same => exact Awaiting.descended canonical sound stack (awaits plain).1 same ran enters calm
  rcases Repl.plan_acts exits with ⟨-, told⟩ | same | ⟨-, top, below, -, acts⟩
  · exact (awaiting.2 (Val.saysComplete_plain told)).2 told
  · cases same
  · cases acts

theorem not_misreports_of_shallow {state : Repl × World} (shallow : state.1.returned.length ≤ 2)
    (call : Call) :
    ¬Misreports env deployment state call := by
  intro misreports
  cases misreports with
  | propagated deep => omega
  | evicted between gone =>
      have none : state.1.returned.tail.dropLast = [] := by
        rw [← List.length_eq_zero_iff, List.length_dropLast, List.length_tail]
        omega
      rw [none] at between
      cases between

/-- So many turns, as long as no frame stands between the root and the top. -/
def shallowTurns (env : Env) (deployment : Deployment) (terminal : Terminal) : Nat → Repl × World →
    Option (Repl × World)
  | 0, state => some state
  | count + 1, state =>
      if state.1.returned.length ≤ 2 then
        match (state.1.turn env deployment terminal).run state.2 with
        | (.ok (.goOn next), after) => shallowTurns env deployment terminal count (next, after)
        | _ => none
      else none

theorem shallowTurns_run {count : Nat} {state last : Repl × World}
    (turned : shallowTurns env deployment terminal count state = some last) :
    Run (Turns env deployment terminal)
    (fun state call => ¬Misreports env deployment state call) state last := by
  induction count generalizing state with
  | zero =>
      cases turned
      exact Run.refl _
  | succ count ih =>
      unfold shallowTurns at turned
      split at turned
      · rename_i shallow
        split at turned
        · rename_i next after ran
          obtain ⟨call, turns⟩ := ((state.1.wp_turn state.2).elim ran).2 next rfl
          exact Run.trans (Run.snoc (Run.refl _) (not_misreports_of_shallow shallow call) turns)
            (ih turned)
        · cases turned
      · cases turned

def exitsWith (terminal : Terminal) (repl : Repl) (code : Nat) : Bool :=
  match repl.plan terminal with
  | .ok (.exit other) => other == code
  | _ => false

theorem plan_of_exitsWith {code : Nat} (exits : exitsWith terminal repl code = true) :
    repl.plan terminal = .ok (.exit code) := by
  unfold exitsWith at exits
  split at exits
  · rename_i other plans
    rw [plans, beq_iff_eq.mp exits]
  · cases exits

theorem run_of_toOption {α : Type} {ran : Except Exn α × World} {value : α}
    (there : ran.1.toOption = some value) :
    ran = (.ok value, ran.2) := by
  obtain ⟨outcome, reached⟩ := ran
  cases outcome with
  | error raised => cases there
  | ok other =>
      cases there
      rfl

def asciiTerminal : Terminal :=
  ⟨Char.isWhitespace, fun letter =>
    if letter.isDigit then some (letter.toNat - '0'.toNat) else none⟩

def delegatingDocs : List Val := [
  workflowDoc "outer" [stepDoc "a" [("call", .str "inner")], stepDoc "b" []],
  workflowDoc "inner" [stepDoc "x" []]]

def delegating : Workflow :=
    ((appOf sampleEnv delegatingDocs).workflows.get? "outer").getD ⟨⟨"", []⟩, [], []⟩

theorem sampleEnv_mintsCanonical : MintsCanonical sampleEnv := fun _ => rfl

def delegatingOpened : Except Exn Repl × World :=
  (openRepl sampleEnv (appOf sampleEnv delegatingDocs) delegating "outer" "" (.typed ["done",
    "done"])).run World.empty

theorem dryRun_success_delegating : ∃ opened last : Repl × World,
    delegatingOpened = (.ok opened.1, opened.2) ∧ last.1.plan asciiTerminal = .ok (.exit 0) ∧
      ∃ row, last.2.sessions.lookup (sampleToken 0) = some row ∧ row.currentStep = complete := by
  have ended : (delegatingOpened.1.toOption.bind fun repl =>
    (shallowTurns sampleEnv (appOf sampleEnv delegatingDocs)
      asciiTerminal 3 (repl, delegatingOpened.2)).map fun last =>
        exitsWith asciiTerminal last.1 0) = some true := by rfl
  rw [Option.bind_eq_some_iff] at ended
  obtain ⟨repl, opened, ended⟩ := ended
  rw [Option.map_eq_some_iff] at ended
  obtain ⟨last, turned, exits⟩ := ended
  have opens := run_of_toOption opened
  refine ⟨(repl, delegatingOpened.2), last, opens, ?_, ?_⟩
  · exact plan_of_exitsWith exits
  · exact dryRun_success sampleEnv_mintsCanonical (Run.refl World.empty : Reachable sampleEnv (fun _ _ => True) _) opens
      (shallowTurns_run turned) (plan_of_exitsWith exits)

/-- The last step of the innermost of three sessions ends the dry run; the root waits at its first
step. -/
def reportedEarly : Except Exn (Option Nat) × World :=
  (dryRun sampleEnv (appOf sampleEnv nestedDocs) asciiTerminal 10 "outer" "" (.typed ["done"])).run World.empty

theorem dryRun_not_always_success :
    ¬∀ (env : Env) (deployment : Deployment) (terminal : Terminal) (fuel : Nat)
    (targetName context : String) (reader : Reader) (after : World), deployment.Accepted env →
      MintsCanonical env →
    (dryRun env deployment terminal fuel targetName context reader).run World.empty = (.ok (some 0),
      after) →
    ∃ row, after.sessions.lookup (env.token 0) = some row ∧ row.currentStep = complete := by
  intro always
  have code : reportedEarly.1 = .ok (some 0) := by rfl
  obtain ⟨row, found, done⟩ :=
    always sampleEnv (appOf sampleEnv nestedDocs) asciiTerminal 10 "outer" "" (.typed ["done"])
    reportedEarly.2 (appOf_accepted (by decide)) sampleEnv_mintsCanonical (Prod.ext code rfl)
  have waiting : (reportedEarly.2.sessions.lookup (sampleToken 0)).map Session.currentStep =
    some "a" := by rfl
  have same : reportedEarly.2.sessions.lookup (sampleToken 0) = some row := found
  rw [same, Option.map_some, done, Option.some.injEq] at waiting
  exact absurd waiting (by decide)

end Megalos
