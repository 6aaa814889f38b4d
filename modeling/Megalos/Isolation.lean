import Megalos.Twin
import Megalos.Locality
import Megalos.Sample

/-!
Isolation.  A call that names a session changes no row outside the chain of that session,
and what the session tools answer depends on that chain alone.
-/

namespace Megalos

open ChainForest KeyedTable StatefulProgram StatefulProgram.Program

variable {env : Env} {deployment : Deployment} {root sid : SessionId} {chain : SessionId → Prop}
    {left right : World}

/-! What each tool answers. -/

structure Copies (env : Env) (root : SessionId) (chain : SessionId → Prop) (left right : World) :
    Prop
    extends Twin env root chain left right where
  sameRow : ∀ {sid}, chain sid → left.ledger.row sid = right.ledger.row sid

/-- From copies of a chain the program answers the same and leaves stores that agree on the chain.
-/
abbrev Copied (env : Env) (root : SessionId) (chain : SessionId → Prop) (body : Server Val) :
    Prop :=
  Lockstep (Copies env root chain) (Twin env root chain) Eq body body

theorem Mirrored.copied {body : Server Val} (mirrored : Mirrored env root chain body) :
    Copied env root chain body :=
  mirrored.start fun _ _ copies => copies.toTwin

theorem copied_trapErrors {body : Server Val} (field : String) (sessionId : Option String)
    (copied : Copied env root chain body) :
    Copied env root chain (trapErrors env field sessionId body) := by
  refine lockstep_rescue copied ?_
  intro raised
  cases raised with
  | sessionNotFound => exact lockstep_return _
  | typeError message => exact lockstep_return _
  | valueError message => exact lockstep_return _
  | _ => exact lockstep_raise _

/-- The session that a tool works on is the one in the table. -/
theorem lockstep_resolveSession_copies (member : chain sid) (presented : String) :
    Lockstep (Copies env root chain) (Twin env root chain)
    (fun first second => first = second ∧ ∀ session wf, first = .ok (session, wf) →
        session.sessionId = sid)
    (resolveSession env deployment presented sid)
        (resolveSession env deployment presented sid) := by
  have reads : ∀ world : World, Wp (resolveSession env deployment presented sid)
      (fun outcome _ => ∀ session wf, outcome = .ok (.ok (session, wf)) →
        world.ledger.row sid = some session)
      world := by
    intro world
    refine wp_resolveSession ?_ ?_ ?_
    · rintro session wf resolves _ _ ⟨⟩
      exact resolves.row
    · rintro err _ _ _ session wf ⟨⟩
    · rintro err session new after _ _ _ _ _ _ ⟨⟩
  intro first second copies
  obtain ⟨alike, twin⟩ := twin_mirror.resolveSession member presented first second copies.toTwin
  refine ⟨?_, twin⟩
  have readsFirst := reads first
  have readsSecond := reads second
  rw [Wp] at readsFirst readsSecond
  revert alike readsFirst readsSecond
  generalize ((resolveSession env deployment presented sid).run first).1 = outcome
  generalize ((resolveSession env deployment presented sid).run second).1 = other
  intro alike readsFirst readsSecond
  cases alike with
  | error raised => exact .error raised
  | @ok resolved again related =>
      refine .ok ?_
      cases related with
      | error err => exact ⟨rfl, fun _ _ same => by cases same⟩
      | @ok pair twinPair fields =>
          obtain ⟨session, wf⟩ := pair
          obtain ⟨twinSession, twinWf⟩ := twinPair
          obtain ⟨-, rfl, keyed⟩ := fields
          have row := copies.sameRow member
          rw [readsFirst _ _ rfl, readsSecond _ _ rfl, Option.some.injEq] at row
          subst row
          refine ⟨rfl, ?_⟩
          rintro _ _ ⟨⟩
          exact keyed

theorem copied_withSession {sessionId : String} {checks : List (String × String × Bool)}
    {body : Session → Workflow → Server Val} (member : chain (env.normalizeSessionId sessionId))
    (mirrored : ∀ session wf, chain session.sessionId → Mirrored env root chain (body session wf)) :
    Copied env root chain (withSession env deployment sessionId checks body) := by
  unfold withSession
  split
  · exact Mirrored.copied (lockstep_return _)
  · refine lockstep_bind (lockstep_resolveSession_copies member sessionId) ?_
    rintro resolved _ ⟨rfl, keyed⟩
    cases resolved with
    | error err => exact lockstep_return _
    | ok pair =>
        obtain ⟨session, wf⟩ := pair
        exact mirrored session wf ((keyed session wf rfl) ▸ member)

theorem copied_getGuidelines {sessionId : String}
    (member : chain (env.normalizeSessionId sessionId)) :
    Copied env root chain (getGuidelines env deployment sessionId) := by
  refine copied_trapErrors _ _ (copied_withSession member ?_)
  intro session wf inside
  split
  · exact lockstep_raise _
  · refine lockstep_bind_eq (lockstep_ofExcept _) fun current => ?_
    refine lockstep_bind_eq (lockstep_ofExcept _) fun antiPatterns => ?_
    exact lockstep_bind_eq (lockstep_ofExcept _) fun gates => lockstep_return _

theorem copied_generateArtifact {sessionId outputFormat : String}
    (member : chain (env.normalizeSessionId sessionId)) :
    Copied env root chain (generateArtifact env deployment sessionId outputFormat) := by
  refine copied_trapErrors _ _ (copied_withSession member ?_)
  intro session wf inside
  refine lockstep_ite (fun _ => ?_) fun _ => ?_
  · exact lockstep_bind_eq (lockstep_ofExcept _) fun remaining => lockstep_return _
  · refine lockstep_bind_eq (lockstep_ofExcept _) fun artifact => ?_
    exact lockstep_ite (fun _ => lockstep_return _) fun _ => lockstep_return _

theorem copied_popFlow {sessionId : String} (member : chain (env.normalizeSessionId sessionId)) :
    Copied env root chain (popFlow env deployment sessionId) := by
  refine copied_trapErrors _ _ (copied_withSession member ?_)
  intro session wf inside
  split
  · exact lockstep_return _
  refine lockstep_bind_eq (lockstep_read fun _ _ twin => twin.ownFrame inside) fun own => ?_
  cases own with
  | none => exact lockstep_return _
  | some frame =>
      dsimp only
      split
      · exact lockstep_return _
      · exact twin_mirror.resumeParentAfterDigression inside

/-- Both sides answer the same, or both complete the session with the given id. -/
abbrev Alternates (env : Env) (root : SessionId) (chain : SessionId → Prop) (sid : SessionId)
    (body : Server Submission) : Prop :=
  Lockstep (Twin env root chain) (Twin env root chain)
    (fun first second => first = second ∧ ∀ child, first = .completed child →
      child.sessionId = sid) body body

theorem alternates_answered (response : Val) :
    Alternates env root chain sid (pure (.answered response)) :=
  lockstep_pure ⟨rfl, fun _ completes => nomatch completes⟩

theorem mirrored_commitSubmission {snapshot : Session} (inside : chain snapshot.sessionId)
    (sessionId : String) (wf : Workflow) (idx : Nat) (step : Step) (content branch : String)
    (artifactId : Option String) :
    Alternates env root chain snapshot.sessionId (commitSubmission env deployment sessionId snapshot wf idx step content branch artifactId) := by
  refine (twin_mirror.commitSubmission inside (fun _ => Eq.refl _) (fun _ _ _ =>
    Alike.refl _) content branch).mono ?_
  rintro (first | first) (second | second) same
  · cases same
    exact ⟨rfl, fun _ completes => nomatch completes⟩
  · exact same.elim
  · exact same.elim
  · obtain ⟨rfl, keyed⟩ := same
    refine ⟨rfl, ?_⟩
    rintro _ ⟨⟩
    exact keyed

theorem mirrored_submitArtifact {session : Session} (inside : chain session.sessionId)
    (sessionId : String) (wf : Workflow) (idx : Nat) (step : Step)
    (content branch artifactId : String) :
    Alternates env root chain session.sessionId (submitArtifact env deployment sessionId session wf idx step content branch artifactId) := by
  refine lockstep_bind_eq (lockstep_ofExcept _) fun artifacts => ?_
  refine lockstep_ite (fun _ => ?_) fun _ => ?_
  · exact lockstep_bind_eq (lockstep_ofExcept _) fun expected => alternates_answered _
  refine lockstep_bind_eq (lockstep_ofExcept _) fun found => ?_
  cases found with
  | none => exact lockstep_bind_eq (lockstep_ofExcept _) fun expected => alternates_answered _
  | some artifact =>
      refine lockstep_bind_eq (lockstep_ofExcept _) fun read => ?_
      cases read with
      | error message => exact alternates_answered _
      | ok parsed =>
          have commits : Alternates env root chain session.sessionId (do
              if !((step.get? "output_from").getD (.str "")).isStr artifactId then
                return Submission.answered (.obj [("status", .str "artifact_accepted"),
                  ("session_id", .str sessionId), ("step_id", .str step.id), ("artifact_id",
                    .str artifactId), ("current_step", .str step.id)])
              commitSubmission env deployment sessionId session wf idx step content branch (some artifactId)) :=
            lockstep_ite (fun _ => alternates_answered _) fun _ =>
              mirrored_commitSubmission inside _ _ _ _ _ _ _
          refine lockstep_bind_eq (lockstep_ofExcept _) fun schema => ?_
          refine lockstep_bind_eq (lockstep_ofExcept _) fun errors => ?_
          refine lockstep_ite (fun _ => alternates_answered _) fun _ => ?_
          refine lockstep_ite (fun _ => ?_) fun _ => commits
          exact lockstep_bind_eq (mirrored_changeRow inside fun _ => rfl) fun _ => commits

theorem mirrored_submitPlain {session : Session} (inside : chain session.sessionId)
    (sessionId : String) (wf : Workflow) (idx : Nat) (step : Step) (content branch : String) :
    Alternates env root chain session.sessionId (submitPlain env deployment sessionId session wf idx step content branch) := by
  refine lockstep_bind_eq (lockstep_ofExcept _) fun outcome => ?_
  cases outcome with
  | none => exact mirrored_commitSubmission inside _ _ _ _ _ _ _
  | some errors =>
      refine lockstep_bind_eq (mirrored_incrementRetry inside _) fun retryCount => ?_
      refine lockstep_bind_eq (lockstep_ofExcept _) fun exhausted => ?_
      refine lockstep_ite (fun _ => ?_) fun _ => alternates_answered _
      exact lockstep_bind_eq (twin_mirror.wrapChildFailure inside _ _ _) fun _ =>
        alternates_answered _

theorem mirrored_submitResolved {session : Session} (inside : chain session.sessionId)
    (sessionId stepId content branch artifactId : String) (wf : Workflow) :
    Alternates env root chain session.sessionId
      (submitResolved env deployment sessionId stepId content branch artifactId session wf) := by
  unfold submitResolved
  dsimp only
  split
  · exact alternates_answered _
  refine lockstep_ite (fun _ => alternates_answered _) fun _ => ?_
  refine lockstep_ite (fun _ => alternates_answered _) fun _ => ?_
  refine lockstep_ite (fun _ => alternates_answered _) fun _ => ?_
  refine lockstep_bind_eq (lockstep_read fun _ _ twin => twin.topFrameFor inside) fun top => ?_
  cases top with
  | some frame => exact alternates_answered _
  | none =>
      dsimp only
      split
      · exact lockstep_raise _
      split
      · exact alternates_answered _
      refine lockstep_ite (fun _ => ?_) fun _ => ?_
      · exact mirrored_submitArtifact inside _ _ _ _ _ _ _
      · exact mirrored_submitPlain inside _ _ _ _ _ _

theorem copied_submitStep {sessionId stepId content branch artifactId : String}
    (member : chain (env.normalizeSessionId sessionId)) :
    Copied env root chain (submitStep env deployment sessionId stepId content branch artifactId) := by
  refine copied_trapErrors _ _ (copied_withSession member ?_)
  intro session wf inside
  refine lockstep_bind (mirrored_submitResolved inside _ _ _ _ _ _) ?_
  rintro submission _ ⟨rfl, keyed⟩
  cases submission with
  | answered response => exact lockstep_return _
  | completed child =>
      have member : chain child.sessionId := (keyed child rfl) ▸ inside
      exact twin_mirror.autoResumeOnTopFrameComplete member wf

theorem Twin.member_of_above (twin : Twin env root chain left right) (member : chain sid)
    {frame : Frame} (top : right.topFrameFor sid = some frame) : chain frame.sessionId := by
  obtain ⟨found, under, -⟩ := World.topFrameFor_some top
  refine (twin.rightChained.closed found ?_).2
  rw [under]
  exact twin.rightChained.standing member

theorem Twin.parentOwnedError (twin : Twin env root chain left right) (member : chain sid)
    (presented : String) (own : Frame) :
    parentOwnedError env left sid presented own =
      parentOwnedError env right sid presented own := by
  have steps : ((right.parentOf sid).bind left.sessions.lookup).map Session.currentStep =
      ((right.parentOf sid).bind right.sessions.lookup).map Session.currentStep := by
    cases owner : right.parentOf sid with
    | none => rfl
    | some parent =>
        have rows := congrArg (Option.map Session.currentStep)
          (twin.lookup (twin.parent_member member owner))
        rw [Option.map_map, Option.map_map] at rows
        exact rows
  unfold Megalos.parentOwnedError
  dsimp only
  rw [twin.parentOf member, steps]

theorem mirrored_applyRevision {session : Session} (inside : chain session.sessionId)
    (wf : Workflow) (idx : Nat) (target : Step) {childFrame : Option Frame}
    (above : ∀ frame, childFrame = some frame → chain frame.sessionId) :
    Mirrored env root chain (applyRevision env session wf idx target childFrame) := by
  have points : ∀ retained : Option SessionId, Mirrored env root chain (do
      updateCurrentStep env session.sessionId (.str target.id) none
      return retained) :=
    fun retained => lockstep_bind_eq (twin_mirror.updateCurrentStep inside _ _) fun _ =>
      lockstep_return _
  refine lockstep_bind_eq (mirrored_changeRow inside fun _ => rfl) fun _ => ?_
  refine lockstep_ite (fun _ => ?_) fun _ => points none
  cases childFrame with
  | none =>
      exact lockstep_bind_eq (mirrored_changeRow inside fun _ => rfl) fun _ => points none
  | some child =>
      dsimp only
      refine lockstep_bind_eq (lockstep_rescue ?_ ?_) fun _ => ?_
      · exact lockstep_bind (lockstep_deleteSessionRow (above child rfl)) fun _ _ _ =>
          lockstep_return _
      · intro raised
        cases raised with
        | sessionNotFound => exact lockstep_return _
        | _ => exact lockstep_raise _
      refine lockstep_bind_eq (mirrored_unlink inside) fun _ => ?_
      exact lockstep_bind_eq (mirrored_changeRow inside fun _ => rfl) fun _ => points _

theorem copied_reviseStep {sessionId stepId : String}
    (member : chain (env.normalizeSessionId sessionId)) :
    Copied env root chain (reviseStep env deployment sessionId stepId) := by
  refine copied_trapErrors _ _ (copied_withSession member ?_)
  intro session wf inside
  refine lockstep_bind (lockstep_read fun _ _ twin => twin) ?_
  intro left right twin
  dsimp only [id]
  rw [twin.ownFrame inside, twin.topFrameFor inside]
  cases right.ownFrame session.sessionId with
  | some own =>
      dsimp only
      rw [twin.parentOwnedError inside]
      exact lockstep_return _
  | none =>
      dsimp only
      split
      · exact lockstep_return _
      refine lockstep_ite (fun _ => lockstep_return _) fun _ => ?_
      refine lockstep_bind_eq ?_ fun retained => ?_
      · exact mirrored_applyRevision inside _ _ _ fun frame top => twin.member_of_above inside top
      refine lockstep_bind_eq (lockstep_ofExcept _) fun revised => ?_
      exact lockstep_bind_eq (lockstep_ofExcept _) fun prompt => lockstep_return _

theorem World.mem_framesOf {world : World} {frame : Frame} :
    frame ∈ world.sessionStack.select (fun frame => frame.rootSessionId = sid) ↔
      world.ledger.frame frame.sessionId = some frame ∧ frame.rootSessionId = sid := by
  rw [Table.select, List.mem_filter, Table.mem_rows_iff, decide_eq_true_eq]
  rfl

theorem Twin.framesOf_perm (twin : Twin env root chain left right) (member : chain sid) :
    (left.sessionStack.select fun frame => frame.rootSessionId = sid).Perm
      (right.sessionStack.select fun frame => frame.rootSessionId = sid) := by
  have distinct : ∀ world : World,
    (world.sessionStack.select fun frame => frame.rootSessionId = sid).Nodup :=
    fun world => (List.Nodup.of_map _ world.sessionStack.keysNodup).sublist List.filter_sublist
  refine (List.perm_ext_iff_of_nodup (distinct left) (distinct right)).mpr fun frame => ?_
  rw [World.mem_framesOf, World.mem_framesOf]
  constructor
  · rintro ⟨found, rfl⟩
    exact ⟨(twin.frame_iff member).mp found, rfl⟩
  · rintro ⟨found, rfl⟩
    exact ⟨(twin.frame_iff member).mpr found, rfl⟩

theorem Twin.stackDepth (twin : Twin env root chain left right) (member : chain sid) :
    left.stackDepth sid = right.stackDepth sid := (twin.framesOf_perm member).length_eq

theorem Twin.fullStack (twin : Twin env root chain left right) (member : chain sid) :
    left.fullStack sid = right.fullStack sid := by
  have sorted : (left.sessionStack.select fun frame => frame.rootSessionId = sid).insertionSort
        (fun lower upper => lower.depth ≤ upper.depth) =
      (right.sessionStack.select fun frame => frame.rootSessionId = sid).insertionSort
        (fun lower upper => lower.depth ≤ upper.depth) := by
    refine List.Perm.eq_of_pairwise ?_ (List.pairwise_insertionSort _ _)
      (List.pairwise_insertionSort _ _) ?_
    · intro lower upper isLower isUpper below above
      rw [(List.perm_insertionSort _ _).mem_iff, World.mem_framesOf] at isLower isUpper
      obtain ⟨found, rfl⟩ := isLower
      obtain ⟨foundUpper, sameRoot⟩ := isUpper
      have there := (twin.frame_iff member).mp found
      obtain ⟨isRoot, -⟩ := twin.rightChained.closed there member
      have same := twin.rightChained.single there foundUpper isRoot (sameRoot.trans isRoot)
        (le_antisymm below above)
      rw [same, foundUpper, Option.some.injEq] at there
      exact there.symm
    · exact (List.perm_insertionSort _ _).trans ((twin.framesOf_perm member).trans (List.perm_insertionSort _ _).symm)
  rw [World.fullStack, World.fullStack, sorted]

theorem Twin.stackView (twin : Twin env root chain left right) (member : chain sid) :
    stackView left sid = stackView right sid := by
  unfold Megalos.stackView
  rw [twin.ownFrame member]
  cases found : right.ownFrame sid with
  | none => simp only [twin.stackDepth member, twin.fullStack member]
  | some own =>
      have under : chain own.rootSessionId := by
        rw [twin.rightChained.under member found]
        exact twin.rightChained.base
      exact twin.fullStack under

theorem copied_getState {sessionId : String} (member : chain (env.normalizeSessionId sessionId)) :
    Copied env root chain (getState env deployment sessionId) := by
  refine copied_trapErrors _ _ (copied_withSession member ?_)
  intro session wf inside
  refine lockstep_bind_eq (lockstep_ofExcept _) fun titles => ?_
  refine lockstep_bind_eq (lockstep_ofExcept _) fun current => ?_
  refine lockstep_bind_eq (lockstep_ofExcept _) fun injected => ?_
  have finishes : ∀ finish : World → List String → Val,
      (∀ left right skipped, Twin env root chain left right →
        finish left skipped = finish right skipped) →
      Mirrored env root chain (do
        let skipped ← ofExcept (computeSkippedSteps env wf session.stepData)
        let world ← read id
        return finish world skipped) := by
    intro finish same
    refine lockstep_bind_eq (lockstep_ofExcept _) fun skipped => ?_
    refine lockstep_bind (lockstep_read fun _ _ twin => twin) ?_
    intro left right twin
    exact lockstep_pure (same left right skipped twin)
  dsimp only
  split
  · refine lockstep_ite (fun _ => ?_) fun _ => ?_
    · refine lockstep_bind_eq (mirrored_getArtifacts inside _) fun checkpoints => finishes _ ?_
      intro left right skipped twin
      rw [twin.topFrameFor inside, twin.stackView inside]
    · refine lockstep_bind_eq (lockstep_return _) fun checkpoints => finishes _ ?_
      intro left right skipped twin
      rw [twin.topFrameFor inside, twin.stackView inside]
  · refine lockstep_bind_eq (lockstep_return _) fun checkpoints => finishes _ ?_
    intro left right skipped twin
    rw [twin.topFrameFor inside, twin.stackView inside]

theorem World.Sound.chained {world : World} (sound : world.Sound env) (sid : SessionId) :
    world.ledger.Chained (world.ledger.standing sid).1 (world.ledger.InChain sid) := by
  have rootFree : world.ledger.frame (world.ledger.standing sid).1 = none := by
    cases framed : world.ledger.frame sid with
    | none => rwa [Ledger.standing_of_root framed]
    | some frame =>
        rw [Ledger.standing_of_frame framed]
        exact Ledger.places_none.mp (sound.forest.rootFree (Ledger.places_of_frame framed))
  refine ⟨.inl rfl, rootFree, ?_, ?_, ?_⟩
  · rintro other frame (rfl | ⟨own, framed, under⟩) found
    · simp [rootFree] at found
    · rw [framed, Option.some.injEq] at found
      exact found ▸ under
  · rintro other frame found (isRoot | ⟨own, framed, -⟩)
    · exact ⟨isRoot, .inr ⟨frame, found, isRoot⟩⟩
    · have free := Ledger.places_none.mp (sound.forest.rootFree (Ledger.places_of_frame found))
      simp [framed] at free
  · intro first second lower upper found foundUpper under underUpper sameDepth
    refine sound.forest.single (Ledger.places_of_frame found) ?_
    rw [Ledger.places_of_frame foundUpper, under, underUpper, sameDepth]

/-! The two halves of isolation. -/

/-- The rows and the frames of the chain of the session are the same in both stores. -/
def World.AgreesOn (left right : World) (sid : SessionId) : Prop :=
  ∀ other, left.ledger.InChain sid other ∨ right.ledger.InChain sid other →
    left.ledger.row other = right.ledger.row other ∧
      left.ledger.frame other = right.ledger.frame other

/-- Every call that leaves the server from now on has the same outcome. -/
def SameOutcomes (env : Env) (left right : World) : Prop :=
  ∀ call, env.mcpOutcome (left.outbound.length + call) =
    env.mcpOutcome (right.outbound.length + call)

theorem World.AgreesOn.copies (agrees : left.AgreesOn right sid) (leftSound : left.Sound env)
    (rightSound : right.Sound env) (outcomes : SameOutcomes env left right) :
    Copies env (left.ledger.standing sid).1 (left.ledger.InChain sid) left right := by
  have standing : left.ledger.standing sid = right.ledger.standing sid := by
    have own := (agrees sid (.inl (.self _ _))).2
    rw [Ledger.standing, Ledger.standing, own]
  have chain : left.ledger.InChain sid = right.ledger.InChain sid := by
    funext other
    apply propext
    constructor
    · rintro (isRoot | ⟨frame, found, under⟩)
      · exact .inl (standing ▸ isRoot)
      · refine .inr ⟨frame, ?_, standing ▸ under⟩
        rw [← (agrees other (.inl (.inr ⟨frame, found, under⟩))).2]
        exact found
    · rintro (isRoot | ⟨frame, found, under⟩)
      · exact .inl (standing ▸ isRoot)
      · refine .inr ⟨frame, ?_, standing ▸ under⟩
        rw [(agrees other (.inr (.inr ⟨frame, found, under⟩))).2]
        exact found
  have rows : ∀ {other}, left.ledger.InChain sid other →
    left.ledger.row other = right.ledger.row other :=
    fun inside => (agrees _ (.inl inside)).1
  refine ⟨⟨fun inside => congrArg _ (rows inside), fun inside => (agrees _ (.inl inside)).2,
    leftSound.chained sid, ?_, outcomes⟩, rows⟩
  rw [chain, standing]
  exact rightSound.chained sid

/-- The tools whose answer shows the chain of a session and nothing else of the store. -/
def Call.showsChain : Call → Bool
  | .getState _ => true
  | .getGuidelines _ => true
  | .submitStep _ _ _ _ _ => true
  | .reviseStep _ _ => true
  | .popFlow _ => true
  | .generateArtifact _ _ => true
  | _ => false

theorem copied_callTool {call : Call} {passed : String} (shows : call.showsChain = true)
    (passes : call.passed = some passed) (member : chain (env.normalizeSessionId passed)) :
    Copied env root chain (callTool env deployment call) := by
  cases call with
  | getState => exact copied_getState (Option.some.inj passes ▸ member)
  | getGuidelines => exact copied_getGuidelines (Option.some.inj passes ▸ member)
  | submitStep => exact copied_submitStep (Option.some.inj passes ▸ member)
  | reviseStep => exact copied_reviseStep (Option.some.inj passes ▸ member)
  | popFlow => exact copied_popFlow (Option.some.inj passes ▸ member)
  | generateArtifact => exact copied_generateArtifact (Option.some.inj passes ▸ member)
  | _ => simp [Call.showsChain] at shows

/-- The session has the same row and the same frame, or it is the child that the call created. -/
def World.Untouched (env : Env) (before after : World) (sid : SessionId) : Prop :=
  after.ledger.row sid = before.ledger.row sid ∧ after.ledger.frame sid = before.ledger.frame sid ∨
    sid = env.token before.minted ∧ before.ledger.row sid = none ∧ before.ledger.frame sid = none

theorem Serves.untouched {request : Request} {before after : World} {passed : String}
    (sound : before.Sound env) (room : before.sessions.size < env.sessionCap)
    (passes : request.call.passed = some passed)
    (serves : Serves env before request after)
    (outside : ¬before.ledger.InChain (env.normalizeSessionId passed) sid) :
    before.Untouched env after sid := by
  have empty : before.evicted env = [] := if_neg (Nat.not_le_of_lt room)
  have spares := (serves.effect sound).spares sound empty passes
  by_cases fresh : sid = env.token before.minted
  · refine .inr ⟨fresh, ?_, fresh ▸ sound.unframed⟩
    cases found : before.ledger.row sid with
    | none => rfl
    | some row => exact absurd (fresh ▸ sound.rowIssued found) Issued.not_next
  · exact .inl ⟨spares.row ⟨outside, fresh⟩, spares.frame ⟨outside, fresh⟩⟩

/-- A call that passes a session touches its chain only, and what the session tools answer depends
on that chain only. -/
theorem Reachable.isolated {allowed : World → Request → Prop} {world : World} {call : Call}
    {passed : String} (reachable : Reachable env allowed world)
    (passes : call.passed = some passed) :
    (world.sessions.size < env.sessionCap → ∀ after sid, Serves env world ⟨deployment, call⟩ after →
      ¬world.ledger.InChain (env.normalizeSessionId passed) sid → world.Untouched env after sid) ∧
    (call.showsChain = true → ∀ other, Reachable env allowed other →
      world.AgreesOn other (env.normalizeSessionId passed) → SameOutcomes env world other →
      ((callTool env deployment call).run world).1 =
        ((callTool env deployment call).run other).1) := by
  refine ⟨?_, ?_⟩
  · intro room after sid serves outside
    exact serves.untouched reachable.sound room passes outside
  · intro shows other otherReachable agrees outcomes
    have copies := agrees.copies reachable.sound otherReachable.sound outcomes
    exact (copied_callTool shows passes (.self _ _) _ _ copies).1.eq

/-- A session alone, and the same session beside another. -/
def alone : World :=
    serveAll sampleEnv (appOf sampleEnv nestedDocs) World.empty [.startWorkflow "inner" ""]

def beside : World :=
  serveAll sampleEnv (appOf sampleEnv nestedDocs) World.empty [.startWorkflow "inner" "",
    .startWorkflow "inner" ""]

theorem isolated_beside :
    beside.Untouched sampleEnv (serveAll sampleEnv (appOf sampleEnv nestedDocs) beside [.submitStep "ss" "x" "done" "" ""])
    (sampleToken 0) ∧
    ((callTool sampleEnv (appOf sampleEnv nestedDocs) (.getState "s")).run alone).1 =
      ((callTool sampleEnv (appOf sampleEnv nestedDocs) (.getState "s")).run beside).1 := by
  have besideServed : ServedBy sampleEnv (appOf sampleEnv nestedDocs) beside :=
    serveAll_served (by rfl)
  have aloneServed : ServedBy sampleEnv (appOf sampleEnv nestedDocs) alone :=
    serveAll_served (by rfl)
  have bare : ∀ other, alone.ledger.frame other = none ∧ beside.ledger.frame other = none :=
    fun _ => ⟨rfl, rfl⟩
  refine ⟨(Reachable.isolated besideServed rfl).1 (by decide) _ _ (serves_of_ends (by rfl)) ?_,
    (Reachable.isolated aloneServed rfl).2 rfl _ besideServed ?_ fun _ => rfl⟩
  · rintro (isRoot | ⟨frame, found, -⟩)
    · rw [Ledger.standing_of_root (bare _).2] at isRoot
      exact absurd isRoot (by decide)
    · simp [(bare _).2] at found
  · have isOwn : ∀ {world : World} {other}, (∀ sid, world.ledger.frame sid = none) →
        world.ledger.InChain (sampleToken 0) other → other = sampleToken 0 := by
      rintro world other unframed (isRoot | ⟨frame, found, -⟩)
      · rwa [Ledger.standing_of_root (unframed _)] at isRoot
      · simp [unframed] at found
    intro other inside
    obtain rfl : other = sampleToken 0 :=
      inside.elim (isOwn fun sid => (bare sid).1) (isOwn fun sid => (bare sid).2)
    exact ⟨by rfl, by rfl⟩

end Megalos
