import Megalos.RowChange
import Megalos.Sample

/-!
The tools that only look: `list_workflows`, `get_state`, `get_guidelines`, `list_sessions`
and `generate_artifact`.  Under one set of workflows no answer depends on who looked before.
-/

namespace Megalos

open StatefulProgram StatefulProgram.Program

def Call.observes : Call → Bool
  | .listWorkflows _ => true
  | .getState _ => true
  | .getGuidelines _ => true
  | .listSessions => true
  | .generateArtifact _ _ => true
  | _ => false

/-- The calls of a run with what each was answered; no loop of the server runs for ever. -/
inductive Transcript (env : Env) (deployment : Deployment) : World → List (Call × Except Exn Val) →
    World → Prop
  | stop (world : World) : Transcript env deployment world [] world
  | call {before between after : World} {call : Call} {outcome : Except Exn Val}
      {rest : List (Call × Except Exn Val)}
      (ran : (callTool env deployment call).run before = (outcome, between))
      (ends : outcome ≠ .error .diverges)
      (later : Transcript env deployment between rest after) :
      Transcript env deployment before ((call, outcome) :: rest) after

variable {env : Env} {deployment : Deployment} {world after : World} {sessionId : String}

theorem reads_trapErrors {field : String} {sessionId : Option String} {body : Server Val}
    (reads : (body.run world).2 = world) :
    ((trapErrors env field sessionId body).run world).2 = world := by
  have traps : Wp (trapErrors env field sessionId body) (fun _ after => after = world) world := by
    rw [trapErrors, wp_rescue]
    refine Wp.mono (show Wp body (fun _ after => after = world) world from reads) ?_
    rintro (raised | response) after same
    · cases raised <;> exact same
    · exact same
  exact traps

/-- A session of the present workflows is not marked by the funnel. -/
theorem ReadsSession.same {tool : Server Val} (reads : ReadsSession env deployment sessionId tool)
    (current : world.ledger.Current env deployment) : (tool.run world).2 = world := by
  obtain ⟨checks, body, rfl, reads⟩ := reads
  refine reads_trapErrors ?_
  have resolved : Wp (resolveSession env deployment sessionId (env.normalizeSessionId sessionId))
      (fun _ after => after = world) world := by
    refine wp_resolveSession ?_ ?_ ?_
    · intro session wf _
      rfl
    · intro err _ _ _
      rfl
    · intro err session new after _ stale _ _
      exact absurd stale current.not_stale
  have answered : Wp (withSession env deployment sessionId checks body)
    (fun _ after => after = world) world := by
    unfold withSession
    split
    · rfl
    · refine wp_bind_of resolved ?_ ?_
      · rintro (err | ⟨session, wf⟩) reached rfl
        · rfl
        · exact reads session wf reached
      · rintro raised reached rfl
        rfl
  exact answered

theorem observes_same {call : Call} (observes : call.observes = true)
    (current : world.ledger.Current env deployment) :
    ((callTool env deployment call).run world).2 = world := by
  cases call with
  | listWorkflows category =>
      obtain ⟨body, same, reads⟩ : ∃ body, listWorkflows env deployment category = _ ∧ Reads body :=
        reads_listWorkflows category
      rw [callTool, same]
      exact reads_trapErrors (reads world)
  | getState sessionId => exact (reads_getState sessionId).same current
  | getGuidelines sessionId => exact (reads_getGuidelines sessionId).same current
  | generateArtifact sessionId outputFormat =>
    exact (reads_generateArtifact sessionId outputFormat).same current
  | listSessions =>
      obtain ⟨body, same, reads⟩ : ∃ body, listSessions env = _ ∧ Reads body := reads_listSessions
      rw [callTool, same]
      exact reads_trapErrors (reads world)
  | _ => cases observes

/-- Without the calls that only look, every other call is answered as with them, and the same state
is reached. -/
theorem observers_erased (served : ServedBy env deployment world)
    {transcript : List (Call × Except Exn Val)}
    (answered : Transcript env deployment world transcript after) :
    Transcript env deployment world (transcript.filter fun entry => !entry.1.observes) after := by
  have sound : world.Sound env := Reachable.sound served
  have current : world.ledger.Current env deployment :=
    Reachable.current (fun _ _ same => same) served
  clear served
  induction answered with
  | stop world => exact .stop world
  | @call before between after call outcome rest ran ends later ih =>
      have serves : Serves env before ⟨deployment, call⟩ between := ⟨outcome, ran, ends⟩
      have rest := ih (serves.sound sound) (serves.current sound current)
      by_cases observes : call.observes = true
      · rw [List.filter_cons_of_neg (by simp [observes])]
        have same := observes_same observes current
        rw [ran] at same
        rwa [← show between = before from same]
      · rw [List.filter_cons_of_pos (by simp [observes])]
        exact .call ran ends rest

def answers (env : Env) (deployment : Deployment) : World → List Call → List (Call × Except Exn Val)
  | _, [] => []
  | world, call :: rest =>
      (call, ((callTool env deployment call).run world).1) ::
        answers env deployment ((callTool env deployment call).run world).2 rest

theorem answers_transcript {calls : List Call} (ends : allEnd env deployment world calls = true) :
    Transcript env deployment world (answers env deployment world calls)
    (serveAll env deployment world calls) := by
  induction calls generalizing world with
  | nil => exact .stop world
  | cons call rest ih =>
      rw [allEnd, Bool.and_eq_true] at ends
      refine .call rfl ?_ (ih ends.2)
      intro diverges
      rw [diverges] at ends
      exact absurd ends.1 (by decide)

def watched : List Call :=
    [.startWorkflow "paper" "", .getState "s", .listSessions, .submitStep "s" "plan" "done" "" "",
  .getGuidelines "s", .generateArtifact "s" "text"]

theorem observers_erased_watched :
    Transcript lenientEnv (appOf lenientEnv draftDocs) World.empty
      ((answers lenientEnv (appOf lenientEnv draftDocs) World.empty watched).filter fun entry =>
        !entry.1.observes)
    (serveAll lenientEnv (appOf lenientEnv draftDocs) World.empty watched) := by
  have start : ServedBy lenientEnv (appOf lenientEnv draftDocs) World.empty :=
    GuardedRuns.Run.refl _
  exact observers_erased start (answers_transcript (by rfl))

end Megalos
