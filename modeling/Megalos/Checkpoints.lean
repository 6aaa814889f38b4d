import Megalos.StoreCalls

/-!
Where the artifact checkpoints of a row come from.  Nothing but the submission of an
artifact writes one, and nothing ever takes one away from a row.
-/

namespace Megalos

open KeyedTable StatefulProgram StatefulProgram.Program

/-- The content that the row keeps for an artifact of a step. -/
def Session.checkpoint? (session : Session) (stepId artifactId : String) : Option String :=
  (session.artifactCheckpoints.getD stepId Table.empty).get? artifactId

def CheckpointsFrom (written : SessionId → String → String → Prop) (before after : World) : Prop :=
  ∀ sid new stepId artifactId content, after.sessions.lookup sid = some new →
    new.checkpoint? stepId artifactId = some content → written sid stepId artifactId ∨
      ∃ row, before.sessions.lookup sid = some row ∧
        row.checkpoint? stepId artifactId = some content

abbrev Checkpoints {α : Type} (written : SessionId → String → String → Prop) (body : Server α) :
    Prop :=
  Keeps (CheckpointsFrom written) body

variable {env : Env} {deployment : Deployment} {written : SessionId → String → String → Prop}

namespace CheckpointsFrom

variable {before middle after : World}

theorem of_sessions (same : after.sessions = before.sessions) :
    CheckpointsFrom written before after := by
  intro sid new stepId artifactId content found kept
  exact .inr ⟨new, same ▸ found, kept⟩

theorem refl (world : World) : CheckpointsFrom written world world := of_sessions rfl

theorem trans (start : CheckpointsFrom written before middle)
    (rest : CheckpointsFrom written middle after) :
    CheckpointsFrom written before after := by
  intro sid new stepId artifactId content found kept
  rcases rest sid new stepId artifactId content found kept with wrote | ⟨row, there, was⟩
  · exact .inl wrote
  · exact start sid row stepId artifactId content there was

end CheckpointsFrom

theorem StoreCall.checkpoints {before : World} {call : StoreCall}
    (permitted : call.Permitted written) :
    CheckpointsFrom written before (call.after env before) := by
  intro sid new stepId artifactId content found kept
  rcases call.row_after found with ⟨old, there, rewrites⟩ | ⟨_, _, _, _, _, _, _, _, -, -, rfl⟩
  · obtain rfl : old.sessionId = sid := Table.lookup_key there
    have same : new.artifactCheckpoints = old.artifactCheckpoints →
      old.checkpoint? stepId artifactId = some content := by
      intro same
      rw [Session.checkpoint?, same] at kept
      exact kept
    cases rewrites with
    | moved column pointer stamp artifacts visits => exact .inr ⟨old, there, same artifacts⟩
    | visited pointer stamp artifacts => exact .inr ⟨old, there, same artifacts⟩
    | kept elsewhere pointer stamp artifacts visits => exact .inr ⟨old, there, same artifacts⟩
    | @stored writtenStep writtenArtifact _ _ _ pointer stamp artifacts visits =>
        by_cases isWritten : stepId = writtenStep ∧ artifactId = writtenArtifact
        · obtain ⟨rfl, rfl⟩ := isWritten
          exact .inl permitted
        · refine .inr ⟨old, there, ?_⟩
          rw [Session.checkpoint?, artifacts, Dict.getD, Dict.get?_set] at kept
          split at kept
          · rename_i isStep
            rw [Option.getD_some, Dict.get?_set,
              if_neg (fun isArtifact => isWritten ⟨isStep, isArtifact⟩), ← isStep] at kept
            exact kept
          · exact kept
  · cases kept

theorem StoreRun.checkpoints {before after : World}
    (run : StoreRun env (StoreCall.Permitted written) before after) :
    CheckpointsFrom written before after := by
  refine run.invariant (CheckpointsFrom written before) (.refl before) ?_
  intro middle request last start permitted stores
  cases stores with
  | called request => exact start.trans (StoreCall.checkpoints (permitted request rfl))
  | aside sessions => exact start.trans (.of_sessions sessions)

theorem checkpoints_callTool (call : Call) :
    Checkpoints (call.WritesCheckpoint env) (callTool env deployment call) :=
  fun world => (issues_callTool call world).checkpoints

end Megalos
