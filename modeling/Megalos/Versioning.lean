import Megalos.Parked

/-!
Sessions and the versions of their workflows.  The deployment may be another accepted
one at every request; a session is written to only while the fingerprint it was
created with is the live one.
-/

namespace Megalos

open GuardedRuns KeyedTable StatefulProgram StatefulProgram.Program

def Session.Live (deployment : Deployment) (session : Session) : Prop :=
  deployment.workflowFingerprints.get? session.workflowType = some session.workflowFingerprint

def World.stepDataOf (world : World) (sid : SessionId) : StepData :=
  ((world.sessions.lookup sid).map Session.stepData).getD Table.empty

/-- What a call may do to sessions under the deployment that serves it. -/
structure FailClosed (deployment : Deployment) (before after : World) : Prop where
  written : ∀ sid new, after.sessions.lookup sid = some new → new.stepData ≠ before.stepDataOf sid →
    new.Live deployment
  stamped : ∀ sid row new, before.sessions.lookup sid = some row →
    after.sessions.lookup sid = some new →
    new.workflowType = row.workflowType ∧ new.workflowFingerprint = row.workflowFingerprint
  terminal : ∀ sid row new, before.sessions.lookup sid = some row →
    after.sessions.lookup sid = some new →
    row.currentStep = workflowChanged → new.currentStep = workflowChanged ∧
      new.stepData = row.stepData

/-- A request served by a version of the workflows that `create_app` accepts. -/
def ServedVersion (env : Env) (_ : World) (request : Request) : Prop :=
    request.deployment.Accepted env

variable {env : Env} {deployment : Deployment} {world after : World} {request : Request}
  {call : Call} {sid : SessionId} {row new : Session}

theorem Session.Live.same (same : row.Same new) (live : row.Live deployment) :
    new.Live deployment := by
  rw [Session.Live, same.workflowType_eq, same.workflowFingerprint_eq]
  exact live

theorem live_stamp {name : String} {wf : Workflow} (accepted : deployment.Accepted env)
    (loaded : deployment.workflows.get? name = some wf) :
    deployment.workflowFingerprints.get? name = some (fingerprintFor env deployment name) := by
  obtain ⟨fp, found⟩ :=
    Option.isSome_iff_exists.mp (accepted.fingerprinted (Option.isSome_of_eq_some loaded))
  rw [fingerprintFor, found]

theorem RowChange.live {ledger : Ledger} (accepted : deployment.Accepted env)
    (change : RowChange env deployment world ledger call row new)
    (written : new.stepData ≠ row.stepData) :
    new.Live deployment := by
  have same := change.same
  cases change with
  | counted counts => exact absurd counts.stepData_eq written
  | marked stale marks => exact absurd marks.stepData_eq written
  | submitted submits changes => exact .same same (submits.resolves.fingerprint accepted)
  | revised revises moved dropped => exact .same same (revises.resolves.fingerprint accepted)
  | escalated submits framed owner cause escalates => exact absurd escalates.stepData_eq written
  | delivered submits reached atEnd framed called owner resolves at_ isCall valid applies gone =>
      exact .same same (resolves.fingerprint accepted)

theorem RowBirth.live (accepted : deployment.Accepted env)
    (birth : RowBirth env deployment world call new) :
    new.Live deployment := by
  cases birth with
  | started loaded opened => exact .same opened.same (live_stamp accepted loaded)
  | spawned above loaded counts => exact .same counts.toSame (live_stamp accepted loaded)

/-- No call moves a session off the mark of a changed workflow, or writes to it. -/
theorem RowChange.terminal {ledger : Ledger}
    (change : RowChange env deployment world ledger call row new)
    (marked : row.currentStep = workflowChanged) :
    new.currentStep = workflowChanged ∧ new.stepData = row.stepData := by
  cases change with
  | counted counts => exact ⟨counts.currentStep_eq.trans marked, counts.stepData_eq⟩
  | marked stale marks => exact ⟨marks.currentStep_eq, marks.stepData_eq⟩
  | submitted submits changes => exact absurd marked submits.resolves.unmarked
  | revised revises moved dropped => exact absurd marked revises.resolves.unmarked
  | escalated submits framed owner cause escalates =>
      exact ⟨escalates.currentStep_eq.trans marked, escalates.stepData_eq⟩
  | delivered submits reached atEnd framed called owner resolves at_ isCall valid applies gone =>
      exact absurd marked resolves.unmarked

theorem Serves.refusesDrifted (sound : world.Sound env) (accepted : request.deployment.Accepted env)
    (serves : Serves env world request after) : FailClosed request.deployment world after where
  written sid new found written := by
    rcases serves.rowEffect sound found with ⟨row, there, change⟩ | ⟨fresh, birth⟩
    · have looked : world.sessions.lookup sid = some row := there
      simp only [World.stepDataOf, looked, Option.map_some, Option.getD_some] at written
      exact change.live accepted written
    · exact birth.live accepted
  stamped sid row new there found := by
    have same := (serves.rowChange sound there found).same
    exact ⟨same.workflowType_eq, same.workflowFingerprint_eq⟩
  terminal sid row new there found marked := (serves.rowChange sound there found).terminal marked

/-- A marked session stays marked, and keeps its step data, for as long as it has a row. -/
theorem Run.staysMarked {allowed : World → Request → Prop} {final : World} {last : Session}
    (run : GuardedRuns.Run (Serves env) allowed world final) (sound : world.Sound env)
    (there : world.sessions.lookup sid = some row) (marked : row.currentStep = workflowChanged)
    (found : final.sessions.lookup sid = some last) :
    last.currentStep = workflowChanged ∧ last.stepData = row.stepData := by
  have kept := run.invariant (fun state => state.Sound env ∧ Issued env state.minted sid ∧
    ∀ new, state.ledger.row sid = some new → new.currentStep = workflowChanged ∧
      new.stepData = row.stepData)
    ⟨sound, sound.rowIssued there, ?_⟩ ?_
  · exact kept.2.2 last found
  · intro new isRow
    have same : row = new := Option.some.inj (there.symm.trans isRow)
    exact ⟨same ▸ marked, same ▸ rfl⟩
  · rintro before request after ⟨sound, issued, kept⟩ - serves
    refine ⟨serves.sound sound, issued.mono (serves.shape sound).minted_le, ?_⟩
    intro new isRow
    rcases serves.rowEffect sound isRow with ⟨old, isOld, change⟩ | ⟨fresh, -⟩
    · obtain ⟨oldMarked, oldData⟩ := kept old isOld
      obtain ⟨newMarked, newData⟩ := change.terminal oldMarked
      exact ⟨newMarked, newData.trans oldData⟩
    · exact absurd (fresh ▸ issued) Issued.not_next

/-- Versioning is fail-closed and terminal, whatever versions the requests are served by. -/
theorem Reachable.failClosed (reachable : Reachable env (ServedVersion env) world) :
    (∀ request after, request.deployment.Accepted env → Serves env world request after →
      FailClosed request.deployment world after) ∧
    ∀ sid row final last, world.sessions.lookup sid = some row → row.currentStep = workflowChanged →
      GuardedRuns.Run (Serves env) (ServedVersion env) world final →
        final.sessions.lookup sid = some last →
      last.currentStep = workflowChanged ∧ last.stepData = row.stepData := by
  refine ⟨fun request after accepted serves => serves.refusesDrifted reachable.sound accepted, ?_⟩
  intro sid row final last there marked run found
  exact Run.staysMarked run reachable.sound there marked found

/-- An environment whose digest of a document is its description. -/
def versionedEnv : Env :=
  { sampleEnv with
    canonicalDumps := fun doc =>
      match doc.get? "description" with
      | some (.str text) => text
      | _ => "" }

def versionDocs (version : String) : List Val := [
  .obj [("name", .str "outer"), ("description", .str version), ("category", .str "sample"),
    ("output_format", .str "text"), ("steps", .list [stepDoc "a" [], stepDoc "b" []])]]

def startedUnder : World :=
  serveAll versionedEnv (appOf versionedEnv (versionDocs "one")) World.empty [.startWorkflow "outer" ""]

def markedUnder : World :=
  serveAll versionedEnv (appOf versionedEnv (versionDocs "two")) startedUnder [.getState "s"]

def resubmittedUnder : World :=
  serveAll versionedEnv (appOf versionedEnv (versionDocs "one")) markedUnder [.submitStep "s" "a" "done" "" ""]

theorem marked_stays_marked :
    ∃ last, resubmittedUnder.sessions.lookup (sampleToken 0) = some last ∧
      last.currentStep = workflowChanged := by
  have first : Reachable versionedEnv (ServedVersion versionedEnv) startedUnder :=
    serveAll_run (by rfl) ⟨appOf_accepted (by decide), trivial⟩
  have second : Reachable versionedEnv (ServedVersion versionedEnv) markedUnder :=
    first.trans (serveAll_run (by rfl) ⟨appOf_accepted (by decide), trivial⟩)
  have third : GuardedRuns.Run (Serves versionedEnv)
    (ServedVersion versionedEnv) markedUnder resubmittedUnder :=
    serveAll_run (by rfl) ⟨appOf_accepted (by decide), trivial⟩
  obtain ⟨row, there⟩ := Option.isSome_iff_exists.mp
    (show (markedUnder.sessions.lookup (sampleToken 0)).isSome = true by rfl)
  have marked : (markedUnder.sessions.lookup (sampleToken 0)).map Session.currentStep =
    some workflowChanged := by rfl
  rw [there, Option.map_some, Option.some.injEq] at marked
  obtain ⟨last, found⟩ := Option.isSome_iff_exists.mp
    (show (resubmittedUnder.sessions.lookup (sampleToken 0)).isSome = true by rfl)
  exact ⟨last, found, ((Reachable.failClosed second).2 _ row _ last there marked third found).1⟩

end Megalos
