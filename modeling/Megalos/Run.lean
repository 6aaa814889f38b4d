import Megalos.Library.GuardedRuns
import Megalos.Shape

/-!
Runs of the server: one tool call after the other, from the empty store.  A request
carries the deployment that serves it, so that a restart with other workflows, or
another caller, may lie between two requests.
-/

namespace Megalos

open GuardedRuns KeyedTable StatefulProgram StatefulProgram.Program

structure Request where
  deployment : Deployment
  call : Call

/-- The server answers the request, or a tool raises; no loop of it runs for ever. -/
def Serves (env : Env) (before : World) (request : Request) (after : World) : Prop :=
  ∃ outcome, (callTool env request.deployment request.call).run before = (outcome, after) ∧
    outcome ≠ .error .diverges

/-- The states that requests meeting the condition lead to. -/
def Reachable (env : Env) (allowed : World → Request → Prop) (world : World) : Prop :=
  Run (Serves env) allowed World.empty world

def ServedBy (env : Env) (deployment : Deployment) (world : World) : Prop :=
  Reachable env (fun _ request => request.deployment = deployment) world

variable {env : Env} {before after world : World} {request : Request}
    {allowed : World → Request → Prop}

theorem Serves.effect (sound : before.Sound env) (serves : Serves env before request after) :
    Effect env request.deployment before request.call after.ledger after.minted := by
  obtain ⟨outcome, ran, finite⟩ := serves
  exact Wp.elim (settles_callTool sound request.call) ran finite

theorem Serves.shape (sound : before.Sound env) (serves : Serves env before request after) :
    Shape env request.deployment before request.call after.ledger after.minted :=
  (serves.effect sound).shape sound

theorem Serves.sound (sound : before.Sound env) (serves : Serves env before request after) :
    after.Sound env :=
  (serves.shape sound).sound sound

theorem World.empty_sound : World.empty.Sound env := by
  have none : ∀ sid, World.empty.ledger.frame sid = none := fun _ => rfl
  refine ⟨⟨?_, ?_, ?_⟩, ?_, ?_, ?_, ?_⟩
  · intro node root depth placed
    simp [Ledger.places, none] at placed
  · intro node root depth placed
    simp [Ledger.places, none] at placed
  · intro first second place placed
    simp [Ledger.places, none] at placed
  · intro sid frame found
    simp [none] at found
  · intro sid row found
    cases found
  · intro sid frame found
    simp [none] at found
  · intro sid row owner found
    cases found

theorem Run.sound {start : World} (run : Run (Serves env) allowed start world)
    (sound : start.Sound env) :
    world.Sound env :=
  GuardedRuns.Run.invariant (World.Sound env) run sound fun _ _ _ sound _ serves =>
    serves.sound sound

theorem Reachable.sound (reachable : Reachable env allowed world) : world.Sound env :=
  Run.sound reachable World.empty_sound

theorem Reachable.invariant (inv : World → Prop) (reachable : Reachable env allowed world)
    (initial : inv World.empty)
    (preserved : ∀ before request after, before.Sound env → inv before → allowed before request →
      Serves env before request after → inv after) : inv world := by
  refine (GuardedRuns.Run.invariant (fun state => state.Sound env ∧ inv state) reachable
    ⟨World.empty_sound, initial⟩ ?_).2
  rintro before request after ⟨sound, holds⟩ meets serves
  exact ⟨serves.sound sound, preserved before request after sound holds meets serves⟩

end Megalos
