import Mathlib.Logic.Relation

/-!
Runs of a labelled transition system whose steps all meet a condition on the state
before the step and on its label.
-/

namespace GuardedRuns

variable {σ label : Type} {step : σ → label → σ → Prop} {allowed : σ → label → Prop}

/-- The steps of the system that meet the condition. -/
def Allowed (step : σ → label → σ → Prop) (allowed : σ → label → Prop) (before after : σ) : Prop :=
  ∃ action, allowed before action ∧ step before action after

def Run (step : σ → label → σ → Prop) (allowed : σ → label → Prop) : σ → σ → Prop :=
  Relation.ReflTransGen (Allowed step allowed)

theorem Run.refl (state : σ) : Run step allowed state state := Relation.ReflTransGen.refl

theorem Run.trans {first second third : σ} (start : Run step allowed first second)
    (rest : Run step allowed second third) : Run step allowed first third :=
  Relation.ReflTransGen.trans start rest

theorem Run.snoc {first second third : σ} {action : label} (start : Run step allowed first second)
    (meets : allowed second action) (takes : step second action third) :
    Run step allowed first third :=
  Relation.ReflTransGen.tail start ⟨action, meets, takes⟩

/-- What holds at the start and is kept by every allowed step holds at the end. -/
theorem Run.invariant (inv : σ → Prop) {start final : σ} (run : Run step allowed start final)
    (initial : inv start)
    (preserved : ∀ before action after, inv before → allowed before action →
      step before action after →
      inv after) : inv final := by
  induction run with
  | refl => exact initial
  | tail _ last ih =>
      obtain ⟨action, meets, takes⟩ := last
      exact preserved _ action _ ih meets takes

theorem Run.weaken {weaker : σ → label → Prop} {start final : σ}
    (run : Run step allowed start final)
    (implies : ∀ state action, allowed state action → weaker state action) :
    Run step weaker start final := by
  induction run with
  | refl => exact Run.refl _
  | tail _ last ih =>
      obtain ⟨action, meets, takes⟩ := last
      exact ih.snoc (implies _ action meets) takes

end GuardedRuns
