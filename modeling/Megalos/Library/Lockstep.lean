import Megalos.Library.StatefulProgram

/-!
Two runs side by side.  Two programs run in lockstep when from related states they end
alike: both return, with related values, or both raise the same exception, and the
states they leave are related again.
-/

namespace StatefulProgram

inductive Alike {ε α : Type} (values : α → α → Prop) : Except ε α → Except ε α → Prop
  | ok {left right : α} (related : values left right) : Alike values (.ok left) (.ok right)
  | error (raised : ε) : Alike values (.error raised) (.error raised)

theorem Alike.refl {ε α : Type} (outcome : Except ε α) : Alike Eq outcome outcome := by
  cases outcome with
  | ok value => exact .ok rfl
  | error raised => exact .error raised

theorem Alike.mono {ε α : Type} {values weaker : α → α → Prop} {left right : Except ε α}
    (alike : Alike values left right)
    (implies : ∀ first second, values first second → weaker first second) :
    Alike weaker left right := by
  cases alike with
  | ok same => exact .ok (implies _ _ same)
  | error raised => exact .error raised

theorem Alike.eq {ε α : Type} {left right : Except ε α} (alike : Alike Eq left right) :
    left = right := by
  cases alike with
  | ok related => rw [related]
  | error raised => rfl

namespace Program

variable {σ ε α β : Type} {before middle after : σ → σ → Prop} {values : α → α → Prop}
    {results : β → β → Prop}

def Lockstep (before after : σ → σ → Prop) (values : α → α → Prop) (left right : Program σ ε α) :
    Prop :=
  ∀ first second, before first second →
    Alike values (left.run first).1 (right.run second).1 ∧
      after (left.run first).2 (right.run second).2

theorem Lockstep.of_wp {left right : Program σ ε α}
    (holds : ∀ first second, before first second →
      Wp left (fun outcome reached =>
        Wp right (fun other arrived => Alike values outcome other ∧
          after reached arrived) second) first) :
    Lockstep before after values left right := holds

theorem Lockstep.mono {weaker : α → α → Prop} {left right : Program σ ε α}
    (steps : Lockstep before after values left right)
    (implies : ∀ first second, values first second → weaker first second) :
    Lockstep before after weaker left right :=
  fun first second related =>
    ⟨(steps first second related).1.mono implies, (steps first second related).2⟩

theorem Lockstep.start {stronger : σ → σ → Prop} {left right : Program σ ε α}
    (steps : Lockstep before after values left right)
    (implies : ∀ first second, stronger first second → before first second) :
    Lockstep stronger after values left right :=
  fun first second related => steps first second (implies first second related)

/-- Lockstep from equal states to equal states is equality of the programs. -/
theorem Lockstep.eq {left right : Program σ ε α} (steps : Lockstep Eq Eq Eq left right) :
    left = right := by
  have runs : left.run = right.run := by
    funext state
    exact Prod.ext (steps state state rfl).1.eq (steps state state rfl).2
  cases left
  cases right
  exact congrArg Program.mk runs

theorem Lockstep.same (body : Program σ ε α) : Lockstep Eq Eq Eq body body := by
  rintro state _ rfl
  exact ⟨Alike.refl _, rfl⟩

theorem lockstep_pure {left right : α} (related : values left right) :
    Lockstep before before values (pure left : Program σ ε α) (pure right) :=
  fun _ _ reached => ⟨.ok related, reached⟩

theorem lockstep_return (value : α) :
    Lockstep before before Eq (pure value : Program σ ε α) (pure value) :=
  lockstep_pure rfl

theorem lockstep_raise (raised : ε) :
    Lockstep before before values (raise raised : Program σ ε α) (raise raised) :=
  fun _ _ reached => ⟨.error raised, reached⟩

theorem lockstep_ofExcept (result : Except ε α) :
    Lockstep before before Eq (ofExcept result : Program σ ε α) (ofExcept result) :=
  fun _ _ reached => ⟨Alike.refl result, reached⟩

theorem lockstep_ofAlike {left right : Except ε α} (alike : Alike values left right) :
    Lockstep before before values (ofExcept left : Program σ ε α) (ofExcept right) :=
  fun _ _ reached => ⟨alike, reached⟩

theorem lockstep_ite {condition : Prop} [Decidable condition]
    {left right other another : Program σ ε α}
    (onTrue : condition → Lockstep before after values left right)
    (onFalse : ¬condition → Lockstep before after values other another) :
    Lockstep before after values (if condition then left else other)
    (if condition then right else another) := by
  by_cases holds : condition
  · rw [if_pos holds, if_pos holds]
    exact onTrue holds
  · rw [if_neg holds, if_neg holds]
    exact onFalse holds

theorem lockstep_read {left right : σ → α}
    (same : ∀ first second, before first second → values (left first) (right second)) :
    Lockstep before before values (read left : Program σ ε α) (read right) :=
  fun first second reached => ⟨.ok (same first second reached), reached⟩

theorem lockstep_write {left right : σ → σ}
    (keeps : ∀ first second, before first second → after (left first) (right second)) :
    Lockstep before after Eq (write left : Program σ ε Unit) (write right) :=
  fun first second reached => ⟨.ok rfl, keeps first second reached⟩

theorem lockstep_bind {left right : Program σ ε α} {next other : α → Program σ ε β}
    (steps : Lockstep before middle values left right)
    (goesOn : ∀ first second, values first second →
      Lockstep middle middle results (next first) (other second)) :
    Lockstep before middle results (left >>= next) (right >>= other) := by
  intro first second related
  have start := steps first second related
  change Alike results ((Program.bind left next).run first).1 ((Program.bind right other).run second).1 ∧
    middle ((Program.bind left next).run first).2 ((Program.bind right other).run second).2
  simp only [Program.bind]
  revert start
  rcases left.run first with ⟨outcome, reached⟩
  rcases right.run second with ⟨twin, arrived⟩
  rintro ⟨alike, still⟩
  cases alike with
  | ok same => exact goesOn _ _ same reached arrived still
  | error raised => exact ⟨.error raised, still⟩

theorem lockstep_bind_eq {left right : Program σ ε α} {next other : α → Program σ ε β}
    (steps : Lockstep before middle Eq left right)
    (goesOn : ∀ value, Lockstep middle middle results (next value) (other value)) :
    Lockstep before middle results (left >>= next) (right >>= other) := by
  refine lockstep_bind steps ?_
  rintro first _ rfl
  exact goesOn first

theorem lockstep_rescue {left right : Program σ ε α} {handler : ε → Program σ ε α}
    (steps : Lockstep before after values left right)
    (handles : ∀ raised, Lockstep after after values (handler raised) (handler raised)) :
    Lockstep before after values (rescue left handler) (rescue right handler) := by
  intro first second related
  have start := steps first second related
  simp only [rescue]
  revert start
  rcases left.run first with ⟨outcome, reached⟩
  rcases right.run second with ⟨other, arrived⟩
  rintro ⟨alike, still⟩
  cases alike with
  | ok same => exact ⟨.ok same, still⟩
  | error raised => exact handles raised reached arrived still

theorem lockstep_atomically {rollback : σ → σ → σ} {left right : Program σ ε α}
    (steps : Lockstep before after values left right)
    (restores : ∀ first second reached arrived, before first second → after reached arrived →
      after (rollback first reached) (rollback second arrived)) :
    Lockstep before after values (atomically rollback left) (atomically rollback right) := by
  intro first second related
  have start := steps first second related
  simp only [atomically]
  revert start
  rcases left.run first with ⟨outcome, reached⟩
  rcases right.run second with ⟨other, arrived⟩
  rintro ⟨alike, still⟩
  cases alike with
  | ok same => exact ⟨.ok same, still⟩
  | error raised => exact ⟨.error raised, restores first second reached arrived related still⟩

end Program

end StatefulProgram
