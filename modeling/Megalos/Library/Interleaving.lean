import Mathlib.Data.Finset.Card
import Mathlib.Data.Fintype.Basic
import Mathlib.Logic.Function.Basic
import Megalos.Library.StatefulProgram

/-!
Calls that run side by side over one state.  A thread makes one atomic access after the
other, and a pool lets one thread at a time make its next access.  A protocol says, in
phases, what every thread may do when its turn comes; a pool whose threads follow a
protocol makes a run of the protocol.
-/

namespace Interleaving

open StatefulProgram StatefulProgram.Program

/-- The tag of an access is what the trace shows of it; it may depend on the outcome. -/
inductive Thread (τ σ ε α : Type) : Type 1
  | done (outcome : Except ε α)
  | access {β : Type} (tag : Except ε β → τ) (action : Program σ ε β)
      (rest : Except ε β → Thread τ σ ε α)

namespace Thread

variable {τ σ ε α β : Type}

protected def bind : Thread τ σ ε α → (α → Thread τ σ ε β) → Thread τ σ ε β
  | .done (.ok value), next => next value
  | .done (.error raised), _ => .done (.error raised)
  | .access tag action rest, next => .access tag action fun outcome => (rest outcome).bind next

instance : Monad (Thread τ σ ε) where
  pure value := .done (.ok value)
  bind := Thread.bind

def atomic (tag : Except ε α → τ) (action : Program σ ε α) : Thread τ σ ε α :=
    .access tag action .done

def raise (exception : ε) : Thread τ σ ε α := .done (.error exception)

def rescue : Thread τ σ ε α → (ε → Thread τ σ ε α) → Thread τ σ ε α
  | .done (.ok value), _ => .done (.ok value)
  | .done (.error raised), handler => handler raised
  | .access tag action rest, handler => .access tag action fun outcome =>
    (rest outcome).rescue handler

def whole : Thread τ σ ε α → Program σ ε α
  | .done outcome => ofExcept outcome
  | .access _ action rest =>
    ⟨fun state => (rest (action.run state).1).whole.run (action.run state).2⟩

theorem whole_bind (first : Thread τ σ ε α) (next : α → Thread τ σ ε β) :
    (first >>= next).whole = first.whole >>= fun value => (next value).whole := by
  change (first.bind next).whole = first.whole.bind fun value => (next value).whole
  induction first with
  | done outcome => cases outcome <;> rfl
  | access tag action rest ih =>
      simp only [Thread.bind, whole, Program.bind, Program.mk.injEq]
      funext state
      rw [ih]
      rfl

theorem whole_rescue (body : Thread τ σ ε α) (handler : ε → Thread τ σ ε α) :
    (body.rescue handler).whole = Program.rescue body.whole fun raised =>
      (handler raised).whole := by
  induction body with
  | done outcome => cases outcome <;> rfl
  | access tag action rest ih =>
      simp only [rescue, whole, Program.rescue, Program.mk.injEq]
      funext state
      rw [ih]
      rfl

/-- The next access: its tag, what is left of the thread, and the state. -/
def turn (state : σ) : Thread τ σ ε α → Option (τ × Thread τ σ ε α × σ)
  | .done _ => none
  | .access tag action rest =>
      some (tag (action.run state).1, rest (action.run state).1, (action.run state).2)

end Thread

section Pool

variable {ι τ σ ε α : Type} [DecidableEq ι]

structure Pool (ι τ σ ε α : Type) where
  state : σ
  threads : ι → Thread τ σ ε α

def Pool.turn (pool : Pool ι τ σ ε α) (call : ι) : Option (τ × Pool ι τ σ ε α) :=
  ((pool.threads call).turn pool.state).map fun next =>
    (next.1, ⟨next.2.2, Function.update pool.threads call next.2.1⟩)

/-- Any order of accesses, with its trace; the last access stands first. -/
inductive Execution (start : Pool ι τ σ ε α) : List (ι × τ) → Pool ι τ σ ε α → Prop
  | start : Execution start [] start
  | turn {trace : List (ι × τ)} {pool later : Pool ι τ σ ε α} {call : ι} {tag : τ}
      (ran : Execution start trace pool) (next : pool.turn call = some (tag, later)) :
      Execution start ((call, tag) :: trace) later

/-- The calls take turns as listed; a call that is done lets its turns pass. -/
def Pool.play : List ι → List (ι × τ) → Pool ι τ σ ε α → List (ι × τ) × Pool ι τ σ ε α
  | [], trace, pool => (trace, pool)
  | call :: calls, trace, pool =>
      match pool.turn call with
      | none => Pool.play calls trace pool
      | some (tag, later) => Pool.play calls ((call, tag) :: trace) later

theorem Execution.play {start pool : Pool ι τ σ ε α} {trace : List (ι × τ)}
    (ran : Execution start trace pool) (calls : List ι) :
    Execution start (Pool.play calls trace pool).1 (Pool.play calls trace pool).2 := by
  induction calls generalizing trace pool with
  | nil => exact ran
  | cons call calls ih =>
      unfold Pool.play
      cases next : pool.turn call with
      | none => exact ih ran
      | some taken => exact ih (ran.turn next)

end Pool

/-- From a phase, an access that the trace shows as the tag may lead to a phase and a state. -/
abbrev Protocol (τ σ π : Type) := π → τ → σ → σ → π → Prop

namespace Protocol

variable {ι τ σ ε α β π : Type} [DecidableEq ι] {moves : Protocol τ σ π} {phase : π}

def Follows (moves : Protocol τ σ π) (ends : π → Except ε α → Prop) : π → Thread τ σ ε α → Prop
  | phase, .done outcome => ends phase outcome
  | phase, .access tag action rest => ∀ state, ∃ later,
      moves phase (tag (action.run state).1) state (action.run state).2 later ∧
        Follows moves ends later (rest (action.run state).1)

/-- The moves of many threads, in any order. -/
inductive Run (moves : Protocol τ σ π) (start : σ) (phases : ι → π) : List (ι × τ) → σ → (ι → π) →
    Prop
  | start : Run moves start phases [] start phases
  | move {trace : List (ι × τ)} {before after : σ} {reached : ι → π} {call : ι} {tag : τ}
      {later : π}
      (ran : Run moves start phases trace before reached)
      (takes : moves (reached call) tag before after later) :
      Run moves start phases ((call, tag) :: trace) after (Function.update reached call later)

section Rules

variable {ends : π → Except ε β → Prop}

theorem follows_bind {middle : π → Except ε α → Prop} {first : Thread τ σ ε α}
    {next : α → Thread τ σ ε β} (start : Follows moves middle phase first)
    (onOk : ∀ later value, middle later (.ok value) → Follows moves ends later (next value))
    (onRaise : ∀ later raised, middle later (.error raised) → ends later (.error raised)) :
    Follows moves ends phase (first >>= next) := by
  change Follows moves ends phase (first.bind next)
  induction first generalizing phase with
  | done outcome =>
      cases outcome with
      | ok value => exact onOk phase value start
      | error raised => exact onRaise phase raised start
  | access tag action rest ih =>
      intro state
      obtain ⟨later, takes, follows⟩ := start state
      exact ⟨later, takes, ih _ follows⟩

theorem follows_rescue {middle : π → Except ε β → Prop} {body : Thread τ σ ε β}
    {handler : ε → Thread τ σ ε β} (start : Follows moves middle phase body)
    (onOk : ∀ later value, middle later (.ok value) → ends later (.ok value))
    (onRaise : ∀ later raised, middle later (.error raised) →
      Follows moves ends later (handler raised)) :
    Follows moves ends phase (body.rescue handler) := by
  induction body generalizing phase with
  | done outcome =>
      cases outcome with
      | ok value => exact onOk phase value start
      | error raised => exact onRaise phase raised start
  | access tag action rest ih =>
      intro state
      obtain ⟨later, takes, follows⟩ := start state
      exact ⟨later, takes, ih _ follows⟩

end Rules

theorem Follows.turn {ends : π → Except ε α → Prop} {thread rest : Thread τ σ ε α}
    {before after : σ} {tag : τ} (follows : Follows moves ends phase thread)
    (next : thread.turn before = some (tag, rest, after)) :
    ∃ later, moves phase tag before after later ∧ Follows moves ends later rest := by
  cases thread with
  | done outcome => cases next
  | access label action continuation =>
      simp only [Thread.turn, Option.some.injEq, Prod.mk.injEq] at next
      obtain ⟨rfl, rfl, rfl⟩ := next
      exact follows before

theorem Run.of_execution {ends : π → Except ε α → Prop} {start pool : Pool ι τ σ ε α}
    {trace : List (ι × τ)} {phases : ι → π}
    (follow : ∀ call, Follows moves ends (phases call) (start.threads call))
    (ran : Execution start trace pool) :
    ∃ reached, Run moves start.state phases trace pool.state reached ∧
      ∀ call, Follows moves ends (reached call) (pool.threads call) := by
  induction ran with
  | start => exact ⟨phases, .start, follow⟩
  | @turn trace pool later call tag ran next ih =>
      obtain ⟨reached, run, follows⟩ := ih
      obtain ⟨⟨taken, rest, after⟩, isNext, same⟩ := Option.map_eq_some_iff.mp next
      simp only [Prod.mk.injEq] at same
      obtain ⟨rfl, rfl⟩ := same
      obtain ⟨phase, takes, followsRest⟩ := (follows call).turn isNext
      refine ⟨Function.update reached call phase, run.move takes, fun other => ?_⟩
      dsimp only
      by_cases same : other = call
      · subst same
        rw [Function.update_self, Function.update_self]
        exact followsRest
      · rw [Function.update_of_ne same, Function.update_of_ne same]
        exact follows other

/-! How many calls are in a phase of a kind. -/

section Counting

variable {ι π : Type} [Fintype ι] {kind : π → Bool} {phases : ι → π}

def countIn (kind : π → Bool) (phases : ι → π) : Nat :=
  (Finset.univ.filter fun call => kind (phases call) = true).card

theorem countIn_le {wider : π → Bool} {others : ι → π}
    (implies : ∀ call, kind (phases call) = true → wider (others call) = true) :
    countIn kind phases ≤ countIn wider others :=
  Finset.card_le_card (Finset.monotone_filter_right _ fun call _ => implies call)

variable [DecidableEq ι]

theorem countIn_update (kind : π → Bool) (phases : ι → π) (call : ι) (later : π) :
    countIn kind (Function.update phases call later) + (if kind (phases call) then 1 else 0) =
      countIn kind phases + if kind later then 1 else 0 := by
  have apart : ∀ phases : ι → π, countIn kind phases = (if kind (phases call) then 1 else 0) +
      ((Finset.univ.erase call).filter fun other => kind (phases other) = true).card := by
    intro phases
    unfold countIn
    conv_lhs => rw [← Finset.insert_erase (Finset.mem_univ call), Finset.filter_insert]
    split
    · rw [Finset.card_insert_of_notMem (by simp), Nat.add_comm]
    · rw [Nat.zero_add]
  have others : ((Finset.univ.erase call).filter fun other =>
      kind (Function.update phases call later other) = true) =
      (Finset.univ.erase call).filter fun other => kind (phases other) = true := by
    refine Finset.filter_congr fun other member => ?_
    rw [Function.update_of_ne (Finset.ne_of_mem_erase member)]
  rw [apart, apart phases, others, Function.update_self]
  omega

end Counting

end Protocol

end Interleaving
