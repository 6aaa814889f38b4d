import Mathlib.Data.List.Basic
import Megalos.Library.StatefulProgram

/-!
A program that asks a service with a state of its own, and the same program with a table
of answers in the place of the service.  A cursor in the program's state counts the
questions; the table is read at the cursor.
-/

namespace AnswerTable

open StatefulProgram StatefulProgram.Program

variable {σ κ ε ε' α β ρ : Type}

/-- A program on its own state, next to a service. -/
def own (body : Program σ ε α) : Program (σ × κ) ε α where
  run state := ((body.run state.1).1, ((body.run state.1).2, state.2))

def serve (rename : ε' → ε) (body : Program κ ε' α) : Program (σ × κ) ε α where
  run state := ((body.run state.2).1.mapError rename, (state.1, (body.run state.2).2))

@[simp] theorem wp_own (body : Program σ ε α) (post : Except ε α → σ × κ → Prop) (state : σ × κ) :
    Wp (own body) post state ↔
      Wp body (fun outcome reached => post outcome (reached, state.2)) state.1 := Iff.rfl

@[simp] theorem wp_serve (rename : ε' → ε) (body : Program κ ε' α)
    (post : Except ε α → σ × κ → Prop) (state : σ × κ) : Wp (serve rename body) post state ↔
      Wp body (fun outcome reached => post (outcome.mapError rename) (state.1, reached)) state.2 :=
        Iff.rfl

def Lists (table : Nat → ρ) (start : Nat) (answers : List ρ) : Prop :=
  ∀ question answer, answers[question]? = some answer → table (start + question) = answer

theorem Lists.append {table : Nat → ρ} {start : Nat} {first second : List ρ}
    (lists : Lists table start (first ++ second)) :
    Lists table start first ∧ Lists table (start + first.length) second := by
  constructor
  · intro question answer there
    obtain ⟨inside, -⟩ := List.getElem?_eq_some_iff.mp there
    exact lists question answer (by rw [List.getElem?_append_left inside, there])
  · intro question answer there
    rw [Nat.add_assoc]
    refine lists _ answer ?_
    rw [List.getElem?_append_right (Nat.le_add_right _ _), Nat.add_sub_cancel_left, there]

def tableOf (fallback : ρ) (start : Nat) (answers : List ρ) (question : Nat) : ρ :=
  answers.getD (question - start) fallback

theorem tableOf_lists (fallback : ρ) (start : Nat) (answers : List ρ) :
    Lists (tableOf fallback start answers) start answers := by
  intro question answer there
  rw [tableOf, Nat.add_sub_cancel_left, List.getD_eq_getElem?_getD, there, Option.getD_some]

/-- With every table that lists what the service answered, the program does on its state what it
does with the service. -/
def Replays (cursor : σ → Nat) (hosted : Program (σ × κ) ε α) (tabled : (Nat → ρ) → Program σ ε α) :
    Prop :=
  ∀ state, ∃ answers : List ρ, cursor (hosted.run state).2.1 = cursor state.1 + answers.length ∧
    ∀ table, Lists table (cursor state.1) answers →
      (tabled table).run state.1 = ((hosted.run state).1, (hosted.run state).2.1)

section Runs

variable {first : Program σ ε α} {next : α → Program σ ε β} {handler : ε → Program σ ε α}
  {start reached : σ} {value : α} {raised : ε}

theorem bind_ok (ran : first.run start = (.ok value, reached)) :
    (first >>= next).run start = (next value).run reached := by
  change (Program.bind first next).run start = _
  simp only [Program.bind, ran]

theorem bind_error (ran : first.run start = (.error raised, reached)) :
    (first >>= next).run start = (.error raised, reached) := by
  change (Program.bind first next).run start = _
  simp only [Program.bind, ran]

theorem rescue_ok (ran : first.run start = (.ok value, reached)) :
    (rescue first handler).run start = (.ok value, reached) := by
  simp only [Program.rescue, ran]

theorem rescue_error (ran : first.run start = (.error raised, reached)) :
    (rescue first handler).run start = (handler raised).run reached := by
  simp only [Program.rescue, ran]

end Runs

variable {cursor : σ → Nat}

theorem Replays.of_own {body : Program σ ε α} {tabled : (Nat → ρ) → Program σ ε α}
    (same : ∀ table, tabled table = body)
    (still : ∀ state, cursor (body.run state).2 = cursor state) :
    Replays cursor (own body : Program (σ × κ) ε α) tabled := by
  intro state
  refine ⟨[], still state.1, fun table _ => ?_⟩
  rw [same]
  rfl

theorem Replays.of_pure (value : α) :
    Replays cursor (pure value : Program (σ × κ) ε α) fun _ : Nat → ρ => pure value :=
  fun _ => ⟨[], rfl, fun _ _ => rfl⟩

theorem Replays.of_raise (raised : ε) :
    Replays cursor (raise raised : Program (σ × κ) ε α) fun _ : Nat → ρ => raise raised :=
  fun _ => ⟨[], rfl, fun _ _ => rfl⟩

theorem Replays.bind {first : Program (σ × κ) ε α} {tabled : (Nat → ρ) → Program σ ε α}
    {next : α → Program (σ × κ) ε β} {tabledNext : (Nat → ρ) → α → Program σ ε β}
    (start : Replays cursor first tabled)
    (rest : ∀ value, Replays cursor (next value) fun table => tabledNext table value) :
    Replays cursor (first >>= next) fun table => tabled table >>= tabledNext table := by
  intro state
  obtain ⟨answers, counted, replays⟩ := start state
  rcases ran : first.run state with ⟨raised | value, reached⟩
  · rw [ran] at counted replays
    rw [bind_error ran]
    exact ⟨answers, counted, fun table lists => bind_error (replays table lists)⟩
  · rw [ran] at counted replays
    obtain ⟨later, countedLater, replaysLater⟩ := rest value reached
    rw [bind_ok ran]
    refine ⟨answers ++ later, ?_, fun table lists => ?_⟩
    · rw [countedLater, counted, List.length_append, Nat.add_assoc]
    · obtain ⟨listed, listedLater⟩ := lists.append
      rw [bind_ok (replays table listed)]
      exact replaysLater table (counted ▸ listedLater)

/-- What is computed without a look at the state, or at the answers, is the same on both sides. -/
theorem Replays.bind_result {result : Except ε α} {next : α → Program (σ × κ) ε β}
    {tabledNext : (Nat → ρ) → α → Program σ ε β}
    (rest : ∀ value, result = .ok value → Replays cursor (next value) fun table =>
      tabledNext table value) :
    Replays cursor (own (ofExcept result) >>= next) fun table => ofExcept result >>=
      tabledNext table := by
  cases result with
  | error raised => exact Replays.of_raise raised
  | ok value => exact rest value rfl

theorem Replays.rescue {body : Program (σ × κ) ε α} {tabled : (Nat → ρ) → Program σ ε α}
    {handler : ε → Program (σ × κ) ε α} {tabledHandler : ε → Program σ ε α}
    (start : Replays cursor body tabled)
    (rest : ∀ raised, Replays cursor (handler raised) fun _ : Nat → ρ => tabledHandler raised) :
    Replays cursor (rescue body handler) fun table => rescue (tabled table) tabledHandler := by
  intro state
  obtain ⟨answers, counted, replays⟩ := start state
  rcases ran : body.run state with ⟨raised | value, reached⟩
  · rw [ran] at counted replays
    obtain ⟨later, countedLater, replaysLater⟩ := rest raised reached
    rw [rescue_error ran]
    refine ⟨answers ++ later, ?_, fun table lists => ?_⟩
    · rw [countedLater, counted, List.length_append, Nat.add_assoc]
    · obtain ⟨listed, listedLater⟩ := lists.append
      rw [rescue_error (replays table listed)]
      exact replaysLater table (counted ▸ listedLater)
  · rw [ran] at counted replays
    rw [rescue_ok ran]
    exact ⟨answers, counted, fun table lists => rescue_ok (replays table lists)⟩

theorem Replays.exists_table {hosted : Program (σ × κ) ε α} {tabled : (Nat → ρ) → Program σ ε α}
    (replays : Replays cursor hosted tabled) (fallback : ρ) (state : σ × κ) :
    ∃ table, (tabled table).run state.1 = ((hosted.run state).1, (hosted.run state).2.1) := by
  obtain ⟨answers, -, same⟩ := replays state
  exact ⟨_, same _ (tableOf_lists fallback _ answers)⟩

end AnswerTable
