import Mathlib.Data.List.Chain
import Mathlib.Logic.Relation
import Mathlib.Data.List.Nodup
import Mathlib.Algebra.Order.BigOperators.Group.List
import Mathlib.Algebra.Order.Group.Nat
import Mathlib.Algebra.GroupWithZero.Nat

/-!
Depth-first search over a finite directed graph given by lists of successors.  The
search keeps its own stack, so that an active node met again names the cycle to it.
It ends, what it reports are closed walks, and it reports one if there is one.
-/

namespace DepthFirst

inductive Mark where
  | unseen
  | active
  | finished
  deriving DecidableEq

/-- An entry of the stack is a node, its successors still to see, and the path to it. -/
structure State (α : Type) where
  mark : α → Mark
  stack : List (α × List α × List α)
  cycles : List (List α)

variable {α : Type} [DecidableEq α]

def State.turn (successors : α → List α) (state : State α) : State α :=
  match state.stack with
  | [] => state
  | (node, [], _) :: below =>
      { state with mark := Function.update state.mark node .finished, stack := below }
  | (node, next :: remaining, path) :: below =>
      let rest := (node, remaining, path) :: below
      match state.mark next with
      | .active => { state with stack := rest, cycles := state.cycles ++
        [path.dropWhile (· != next) ++ [next]] }
      | .unseen =>
          { state with
            mark := Function.update state.mark next .active
            stack := (next, successors next, path ++ [next]) :: rest }
      | .finished => { state with stack := rest }

def State.run (successors : α → List α) : Nat → State α → State α
  | 0, state => state
  | fuel + 1, state =>
      if state.stack.isEmpty then state else State.run successors fuel (state.turn successors)

def State.enter (successors : α → List α) (node : α) (state : State α) : State α :=
  { state with
    mark := Function.update state.mark node .active
    stack := [(node, successors node, [node])] }

def State.visitAll (successors : α → List α) (fuel : Nat) : List α → State α → State α
  | [], state => state
  | node :: rest, state =>
      let visited := match state.mark node with
        | .unseen => State.run successors fuel (state.enter successors node)
        | _ => state
      State.visitAll successors fuel rest visited

def State.start : State α := ⟨fun _ => .unseen, [], []⟩

/-- From a node back to itself over at least one edge. -/
def ClosedWalk (edge : α → α → Prop) (walk : List α) : Prop :=
  ∃ first rest, walk = first :: rest ++ [first] ∧ walk.IsChain edge

def Paths : List (α × List α × List α) → Prop
  | [] => True
  | (node, _, path) :: below => path = (below.map Prod.fst).reverse ++ [node] ∧ Paths below

def Explored (successors : α → List α) (mark : α → Mark) : Option α → List (α × List α × List α) →
    Prop
  | _, [] => True
  | above, (node, remaining, _) :: below =>
      (∀ next ∈ successors node, next ∈ remaining ∨ mark next = .finished ∨ above = some next) ∧
        Explored successors mark (some node) below

def Ranked (successors : α → List α) (mark : α → Mark) : Prop :=
  ∃ (rank : α → Nat) (count : Nat), ∀ node, mark node = .finished → rank node < count ∧
    ∀ next ∈ successors node, mark next = .finished ∧ rank next < rank node

structure Invariant (successors : α → List α) (nodes : List α) (state : State α) : Prop where
  paths : Paths state.stack
  chained : (state.stack.map Prod.fst).IsChain fun upper lower => upper ∈ successors lower
  distinct : (state.stack.map Prod.fst).Nodup
  active : ∀ node, state.mark node = .active ↔ node ∈ state.stack.map Prod.fst
  known : ∀ node ∈ state.stack.map Prod.fst, node ∈ nodes
  pending : ∀ entry ∈ state.stack, entry.2.1 ⊆ successors entry.1
  walks : ∀ walk ∈ state.cycles, ClosedWalk (fun lower upper => upper ∈ successors lower) walk
  explored : state.cycles = [] → Explored successors state.mark none state.stack
  ranked : state.cycles = [] → Ranked successors state.mark

omit [DecidableEq α] in
theorem Explored.mono {successors : α → List α} {mark later : α → Mark} {above : Option α}
    {stack : List (α × List α × List α)} (explored : Explored successors mark above stack)
    (kept : ∀ node, mark node = .finished → later node = .finished) :
    Explored successors later above stack := by
  induction stack generalizing above with
  | nil => trivial
  | cons entry below ih =>
      obtain ⟨node, remaining, path⟩ := entry
      obtain ⟨own, rest⟩ := explored
      refine ⟨?_, ih rest⟩
      intro next member
      rcases own next member with waits | done | up
      · exact .inl waits
      · exact .inr (.inl (kept next done))
      · exact .inr (.inr up)

/-- What is dropped before a member of a list leaves a suffix that starts with it. -/
theorem dropWhile_of_mem {path : List α} {next : α} (member : next ∈ path) :
    ∃ before after, path = before ++ next :: after ∧
      path.dropWhile (· != next) = next :: after := by
  induction path with
  | nil => simp at member
  | cons first rest ih =>
      by_cases isFirst : first = next
      · exact ⟨[], rest, by simp [isFirst], by simp [isFirst]⟩
      · rcases List.mem_cons.mp member with same | later
        · exact absurd same.symm isFirst
        · obtain ⟨before, after, split, dropped⟩ := ih later
          refine ⟨first :: before, after, by rw [split]; rfl, ?_⟩
          rw [List.dropWhile_cons_of_pos (by simpa using isFirst), dropped]

section Turn

variable {successors : α → List α} {nodes : List α} {state : State α} {node next : α}
  {remaining path : List α} {below : List (α × List α × List α)}

theorem Invariant.closes (inv : Invariant successors nodes state)
    (top : state.stack = (node, next :: remaining, path) :: below)
    (met : state.mark next = .active) :
    ClosedWalk (fun lower upper => upper ∈ successors lower)
    (path.dropWhile (· != next) ++ [next]) := by
  have paths := inv.paths
  have chained := inv.chained
  have member := (inv.active next).mp met
  have edge : next ∈ successors node :=
    inv.pending (node, next :: remaining, path) (by simp [top]) (by simp)
  rw [top] at paths chained member
  have pathEq : path = (node :: below.map Prod.fst).reverse := by
    rw [paths.1, List.reverse_cons]
  have forward : path.IsChain fun lower upper => upper ∈ successors lower := by
    rw [pathEq, List.isChain_reverse]
    exact chained
  have onPath : next ∈ path := by
    rw [pathEq, List.mem_reverse]
    exact member
  obtain ⟨before, after, split, dropped⟩ := dropWhile_of_mem onPath
  refine ⟨next, after, by rw [dropped], ?_⟩
  rw [dropped]
  rw [split] at forward
  have suffix : (next :: after).IsChain fun lower upper => upper ∈ successors lower :=
    forward.suffix (List.suffix_append before (next :: after))
  refine suffix.append (List.isChain_singleton next) ?_
  intro last isLast head isHead
  have lastNode : last = node := by
    have ends : path.getLast? = some node := by rw [paths.1]; simp
    rw [split, List.getLast?_append_of_ne_nil _ (List.cons_ne_nil _ _)] at ends
    exact Option.some.inj (Option.mem_def.mp isLast ▸ ends)
  rw [List.head?_cons, Option.mem_def, Option.some.injEq] at isHead
  rw [lastNode, ← isHead]
  exact edge

theorem Invariant.turn (inv : Invariant successors nodes state)
    (closed : ∀ node ∈ nodes, successors node ⊆ nodes) :
    Invariant successors nodes (state.turn successors) := by
  have paths := inv.paths
  have chained := inv.chained
  have distinct := inv.distinct
  have active := inv.active
  have known := inv.known
  have pending := inv.pending
  have explored := inv.explored
  unfold State.turn
  split
  case h_1 => exact inv
  case h_2 node path below top =>
    rw [top] at paths chained distinct active known pending explored
    have apart : node ∉ below.map Prod.fst := (List.nodup_cons.mp distinct).1
    refine ⟨paths.2, chained.tail, (List.nodup_cons.mp distinct).2, ?_, ?_, ?_, inv.walks, ?_, ?_⟩
    · intro other
      dsimp only
      by_cases isNode : other = node
      · simp [isNode, apart]
      · rw [Function.update_of_ne isNode, active other]
        simp [isNode]
    · intro other member
      exact known other (by simp [member])
    · intro entry member
      exact pending entry (by simp [member])
    · intro quiet
      have rest := (explored quiet).2
      cases below with
      | nil => trivial
      | cons entry lower =>
          obtain ⟨under, waiting, underPath⟩ := entry
          obtain ⟨own, more⟩ := rest
          have kept : ∀ other, state.mark other = .finished →
              Function.update state.mark node .finished other = .finished := by
            intro other done
            by_cases isNode : other = node
            · simp [isNode]
            · rw [Function.update_of_ne isNode]
              exact done
          refine ⟨?_, more.mono kept⟩
          · intro other member
            rcases own other member with waits | done | up
            · exact .inl waits
            · exact .inr (.inl (kept other done))
            · right; left
              rw [Option.some.injEq] at up
              simp [up]
    · intro quiet
      obtain ⟨rank, count, ranked⟩ := inv.ranked quiet
      have own := (explored quiet).1
      have done : ∀ other ∈ successors node, state.mark other = .finished := by
        intro other member
        rcases own other member with waits | done | up
        · simp at waits
        · exact done
        · simp at up
      have unfinished : state.mark node ≠ .finished := by
        have isActive := (active node).mpr (by simp)
        simp [isActive]
      refine ⟨Function.update rank node count, count + 1, ?_⟩
      intro other isDone
      dsimp only at isDone ⊢
      by_cases isNode : other = node
      · subst isNode
        refine ⟨by simp, ?_⟩
        intro upper member
        have upperDone := done upper member
        have differs : upper ≠ other := fun same => unfinished (same ▸ upperDone)
        rw [Function.update_of_ne differs, Function.update_of_ne differs, Function.update_self]
        exact ⟨upperDone, (ranked upper upperDone).1⟩
      · rw [Function.update_of_ne isNode] at isDone ⊢
        obtain ⟨bound, leads⟩ := ranked other isDone
        refine ⟨by omega, ?_⟩
        intro upper member
        obtain ⟨upperDone, lower⟩ := leads upper member
        have differs : upper ≠ node := fun same => unfinished (same ▸ upperDone)
        rw [Function.update_of_ne differs, Function.update_of_ne differs]
        exact ⟨upperDone, lower⟩
  case h_3 node next remaining path below top =>
    rw [top] at paths chained distinct active known pending explored
    have own : next :: remaining ⊆ successors node :=
      pending (node, next :: remaining, path) (by simp)
    have edge : next ∈ successors node := own (by simp)
    have restPending : ∀ entry ∈ (node, remaining,
      path) :: below, entry.2.1 ⊆ successors entry.1 := by
      intro entry member
      rcases List.mem_cons.mp member with isTop | lower
      · subst isTop
        exact fun other waits => own (by simp [waits])
      · exact pending entry (by simp [lower])
    dsimp only
    split
    case h_1 met =>
      refine ⟨paths, chained, distinct, active, known, restPending, ?_, fun quiet =>
        by simp at quiet,
        fun quiet => by simp at quiet⟩
      intro walk member
      rcases List.mem_append.mp member with old | new
      · exact inv.walks walk old
      · rw [List.mem_singleton] at new
        rw [new]
        exact inv.closes top met
    case h_2 met =>
      have fresh : next ∉ node :: below.map Prod.fst := by
        intro onStack
        have isActive := (active next).mpr onStack
        simp [met] at isActive
      refine ⟨⟨?_, paths⟩, ?_, List.nodup_cons.mpr ⟨fresh, distinct⟩, ?_, ?_, ?_, inv.walks, ?_, ?_⟩
      · rw [paths.1]
        simp
      · exact List.isChain_cons_cons.mpr ⟨edge, chained⟩
      · intro other
        dsimp only
        by_cases isNext : other = next
        · simp [isNext]
        · rw [Function.update_of_ne isNext, active other]
          simp [isNext]
      · intro other member
        rcases List.mem_cons.mp member with isNext | lower
        · rw [isNext]
          exact closed node (known node (by simp)) edge
        · exact known other lower
      · intro entry member
        rcases List.mem_cons.mp member with isTop | lower
        · subst isTop
          exact fun other waits => waits
        · exact restPending entry lower
      · intro quiet
        have kept : ∀ other, state.mark other = .finished →
            Function.update state.mark next .active other = .finished := by
          intro other done
          have differs : other ≠ next := by
            rintro rfl
            simp [met] at done
          rw [Function.update_of_ne differs]
          exact done
        obtain ⟨mine, rest⟩ := explored quiet
        refine ⟨fun other member => .inl member, ?_, rest.mono kept⟩
        intro other member
        rcases mine other member with waits | done | up
        · rcases List.mem_cons.mp waits with isNext | later
          · exact .inr (.inr (by rw [isNext]))
          · exact .inl later
        · exact .inr (.inl (kept other done))
        · simp at up
      · intro quiet
        obtain ⟨rank, count, ranked⟩ := inv.ranked quiet
        refine ⟨rank, count, ?_⟩
        intro other isDone
        dsimp only at isDone ⊢
        have differs : other ≠ next := by
          rintro rfl
          simp at isDone
        rw [Function.update_of_ne differs] at isDone
        obtain ⟨bound, leads⟩ := ranked other isDone
        refine ⟨bound, ?_⟩
        intro upper member
        obtain ⟨upperDone, lower⟩ := leads upper member
        have apart : upper ≠ next := by
          rintro rfl
          simp [met] at upperDone
        rw [Function.update_of_ne apart]
        exact ⟨upperDone, lower⟩
    case h_3 met =>
      refine ⟨paths, chained, distinct, active, known, restPending, inv.walks, ?_, inv.ranked⟩
      intro quiet
      obtain ⟨mine, rest⟩ := explored quiet
      refine ⟨?_, rest⟩
      intro other member
      rcases mine other member with waits | done | up
      · rcases List.mem_cons.mp waits with isNext | later
        · exact .inr (.inl (isNext ▸ met))
        · exact .inl later
      · exact .inr (.inl done)
      · simp at up

end Turn

/-! The search ends. -/

/-- The turns that one unseen node costs: one for each successor, and one to leave it. -/
def cost (successors : α → List α) (mark : α → Mark) (node : α) : Nat :=
  if mark node = .unseen then (successors node).length + 1 else 0

def State.weight (successors : α → List α) (nodes : List α) (state : State α) : Nat :=
  (nodes.map (cost successors state.mark)).sum + (state.stack.map fun entry =>
    entry.2.1.length + 1).sum

section Weight

variable {successors : α → List α} {nodes : List α} {mark : α → Mark} {state : State α} {node : α}
    {later : Mark}

theorem cost_update_le (successors : α → List α) (mark : α → Mark) (node other : α)
    (seen : later ≠ .unseen) :
    cost successors (Function.update mark node later) other ≤ cost successors mark other := by
  unfold cost
  by_cases isNode : other = node
  · simp [isNode, seen]
  · rw [Function.update_of_ne isNode]

theorem sum_cost_update_le (successors : α → List α) (nodes : List α) (mark : α → Mark) (node : α)
    (seen : later ≠ .unseen) :
    (nodes.map (cost successors (Function.update mark node later))).sum ≤ (nodes.map (cost successors mark)).sum := by
  induction nodes with
  | nil => simp
  | cons first rest ih =>
      simp only [List.map_cons, List.sum_cons]
      have head := cost_update_le successors mark node first seen
      omega

/-- Seeing a node for the first time takes its cost off the sum. -/
theorem sum_cost_update (successors : α → List α) (member : node ∈ nodes)
    (fresh : mark node = .unseen) (seen : later ≠ .unseen) :
    (nodes.map (cost successors (Function.update mark node later))).sum + ((successors node).length + 1) ≤
      (nodes.map (cost successors mark)).sum := by
  induction nodes with
  | nil => simp at member
  | cons first rest ih =>
      simp only [List.map_cons, List.sum_cons]
      rcases List.mem_cons.mp member with isFirst | inRest
      · subst isFirst
        have tail := sum_cost_update_le successors rest mark node seen
        have zero : cost successors (Function.update mark node later) node = 0 :=
          by simp [cost, seen]
        have whole : cost successors mark node = (successors node).length + 1 :=
          by simp [cost, fresh]
        omega
      · have head := cost_update_le successors mark node first seen
        have tail := ih inRest
        omega

theorem Invariant.weight_turn (inv : Invariant successors nodes state)
    (closed : ∀ node ∈ nodes, successors node ⊆ nodes) (busy : state.stack ≠ []) :
    (state.turn successors).weight successors nodes < state.weight successors nodes := by
  unfold State.turn
  split
  case h_1 top => exact absurd top busy
  case h_2 node path below top =>
    have marks := sum_cost_update_le successors nodes state.mark node (show Mark.finished ≠ .unseen by simp)
    simp only [State.weight, top, List.map_cons, List.sum_cons, List.length_nil]
    omega
  case h_3 node next remaining path below top =>
    dsimp only
    split
    case h_1 =>
      simp only [State.weight, top, List.map_cons, List.sum_cons, List.length_cons]
      omega
    case h_2 met =>
      have member : next ∈ nodes :=
        closed node (inv.known node (by simp [top]))
          (inv.pending (node, next :: remaining, path) (by simp [top]) (by simp))
      have marks := sum_cost_update successors member met (show Mark.active ≠ .unseen by simp)
      simp only [State.weight, top, List.map_cons, List.sum_cons, List.length_cons]
      omega
    case h_3 =>
      simp only [State.weight, top, List.map_cons, List.sum_cons, List.length_cons]
      omega

end Weight

section Run

variable {successors : α → List α} {nodes : List α} {state : State α} {fuel : Nat}

theorem Invariant.run (inv : Invariant successors nodes state)
    (closed : ∀ node ∈ nodes, successors node ⊆ nodes) :
    Invariant successors nodes (state.run successors fuel) := by
  induction fuel generalizing state with
  | zero => exact inv
  | succ fuel ih =>
      unfold State.run
      split
      · exact inv
      · exact ih (inv.turn closed)

theorem Invariant.run_ends (inv : Invariant successors nodes state)
    (closed : ∀ node ∈ nodes, successors node ⊆ nodes)
    (enough : state.weight successors nodes ≤ fuel) : (state.run successors fuel).stack = [] := by
  induction fuel generalizing state with
  | zero =>
      cases stack : state.stack with
      | nil => simpa [State.run] using stack
      | cons entry below =>
          simp only [State.weight, stack, List.map_cons, List.sum_cons] at enough
          omega
  | succ fuel ih =>
      unfold State.run
      split
      · rename_i idle
        simpa using idle
      · rename_i busy
        have less := inv.weight_turn closed (by simpa using busy)
        exact ih (inv.turn closed) (by omega)

theorem turn_mark (successors : α → List α) (state : State α) {node : α}
    (seen : state.mark node ≠ .unseen) :
    (state.turn successors).mark node ≠ .unseen := by
  have updated : ∀ {other : α} {later : Mark}, later ≠ .unseen →
      Function.update state.mark other later node ≠ .unseen := by
    intro other later isSeen
    by_cases isNode : node = other
    · simp [isNode, isSeen]
    · rw [Function.update_of_ne isNode]
      exact seen
  unfold State.turn
  split
  · exact seen
  · exact updated (by simp)
  · dsimp only
    split
    · exact seen
    · exact updated (by simp)
    · exact seen

theorem run_mark {node : α} (seen : state.mark node ≠ .unseen) :
    (state.run successors fuel).mark node ≠ .unseen := by
  induction fuel generalizing state with
  | zero => exact seen
  | succ fuel ih =>
      unfold State.run
      split
      · exact seen
      · exact ih (turn_mark successors state seen)

end Run

structure Idle (successors : α → List α) (nodes : List α) (state : State α) : Prop
    extends Invariant successors nodes state where
  idle : state.stack = []

section VisitAll

variable {successors : α → List α} {nodes : List α} {state : State α} {fuel : Nat}

omit [DecidableEq α] in
theorem Idle.start : Idle successors nodes State.start where
  paths := trivial
  chained := List.isChain_nil
  distinct := List.nodup_nil
  active node := by simp [State.start]
  known node member := by simp [State.start] at member
  pending entry member := by simp [State.start] at member
  walks walk member := by simp [State.start] at member
  explored _ := trivial
  ranked _ := ⟨fun _ => 0, 0, fun node done => by simp [State.start] at done⟩
  idle := rfl

omit [DecidableEq α] in
theorem Idle.not_active (start : Idle successors nodes state) (node : α) :
    state.mark node ≠ .active := by
  intro isActive
  have onStack := (start.active node).mp isActive
  simp [start.idle] at onStack

theorem Idle.enter {node : α} (start : Idle successors nodes state) (member : node ∈ nodes)
    (fresh : state.mark node = .unseen) :
    Invariant successors nodes (state.enter successors node) := by
  refine ⟨⟨rfl, trivial⟩, List.isChain_singleton _, List.nodup_singleton node, ?_, ?_, ?_,
    start.walks, ?_, ?_⟩
  · intro other
    by_cases isNode : other = node
    · simp [State.enter, isNode]
    · simp [State.enter, isNode, start.not_active other]
  · intro other onStack
    have isNode : other = node := by simpa [State.enter] using onStack
    rw [isNode]
    exact member
  · intro entry onStack
    have isEntry : entry = (node, successors node, [node]) := by simpa [State.enter] using onStack
    subst isEntry
    exact fun other waits => waits
  · intro _
    exact ⟨fun other waits => .inl waits, trivial⟩
  · intro quiet
    obtain ⟨rank, count, ranked⟩ := start.ranked quiet
    refine ⟨rank, count, ?_⟩
    have apart : ∀ {other : α}, state.mark other = .finished → other ≠ node := by
      rintro other done rfl
      simp [fresh] at done
    intro other isDone
    have differs : other ≠ node := by
      rintro rfl
      simp [State.enter] at isDone
    simp only [State.enter, Function.update_of_ne differs] at isDone
    obtain ⟨bound, leads⟩ := ranked other isDone
    refine ⟨bound, ?_⟩
    intro upper isUpper
    obtain ⟨upperDone, lower⟩ := leads upper isUpper
    simp only [State.enter, Function.update_of_ne (apart upperDone)]
    exact ⟨upperDone, lower⟩

theorem Idle.weight_enter (successors : α → List α) {node : α} (member : node ∈ nodes)
    (fresh : state.mark node = .unseen) :
    (state.enter successors node).weight successors nodes ≤
      (nodes.map fun node => (successors node).length + 1).sum := by
  have marks := sum_cost_update successors member fresh (show Mark.active ≠ .unseen by simp)
  have bound : (nodes.map (cost successors state.mark)).sum ≤
      (nodes.map fun node => (successors node).length + 1).sum := by
    refine List.sum_le_sum ?_
    intro other _
    unfold cost
    split <;> omega
  simp only [State.weight, State.enter, List.map_cons, List.map_nil, List.sum_cons, List.sum_nil]
  omega

theorem Idle.visit {node : α} (start : Idle successors nodes state)
    (closed : ∀ node ∈ nodes, successors node ⊆ nodes) (member : node ∈ nodes)
    (fresh : state.mark node = .unseen)
    (enough : (nodes.map fun node => (successors node).length + 1).sum ≤ fuel) :
    Idle successors nodes (State.run successors fuel (state.enter successors node)) := by
  have entered := start.enter member fresh
  have light := Idle.weight_enter successors member fresh
  exact ⟨entered.run closed, entered.run_ends closed (by omega)⟩

theorem Idle.visitAll {names : List α} (start : Idle successors nodes state)
    (closed : ∀ node ∈ nodes, successors node ⊆ nodes) (inside : names ⊆ nodes)
    (enough : (nodes.map fun node => (successors node).length + 1).sum ≤ fuel) :
    Idle successors nodes (state.visitAll successors fuel names) ∧
    ∀ node, node ∈ names ∨ state.mark node ≠ .unseen →
      (state.visitAll successors fuel names).mark node ≠ .unseen := by
  induction names generalizing state with
  | nil =>
      refine ⟨start, ?_⟩
      rintro node (member | seen)
      · simp at member
      · exact seen
  | cons name rest ih =>
      have later : rest ⊆ nodes := fun node member => inside (by simp [member])
      unfold State.visitAll
      dsimp only
      cases met : state.mark name with
      | unseen =>
          obtain ⟨idle, seen⟩ := ih (start.visit closed (inside (by simp)) met enough) later
          refine ⟨idle, ?_⟩
          intro node before
          apply seen
          by_cases isName : node = name
          · right
            exact run_mark (by simp [State.enter, isName])
          · rcases before with member | seenBefore
            · left
              simpa [isName] using member
            · right
              exact run_mark (by simpa [State.enter, isName] using seenBefore)
      | active => exact absurd met (start.not_active name)
      | finished =>
          obtain ⟨idle, seen⟩ := ih start later
          refine ⟨idle, ?_⟩
          intro node before
          apply seen
          by_cases isName : node = name
          · right
            simp [isName, met]
          · rcases before with member | seenBefore
            · left
              simpa [isName] using member
            · exact .inr seenBefore

end VisitAll

/-! What the search says of the graph. -/

omit [DecidableEq α] in
theorem ClosedWalk.transGen {edge : α → α → Prop} {walk : List α} (closed : ClosedWalk edge walk) :
    ∃ node, Relation.TransGen edge node node := by
  obtain ⟨first, rest, rfl, chain⟩ := closed
  refine ⟨first, ?_⟩
  have reach : ∀ {start : α} {between : List α}, (start :: between ++ [first]).IsChain edge →
      Relation.TransGen edge start first := by
    intro start between
    induction between generalizing start with
    | nil =>
        intro chain
        exact .single (List.isChain_cons_cons.mp chain).1
    | cons next between ih =>
        intro chain
        obtain ⟨step, tail⟩ := List.isChain_cons_cons.mp chain
        exact .head step (ih tail)
  exact reach chain

omit [DecidableEq α] in
theorem Ranked.acyclic {successors : α → List α} {mark : α → Mark} (ranked : Ranked successors mark)
    (done : ∀ node next, next ∈ successors node → mark node = .finished) (node : α) :
    ¬Relation.TransGen (fun lower upper => upper ∈ successors lower) node node := by
  obtain ⟨rank, count, falls⟩ := ranked
  have lower : ∀ {first last : α},
    Relation.TransGen (fun lower upper => upper ∈ successors lower) first last →
      rank last < rank first := by
    intro first last path
    induction path with
    | single edge => exact ((falls first (done first _ edge)).2 _ edge).2
    | tail _ edge ih =>
        have step := ((falls _ (done _ _ edge)).2 _ edge).2
        omega
  intro back
  have falling := lower back
  omega

/-- The whole search reports closed walks, and is silent exactly on an acyclic graph. -/
theorem visitAll_exact {successors : α → List α} {nodes : List α} {fuel : Nat}
    (closed : ∀ node ∈ nodes, successors node ⊆ nodes)
    (outside : ∀ node, node ∉ nodes → successors node = [])
    (enough : (nodes.map fun node => (successors node).length + 1).sum ≤ fuel) :
    let final := State.start.visitAll successors fuel nodes
    (∀ walk ∈ final.cycles, ClosedWalk (fun lower upper => upper ∈ successors lower) walk) ∧
    (final.cycles = [] ↔
      ∀ node, ¬Relation.TransGen (fun lower upper => upper ∈ successors lower) node node) := by
  obtain ⟨idle, seen⟩ := Idle.visitAll Idle.start closed (List.Subset.refl nodes) enough
  refine ⟨idle.walks, ?_⟩
  constructor
  · intro quiet
    refine (idle.ranked quiet).acyclic ?_
    intro node next edge
    have member : node ∈ nodes := by
      by_contra foreign
      simp [outside node foreign] at edge
    cases met : (State.start.visitAll successors fuel nodes).mark node with
    | unseen => exact absurd met (seen node (.inl member))
    | active => exact absurd met (idle.not_active node)
    | finished => rfl
  · intro acyclic
    by_contra reports
    obtain ⟨walk, member⟩ := List.exists_mem_of_ne_nil _ reports
    obtain ⟨node, back⟩ := (idle.walks walk member).transGen
    exact acyclic node back

end DepthFirst
