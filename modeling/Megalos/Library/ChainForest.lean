import Mathlib.Data.List.Range
import Mathlib.Data.List.Perm.Basic
import Mathlib.Data.List.Perm.Subperm
import Mathlib.Logic.Function.Basic

/-!
Nodes that stand in chains.  A node is a root, or it stands at a depth above a root;
who stands directly above whom follows from the places alone.  `Forest` is what
holds however nodes come and go; `Supported` says that no chain has a gap.
-/

namespace ChainForest

variable {ι : Type}

/-- The root and the depth of every node that is not a root itself. -/
abbrev Places (ι : Type) := ι → Option (ι × Nat)

def standing (places : Places ι) (node : ι) : ι × Nat := (places node).getD (node, 0)

def Covers (places : Places ι) (lower upper : ι) : Prop :=
  places upper = some ((standing places lower).1, (standing places lower).2 + 1)

structure Forest (places : Places ι) : Prop where
  positive : ∀ {node root : ι} {depth : Nat}, places node = some (root, depth) → 0 < depth
  rootFree : ∀ {node root : ι} {depth : Nat}, places node = some (root, depth) → places root = none
  single : ∀ {first second : ι} {place : ι × Nat},
    places first = some place → places second = some place → first = second

def Supported (places : Places ι) : Prop :=
  ∀ {node root : ι} {depth : Nat}, places node = some (root, depth + 2) →
    ∃ below, places below = some (root, depth + 1)

variable {places : Places ι}

theorem standing_root {node : ι} (root : places node = none) :
    standing places node = (node, 0) := by
  simp [standing, root]

theorem standing_placed {node : ι} {place : ι × Nat} (placed : places node = some place) :
    standing places node = place := by
  simp [standing, placed]

theorem Forest.standing_injective (forest : Forest places) :
    Function.Injective (standing places) := by
  intro first second same
  cases firstPlace : places first with
  | none =>
      cases secondPlace : places second with
      | none =>
          rw [standing_root firstPlace, standing_root secondPlace] at same
          exact congrArg Prod.fst same
      | some place =>
          rw [standing_root firstPlace, standing_placed secondPlace] at same
          subst same
          exact absurd (forest.positive secondPlace) (Nat.lt_irrefl 0)
  | some place =>
      cases secondPlace : places second with
      | none =>
          rw [standing_placed firstPlace, standing_root secondPlace] at same
          subst same
          exact absurd (forest.positive firstPlace) (Nat.lt_irrefl 0)
      | some other =>
          rw [standing_placed firstPlace, standing_placed secondPlace] at same
          subst same
          exact forest.single firstPlace secondPlace

theorem Forest.covers_lower (forest : Forest places) {lower other upper : ι}
    (covers : Covers places lower upper) (again : Covers places other upper) : lower = other := by
  apply forest.standing_injective
  have same := covers.symm.trans again
  simp only [Option.some.injEq, Prod.mk.injEq, Nat.add_right_cancel_iff] at same
  exact Prod.ext same.1 same.2

theorem Forest.covers_upper (forest : Forest places) {lower upper other : ι}
    (covers : Covers places lower upper) (again : Covers places lower other) : upper = other :=
  forest.single covers again

theorem Covers.ne {lower upper : ι} (covers : Covers places lower upper) : lower ≠ upper := by
  intro same
  subst same
  have placed := standing_placed covers
  have depths := congrArg Prod.snd placed
  simp at depths

theorem Supported.covered (supported : Supported places) (forest : Forest places) {node : ι}
    {place : ι × Nat} (placed : places node = some place) : ∃ lower, Covers places lower node := by
  obtain ⟨root, depth⟩ := place
  match depth with
  | 0 => exact absurd (forest.positive placed) (Nat.lt_irrefl 0)
  | 1 => exact ⟨root, by rw [Covers, standing_root (forest.rootFree placed)]; exact placed⟩
  | depth + 2 =>
      obtain ⟨below, placedBelow⟩ := supported placed
      exact ⟨below, by rw [Covers, standing_placed placedBelow]; exact placed⟩

/-! Removing nodes. -/

section Remove

variable {removed : ι → Prop} [DecidablePred removed]

def remove (places : Places ι) (removed : ι → Prop) [DecidablePred removed] : Places ι :=
  fun node => if removed node then none else places node

theorem remove_some {node : ι} {place : ι × Nat} :
    remove places removed node = some place ↔ ¬removed node ∧ places node = some place := by
  unfold remove
  split <;> simp_all

theorem Forest.remove (forest : Forest places) : Forest (remove places removed) where
  positive placed := forest.positive (remove_some.mp placed).2
  rootFree placed := by
    have root := forest.rootFree (remove_some.mp placed).2
    unfold ChainForest.remove
    split
    · rfl
    · exact root
  single placed again := forest.single (remove_some.mp placed).2 (remove_some.mp again).2

def Upward (places : Places ι) (removed : ι → Prop) : Prop :=
  ∀ {lower upper place}, places lower = some place → removed lower → Covers places lower upper →
    removed upper

theorem Supported.remove (supported : Supported places) (upward : Upward places removed) :
    Supported (remove places removed) := by
  intro node root depth placed
  obtain ⟨kept, placed⟩ := remove_some.mp placed
  obtain ⟨below, placedBelow⟩ := supported placed
  refine ⟨below, remove_some.mpr ⟨?_, placedBelow⟩⟩
  intro gone
  refine kept (upward placedBelow gone ?_)
  rw [Covers, standing_placed placedBelow]
  exact placed

/-- What is closed upwards and contains a root contains the whole chain. -/
theorem Supported.of_root {gone : ι → Prop} (supported : Supported places) (forest : Forest places)
    (closed : ∀ {lower upper}, gone lower → Covers places lower upper → gone upper) {root : ι}
    (isGone : gone root) : ∀ (depth : Nat) {node : ι}, places node = some (root, depth) →
      gone node := by
  intro depth
  induction depth with
  | zero => exact fun placed => absurd (forest.positive placed) (Nat.lt_irrefl 0)
  | succ depth ih =>
      intro node placed
      cases depth with
      | zero =>
          refine closed isGone ?_
          rw [Covers, standing_root (forest.rootFree placed)]
          exact placed
      | succ depth =>
          obtain ⟨below, placedBelow⟩ := supported placed
          refine closed (ih placedBelow) ?_
          rw [Covers, standing_placed placedBelow]
          exact placed

/-- Removing nodes moves nobody above a node that stays, nor above a removed root. -/
theorem remove_covers {lower upper : ι} (kept : removed lower → places lower = none) :
    Covers (ChainForest.remove places removed) lower upper ↔ ¬removed upper ∧
      Covers places lower upper := by
  have same : standing (ChainForest.remove places removed) lower = standing places lower := by
    by_cases isRemoved : removed lower
    · simp [standing, ChainForest.remove, kept isRemoved]
    · simp [standing, ChainForest.remove, isRemoved]
  rw [Covers, Covers, same, remove_some]

end Remove

/-! Adding a node on top of a chain. -/

section Add

variable [DecidableEq ι]

def push (places : Places ι) (lower node : ι) : Places ι :=
  Function.update places node (some ((standing places lower).1, (standing places lower).2 + 1))

theorem push_self (lower node : ι) :
    push places lower node node = some ((standing places lower).1,
      (standing places lower).2 + 1) := by
  simp [push]

theorem push_other {lower node other : ι} (differs : other ≠ node) :
    push places lower node other = places other := by
  simp [push, differs]

theorem standing_push {lower node other : ι} (differs : other ≠ node) :
    standing (push places lower node) other = standing places other := by
  simp [standing, push_other differs]

theorem Forest.push (forest : Forest places) {lower node : ι}
    (bare : ∀ upper, ¬Covers places lower upper)
    (unrooted : ∀ {other root depth}, places other = some (root, depth) → root ≠ node)
    (differs : lower ≠ node) : Forest (push places lower node) := by
  have rootIs : (standing places lower).1 ≠ node ∧ places (standing places lower).1 = none := by
    cases placed : places lower with
    | none => simpa [standing, placed] using differs
    | some place =>
        rw [standing_placed placed]
        exact ⟨unrooted placed, forest.rootFree placed⟩
  refine ⟨?_, ?_, ?_⟩
  · intro other root depth placed
    by_cases same : other = node
    · subst same
      rw [push_self] at placed
      simp only [Option.some.injEq, Prod.mk.injEq] at placed
      omega
    · rw [push_other same] at placed
      exact forest.positive placed
  · intro other root depth placed
    by_cases same : other = node
    · subst same
      rw [push_self] at placed
      simp only [Option.some.injEq, Prod.mk.injEq] at placed
      rw [← placed.1, push_other rootIs.1]
      exact rootIs.2
    · rw [push_other same] at placed
      rw [push_other (unrooted placed)]
      exact forest.rootFree placed
  · intro first second place placed again
    by_cases isFirst : first = node
    · by_cases isSecond : second = node
      · rw [isFirst, isSecond]
      · subst isFirst
        rw [push_self, Option.some.injEq] at placed
        rw [push_other isSecond, ← placed] at again
        exact absurd again (bare second)
    · rw [push_other isFirst] at placed
      by_cases isSecond : second = node
      · subst isSecond
        rw [push_self, Option.some.injEq] at again
        rw [← again] at placed
        exact absurd placed (bare first)
      · rw [push_other isSecond] at again
        exact forest.single placed again

theorem Supported.push (supported : Supported places) {lower node : ι}
    (fresh : places node = none) :
    Supported (push places lower node) := by
  intro other root depth placed
  by_cases same : other = node
  · subst same
    rw [push_self] at placed
    simp only [Option.some.injEq, Prod.mk.injEq, Nat.add_right_cancel_iff] at placed
    obtain ⟨rootEq, depthEq⟩ := placed
    cases lowerPlace : places lower with
    | none => simp [standing, lowerPlace] at depthEq
    | some place =>
        rw [standing_placed lowerPlace] at rootEq depthEq
        have isLower : place = (root, depth + 1) := Prod.ext rootEq (by omega)
        refine ⟨lower, ?_⟩
        rw [push_other (fun isNode => by simp [isNode, fresh] at lowerPlace), lowerPlace, isLower]
  · rw [push_other same] at placed
    obtain ⟨below, placedBelow⟩ := supported placed
    refine ⟨below, ?_⟩
    rw [push_other (fun isNode => by simp [isNode, fresh] at placedBelow)]
    exact placedBelow

end Add

/-- A list without repetition that is closed downwards from 1 is `1, …, n` in some order. -/
theorem perm_range' {depths : List Nat} (nodup : depths.Nodup)
    (positive : ∀ depth ∈ depths, 0 < depth)
    (down : ∀ depth, depth + 2 ∈ depths → depth + 1 ∈ depths) :
    depths.Perm (List.range' 1 depths.length) := by
  have below : ∀ gap depth, depth + gap + 1 ∈ depths → depth + 1 ∈ depths := by
    intro gap
    induction gap with
    | zero => exact fun depth member => member
    | succ gap ih =>
        intro depth member
        refine ih depth (down (depth + gap) ?_)
        rwa [show depth + gap + 2 = depth + (gap + 1) + 1 by omega]
  have bounded : depths ⊆ List.range' 1 depths.length := by
    intro depth member
    have lower := positive depth member
    rw [List.mem_range'_1]
    refine ⟨lower, ?_⟩
    have initial : List.range' 1 depth ⊆ depths := by
      intro other among
      rw [List.mem_range'_1] at among
      have := below (depth - other) (other - 1) (by
        rwa [show other - 1 + (depth - other) + 1 = depth by omega])
      rwa [show other - 1 + 1 = other by omega] at this
    have counted := (List.subperm_of_subset List.nodup_range' initial).length_le
    rw [List.length_range'] at counted
    omega
  exact (List.subperm_of_subset nodup bounded).perm_of_length_le (by simp)

end ChainForest
