import Mathlib.Data.Finset.Card
import Mathlib.Logic.Relation

/-!
A relation without cycles that only leads to finitely many places has a rank: a number
that each move makes smaller.  A cycle of a functional relation is left by no move.
-/

namespace FiniteRank

open Relation

variable {α : Type} {moves : α → α → Prop} {targets : List α}

def Acyclic (moves : α → α → Prop) : Prop := ∀ place, ¬TransGen moves place place

theorem Acyclic.mono {fewer : α → α → Prop} (acyclic : Acyclic moves)
    (among : ∀ {first second}, fewer first second → moves first second) : Acyclic fewer :=
  fun place cycle => acyclic place (cycle.lift id fun _ _ => among)

theorem acyclic_of_rank (rank : α → Nat)
    (falls : ∀ {first second}, moves first second → rank second < rank first) :
    Acyclic moves := by
  have less : ∀ {first last}, TransGen moves first last → rank last < rank first := by
    intro first last path
    induction path with
    | single move => exact falls move
    | tail _ move ih => exact (falls move).trans ih
  exact fun place cycle => lt_irrefl _ (less cycle)

noncomputable def reached [DecidableEq α] (moves : α → α → Prop) (targets : List α) (place : α) :
    Finset α :=
  open Classical in targets.toFinset.filter fun target => TransGen moves place target

theorem reached_card_le [DecidableEq α] (place : α) :
    (reached moves targets place).card ≤ targets.length := by
  classical
  exact (Finset.card_filter_le _ _).trans (List.toFinset_card_le targets)

theorem reached_ssubset [DecidableEq α] (acyclic : Acyclic moves)
    (into : ∀ {first second}, moves first second → second ∈ targets) {first second : α}
    (move : moves first second) : reached moves targets second ⊂ reached moves targets first := by
  classical
  refine Finset.ssubset_iff_subset_ne.mpr ⟨?_, ?_⟩
  · intro place member
    simp only [reached, Finset.mem_filter] at member ⊢
    exact ⟨member.1, TransGen.head move member.2⟩
  · intro same
    have there : second ∈ reached moves targets first := by
      simp only [reached, Finset.mem_filter, List.mem_toFinset]
      exact ⟨into move, TransGen.single move⟩
    rw [← same] at there
    simp only [reached, Finset.mem_filter] at there
    exact acyclic second there.2

theorem exists_rank [DecidableEq α] (acyclic : Acyclic moves)
    (into : ∀ {first second}, moves first second → second ∈ targets) :
    ∃ rank : α → Nat, (∀ place, rank place ≤ targets.length) ∧
      ∀ {first second}, moves first second → rank second < rank first := by
  refine ⟨fun place => (reached moves targets place).card, reached_card_le, ?_⟩
  · intro first second move
    exact Finset.card_lt_card (reached_ssubset acyclic into move)

/-- A place on a cycle moves on to a place on a cycle, when its move is determined. -/
theorem cycle_next {place next : α} (cycle : TransGen moves place place)
    (functional : ∀ {place first second}, moves place first → moves place second → first = second)
    (move : moves place next) : TransGen moves next next := by
  obtain ⟨middle, first, rest⟩ := TransGen.head'_iff.mp cycle
  rw [functional first move] at rest
  exact TransGen.tail' rest move

end FiniteRank
