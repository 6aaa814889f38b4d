import Megalos.Library.ChainForest
import Megalos.Ledger

/-!
The stack table as a chain forest: where each session stands, and the part of the
store's integrity that no tool call can break.
-/

namespace Megalos

open ChainForest

def Ledger.places (ledger : Ledger) : Places SessionId :=
  fun sid => (ledger.frame sid).map fun frame => (frame.rootSessionId, frame.depth)

namespace Ledger

variable {ledger : Ledger} {sid parent child root : SessionId} {depth : Nat} {frame : Frame}

theorem places_of_frame (found : ledger.frame sid = some frame) :
    ledger.places sid = some (frame.rootSessionId, frame.depth) := by
  simp [places, found]

theorem places_some : ledger.places sid = some (root, depth) ↔
    ∃ frame, ledger.frame sid = some frame ∧ frame.rootSessionId = root ∧ frame.depth = depth := by
  simp [places]

theorem places_none : ledger.places sid = none ↔ ledger.frame sid = none := by
  simp [places]

theorem standing_places : ledger.standing sid = ChainForest.standing ledger.places sid := by
  cases found : ledger.frame sid with
  | none => rw [standing_of_root found, standing_root (places_none.mpr found)]
  | some frame => rw [standing_of_frame found, standing_placed (places_of_frame found)]

def Covers (ledger : Ledger) (parent child : SessionId) : Prop :=
    ChainForest.Covers ledger.places parent child

theorem above_covers (above : ledger.Above sid frame) : ledger.Covers sid frame.sessionId := by
  rw [Covers, ChainForest.Covers, ← standing_places, places_of_frame above.1, above.2.1, above.2.2]

theorem covers_above (covers : ledger.Covers parent child)
    (keyed : ∀ frame, ledger.frame child = some frame → frame.sessionId = child) :
    ∃ frame, ledger.Above parent frame ∧ frame.sessionId = child := by
  rw [Covers, ChainForest.Covers, ← standing_places, places_some] at covers
  obtain ⟨frame, found, rootEq, depthEq⟩ := covers
  have sameKey := keyed frame found
  exact ⟨frame, ⟨by rw [sameKey]; exact found, rootEq, depthEq⟩, sameKey⟩

theorem parent_iff_covers (forest : Forest ledger.places) :
    ledger.Parent child parent ↔ ledger.Covers parent child := by
  rw [Covers, ChainForest.Covers, ← standing_places, places_some]
  constructor
  · rintro ⟨frame, found, ⟨bottom, rfl⟩ | ⟨higher, below, there, sameRoot, sameDepth⟩⟩
    · have free := places_none.mp (forest.rootFree (places_of_frame found))
      exact ⟨frame, found, by rw [standing_of_root free], by rw [standing_of_root free, bottom]⟩
    · have positive := forest.positive (places_of_frame found)
      refine ⟨frame, found, by rw [standing_of_frame there, sameRoot], ?_⟩
      rw [standing_of_frame there, sameDepth]
      omega
  · rintro ⟨frame, found, rootEq, depthEq⟩
    refine ⟨frame, found, ?_⟩
    cases below : ledger.frame parent with
    | none =>
        rw [standing_of_root below] at rootEq depthEq
        exact .inl ⟨depthEq, rootEq.symm⟩
    | some lower =>
        have positive := forest.positive (places_of_frame below)
        rw [standing_of_frame below] at rootEq depthEq
        refine .inr ⟨by omega, lower, rfl, rootEq.symm, by omega⟩

theorem places_setRow {row : Session} : (ledger.setRow sid row).places = ledger.places := rfl

theorem places_without (ids : List SessionId) :
    (ledger.without ids).places = remove ledger.places (· ∈ ids) := by
  funext other
  simp only [places, without_frame, remove]
  split <;> rfl

theorem places_drop : (ledger.drop sid).places = remove ledger.places (· = sid) := by
  funext other
  simp only [places, drop_frame, remove]
  split <;> rfl

theorem dropAbove_of_bare (bare : ∀ upper, ¬ledger.Covers sid upper) :
    ledger.dropAbove sid = ledger := by
  simp only [dropAbove, dropAt]
  congr
  funext other
  cases found : ledger.frame other with
  | none => rfl
  | some frame =>
      have apart := bare other
      rw [Covers, ChainForest.Covers, ← standing_places, places_of_frame found, Option.some.injEq,
        Prod.mk.injEq] at apart
      exact Option.filter_some_pos (by simpa [← imp_iff_not_or] using apart)

theorem drop_covers (differs : parent ≠ sid) :
    (ledger.drop sid).Covers parent child ↔ child ≠ sid ∧ ledger.Covers parent child := by
  rw [Covers, places_drop]
  exact remove_covers fun isSid => absurd isSid differs

theorem dropAbove_drop (forest : Forest ledger.places) (covers : ledger.Covers parent child) :
    (ledger.drop child).dropAbove parent = ledger.drop child := by
  refine dropAbove_of_bare ?_
  intro upper again
  obtain ⟨differs, above⟩ := (drop_covers (ChainForest.Covers.ne covers)).mp again
  exact differs (forest.covers_upper above covers)

end Ledger

theorem World.parentOf_of_covers {world : World} (forest : Forest world.ledger.places)
    {parent child : SessionId} (covers : world.ledger.Covers parent child) :
    world.parentOf child = some parent := by
  have owner := (Ledger.parent_iff_covers forest).mpr covers
  cases found : world.parentOf child with
  | none => exact absurd owner (World.parentOf_none found parent)
  | some other =>
      have again := (Ledger.parent_iff_covers forest).mp (World.parentOf_some found)
      rw [forest.covers_lower again covers]

def Issued (env : Env) (minted : Nat) (sid : SessionId) : Prop :=
    ∃ draw, draw < minted ∧ env.token draw = sid

theorem Issued.mono {env : Env} {minted later : Nat} {sid : SessionId}
    (issued : Issued env minted sid) (grown : minted ≤ later) : Issued env later sid := by
  obtain ⟨draw, before, rfl⟩ := issued
  exact ⟨draw, by omega, rfl⟩

theorem Issued.not_next {env : Env} {minted : Nat} : ¬Issued env minted (env.token minted) := by
  rintro ⟨draw, before, same⟩
  have := env.tokenInjective same
  omega

/-- What holds in every reachable state, whatever the calls were. -/
structure Ledger.Sound (env : Env) (ledger : Ledger) (minted : Nat) : Prop where
  forest : Forest ledger.places
  housed : ∀ {sid frame}, ledger.frame sid = some frame → (ledger.row sid).isSome
  rowIssued : ∀ {sid row}, ledger.row sid = some row → Issued env minted sid
  rootIssued : ∀ {sid frame}, ledger.frame sid = some frame → Issued env minted frame.rootSessionId
  ownerIssued : ∀ {sid row owner}, ledger.row sid = some row → row.parentSessionId = some owner →
    Issued env minted owner

def World.Sound (env : Env) (world : World) : Prop := world.ledger.Sound env world.minted

end Megalos
