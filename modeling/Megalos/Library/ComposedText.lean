import Mathlib.Data.List.Chain
import Megalos.Library.UnicodeText

/-!
Composition loses nothing: a composed text decomposes to what it was composed from, so that
NFC is idempotent.  When case folding leaves a composed text.
-/

namespace UnicodeText

namespace Tables

variable {κ : Type} (tables : Tables κ)

def nfd (text : List κ) : List κ := tables.reorder (text.flatMap tables.decomposition)

/-- The marks behind each starter stand in canonical order. -/
def Ordered (text : List κ) : Prop :=
  text.IsChain fun first second =>
    tables.combiningClass second = 0 ∨ tables.combiningClass first ≤ tables.combiningClass second

/-- A composite decomposes to the two, and case folding is done once for all: it leaves what is
folded, and takes a composite of folded characters apart if it changes it. -/
structure Cased : Prop where
  composite_decomposition : ∀ {first second composite},
    tables.composite first second = some composite →
    tables.decomposition composite = tables.decomposition first ++ tables.decomposition second
  folding_folded : ∀ {char part}, part ∈ tables.folding char → tables.folding part = [part]
  folded_parts : ∀ {char part}, tables.folding char = [char] → part ∈ tables.decomposition char →
    tables.folding part = [part]
  folded_composite : ∀ {first second composite}, tables.composite first second = some composite →
    (∀ part ∈ tables.decomposition composite, tables.folding part = [part]) →
    tables.folding composite = [composite] ∨
      tables.folding composite = tables.decomposition composite

/-- A text spells another out: a folded character stands for itself, and one that case folding takes
apart for its decomposition. -/
inductive SpellsOut : List κ → List κ → Prop
  | nil : SpellsOut [] []
  | kept {char : κ} {rest text : List κ} (folded : tables.folding char = [char])
      (later : SpellsOut rest text) : SpellsOut (char :: rest) (char :: text)
  | apart {char : κ} {rest text : List κ}
      (apart : tables.folding char = tables.decomposition char) (later : SpellsOut rest text) :
      SpellsOut (char :: rest) (tables.decomposition char ++ text)

variable {tables} {text left right : List κ} {char first second starter : κ} {skipped : List κ}

section Order

theorem Ordered.tail (ordered : tables.Ordered (char :: text)) : tables.Ordered text :=
  List.IsChain.tail ordered

theorem insertOrdered_ordered (mark : κ) (ordered : tables.Ordered text) :
    tables.Ordered (tables.insertOrdered mark text) := by
  induction text with
  | nil => exact .singleton mark
  | cons first rest ih =>
      rw [insertOrdered]
      split
      · rename_i passes
        have behind := ih ordered.tail
        cases rest with
        | nil => exact .cons_cons (.inr passes.2.le) (.singleton mark)
        | cons next later =>
            rw [insertOrdered] at behind ⊢
            split at behind
            · rename_i again
              rw [if_pos again]
              exact .cons_cons (List.isChain_cons_cons.mp ordered).1 behind
            · rename_i stops
              rw [if_neg stops]
              exact .cons_cons (.inr passes.2.le) behind
      · rename_i stops
        refine .cons_cons ?_ ordered
        by_cases isStarter : tables.combiningClass first = 0
        · exact .inl isStarter
        · exact .inr (not_lt.mp fun less => stops ⟨isStarter, less⟩)

theorem reorder_ordered (text : List κ) : tables.Ordered (tables.reorder text) := by
  induction text with
  | nil => exact .nil
  | cons first rest ih => exact insertOrdered_ordered first ih

theorem Ordered.reorder_eq (ordered : tables.Ordered text) : tables.reorder text = text := by
  induction text with
  | nil => rfl
  | cons first rest ih =>
      rw [reorder, ih ordered.tail]
      cases rest with
      | nil => rfl
      | cons next later =>
          have inOrder := (List.isChain_cons_cons.mp ordered).1
          rw [insertOrdered, if_neg]
          omega

theorem insertOrdered_comm (notStarter : tables.combiningClass first ≠ 0)
    (less : tables.combiningClass first < tables.combiningClass second) (text : List κ) :
    tables.insertOrdered second (tables.insertOrdered first text) =
      tables.insertOrdered first (tables.insertOrdered second text) := by
  have behind : tables.combiningClass first ≠ 0 ∧
      tables.combiningClass first < tables.combiningClass second := ⟨notStarter, less⟩
  induction text with
  | nil =>
      have stops : ¬(tables.combiningClass second ≠ 0 ∧
          tables.combiningClass second < tables.combiningClass first) := by omega
      simp only [insertOrdered, if_pos behind, if_neg stops]
  | cons other rest ih =>
      by_cases passes : tables.combiningClass other ≠ 0 ∧
          tables.combiningClass other < tables.combiningClass first
      · have passes' : tables.combiningClass other ≠ 0 ∧
            tables.combiningClass other < tables.combiningClass second := by omega
        simp only [insertOrdered, if_pos passes, if_pos passes', ih]
      · have stops : ¬(tables.combiningClass second ≠ 0 ∧
            tables.combiningClass second < tables.combiningClass first) := by omega
        by_cases passes' : tables.combiningClass other ≠ 0 ∧
            tables.combiningClass other < tables.combiningClass second
        · simp only [insertOrdered, if_neg passes, if_pos passes', if_pos behind]
        · simp only [insertOrdered, if_neg passes, if_neg passes', if_pos behind, if_neg stops]

theorem reorder_append_congr (same : tables.reorder left = tables.reorder right) (front : List κ) :
    tables.reorder (front ++ left) = tables.reorder (front ++ right) := by
  induction front with
  | nil => exact same
  | cons first rest ih => rw [List.cons_append, List.cons_append, reorder, reorder, ih]

theorem reorder_ahead (lower : ∀ mark ∈ skipped, tables.combiningClass mark ≠ 0 ∧
      tables.combiningClass mark < tables.combiningClass char) (rest : List κ) :
    tables.reorder (char :: (skipped ++ rest)) = tables.reorder (skipped ++ char :: rest) := by
  induction skipped with
  | nil => rfl
  | cons mark later ih =>
      obtain ⟨⟨notStarter, less⟩, others⟩ := List.forall_mem_cons.mp lower
      rw [List.cons_append, List.cons_append, reorder, reorder,
        insertOrdered_comm notStarter less, ← reorder, ih others, ← reorder]

end Order

section Composition

theorem flatMap_decomposed (decomposed : ∀ part ∈ text, tables.decomposition part = [part]) :
    text.flatMap tables.decomposition = text := by
  induction text with
  | nil => rfl
  | cons part rest ih =>
      obtain ⟨only, others⟩ := List.forall_mem_cons.mp decomposed
      rw [List.flatMap_cons, only, ih others, List.singleton_append]

/-- What a starter takes in stands behind marks of lower classes only. -/
theorem lower_of_unblocked (marks : ∀ mark ∈ skipped, tables.combiningClass mark ≠ 0)
    (inOrder : skipped.Pairwise fun first second =>
      tables.combiningClass first ≤ tables.combiningClass second)
    (unblocked : tables.blocked skipped char = false) :
    ∀ mark ∈ skipped, tables.combiningClass mark ≠ 0 ∧
      tables.combiningClass mark < tables.combiningClass char := by
  intro mark member
  refine ⟨marks mark member, ?_⟩
  have some : skipped ≠ [] := List.ne_nil_of_mem member
  unfold blocked at unblocked
  rw [List.getLast?_eq_some_getLast some] at unblocked
  have above : tables.combiningClass (skipped.getLast some) < tables.combiningClass char := by
    simpa using unblocked
  refine lt_of_le_of_lt ?_ above
  rw [← List.dropLast_append_getLast some, List.pairwise_append] at inOrder
  rw [← List.dropLast_append_getLast some, List.mem_append, List.mem_singleton] at member
  rcases member with before | rfl
  · exact inOrder.2.2 mark before _ (List.mem_singleton_self _)
  · exact le_refl _

theorem Cased.reorder_composeFrom (cased : tables.Cased)
    (marks : ∀ mark ∈ skipped, tables.combiningClass mark ≠ 0)
    (inOrder : skipped.Pairwise fun first second =>
      tables.combiningClass first ≤ tables.combiningClass second)
    (decomposed : ∀ part ∈ skipped ++ text, tables.decomposition part = [part])
    (ordered : tables.Ordered text)
    (next : ∀ mark ∈ skipped, ∀ char ∈ text.head?,
      tables.combiningClass char = 0 ∨ tables.combiningClass mark ≤ tables.combiningClass char) :
    tables.reorder ((tables.composeFrom starter skipped text).flatMap tables.decomposition) =
      tables.reorder (tables.decomposition starter ++ (skipped ++ text)) := by
  induction text generalizing starter skipped with
  | nil =>
      rw [composeFrom, List.flatMap_cons, List.append_nil]
      rw [List.append_nil] at decomposed
      rw [flatMap_decomposed decomposed]
  | cons char rest ih =>
      obtain ⟨whole, wholes⟩ := List.forall_mem_append.mp decomposed
      obtain ⟨only, later⟩ := List.forall_mem_cons.mp wholes
      have follows : ∀ other ∈ rest.head?, tables.combiningClass other = 0 ∨
          tables.combiningClass char ≤ tables.combiningClass other := by
        intro other isNext
        exact (List.isChain_cons.mp ordered).1 other isNext
      have behind := fun mark member => next mark member char rfl
      rw [composeFrom]
      split
      · -- the composite decomposes to the starter and what it takes in
        rename_i composite composes
        have unblocked : tables.blocked skipped char = false := by
          by_contra isBlocked
          rw [if_pos (Bool.not_eq_false _ ▸ isBlocked)] at composes
          cases composes
        rw [if_neg (by simp [unblocked])] at composes
        have lower := lower_of_unblocked marks inOrder unblocked
        rw [ih marks inOrder (List.forall_mem_append.mpr ⟨whole, later⟩) ordered.tail,
          cased.composite_decomposition composes, only, List.append_assoc, List.singleton_append]
        · exact reorder_append_congr (reorder_ahead lower rest) _
        · intro mark member other isNext
          have above := lower mark member
          have after := follows other isNext
          omega
      · split
        · rename_i isStarter
          rw [List.flatMap_cons, List.flatMap_append, flatMap_decomposed whole]
          refine reorder_append_congr (reorder_append_congr ?_ skipped) _
          rw [ih (by simp) .nil (by simpa using later) ordered.tail (by simp), only,
            List.nil_append, List.singleton_append]
        · rename_i notStarter
          rw [ih, List.append_assoc, List.singleton_append]
          · exact List.forall_mem_append.mpr ⟨marks, by simpa using notStarter⟩
          · rw [List.pairwise_append]
            refine ⟨inOrder, List.pairwise_singleton _ _, fun mark member other isChar => ?_⟩
            rw [List.mem_singleton.mp isChar]
            exact (behind mark member).resolve_left notStarter
          · rw [List.append_assoc]
            exact decomposed
          · exact ordered.tail
          · intro mark member other isNext
            have after := follows other isNext
            rcases List.mem_append.mp member with before | isChar
            · have least := behind mark before
              omega
            · rwa [List.mem_singleton.mp isChar]

theorem Cased.reorder_compose (cased : tables.Cased) (ordered : tables.Ordered text)
    (decomposed : ∀ part ∈ text, tables.decomposition part = [part]) :
    tables.reorder ((tables.compose text).flatMap tables.decomposition) = tables.reorder text := by
  induction text with
  | nil => rfl
  | cons char rest ih =>
      obtain ⟨only, others⟩ := List.forall_mem_cons.mp decomposed
      rw [compose]
      split
      · rw [cased.reorder_composeFrom (by simp) .nil (by simpa using others) ordered.tail (by simp),
          only, List.nil_append, List.singleton_append]
      · rw [List.flatMap_cons, only]
        exact reorder_append_congr (ih ordered.tail others) [char]

theorem Lawful.nfd_decomposed (lawful : tables.Lawful) {part : κ}
    (member : part ∈ tables.nfd text) :
    tables.decomposition part = [part] := by
  obtain ⟨origin, -, isPart⟩ := List.mem_flatMap.mp ((reorder_perm _).mem_iff.mp member)
  exact lawful.decomposed isPart

theorem Cased.nfd_nfc (cased : tables.Cased) (lawful : tables.Lawful) (text : List κ) :
    tables.nfd (tables.nfc text) = tables.nfd text := by
  have ordered : tables.Ordered (tables.nfd text) := reorder_ordered _
  calc tables.nfd (tables.nfc text)
      = tables.reorder ((tables.compose (tables.nfd text)).flatMap tables.decomposition) := rfl
    _ = tables.reorder (tables.nfd text) :=
        cased.reorder_compose ordered fun _ => lawful.nfd_decomposed
    _ = tables.nfd text := ordered.reorder_eq

theorem nfc_congr (same : tables.nfd left = tables.nfd right) :
    tables.nfc left = tables.nfc right :=
  congrArg tables.compose same

theorem Cased.nfc_nfc (cased : tables.Cased) (lawful : tables.Lawful) (text : List κ) :
    tables.nfc (tables.nfc text) = tables.nfc text :=
  nfc_congr (cased.nfd_nfc lawful text)

end Composition

section Folding

theorem SpellsOut.casefold_eq (spells : tables.SpellsOut left right) :
    tables.casefold left = right := by
  induction spells with
  | nil => rfl
  | kept folded _ ih => rw [casefold, List.flatMap_cons, folded, ← casefold, ih,
    List.singleton_append]
  | apart taken _ ih => rw [casefold, List.flatMap_cons, taken, ← casefold, ih]

theorem SpellsOut.nfd_eq (lawful : tables.Lawful) (spells : tables.SpellsOut left right) :
    tables.nfd right = tables.nfd left := by
  refine congrArg tables.reorder ?_
  induction spells with
  | nil => rfl
  | kept _ _ ih => rw [List.flatMap_cons, List.flatMap_cons, ih]
  | @apart char _ _ _ _ ih =>
      rw [List.flatMap_append, List.flatMap_cons, ih,
        @flatMap_decomposed _ tables (tables.decomposition char) fun _ => lawful.decomposed]

theorem SpellsOut.of_folded
    (each : ∀ char ∈ text,
      tables.folding char = [char] ∨ tables.folding char = tables.decomposition char) :
    tables.SpellsOut text (tables.casefold text) := by
  induction text with
  | nil => exact .nil
  | cons char rest ih =>
      obtain ⟨one, others⟩ := List.forall_mem_cons.mp each
      rw [casefold, List.flatMap_cons]
      rcases one with folded | taken
      · rw [folded]
        exact .kept folded (ih others)
      · rw [taken]
        exact .apart taken (ih others)

/-- The composition of a folded text has folded characters, and such as case folding takes apart. -/
theorem Cased.nfc_folded (cased : tables.Cased)
    (folded : ∀ char ∈ text, tables.folding char = [char]) (lawful : tables.Lawful) :
    ∀ char ∈ tables.nfc text,
      tables.folding char = [char] ∨ tables.folding char = tables.decomposition char := by
  have parts : ∀ part ∈ tables.nfd text, tables.folding part = [part] := by
    intro part member
    obtain ⟨origin, inText, isPart⟩ := List.mem_flatMap.mp ((reorder_perm _).mem_iff.mp member)
    exact cased.folded_parts (folded origin inText) isPart
  intro char member
  rcases compose_mem member with before | ⟨first, second, made⟩
  · exact .inl (parts char before)
  · refine cased.folded_composite made fun part isPart => parts part ?_
    rw [← cased.nfd_nfc lawful]
    exact (reorder_perm _).mem_iff.mpr (List.mem_flatMap.mpr ⟨char, member, isPart⟩)

/-- A folded text stays through composition and folding exactly when a composed text spells it out.
-/
theorem Cased.casefold_nfc_iff (cased : tables.Cased) (lawful : tables.Lawful)
    (folded : ∀ char ∈ text, tables.folding char = [char]) :
    tables.casefold (tables.nfc text) = text ↔
      ∃ whole, tables.nfc whole = whole ∧ tables.SpellsOut whole text := by
  constructor
  · intro same
    refine ⟨tables.nfc text, cased.nfc_nfc lawful text, ?_⟩
    have spells := SpellsOut.of_folded (cased.nfc_folded folded lawful)
    rwa [same] at spells
  · rintro ⟨whole, composed, spells⟩
    rw [nfc_congr (spells.nfd_eq lawful), composed, spells.casefold_eq]

end Folding

end Tables

end UnicodeText
