import Mathlib.Data.List.DropRight

/-!
Canonical composition (NFC), case folding and stripping of texts, over the tables of the
character database. White space stands between the parts that these work on.
-/

namespace UnicodeText

/-- What the character database says of each character: the full canonical decomposition and case
folding, the combining class, and the primary composite of two characters. -/
structure Tables (κ : Type) where
  decomposition : κ → List κ
  combiningClass : κ → Nat
  composite : κ → κ → Option κ
  folding : κ → List κ
  isSpace : κ → Bool

namespace Tables

variable {κ : Type} (tables : Tables κ)

/-- A mark goes behind the marks of a lower class, as far as the next starter. -/
def insertOrdered (mark : κ) : List κ → List κ
  | [] => [mark]
  | first :: rest =>
      if tables.combiningClass first ≠ 0 ∧
        tables.combiningClass first < tables.combiningClass mark then
        first :: insertOrdered mark rest
      else mark :: first :: rest

def reorder : List κ → List κ
  | [] => []
  | first :: rest => tables.insertOrdered first (reorder rest)

/-- A mark of the same class or above stands between the starter and the character. -/
def blocked (skipped : List κ) (char : κ) : Bool :=
  match skipped.getLast? with
  | none => false
  | some last => decide (tables.combiningClass char ≤ tables.combiningClass last)

/-- The last starter takes in what composes with it; the marks that do not are kept behind it. -/
def composeFrom (starter : κ) (skipped : List κ) : List κ → List κ
  | [] => starter :: skipped
  | char :: rest =>
      match if tables.blocked skipped char then none else tables.composite starter char with
      | some composite => composeFrom composite skipped rest
      | none =>
          if tables.combiningClass char = 0 then starter :: (skipped ++ composeFrom char [] rest)
          else composeFrom starter (skipped ++ [char]) rest

def compose : List κ → List κ
  | [] => []
  | char :: rest => if tables.combiningClass char =
    0 then tables.composeFrom char [] rest else char :: compose rest

def nfc (text : List κ) : List κ :=
    tables.compose (tables.reorder (text.flatMap tables.decomposition))

def casefold (text : List κ) : List κ := text.flatMap tables.folding

def strip (text : List κ) : List κ := (text.dropWhile tables.isSpace).rdropWhile tables.isSpace

/-- White space stays white space, for itself; and nothing else becomes white space, or nothing at
all. -/
structure Lawful : Prop where
  decomposed : ∀ {char part}, part ∈ tables.decomposition char → tables.decomposition part = [part]
  space_decomposition : ∀ {char}, tables.isSpace char = true →
    ∃ space, tables.decomposition char = [space] ∧ tables.isSpace space = true
  letter_decomposition : ∀ {char}, tables.isSpace char = false →
    tables.decomposition char ≠ [] ∧ ∀ part ∈ tables.decomposition char, tables.isSpace part = false
  space_starter : ∀ {char}, tables.isSpace char = true → tables.combiningClass char = 0
  composite_letters : ∀ {first second composite}, tables.composite first second = some composite →
    tables.isSpace first = false ∧ tables.isSpace second = false ∧ tables.isSpace composite = false
  space_folding : ∀ {char}, tables.isSpace char = true → tables.folding char = [char]
  letter_folding : ∀ {char}, tables.isSpace char = false →
    tables.folding char ≠ [] ∧ ∀ part ∈ tables.folding char, tables.isSpace part = false

variable {tables} {text left right : List κ} {char space starter : κ} {skipped : List κ}

section Order

theorem insertOrdered_perm (mark : κ) (text : List κ) :
    (tables.insertOrdered mark text).Perm (mark :: text) := by
  induction text with
  | nil => exact List.Perm.refl _
  | cons first rest ih =>
      rw [insertOrdered]
      split
      · exact (ih.cons first).trans (List.Perm.swap mark first rest)
      · exact List.Perm.refl _

theorem reorder_perm (text : List κ) : (tables.reorder text).Perm text := by
  induction text with
  | nil => exact List.Perm.refl _
  | cons first rest ih => exact (insertOrdered_perm first _).trans (ih.cons first)

theorem insertOrdered_starter (isStarter : tables.combiningClass starter = 0) (text : List κ) :
    tables.insertOrdered starter text = starter :: text := by
  cases text with
  | nil => rfl
  | cons first rest =>
      rw [insertOrdered, if_neg]
      omega

theorem insertOrdered_append (isStarter : tables.combiningClass starter = 0) (mark : κ)
    (left right : List κ) :
    tables.insertOrdered mark (left ++ starter :: right) = tables.insertOrdered mark left ++
      starter :: right := by
  induction left with
  | nil =>
      have stops : ¬(tables.combiningClass starter ≠ 0 ∧
          tables.combiningClass starter < tables.combiningClass mark) :=
            fun both => both.1 isStarter
      simp only [List.nil_append, insertOrdered, if_neg stops, List.singleton_append]
  | cons first rest ih =>
      rw [List.cons_append, insertOrdered, insertOrdered]
      split
      · rw [ih, List.cons_append]
      · rfl

theorem reorder_append (isStarter : tables.combiningClass starter = 0) (left right : List κ) :
    tables.reorder (left ++ starter :: right) = tables.reorder left ++
      starter :: tables.reorder right := by
  induction left with
  | nil => exact insertOrdered_starter isStarter _
  | cons first rest ih =>
      rw [List.cons_append, reorder, ih, insertOrdered_append isStarter, reorder]

end Order

section Composition

theorem Lawful.composeFrom_space (lawful : tables.Lawful) (isSpace : tables.isSpace space = true)
    (skipped text : List κ) :
    tables.composeFrom space skipped text = space :: (skipped ++ tables.compose text) := by
  induction text generalizing skipped with
  | nil => simp only [composeFrom, compose, List.append_nil]
  | cons char rest ih =>
      have never : (if tables.blocked skipped char then none else tables.composite space char) =
        none := by
        split
        · rfl
        · apply Option.eq_none_iff_forall_ne_some.mpr
          intro composite composes
          rw [(lawful.composite_letters composes).1] at isSpace
          exact nomatch isSpace
      rw [composeFrom, never]
      dsimp only
      by_cases isStarter : tables.combiningClass char = 0
      · rw [if_pos isStarter, compose, if_pos isStarter]
      · rw [if_neg isStarter, ih, compose, if_neg isStarter, List.append_assoc,
          List.singleton_append]

theorem Lawful.composeFrom_append (lawful : tables.Lawful) (isSpace : tables.isSpace space = true)
    (starter : κ) (skipped left right : List κ) :
    tables.composeFrom starter skipped (left ++ space :: right) =
      tables.composeFrom starter skipped left ++ space :: tables.compose right := by
  induction left generalizing starter skipped with
  | nil =>
      have never : (if tables.blocked skipped space then none else tables.composite starter space) =
        none := by
        split
        · rfl
        · apply Option.eq_none_iff_forall_ne_some.mpr
          intro composite composes
          rw [(lawful.composite_letters composes).2.1] at isSpace
          exact nomatch isSpace
      have ended : tables.composeFrom starter skipped [] = starter :: skipped := rfl
      rw [List.nil_append, ended, composeFrom, never]
      dsimp only
      rw [if_pos (lawful.space_starter isSpace), lawful.composeFrom_space isSpace, List.nil_append,
        List.cons_append]
  | cons char rest ih =>
      rw [List.cons_append, composeFrom, composeFrom]
      split
      · apply ih
      · split
        · rw [ih, List.cons_append, List.append_assoc]
        · apply ih

theorem Lawful.compose_append (lawful : tables.Lawful) (isSpace : tables.isSpace space = true)
    (left right : List κ) :
    tables.compose (left ++ space :: right) = tables.compose left ++
      space :: tables.compose right := by
  induction left with
  | nil =>
      have ended : tables.compose [] = [] := rfl
      rw [ended, List.nil_append, List.nil_append, compose, if_pos (lawful.space_starter isSpace),
        lawful.composeFrom_space isSpace, List.nil_append]
  | cons char rest ih =>
      rw [List.cons_append, compose, compose]
      split
      · exact lawful.composeFrom_append isSpace char [] rest right
      · rw [ih, List.cons_append]

theorem composeFrom_mem {result : κ} (member : result ∈ tables.composeFrom starter skipped text) :
    result = starter ∨ result ∈ skipped ∨ result ∈ text ∨
      ∃ first second, tables.composite first second = some result := by
  induction text generalizing starter skipped with
  | nil =>
      rcases List.mem_cons.mp member with isStarter | isSkipped
      · exact .inl isStarter
      · exact .inr (.inl isSkipped)
  | cons char rest ih =>
      rw [composeFrom] at member
      split at member
      · rename_i composite composes
        have made : tables.composite starter char = some composite := by
          split at composes
          · exact nomatch composes
          · exact composes
        rcases ih member with isComposite | isSkipped | inRest | isMade
        · exact .inr (.inr (.inr ⟨starter, char, isComposite ▸ made⟩))
        · exact .inr (.inl isSkipped)
        · exact .inr (.inr (.inl (List.mem_cons_of_mem _ inRest)))
        · exact .inr (.inr (.inr isMade))
      · split at member
        · rcases List.mem_cons.mp member with isStarter | behind
          · exact .inl isStarter
          · rcases List.mem_append.mp behind with isSkipped | later
            · exact .inr (.inl isSkipped)
            · rcases ih later with isChar | isSkipped | inRest | isMade
              · exact .inr (.inr (.inl (isChar ▸ List.mem_cons_self)))
              · exact nomatch isSkipped
              · exact .inr (.inr (.inl (List.mem_cons_of_mem _ inRest)))
              · exact .inr (.inr (.inr isMade))
        · rcases ih member with isStarter | isSkipped | inRest | isMade
          · exact .inl isStarter
          · rcases List.mem_append.mp isSkipped with before | isChar
            · exact .inr (.inl before)
            · exact .inr (.inr (.inl (List.mem_singleton.mp isChar ▸ List.mem_cons_self)))
          · exact .inr (.inr (.inl (List.mem_cons_of_mem _ inRest)))
          · exact .inr (.inr (.inr isMade))

theorem compose_mem {result : κ} (member : result ∈ tables.compose text) :
    result ∈ text ∨ ∃ first second, tables.composite first second = some result := by
  induction text with
  | nil => exact nomatch member
  | cons char rest ih =>
      rw [compose] at member
      split at member
      · rcases composeFrom_mem member with isChar | isSkipped | inRest | isMade
        · exact .inl (isChar ▸ List.mem_cons_self)
        · exact nomatch isSkipped
        · exact .inl (List.mem_cons_of_mem _ inRest)
        · exact .inr isMade
      · rcases List.mem_cons.mp member with isChar | later
        · exact .inl (isChar ▸ List.mem_cons_self)
        · rcases ih later with inRest | isMade
          · exact .inl (List.mem_cons_of_mem _ inRest)
          · exact .inr isMade

theorem composeFrom_ne_nil (tables : Tables κ) (starter : κ) (skipped text : List κ) :
    tables.composeFrom starter skipped text ≠ [] := by
  induction text generalizing starter skipped with
  | nil => exact List.cons_ne_nil _ _
  | cons char rest ih =>
      rw [composeFrom]
      split
      · apply ih
      · split
        · exact List.cons_ne_nil _ _
        · apply ih

theorem compose_ne_nil (some : text ≠ []) : tables.compose text ≠ [] := by
  cases text with
  | nil => exact absurd rfl some
  | cons char rest =>
      rw [compose]
      split
      · exact composeFrom_ne_nil tables char [] rest
      · exact List.cons_ne_nil _ _

end Composition

def settle (tables : Tables κ) (text : List κ) : List κ := tables.casefold (tables.nfc text)

section Settle

theorem Lawful.settle_append (lawful : tables.Lawful) (only : tables.decomposition char = [space])
    (still : tables.isSpace space = true) (left right : List κ) :
    tables.settle (left ++ char :: right) = tables.settle left ++
      space :: tables.settle right := by
  unfold settle nfc casefold
  rw [List.flatMap_append, List.flatMap_cons, only, List.singleton_append,
    reorder_append (lawful.space_starter still), lawful.compose_append still, List.flatMap_append, List.flatMap_cons,
    lawful.space_folding still, List.singleton_append]

theorem Lawful.nfc_letters (lawful : tables.Lawful)
    (letters : ∀ char ∈ text, tables.isSpace char = false) :
    ∀ char ∈ tables.nfc text, tables.isSpace char = false := by
  intro char member
  rcases compose_mem member with before | ⟨first, second, made⟩
  · obtain ⟨origin, inText, part⟩ := List.mem_flatMap.mp ((reorder_perm _).mem_iff.mp before)
    exact (lawful.letter_decomposition (letters origin inText)).2 char part
  · exact (lawful.composite_letters made).2.2

theorem flatMap_ne_nil {parts : κ → List κ} (some : text ≠ [])
    (each : ∀ char ∈ text, parts char ≠ []) :
    text.flatMap parts ≠ [] := by
  obtain ⟨char, member⟩ := List.exists_mem_of_ne_nil text some
  obtain ⟨part, inParts⟩ := List.exists_mem_of_ne_nil _ (each char member)
  exact List.ne_nil_of_mem (List.mem_flatMap.mpr ⟨char, member, inParts⟩)

theorem Lawful.settle_letters (lawful : tables.Lawful)
    (letters : ∀ char ∈ text, tables.isSpace char = false) :
    (∀ char ∈ tables.settle text, tables.isSpace char = false) ∧
      (text ≠ [] → tables.settle text ≠ []) := by
  constructor
  · intro char member
    obtain ⟨source, composed, fold⟩ := List.mem_flatMap.mp member
    exact (lawful.letter_folding (lawful.nfc_letters letters source composed)).2 char fold
  · intro some
    apply flatMap_ne_nil
    · apply compose_ne_nil
      intro none
      have vanished : (tables.reorder (text.flatMap tables.decomposition)).length =
          (text.flatMap tables.decomposition).length := (reorder_perm _).length_eq
      rw [none, List.length_nil] at vanished
      apply flatMap_ne_nil some _ (List.length_eq_zero_iff.mp vanished.symm)
      intro char member
      exact (lawful.letter_decomposition (letters char member)).1
    · intro char member
      exact (lawful.letter_folding (lawful.nfc_letters letters char member)).1

theorem Lawful.settle_space (lawful : tables.Lawful) (member : char ∈ tables.settle text)
    (isSpace : tables.isSpace char = true) : tables.decomposition char = [char] := by
  obtain ⟨source, composed, fold⟩ := List.mem_flatMap.mp member
  have sourceSpace : tables.isSpace source = true := by
    by_contra isLetter
    rw [(lawful.letter_folding (Bool.eq_false_iff.mpr isLetter)).2 char fold] at isSpace
    exact nomatch isSpace
  rw [lawful.space_folding sourceSpace, List.mem_singleton] at fold
  subst fold
  rcases compose_mem composed with before | ⟨first, second, made⟩
  · obtain ⟨origin, -, part⟩ := List.mem_flatMap.mp ((reorder_perm _).mem_iff.mp before)
    exact lawful.decomposed part
  · rw [(lawful.composite_letters made).2.2] at isSpace
    exact nomatch isSpace

theorem first_word (tables : Tables κ) (text : List κ) :
    (∀ char ∈ text, tables.isSpace char = false) ∨
    ∃ word space rest, text = word ++ space :: rest ∧ tables.isSpace space = true ∧
      ∀ char ∈ word, tables.isSpace char = false := by
  cases found : text.find? tables.isSpace with
  | none =>
      left
      intro char member
      exact Bool.eq_false_iff.mpr (List.find?_eq_none.mp found char member)
  | some space =>
      obtain ⟨isSpace, word, rest, split, letters⟩ := List.find?_eq_some_iff_append.mp found
      exact .inr ⟨word, space, rest, split, isSpace, fun char member =>
        by simpa using letters char member⟩

theorem Lawful.settle_head (lawful : tables.Lawful) (letter : tables.isSpace char = false)
    (rest : List κ) :
    ∃ first more, tables.settle (char :: rest) = first :: more ∧ tables.isSpace first = false := by
  have begins : ∀ word right, (∀ other ∈ word, tables.isSpace other = false) → word ≠ [] →
      ∃ first more, tables.settle word ++ right = first :: more ∧ tables.isSpace first = false := by
    intro word right letters some
    obtain ⟨stays, appears⟩ := lawful.settle_letters letters
    obtain ⟨first, more, split⟩ := List.exists_cons_of_ne_nil (appears some)
    exact ⟨first, more ++ right, by rw [split, List.cons_append],
      stays first (split ▸ List.mem_cons_self)⟩
  rcases tables.first_word (char :: rest) with letters | ⟨word, space, right, split, isSpace,
    letters⟩
  · obtain ⟨first, more, settled, isLetter⟩ :=
      begins (char :: rest) [] letters (List.cons_ne_nil _ _)
    rw [List.append_nil] at settled
    exact ⟨first, more, settled, isLetter⟩
  · obtain ⟨other, only, still⟩ := lawful.space_decomposition isSpace
    rw [split, lawful.settle_append only still]
    apply begins word _ letters
    intro empty
    rw [empty, List.nil_append, List.cons.injEq] at split
    rw [split.1, isSpace] at letter
    exact nomatch letter

theorem Lawful.settle_last (lawful : tables.Lawful) (letter : tables.isSpace char = false)
    (text : List κ) :
    ∃ more last, tables.settle (text ++ [char]) = more ++ [last] ∧ tables.isSpace last = false := by
  have ends : ∀ left word, (∀ other ∈ word, tables.isSpace other = false) → word ≠ [] →
      ∃ more last, left ++ tables.settle word = more ++ [last] ∧ tables.isSpace last = false := by
    intro left word letters some
    obtain ⟨stays, appears⟩ := lawful.settle_letters letters
    refine ⟨left ++ (tables.settle word).dropLast, (tables.settle word).getLast (appears some), ?_,
      stays _ (List.getLast_mem _)⟩
    rw [List.append_assoc, List.dropLast_append_getLast]
  rcases tables.first_word (char :: text.reverse) with letters | ⟨word, space, left, split, isSpace,
    letters⟩
  · apply ends [] (text ++ [char]) _ (by simp)
    intro other member
    exact letters other (by simpa [or_comm] using member)
  · obtain ⟨other, only, still⟩ := lawful.space_decomposition isSpace
    have mirrored : text ++ [char] = left.reverse ++ space :: word.reverse := by
      have turned := congrArg List.reverse split
      simpa using turned
    rw [mirrored, lawful.settle_append only still, List.append_cons]
    apply ends
    · intro other member
      exact letters other (List.mem_reverse.mp member)
    · intro empty
      rw [List.reverse_eq_nil_iff.mp empty, List.nil_append, List.cons.injEq] at split
      rw [split.1, isSpace] at letter
      exact nomatch letter

theorem Lawful.settle_dropWhile (lawful : tables.Lawful) (text : List κ) :
    (tables.settle text).dropWhile tables.isSpace =
      tables.settle (text.dropWhile tables.isSpace) := by
  induction text with
  | nil => rfl
  | cons char rest ih =>
      by_cases isSpace : tables.isSpace char = true
      · obtain ⟨space, only, still⟩ := lawful.space_decomposition isSpace
        have settled : tables.settle (char :: rest) = space :: tables.settle rest :=
          lawful.settle_append only still [] rest
        rw [settled, List.dropWhile_cons_of_pos still, List.dropWhile_cons_of_pos isSpace, ih]
      · obtain ⟨first, more, settled, letter⟩ :=
          lawful.settle_head (Bool.eq_false_iff.mpr isSpace) rest
        rw [List.dropWhile_cons_of_neg isSpace, settled,
          List.dropWhile_cons_of_neg (by simp [letter])]

theorem Lawful.settle_rdropWhile (lawful : tables.Lawful) (text : List κ) :
    (tables.settle text).rdropWhile tables.isSpace =
      tables.settle (text.rdropWhile tables.isSpace) := by
  induction text using List.reverseRecOn with
  | nil => rfl
  | append_singleton rest char ih =>
      by_cases isSpace : tables.isSpace char = true
      · obtain ⟨space, only, still⟩ := lawful.space_decomposition isSpace
        have settled : tables.settle (rest ++ [char]) = tables.settle rest ++ [space] :=
          lawful.settle_append only still rest []
        rw [settled, List.rdropWhile_concat_pos _ _ _ still,
          List.rdropWhile_concat_pos _ _ _ isSpace, ih]
      · obtain ⟨more, last, settled, letter⟩ :=
          lawful.settle_last (Bool.eq_false_iff.mpr isSpace) rest
        rw [List.rdropWhile_concat_neg _ _ _ isSpace, settled,
          List.rdropWhile_concat_neg _ _ _ (by simp [letter])]

theorem Lawful.settle_strip (lawful : tables.Lawful) (text : List κ) :
    tables.strip (tables.settle text) = tables.settle (tables.strip text) := by
  unfold strip
  rw [lawful.settle_dropWhile, lawful.settle_rdropWhile]

/-- White space around a text has no part in whether it is settled. -/
theorem Lawful.settled_dropWhile (lawful : tables.Lawful)
    (plain : ∀ char ∈ text, tables.isSpace char = true → tables.decomposition char = [char]) :
    tables.settle (text.dropWhile tables.isSpace) = text.dropWhile tables.isSpace ↔
      tables.settle text = text := by
  induction text with
  | nil => exact Iff.rfl
  | cons char rest ih =>
      by_cases isSpace : tables.isSpace char = true
      · have settled : tables.settle (char :: rest) = char :: tables.settle rest :=
          lawful.settle_append (plain char List.mem_cons_self isSpace) isSpace [] rest
        rw [List.dropWhile_cons_of_pos isSpace, settled, List.cons.injEq,
          ih fun other member => plain other (List.mem_cons_of_mem _ member)]
        simp
      · rw [List.dropWhile_cons_of_neg isSpace]

theorem Lawful.settled_rdropWhile (lawful : tables.Lawful)
    (plain : ∀ char ∈ text, tables.isSpace char = true → tables.decomposition char = [char]) :
    tables.settle (text.rdropWhile tables.isSpace) = text.rdropWhile tables.isSpace ↔
      tables.settle text = text := by
  induction text using List.reverseRecOn with
  | nil => exact Iff.rfl
  | append_singleton rest char ih =>
      by_cases isSpace : tables.isSpace char = true
      · have settled : tables.settle (rest ++ [char]) = tables.settle rest ++ [char] :=
          lawful.settle_append (plain char (by simp) isSpace) isSpace rest []
        rw [List.rdropWhile_concat_pos _ _ _ isSpace, settled,
          ih fun other member => plain other (List.mem_append_left _ member)]
        simp
      · rw [List.rdropWhile_concat_neg _ _ _ isSpace]

theorem strip_strip (tables : Tables κ) (text : List κ) :
    tables.strip (tables.strip text) = tables.strip text := by
  have front : (tables.strip text).dropWhile tables.isSpace = tables.strip text := by
    cases stripped : tables.strip text with
    | nil => rfl
    | cons first more =>
        obtain ⟨tail, whole⟩ :=
          List.rdropWhile_prefix tables.isSpace (text.dropWhile tables.isSpace)
        have stops := List.head?_dropWhile_not tables.isSpace text
        rw [← whole, show (text.dropWhile tables.isSpace).rdropWhile tables.isSpace =
          first :: more from stripped] at stops
        rw [List.dropWhile_cons_of_neg]
        simpa using stops
  calc tables.strip (tables.strip text)
      = ((tables.strip text).dropWhile tables.isSpace).rdropWhile tables.isSpace := rfl
    _ = (tables.strip text).rdropWhile tables.isSpace := by rw [front]
    _ = tables.strip text := List.rdropWhile_idempotent _ _

/-- A stripped text is settled for good exactly when the whole of it is. -/
theorem Lawful.strip_settle_iff (lawful : tables.Lawful) (text : List κ) :
    tables.strip (tables.settle (tables.strip (tables.settle text))) =
      tables.strip (tables.settle text) ↔
      tables.settle (tables.settle text) = tables.settle text := by
  have plain : ∀ char ∈ tables.settle text, tables.isSpace char = true →
    tables.decomposition char = [char] :=
    fun char member isSpace => lawful.settle_space member isSpace
  have plainFront : ∀ char ∈ (tables.settle text).dropWhile tables.isSpace,
    tables.isSpace char = true →
      tables.decomposition char = [char] :=
    fun char member => plain char ((List.dropWhile_sublist _).mem member)
  rw [lawful.settle_strip (tables.strip _), strip_strip, strip,
    lawful.settled_rdropWhile plainFront, lawful.settled_dropWhile plain]

end Settle

end Tables

end UnicodeText
