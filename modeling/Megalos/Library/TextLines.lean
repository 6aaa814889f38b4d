import Mathlib.Data.List.Infix

/-!
Texts read line by line, each line with the newline that ends it, and what is left of
the lines when the text is cut off.
-/

namespace TextLines

def universalNewlines : List Char → List Char
  | [] => []
  | '\r' :: '\n' :: rest => '\n' :: universalNewlines rest
  | letter :: rest => (if letter = '\r' then '\n' else letter) :: universalNewlines rest

def splitLines : List Char → List (List Char)
  | [] => []
  | letter :: rest =>
      if letter = '\n' then [letter] :: splitLines rest
      else
        match splitLines rest with
        | [] => [[letter]]
        | line :: others => (letter :: line) :: others

def closed (piece : List Char) : List Char := piece ++ ['\n']

variable {piece part text rest : List Char} {pieces : List (List Char)}

theorem universalNewlines_eq (absent : '\r' ∉ text) : universalNewlines text = text := by
  fun_induction universalNewlines text with
  | case1 => rfl
  | case2 rest ih => exact absurd List.mem_cons_self absent
  | case3 letter rest _ ih =>
      rw [List.mem_cons, not_or] at absent
      rw [if_neg (Ne.symm absent.1), ih absent.2]

theorem splitLines_closed (oneLine : '\n' ∉ piece) :
    splitLines (closed piece ++ rest) = closed piece :: splitLines rest := by
  induction piece with
  | nil => simp [closed, splitLines]
  | cons letter piece ih =>
      rw [List.mem_cons, not_or] at oneLine
      have later := ih oneLine.2
      rw [closed] at later ⊢
      rw [List.cons_append, List.cons_append, splitLines, if_neg (Ne.symm oneLine.1), later]

theorem splitLines_open (oneLine : '\n' ∉ piece) (some : piece ≠ []) :
    splitLines piece = [piece] := by
  induction piece with
  | nil => exact absurd rfl some
  | cons letter piece ih =>
      rw [List.mem_cons, not_or] at oneLine
      rw [splitLines, if_neg (Ne.symm oneLine.1)]
      cases piece with
      | nil => rfl
      | cons next piece => rw [ih oneLine.2 (List.cons_ne_nil next piece)]

theorem splitLines_pieces (oneLine : ∀ piece ∈ pieces, '\n' ∉ piece) :
    splitLines (pieces.flatMap closed ++ rest) = pieces.map closed ++ splitLines rest := by
  induction pieces with
  | nil => rfl
  | cons piece pieces ih =>
      rw [List.flatMap_cons, List.append_assoc,
        splitLines_closed (oneLine piece List.mem_cons_self), ih fun other member =>
          oneLine other (List.mem_cons_of_mem piece member), List.map_cons, List.cons_append]

/-- What is left of lines that are cut off: the first of them, and the start of the next. -/
theorem prefix_pieces (cut : part <+: pieces.flatMap closed) :
    ∃ count tail, part = (pieces.take count).flatMap closed ++ tail ∧
      (count = pieces.length ∧ tail = [] ∨ ∃ piece, pieces[count]? = some piece ∧ tail <+: piece) :=
        by
  induction pieces generalizing part with
  | nil =>
      have none : part = [] := List.prefix_nil.mp cut
      exact ⟨0, [], none, .inl ⟨rfl, rfl⟩⟩
  | cons piece pieces ih =>
      rw [List.flatMap_cons] at cut
      by_cases whole : closed piece <+: part
      · obtain ⟨more, rfl⟩ := whole
        obtain ⟨count, tail, same, ends⟩ :=
          ih ((List.prefix_append_right_inj (closed piece)).mp cut)
        refine ⟨count + 1, tail, ?_, ?_⟩
        · rw [List.take_succ_cons, List.flatMap_cons, List.append_assoc, ← same]
        · rcases ends with ⟨all, none⟩ | ⟨next, there, starts⟩
          · exact .inl ⟨by rw [all, List.length_cons], none⟩
          · exact .inr ⟨next, by rw [List.getElem?_cons_succ, there], starts⟩
      · refine ⟨0, part, rfl, .inr ⟨piece, rfl, ?_⟩⟩
        have within : part <+: closed piece :=
          (List.prefix_or_prefix_of_prefix cut (List.prefix_append (closed piece) _)).resolve_right whole
        rcases List.prefix_concat_iff.mp within with same | starts
        · exact absurd (same ▸ List.prefix_rfl) whole
        · exact starts

end TextLines
