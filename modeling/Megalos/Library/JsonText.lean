import Mathlib.Data.List.Basic

/-!
The text of a JSON tree without blanks: what a serializer writes that escapes only
what it must.  Scalars stand for bare tokens.  The text determines the tree.
-/

namespace JsonText

/-- A letter of a bare token: none of the seven that shape a text. -/
def plain (letter : Char) : Bool := letter ∉ ['\x22', ',', ':', '[', ']', '\x7b', '\x7d']

structure Token where
  letters : List Char
  nonempty : letters ≠ []
  bare : ∀ letter ∈ letters, plain letter = true

structure Tokens (σ : Type) where
  token : σ → Token
  separate : ∀ first second, (token first).letters = (token second).letters → first = second

inductive Json (σ : Type) where
  | scalar (value : σ)
  | str (text : String)
  | array (items : List (Json σ))
  | object (entries : List (String × Json σ))

/-- Quotes and backslashes are escaped, and what comes before the blank. -/
def escapeChar (letter : Char) : List Char :=
  if letter = '\x22' then ['\\', '\x22']
  else if letter = '\\' then ['\\', '\\']
  else if letter = '\n' then ['\\', 'n']
  else if letter = '\r' then ['\\', 'r']
  else if letter = '\t' then ['\\', 't']
  else if letter = '\x0c' then ['\\', 'f']
  else if letter = '\x08' then ['\\', 'b']
  else if letter.toNat < 32 then
    ['\\', 'u', '0', '0', Nat.digitChar (letter.toNat / 16), Nat.digitChar (letter.toNat % 16)]
  else [letter]

def quote (text : String) : List Char := '\x22' :: (text.toList.flatMap escapeChar ++ ['\x22'])

/-- The pieces with commas between them, and the closing letter. -/
def join (closing : Char) : List (List Char) → List Char
  | [] => [closing]
  | [piece] => piece ++ [closing]
  | piece :: next :: rest => piece ++ ',' :: join closing (next :: rest)

section Render

variable {σ : Type} (tokens : Tokens σ)

mutual

def render : Json σ → List Char
  | .scalar value => (tokens.token value).letters
  | .str text => quote text
  | .array items => '[' :: join ']' (renderItems items)
  | .object entries => '\x7b' :: join '\x7d' (renderEntries entries)

def renderItems : List (Json σ) → List (List Char)
  | [] => []
  | item :: rest => render item :: renderItems rest

def renderEntries : List (String × Json σ) → List (List Char)
  | [] => []
  | (key, value) :: rest => (quote key ++ ':' :: render value) :: renderEntries rest

end

end Render

section Escape

def hexValue (letter : Char) : Nat :=
    ((List.range 16).find? fun digit => digit.digitChar = letter).getD 0

theorem hexValue_digitChar : ∀ digit < 16, hexValue (Nat.digitChar digit) = digit := by decide

def unescape : List Char → Option (Char × List Char)
  | '\\' :: 'n' :: rest => some ('\n', rest)
  | '\\' :: 'r' :: rest => some ('\r', rest)
  | '\\' :: 't' :: rest => some ('\t', rest)
  | '\\' :: 'f' :: rest => some ('\x0c', rest)
  | '\\' :: 'b' :: rest => some ('\x08', rest)
  | '\\' :: 'u' :: '0' :: '0' :: high :: low :: rest =>
      some (Char.ofNat (16 * hexValue high + hexValue low), rest)
  | '\\' :: letter :: rest => some (letter, rest)
  | letter :: rest => some (letter, rest)
  | [] => none

theorem unescape_escapeChar (letter : Char) (rest : List Char) :
    unescape (escapeChar letter ++ rest) = some (letter, rest) := by
  unfold escapeChar
  split
  case isTrue quotation => simp [unescape, quotation]
  split
  case isTrue backslash => simp [unescape, backslash]
  split
  case isTrue newline => simp [unescape, newline]
  split
  case isTrue carriage => simp [unescape, carriage]
  split
  case isTrue tabulator => simp [unescape, tabulator]
  split
  case isTrue formFeed => simp [unescape, formFeed]
  split
  case isTrue backspace => simp [unescape, backspace]
  split
  case isTrue control =>
    have high := hexValue_digitChar (letter.toNat / 16) (by omega)
    have low := hexValue_digitChar (letter.toNat % 16) (by omega)
    have whole : 16 * (letter.toNat / 16) + letter.toNat % 16 = letter.toNat := by omega
    simp [unescape, high, low, whole]
  case isFalse differs _ _ _ _ _ _ =>
    rw [List.singleton_append]
    unfold unescape
    split <;> simp_all

/-- The escape of the first letter can be told from what follows. -/
theorem escapeChar_append_inj {first second : Char} {rest others : List Char}
    (same : escapeChar first ++ rest = escapeChar second ++ others) : first = second ∧
      rest = others := by
  have read := congrArg unescape same
  rw [unescape_escapeChar, unescape_escapeChar, Option.some.injEq, Prod.mk.injEq] at read
  exact read

theorem escapeChar_head (letter : Char) :
    ∃ head tail, escapeChar letter = head :: tail ∧ head ≠ '\x22' := by
  unfold escapeChar
  by_cases quotation : letter = '\x22'
  · exact ⟨'\\', ['\x22'], by rw [if_pos quotation], by decide⟩
  · rw [if_neg quotation]
    repeat' split
    all_goals first
      | exact ⟨_, _, rfl, by decide⟩
      | exact ⟨_, _, rfl, quotation⟩

theorem quote_append_inj {first second : String} {rest others : List Char}
    (same : quote first ++ rest = quote second ++ others) : first = second ∧ rest = others := by
  have letters : ∀ {left right : List Char},
      left.flatMap escapeChar ++ '\x22' :: rest = right.flatMap escapeChar ++ '\x22' :: others →
        left = right ∧ rest = others := by
    intro left
    induction left with
    | nil =>
        intro right same
        cases right with
        | nil => simpa using same
        | cons letter right =>
            obtain ⟨head, tail, escaped, differs⟩ := escapeChar_head letter
            rw [List.flatMap_cons, escaped] at same
            exact absurd (List.cons.inj same).1.symm differs
    | cons letter left ih =>
        intro right same
        cases right with
        | nil =>
            obtain ⟨head, tail, escaped, differs⟩ := escapeChar_head letter
            rw [List.flatMap_cons, escaped] at same
            exact absurd (List.cons.inj same).1 differs
        | cons other right =>
            rw [List.flatMap_cons, List.flatMap_cons, List.append_assoc, List.append_assoc] at same
            obtain ⟨sameLetter, tails⟩ := escapeChar_append_inj same
            obtain ⟨sameText, sameRest⟩ := ih tails
            exact ⟨by rw [sameLetter, sameText], sameRest⟩
  simp only [quote, List.cons_append, List.append_assoc, List.nil_append, List.cons.injEq,
    true_and] at same
  obtain ⟨sameLetters, sameRest⟩ := letters same
  exact ⟨String.toList_inj.mp sameLetters, sameRest⟩

end Escape

/-! The text determines the tree. -/

section Unique

variable {σ : Type} {tokens : Tokens σ}

def Ends (rest : List Char) : Prop := ∀ letter ∈ rest.head?, plain letter = false

theorem Token.append_inj {first second : Token} {rest others : List Char} (ends : Ends rest)
    (ends' : Ends others) (same : first.letters ++ rest = second.letters ++ others) :
    first.letters = second.letters ∧ rest = others := by
  have cut : ∀ {letters tail : List Char}, (∀ letter ∈ letters, plain letter = true) → Ends tail →
      (letters ++ tail).takeWhile plain = letters := by
    intro letters tail bare stops
    rw [List.takeWhile_append_of_pos bare]
    cases tail with
    | nil => simp
    | cons letter tail =>
        have notPlain : plain letter = false := stops letter (by simp)
        simp [notPlain]
  have front := congrArg (List.takeWhile plain) same
  rw [cut first.bare ends, cut second.bare ends'] at front
  refine ⟨front, ?_⟩
  rw [front] at same
  exact List.append_cancel_left same

/-- The letter that opens a value; `none` for a token. -/
def Json.opening : Json σ → Option Char
  | .scalar _ => none
  | .str _ => some '\x22'
  | .array _ => some '['
  | .object _ => some '\x7b'

theorem render_opening (tokens : Tokens σ) (value : Json σ) :
    ∃ head tail, render tokens value = head :: tail ∧
    value.opening = if plain head then none else some head := by
  cases value with
  | scalar value =>
      obtain ⟨head, tail, letters⟩ := List.exists_cons_of_ne_nil (tokens.token value).nonempty
      have isPlain := (tokens.token value).bare head (by simp [letters])
      exact ⟨head, tail, by rw [render, letters], by simp [Json.opening, isPlain]⟩
  | str text => exact ⟨'\x22', _, by rw [render, quote], rfl⟩
  | array items => exact ⟨'[', _, by rw [render], rfl⟩
  | object entries => exact ⟨'\x7b', _, by rw [render], rfl⟩

theorem opening_eq {first second : Json σ} {rest others : List Char}
    (same : render tokens first ++ rest = render tokens second ++ others) :
    first.opening = second.opening := by
  obtain ⟨head, tail, starts, opens⟩ := render_opening tokens first
  obtain ⟨head', tail', starts', opens'⟩ := render_opening tokens second
  rw [starts, starts'] at same
  rw [opens, opens', (List.cons.inj same).1]

theorem ends_cons {letter : Char} {rest : List Char} (shapes : plain letter = false) :
    Ends (letter :: rest) := by
  intro head isHead
  rw [List.head?_cons, Option.mem_some_iff] at isHead
  rw [← isHead]
  exact shapes

def after (closing : Char) (pieces : List (List Char)) : List Char :=
  match pieces with
  | [] => [closing]
  | next :: rest => ',' :: join closing (next :: rest)

theorem join_cons (closing : Char) (piece : List Char) (rest : List (List Char)) :
    join closing (piece :: rest) = piece ++ after closing rest := by
  cases rest with
  | nil => rfl
  | cons next rest => rfl

theorem ends_after {closing : Char} (shapes : plain closing = false) (pieces : List (List Char))
    (rest : List Char) :
    Ends (after closing pieces ++ rest) := by
  cases pieces with
  | nil => exact ends_cons shapes
  | cons next pieces => exact ends_cons (by decide)

theorem after_inj {closing : Char} {pieces others : List (List Char)} {rest rest' : List Char}
    (isComma : closing ≠ ',') (same : after closing pieces ++ rest = after closing others ++
      rest') :
    pieces = [] ∧ others = [] ∧ rest = rest' ∨
      pieces ≠ [] ∧ others ≠ [] ∧ join closing pieces ++ rest = join closing others ++ rest' := by
  cases pieces with
  | nil =>
      cases others with
      | nil => exact .inl ⟨rfl, rfl, (List.cons.inj same).2⟩
      | cons other others => exact absurd (List.cons.inj same).1 isComma
  | cons piece pieces =>
      cases others with
      | nil => exact absurd (List.cons.inj same).1.symm isComma
      | cons other others => exact .inr ⟨by simp, by simp, (List.cons.inj same).2⟩

theorem render_ne_close {value : Json σ} {rest others : List Char} {closing : Char}
    (closes : closing ∈ [']', '\x7d'])
    (same : closing :: others = render tokens value ++ rest) : False := by
  obtain ⟨head, tail, starts, opens⟩ := render_opening tokens value
  rw [starts] at same
  rw [← (List.cons.inj same).1] at opens
  simp only [List.mem_cons, List.not_mem_nil, or_false] at closes
  rcases closes with rfl | rfl
  all_goals cases value <;> simp [Json.opening, plain] at opens

mutual

theorem render_append_inj :
    (first second : Json σ) → {rest others : List Char} → Ends rest → Ends others →
    render tokens first ++ rest = render tokens second ++ others → first = second ∧ rest = others
  | first, second, rest, others, ends, ends', same => by
      have opens := opening_eq same
      match first, second with
      | .scalar value, .scalar other =>
          simp only [render] at same
          obtain ⟨letters, sameRest⟩ := Token.append_inj ends ends' same
          exact ⟨by rw [tokens.separate value other letters], sameRest⟩
      | .str text, .str other =>
          simp only [render] at same
          obtain ⟨sameText, sameRest⟩ := quote_append_inj same
          exact ⟨by rw [sameText], sameRest⟩
      | .array items, .array others =>
          simp only [render, List.cons_append, List.cons.injEq, true_and] at same
          obtain ⟨sameItems, sameRest⟩ := joinItems_append_inj items others same
          exact ⟨by rw [sameItems], sameRest⟩
      | .object entries, .object others =>
          simp only [render, List.cons_append, List.cons.injEq, true_and] at same
          obtain ⟨sameEntries, sameRest⟩ := joinEntries_append_inj entries others same
          exact ⟨by rw [sameEntries], sameRest⟩
      | .scalar _, .str _ | .scalar _, .array _ | .scalar _, .object _ =>
        simp [Json.opening] at opens
      | .str _, .scalar _ | .str _, .array _ | .str _, .object _ => simp [Json.opening] at opens
      | .array _, .scalar _ | .array _, .str _ | .array _, .object _ => simp [Json.opening] at opens
      | .object _, .scalar _ | .object _, .str _ | .object _, .array _ =>
        simp [Json.opening] at opens

theorem joinItems_append_inj : (items others : List (Json σ)) → {rest rest' : List Char} →
    join ']' (renderItems tokens items) ++ rest = join ']' (renderItems tokens others) ++ rest' →
    items = others ∧ rest = rest'
  | [], [], _, _, same => ⟨rfl, (List.cons.inj same).2⟩
  | [], other :: others, _, _, same => by
      rw [renderItems, renderItems, join_cons, List.append_assoc] at same
      exact (render_ne_close (by simp) same).elim
  | item :: items, [], _, _, same => by
      rw [renderItems, renderItems, join_cons, List.append_assoc] at same
      exact (render_ne_close (by simp) same.symm).elim
  | item :: items, other :: others, _, _, same => by
      rw [renderItems, renderItems, join_cons, join_cons, List.append_assoc,
        List.append_assoc] at same
      obtain ⟨sameItem, tails⟩ := render_append_inj item other (ends_after (by decide) _ _)
        (ends_after (by decide) _ _) same
      rcases after_inj (by decide) tails with ⟨none, none', sameRest⟩ | ⟨-, -, more⟩
      · cases items with
        | nil =>
            cases others with
            | nil => exact ⟨by rw [sameItem], sameRest⟩
            | cons next others => simp [renderItems] at none'
        | cons next items => simp [renderItems] at none
      · obtain ⟨sameItems, sameRest⟩ := joinItems_append_inj items others more
        exact ⟨by rw [sameItem, sameItems], sameRest⟩

theorem joinEntries_append_inj :
    (entries others : List (String × Json σ)) → {rest rest' : List Char} →
    join '\x7d' (renderEntries tokens entries) ++
      rest = join '\x7d' (renderEntries tokens others) ++ rest' →
    entries = others ∧ rest = rest'
  | [], [], _, _, same => ⟨rfl, (List.cons.inj same).2⟩
  | [], (key, value) :: others, _, _, same => by
      simp only [renderEntries, join_cons, join, quote, List.cons_append, List.nil_append] at same
      exact absurd (List.cons.inj same).1 (by decide)
  | (key, value) :: entries, [], _, _, same => by
      simp only [renderEntries, join_cons, join, quote, List.cons_append, List.nil_append] at same
      exact absurd (List.cons.inj same).1 (by decide)
  | (key, value) :: entries, (otherKey, other) :: others, _, _, same => by
      rw [renderEntries, renderEntries, join_cons, join_cons, List.append_assoc, List.append_assoc,
        List.append_assoc, List.append_assoc] at same
      obtain ⟨sameKey, values⟩ := quote_append_inj same
      obtain ⟨sameValue, tails⟩ := render_append_inj value other (ends_after (by decide) _ _)
        (ends_after (by decide) _ _) (List.cons.inj values).2
      rcases after_inj (by decide) tails with ⟨none, none', sameRest⟩ | ⟨-, -, more⟩
      · cases entries with
        | nil =>
            cases others with
            | nil => exact ⟨by rw [sameKey, sameValue], sameRest⟩
            | cons next others => simp [renderEntries] at none'
        | cons next entries => simp [renderEntries] at none
      · obtain ⟨sameEntries, sameRest⟩ := joinEntries_append_inj entries others more
        exact ⟨by rw [sameKey, sameValue, sameEntries], sameRest⟩

end

theorem render_injective : Function.Injective (render tokens) := by
  intro first second same
  have ends : Ends [] := fun letter member => by simp at member
  exact (render_append_inj first second ends ends (by rw [same])).1

end Unique

end JsonText
