import Megalos.Library.ComposedText
import Megalos.Store

/-!
The canonical form of session ids (`session_canon.py`), and when it is its own
canonical form.
-/

namespace Megalos

open UnicodeText

def normalizeSessionId (tables : Tables Char) (sid : String) : String :=
  String.ofList (tables.strip (tables.casefold (tables.nfc sid.toList)))

/-- The folded characters are a text in NFC, but for characters that case folding takes apart. -/
def FoldsComposed (tables : Tables Char) (composed : List Char) : Prop :=
  ∃ whole, tables.nfc whole = whole ∧ tables.SpellsOut whole (tables.casefold composed)

theorem normalizeSessionId_idempotent_iff {tables : Tables Char} (lawful : tables.Lawful)
    (cased : tables.Cased) (sid : String) :
    normalizeSessionId tables (normalizeSessionId tables sid) = normalizeSessionId tables sid ↔
      FoldsComposed tables (tables.nfc sid.toList) := by
  have folded : ∀ char ∈ tables.settle sid.toList, tables.folding char = [char] := by
    intro char member
    obtain ⟨origin, -, fold⟩ := List.mem_flatMap.mp member
    exact cased.folding_folded fold
  unfold normalizeSessionId FoldsComposed
  rw [String.toList_ofList, String.ofList_inj]
  exact (lawful.strip_settle_iff sid.toList).trans (cased.casefold_nfc_iff lawful folded)

/-- The part of the tables that is about three letters and two accents. -/
def latinTables : Tables Char where
  decomposition char :=
    if char = 'ś' then ['s', '\u0301'] else if char = 'Ś' then ['S', '\u0301']
    else if char = 'ǰ' then ['j', '\u030C'] else [char]
  combiningClass char := if char = '\u0301' ∨ char = '\u030C' then 230 else 0
  composite first second :=
    if first = 's' ∧ second = '\u0301' then some 'ś'
    else if first = 'S' ∧ second = '\u0301' then some 'Ś'
    else if first = 'j' ∧ second = '\u030C' then some 'ǰ' else none
  folding char :=
    if char = 'ſ' ∨ char = 'S' then ['s'] else if char = 'Ś' then ['ś']
    else if char = 'J' then ['j'] else if char = 'ǰ' then ['j', '\u030C'] else [char]
  isSpace char := char.isWhitespace

theorem latin_letters {first : Char} {parts rest : List Char} (same : parts = first :: rest)
    (letter : latinTables.isSpace first = false)
    (letters : ∀ part ∈ rest, latinTables.isSpace part = false) :
    parts ≠ [] ∧ ∀ part ∈ parts, latinTables.isSpace part = false := by
  rw [same]
  exact ⟨List.cons_ne_nil _ _, List.forall_mem_cons.mpr ⟨letter, letters⟩⟩

theorem latin_composite {first second composite : Char}
    (composes : latinTables.composite first second = some composite) :
    (first, second, composite) ∈ [('s', '\u0301', 'ś'), ('S', '\u0301', 'Ś'),
      ('j', '\u030C', 'ǰ')] := by
  simp only [latinTables] at composes
  grind

theorem latinTables_lawful : latinTables.Lawful where
  decomposed := by
    intro char part member
    simp only [latinTables] at member ⊢
    grind
  space_decomposition := by
    intro char isSpace
    simp only [latinTables, Char.isWhitespace] at isSpace ⊢
    grind
  letter_decomposition := by
    intro char letter
    by_cases small : char = 'ś'
    · subst small
      exact latin_letters rfl rfl (by simp [latinTables, Char.isWhitespace])
    by_cases capital : char = 'Ś'
    · subst capital
      exact latin_letters rfl rfl (by simp [latinTables, Char.isWhitespace])
    by_cases caron : char = 'ǰ'
    · subst caron
      exact latin_letters rfl rfl (by simp [latinTables, Char.isWhitespace])
    have same : latinTables.decomposition char = [char] := by
      simp only [latinTables, if_neg small, if_neg capital, if_neg caron]
    exact latin_letters same letter (by simp)
  space_starter := by
    intro char isSpace
    simp only [latinTables, Char.isWhitespace] at isSpace ⊢
    grind
  composite_letters := by
    intro first second composite composes
    have listed := latin_composite composes
    simp only [List.mem_cons, List.not_mem_nil, or_false, Prod.mk.injEq] at listed
    rcases listed with ⟨rfl, rfl, rfl⟩ | ⟨rfl, rfl, rfl⟩ | ⟨rfl, rfl, rfl⟩ <;> decide
  space_folding := by
    intro char isSpace
    simp only [latinTables, Char.isWhitespace] at isSpace ⊢
    grind
  letter_folding := by
    intro char letter
    by_cases plain : char = 'ſ' ∨ char = 'S'
    · rcases plain with rfl | rfl <;> exact latin_letters rfl rfl (by simp)
    by_cases capital : char = 'Ś' ∨ char = 'J'
    · rcases capital with rfl | rfl <;> exact latin_letters rfl rfl (by simp)
    by_cases caron : char = 'ǰ'
    · subst caron
      exact latin_letters rfl rfl (by simp [latinTables, Char.isWhitespace])
    rw [not_or] at capital
    have same : latinTables.folding char = [char] := by
      simp only [latinTables, if_neg plain, if_neg capital.1, if_neg capital.2, if_neg caron]
    exact latin_letters same letter (by simp)

theorem latinTables_cased : latinTables.Cased where
  composite_decomposition := by
    intro first second composite composes
    have listed := latin_composite composes
    simp only [List.mem_cons, List.not_mem_nil, or_false, Prod.mk.injEq] at listed
    rcases listed with ⟨rfl, rfl, rfl⟩ | ⟨rfl, rfl, rfl⟩ | ⟨rfl, rfl, rfl⟩ <;> decide
  folding_folded := by
    intro char part member
    simp only [latinTables] at member ⊢
    grind
  folded_parts := by
    intro char part folded member
    simp only [latinTables] at folded member ⊢
    grind
  folded_composite := by
    intro first second composite composes parts
    have listed := latin_composite composes
    simp only [List.mem_cons, List.not_mem_nil, or_false, Prod.mk.injEq] at listed
    rcases listed with ⟨rfl, rfl, rfl⟩ | ⟨rfl, rfl, rfl⟩ | ⟨rfl, rfl, rfl⟩
    · decide
    · exact absurd (parts 'S' (by decide)) (by decide)
    · decide

/-- A capital with a caron has no composite, and the small letter has one that folding takes apart.
-/
theorem capitalJ_idempotent :
    normalizeSessionId latinTables (normalizeSessionId latinTables " J\u030C\t") =
      normalizeSessionId latinTables " J\u030C\t" :=
  (normalizeSessionId_idempotent_iff latinTables_lawful latinTables_cased " J\u030C\t").mpr
    ⟨[' ', 'ǰ', '\t'], by decide, .kept (by decide) (.apart (by decide) (.kept (by decide) .nil))⟩

/-- The long s with an acute accent has no composite, but the s it folds to has one. -/
theorem longS_not_idempotent :
    normalizeSessionId latinTables "ſ\u0301" = "s\u0301" ∧
      normalizeSessionId latinTables "s\u0301" = "ś" ∧
      normalizeSessionId latinTables (normalizeSessionId latinTables "ſ\u0301") ≠
        normalizeSessionId latinTables "ſ\u0301" := by
  refine ⟨?_, ?_, ?_⟩
  · decide +kernel
  · decide +kernel
  · decide +kernel

end Megalos
