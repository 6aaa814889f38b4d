import Megalos.Exported

/-!
The grammar of ref-paths, and the strings that the two checks of `schema.py` accept.
-/

namespace Megalos

open JsonSchema RegularExpression

/-- `[A-Za-z_][A-Za-z0-9_-]*`. -/
def IsIdentifier (letters : List Char) : Prop :=
  ∃ first rest, letters = first :: rest ∧ isSegmentStart first = true ∧ ∀ letter ∈ rest,
    isSegmentLetter letter = true

def refRoot : List Char := ['s', 't', 'e', 'p', '_', 'd', 'a', 't', 'a']

theorem refRoot_dot : "step_data.".toList = refRoot ++ ['.'] := by decide

theorem refRoot_undotted : '.' ∉ refRoot := by decide

theorem refRoot_oneLine : '\n' ∉ refRoot := by decide

/-- `step_data` and the segments, each after a dot. -/
def refPathOf (segments : List (List Char)) : List Char :=
  refRoot ++ (segments.map fun segment => '.' :: segment).flatten

def IsRefPath (letters : List Char) : Prop :=
  ∃ segments, segments ≠ [] ∧ (∀ segment ∈ segments, IsIdentifier segment) ∧
    letters = refPathOf segments

/-- A path of the grammar with a line feed after some of its segments. -/
def IsLineFedPath (letters : List Char) : Prop :=
  ∃ segments, (∃ segment ∈ segments, '\n' ∈ segment) ∧
    (∀ segment ∈ segments, IsIdentifier segment ∨ ∃ identifier, IsIdentifier identifier ∧
      segment = identifier ++ ['\n']) ∧
    letters = refPathOf segments

theorem IsIdentifier.plain {letters : List Char} (identifier : IsIdentifier letters) :
    ∀ letter ∈ letters, isSegmentLetter letter = true := by
  obtain ⟨first, rest, rfl, starts, each⟩ := identifier
  refine List.forall_mem_cons.mpr ⟨?_, each⟩
  simp only [isSegmentStart, Bool.or_eq_true] at starts
  rcases starts with alpha | underscore
  · simp [isSegmentLetter, Char.isAlphanum, alpha]
  · simp [isSegmentLetter, underscore]

theorem IsIdentifier.oneLine {letters : List Char} (identifier : IsIdentifier letters) :
    '\n' ∉ letters := by
  intro line
  exact absurd (identifier.plain _ line) (by decide)

theorem IsIdentifier.undotted {letters : List Char} (identifier : IsIdentifier letters) :
    '.' ∉ letters := by
  intro dot
  exact absurd (identifier.plain _ dot) (by decide)

/-- Python's `$` lets a line feed pass at the end of a segment. -/
theorem isRefSegment_iff {letters : List Char} : isRefSegment (String.ofList letters) = true ↔
    IsIdentifier letters ∨ ∃ identifier, IsIdentifier identifier ∧ letters = identifier ++
      ['\n'] := by
  have shape : isRefSegment (String.ofList letters) = true ↔
    IsIdentifier (beforeFinalNewline letters) := by
    rw [isRefSegment, String.toList_ofList]
    cases beforeFinalNewline letters with
    | nil => simp [IsIdentifier]
    | cons first rest => simp [IsIdentifier]
  rw [shape, beforeFinalNewline]
  by_cases ends : letters.getLast? = some '\n'
  · rw [if_pos ends]
    obtain ⟨front, rfl⟩ := List.getLast?_eq_some_iff.mp ends
    rw [List.dropLast_concat]
    constructor
    · intro identifier
      exact .inr ⟨front, identifier, rfl⟩
    · rintro (identifier | ⟨identifier, isIdentifier, same⟩)
      · exact absurd (by simp) identifier.oneLine
      · rw [List.append_cancel_right same]
        exact isIdentifier
  · rw [if_neg ends]
    constructor
    · exact .inl
    · rintro (identifier | ⟨identifier, -, rfl⟩)
      · exact identifier
      · exact absurd (by simp) ends

theorem isRefSegment_undotted {letters : List Char}
    (segment : isRefSegment (String.ofList letters) = true) :
    '.' ∉ letters := by
  rcases isRefSegment_iff.mp segment with identifier | ⟨identifier, isIdentifier, rfl⟩
  · exact identifier.undotted
  · simpa using isIdentifier.undotted

theorem splitDots_plain {letters : List Char} (plain : '.' ∉ letters) :
    splitDots letters = [letters] := by
  induction letters with
  | nil => rfl
  | cons letter rest ih =>
      simp only [List.mem_cons, not_or] at plain
      rw [splitDots, if_neg (Ne.symm plain.1), ih plain.2]

theorem splitDots_segments {segments : List (List Char)}
    (undotted : ∀ segment ∈ segments, '.' ∉ segment) {first : List Char} (plain : '.' ∉ first) :
    splitDots (first ++ (segments.map fun segment => '.' :: segment).flatten) =
      first :: segments := by
  induction segments generalizing first with
  | nil =>
      simp only [List.map_nil, List.flatten_nil, List.append_nil]
      exact splitDots_plain plain
  | cons segment rest ih =>
      rw [List.forall_mem_cons] at undotted
      simp only [List.map_cons, List.flatten_cons, List.cons_append]
      rw [splitDots_dot plain, ih undotted.2 undotted.1]

theorem isValidRefPath_iff {ref : String} : isValidRefPath ref = true ↔
    ∃ segments, segments ≠ [] ∧
      (∀ segment ∈ segments, isRefSegment (String.ofList segment) = true) ∧
      ref.toList = refPathOf segments := by
  simp only [isValidRefPath, Bool.and_eq_true, List.isPrefixOf_iff_prefix, splitPath]
  constructor
  · rintro ⟨⟨later, same⟩, parts⟩
    rw [← same, refRoot_dot, List.append_assoc, List.singleton_append,
      splitDots_dot refRoot_undotted, List.map_cons] at parts
    cases split : splitDots later with
    | nil => exact absurd split (splitDots_ne_nil later)
    | cons segment rest =>
        rw [split, List.map_cons] at parts
        refine ⟨segment :: rest, by simp, ?_, ?_⟩
        · simpa using parts
        · rw [← same, refRoot_dot, splitDots_join split]
          simp [refPathOf]
  · rintro ⟨segments, nonempty, each, same⟩
    have parts : splitDots ref.toList = refRoot :: segments := by
      rw [same, refPathOf, splitDots_segments _ refRoot_undotted]
      intro segment member
      exact isRefSegment_undotted (each segment member)
    cases segments with
    | nil => exact absurd rfl nonempty
    | cons segment rest =>
        constructor
        · rw [same, refRoot_dot]
          exact ⟨segment ++ (rest.map fun part => '.' :: part).flatten, by simp [refPathOf]⟩
        · rw [parts]
          simpa using each

theorem IsRefPath.oneLine {letters : List Char} (path : IsRefPath letters) : '\n' ∉ letters := by
  obtain ⟨segments, -, identifiers, rfl⟩ := path
  simp only [refPathOf, List.mem_append, List.mem_flatten, List.mem_map]
  rintro (prefixed | ⟨part, ⟨segment, member, rfl⟩, line⟩)
  · exact refRoot_oneLine prefixed
  · rcases List.mem_cons.mp line with dot | inSegment
    · exact absurd dot (by decide)
    · exact (identifiers segment member).oneLine inSegment

theorem IsLineFedPath.line {letters : List Char} (fed : IsLineFedPath letters) :
    '\n' ∈ letters := by
  obtain ⟨segments, ⟨segment, member, line⟩, -, rfl⟩ := fed
  refine List.mem_append_right _ (List.mem_flatten.mpr ⟨_, List.mem_map_of_mem member, ?_⟩)
  exact List.mem_cons_of_mem _ line

theorem isValidRefPath_grammar {ref : String} :
    isValidRefPath ref = true ↔ IsRefPath ref.toList ∨ IsLineFedPath ref.toList := by
  rw [isValidRefPath_iff]
  constructor
  · rintro ⟨segments, nonempty, each, same⟩
    by_cases fed : ∃ segment ∈ segments, '\n' ∈ segment
    · exact .inr ⟨segments, fed, fun segment member => isRefSegment_iff.mp (each segment member),
        same⟩
    · refine .inl ⟨segments, nonempty, ?_, same⟩
      intro segment member
      rcases isRefSegment_iff.mp (each segment member) with identifier | ⟨identifier, -, rfl⟩
      · exact identifier
      · exact absurd ⟨_, member, by simp⟩ fed
  · rintro (⟨segments, nonempty, identifiers, same⟩ | ⟨segments, ⟨segment, member, -⟩, each, same⟩)
    · exact ⟨segments, nonempty, fun segment member =>
        isRefSegment_iff.mpr (.inl (identifiers segment member)), same⟩
    · exact ⟨segments, List.ne_nil_of_mem member, fun segment member =>
        isRefSegment_iff.mpr (each segment member), same⟩

theorem segment_identifier {letters : List Char} :
    segmentExpression.rmatch letters = true ↔ IsIdentifier letters := by
  rw [segment_rmatch]
  simp [IsIdentifier, List.all_eq_true]

/-- The pattern that the exported schema has for refs is the grammar. -/
theorem refPathExpression_grammar {letters : List Char} :
    refPathExpression.rmatch letters = true ↔ IsRefPath letters := by
  simp only [refPathExpression, mul_rmatch_iff, exactly_rmatch, star_rmatch_iff, refRoot_dot,
    segment_identifier]
  constructor
  · rintro ⟨-, -, rfl, ⟨-, first, rfl, rfl, identifier⟩, parts, rfl, each⟩
    have tails : (parts.map List.tail).map (fun segment => '.' :: segment) = parts := by
      rw [List.map_map]
      conv_rhs => rw [← List.map_id parts]
      apply List.map_congr_left
      intro part member
      obtain ⟨-, -, later, rfl, rfl, -⟩ := each part member
      rfl
    refine ⟨first :: parts.map List.tail, by simp, ?_, ?_⟩
    · rw [List.forall_mem_cons, List.forall_mem_map]
      refine ⟨identifier, ?_⟩
      intro part member
      obtain ⟨-, -, later, rfl, rfl, isIdentifier⟩ := each part member
      exact isIdentifier
    · rw [refPathOf, List.map_cons, tails]
      simp
  · rintro ⟨segments, nonempty, identifiers, rfl⟩
    cases segments with
    | nil => exact absurd rfl nonempty
    | cons first rest =>
        rw [List.forall_mem_cons] at identifiers
        refine ⟨refRoot ++ ['.'] ++ first, _, ?_, ⟨_, first, rfl, rfl, identifiers.1⟩,
          rest.map fun segment => '.' :: segment, rfl, ?_⟩
        · simp [refPathOf]
        · intro part member
          obtain ⟨segment, isSegment, rfl⟩ := List.mem_map.mp member
          exact ⟨by simp, ['.'], segment, rfl, rfl, identifiers.2 segment isSegment⟩

/-! The strings of an `args` tree. -/

/-- A path between `${` and `}`. -/
def IsMarked (path : List Char → Prop) (letters : List Char) : Prop :=
  ∃ inner, path inner ∧ letters = '$' :: '\x7b' :: (inner ++ ['\x7d'])

theorem isValidRefPath_unclosed {ref : String} (valid : isValidRefPath ref = true) :
    '\x7d' ∉ ref.toList := by
  obtain ⟨segments, -, each, same⟩ := isValidRefPath_iff.mp valid
  rw [same, refPathOf, List.mem_append, List.mem_flatten]
  rintro (inRoot | ⟨part, isPart, closing⟩)
  · exact absurd inRoot (by decide)
  obtain ⟨segment, member, rfl⟩ := List.mem_map.mp isPart
  rcases List.mem_cons.mp closing with isDot | inSegment
  · exact absurd isDot (by decide)
  rcases isRefSegment_iff.mp (each segment member) with identifier | ⟨identifier, isIdentifier, rfl⟩
  · exact absurd (identifier.plain _ inSegment) (by decide)
  · rcases List.mem_append.mp inSegment with inIdentifier | isLine
    · exact absurd (isIdentifier.plain _ inIdentifier) (by decide)
    · exact absurd isLine (by decide)

theorem isValidRefPath_body {ref : String} (valid : isValidRefPath ref = true) :
    ∃ later, later ≠ [] ∧ ref.toList = refRoot ++ '.' :: later := by
  obtain ⟨segments, nonempty, each, same⟩ := isValidRefPath_iff.mp valid
  cases segments with
  | nil => exact absurd rfl nonempty
  | cons first rest =>
      refine ⟨first ++ (rest.map fun segment => '.' :: segment).flatten, ?_,
        by rw [same]; simp [refPathOf]⟩
      intro empty
      rw [List.append_eq_nil_iff] at empty
      have segment := each first (by simp)
      rw [empty.1] at segment
      exact absurd segment (by decide)

theorem refBody_marked {inner : List Char} {text : String}
    (same : text.toList = '$' :: '\x7b' :: (inner ++ ['\x7d'])) :
    refBody text = String.ofList inner := by
  simp [refBody, same]

/-- A string of the tree that has `${` passes its check when it is one accepted path between the
marks. -/
theorem validateMcpArgValue_nil {env : Env} {label path text : String}
    (marked : hasInterpolation (.str text) = true) :
    validateMcpArgValue env label path (.str text) = [] ↔
      isRefString text = true ∧ isValidRefPath (refBody text) = true := by
  simp only [validateMcpArgValue, marked, Bool.not_true, Bool.false_eq_true, if_false]
  cases isRefString text with
  | false => simp
  | true => cases isValidRefPath (refBody text) <;> simp

theorem validateMcpArgValue_marked {env : Env} {label path text : String}
    (marked : hasInterpolation (.str text) = true) :
    validateMcpArgValue env label path (.str text) = [] ↔
      IsMarked (fun letters => isValidRefPath (String.ofList letters) = true) text.toList := by
  rw [validateMcpArgValue_nil marked]
  constructor
  · rintro ⟨isRef, valid⟩
    have unclosed := isValidRefPath_unclosed valid
    obtain ⟨letters, isLetters⟩ : ∃ letters, beforeFinalNewline text.toList = letters := ⟨_, rfl⟩
    simp only [isRefString, isLetters, Bool.and_eq_true, List.isPrefixOf_iff_prefix, beq_iff_eq,
      decide_eq_true_eq] at isRef
    obtain ⟨⟨⟨⟨⟨rest, opening⟩, closing⟩, long⟩, -⟩, -⟩ := isRef
    rw [beforeFinalNewline] at isLetters
    by_cases ends : text.toList.getLast? = some '\n'
    · -- the line feed after the closing brace is let through, and the brace then falls into the path
      obtain ⟨front, same⟩ := List.getLast?_eq_some_iff.mp ends
      rw [if_pos ends, same, List.dropLast_concat] at isLetters
      obtain ⟨path, isPath⟩ := List.getLast?_eq_some_iff.mp closing
      rw [← isLetters] at isPath long
      rw [isPath] at same long
      rw [List.length_append, List.length_singleton] at long
      refine absurd ?_ unclosed
      rw [refBody, String.toList_ofList, same, List.append_assoc,
        List.drop_append_of_le_length (by omega)]
      simp
    · rw [if_neg ends] at isLetters
      rw [← isLetters] at opening closing
      have opened : text.toList = '$' :: '\x7b' :: (refRoot ++ '.' :: rest) := opening.symm
      have last : (refRoot ++ '.' :: rest).getLast? = some '\x7d' := by
        rw [opened, List.getLast?_cons_cons] at closing
        rw [← closing]
        rfl
      obtain ⟨inner, same⟩ := List.getLast?_eq_some_iff.mp last
      rw [same] at opened
      rw [refBody_marked opened] at valid
      exact ⟨inner, valid, opened⟩
  · rintro ⟨inner, valid, same⟩
    rw [refBody_marked same]
    refine ⟨?_, valid⟩
    obtain ⟨later, nonempty, body⟩ := isValidRefPath_body valid
    have unclosed := isValidRefPath_unclosed valid
    rw [String.toList_ofList] at body unclosed
    have opened : text.toList = "$\x7bstep_data.".toList ++ (later ++ ['\x7d']) := by
      rw [same, body, List.append_assoc]
      rfl
    have noLine : beforeFinalNewline text.toList = text.toList := by
      rw [beforeFinalNewline, if_neg]
      rw [opened, ← List.append_assoc, List.getLast?_concat]
      decide
    have within : (text.toList.drop 12).dropLast = later := by
      rw [opened, List.drop_left' (by decide), List.dropLast_concat]
    simp only [isRefString, noLine, within, Bool.and_eq_true, List.isPrefixOf_iff_prefix,
      beq_iff_eq, decide_eq_true_eq]
    refine ⟨⟨⟨⟨⟨_, opened.symm⟩, ?_⟩, ?_⟩, ?_⟩, ?_⟩
    · rw [opened, ← List.append_assoc, List.getLast?_concat]
    · rw [opened, List.length_append, List.length_append, List.length_singleton,
        show "$\x7bstep_data.".toList.length = 12 by decide]
      omega
    · simpa using nonempty
    · have outside : '\x7d' ∉ later := by
        intro closing
        exact unclosed (by rw [body]; simp [closing])
      simpa using outside

/-- The two checks against the documented grammar: they accept the paths of the grammar, and those
that have a line feed after a segment. -/
theorem refGrammar_exact_iff (ref : String) (env : Env) (label path text : String) :
    ((isValidRefPath ref = true ↔ IsRefPath ref.toList) ↔ ¬IsLineFedPath ref.toList) ∧
      (hasInterpolation (.str text) = true →
        ((validateMcpArgValue env label path (.str text) = [] ↔ IsMarked IsRefPath text.toList) ↔
          ¬IsMarked IsLineFedPath text.toList)) := by
  constructor
  · rw [isValidRefPath_grammar]
    constructor
    · intro exact_ fed
      exact (exact_.mp (.inr fed)).oneLine fed.line
    · intro unfed
      simp [unfed]
  · intro marked
    rw [validateMcpArgValue_marked marked]
    simp only [IsMarked, isValidRefPath_grammar, String.toList_ofList]
    constructor
    · rintro exact_ ⟨inner, fed, same⟩
      obtain ⟨other, isPath, again⟩ := exact_.mp ⟨inner, .inr fed, same⟩
      rw [same] at again
      have equal : inner = other := by simpa using again
      exact isPath.oneLine (equal ▸ fed.line)
    · intro unfed
      constructor
      · rintro ⟨inner, isPath | fed, same⟩
        · exact ⟨inner, isPath, same⟩
        · exact absurd ⟨inner, fed, same⟩ unfed
      · rintro ⟨inner, isPath, same⟩
        exact ⟨inner, .inl isPath, same⟩

theorem marked_plain : validateMcpArgValue sampleEnv "a" ".x" (.str "$\x7bstep_data.a\x7d") = [] ↔
    IsMarked IsRefPath "$\x7bstep_data.a\x7d".toList := by
  refine ((refGrammar_exact_iff "step_data.a" sampleEnv "a" ".x" _).2 (by decide)).mpr ?_
  rintro ⟨inner, fed, same⟩
  have line : '\n' ∈ "$\x7bstep_data.a\x7d".toList := by
    rw [same]
    simp [fed.line]
  exact absurd line (by decide)

/-- `step_data.a` and a line feed is accepted, bare and between the marks. -/
theorem not_always_exact : (¬∀ ref : String, isValidRefPath ref = true ↔ IsRefPath ref.toList) ∧
    ¬∀ (env : Env) (label path text : String), hasInterpolation (.str text) = true →
      (validateMcpArgValue env label path (.str text) = [] ↔ IsMarked IsRefPath text.toList) := by
  constructor
  · intro always
    have path := (always "step_data.a\n").mp (by decide)
    exact path.oneLine (by decide)
  · intro always
    obtain ⟨inner, path, same⟩ :=
      (always sampleEnv "a" ".x" "$\x7bstep_data.a\n\x7d" (by decide)).mp (by decide)
    have line : '\n' ∈ '$' :: '\x7b' :: (inner ++ ['\x7d']) := by
      rw [← same]
      decide
    simp only [List.mem_cons, List.mem_append, List.not_mem_nil, or_false] at line
    rcases line with dollar | opening | inside | closing
    · exact absurd dollar (by decide)
    · exact absurd opening (by decide)
    · exact path.oneLine inside
    · exact absurd closing (by decide)

end Megalos
