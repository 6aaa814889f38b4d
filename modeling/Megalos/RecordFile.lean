import Mathlib.Data.List.DropRight
import Megalos.Library.TextLines
import Megalos.Sample

/-!
The record file of a panel run: what the writer leaves in it, and what the reader finds
in it when the run was cut off at any letter.
-/

namespace Megalos

open KeyedTable TextLines

def schemaLine : Val := .obj [("schema_version", .str "1")]

def recordText (env : Env) (record : Val) : List Char := (env.dumps record).toList

def recordLine (env : Env) (record : Val) : List Char := closed (recordText env record)

/-! The writer. -/

/-- `RecordWriter`, with the files of the disk. -/
structure RecordWriter where
  runDir : String
  path : Option String
  /-- The path that the open file was opened under. -/
  handle : Option String
  files : Dict (List Char)

namespace RecordWriter

def pathAt (writer : RecordWriter) (timestamp : String) : String :=
    writer.runDir ++ "/" ++ timestamp ++ ".jsonl"

/-- `__enter__`: an older file of the same name is emptied. -/
def enter (env : Env) (writer : RecordWriter) (timestamp : String) : RecordWriter :=
  { writer with
    path := some (writer.pathAt timestamp)
    handle := some (writer.pathAt timestamp)
    files := writer.files.set (writer.pathAt timestamp) (recordLine env schemaLine) }

def write (env : Env) (writer : RecordWriter) (record : Val) : Except Exn RecordWriter :=
  match writer.handle with
  | none => .error (.uncaught "RuntimeError" "RecordWriter.write() called outside context manager")
  | some path =>
      .ok { writer with files :=
        writer.files.set path (writer.files.getD path [] ++ recordLine env record) }

/-- `__exit__`. -/
def leave (writer : RecordWriter) : RecordWriter := { writer with handle := none }

def writeAll (env : Env) : RecordWriter → List Val → Except Exn RecordWriter
  | writer, [] => .ok writer
  | writer, record :: rest =>
      match writer.write env record with
      | .ok written => written.writeAll env rest
      | .error exn => .error exn

end RecordWriter

/-- What the file of a run holds in the end. -/
def recordFile (env : Env) (records : List Val) : List Char :=
  ((schemaLine :: records).map (recordText env)).flatMap closed

/-! The reader. -/

inductive RecordEnding where
  | finished
  | jsonDecodeError (message : String)
  | recordFormatError (message : String)
  | uncaught (raised : Exn)

/-- `for line in fh`: the records yielded, and how the iteration ends. -/
def yieldRecords (env : Env) (isSpace : Char → Bool) : List (List Char) → List Val × RecordEnding
  | [] => ([], .finished)
  | line :: rest =>
      if line.all isSpace then yieldRecords env isSpace rest
      else
        match env.tryLoads (String.ofList line) with
        | .error raised => ([], .uncaught raised)
        | .ok (.error message) => ([], .jsonDecodeError message)
        | .ok (.ok record) =>
          (record :: (yieldRecords env isSpace rest).1, (yieldRecords env isSpace rest).2)

/-- `RecordReader.__iter__`. -/
def readRecords (env : Env) (isSpace : Char → Bool) (path : String) (text : List Char) :
    List Val × RecordEnding :=
  match splitLines (universalNewlines text) with
  | [] => ([], .recordFormatError ("record file " ++ path ++
    " is empty; expected schema_version line"))
  | first :: rest =>
      match env.tryLoads (String.ofList first) with
      | .error raised => ([], .uncaught raised)
      | .ok (.error message) =>
          ([], .recordFormatError ("record file " ++ path ++ " line 1 is not valid JSON: " ++
            message))
      | .ok (.ok header) =>
          if header.pyEq schemaLine then yieldRecords env isSpace rest
          else
            ([], .recordFormatError ("record file " ++ path ++
              " line 1 schema mismatch: expected " ++
              env.pyRepr schemaLine ++ ", got " ++ env.pyRepr header))

/-- `json.dumps` of a dict: one line of printable letters that `json.loads` reads back, and no
shorter part of it. -/
structure JsonLine (env : Env) (record : Val) : Prop where
  opening : (recordText env record).head? = some '\x7b'
  noNewline : '\n' ∉ recordText env record
  noReturn : '\r' ∉ recordText env record
  text : env.loads (String.ofList (recordText env record)) = .ok record
  line : env.loads (String.ofList (recordLine env record)) = .ok record
  part : ∀ part, part <+: recordText env record → part ≠ recordText env record →
    ∃ message, env.loads (String.ofList part) = .error (.decodeError message)

/-- What is read when the file holds only a part of what was written. -/
inductive Recovered (env : Env) (records : List Val) (part : List Char) : List Val × RecordEnding →
    Prop
  | headless {message : String} (starts : part <+: recordText env schemaLine)
      (short : part ≠ recordText env schemaLine) :
      Recovered env records part ([], .recordFormatError message)
  | whole {count : Nat} (bound : count ≤ records.length)
      (ends : part = recordFile env (records.take count) ∨
        closed part = recordFile env (records.take count)) :
      Recovered env records part (records.take count, .finished)
  | torn {count : Nat} {record : Val} {tail : List Char} {message : String}
      (next : records[count]? = some record)
      (some : tail ≠ []) (starts : tail <+: recordText env record)
      (short : tail ≠ recordText env record)
      (ends : part = recordFile env (records.take count) ++ tail) :
      Recovered env records part (records.take count, .jsonDecodeError message)

variable {env : Env} {isSpace : Char → Bool} {path timestamp : String} {record : Val}
  {records : List Val} {part tail text : List Char} {rest : List (List Char)}
  {writer : RecordWriter}

/-! What is in the file. -/

theorem recordFile_eq :
    recordFile env records = recordLine env schemaLine ++ records.flatMap (recordLine env) := by
  unfold recordFile
  rw [List.map_cons, List.flatMap_cons, List.flatMap_map]
  rfl

theorem recordFile_snoc (record : Val) :
    recordFile env (records ++ [record]) = recordFile env records ++ recordLine env record := by
  rw [recordFile_eq, recordFile_eq, List.flatMap_append, List.flatMap_singleton, List.append_assoc]

theorem RecordWriter.writeAll_files (isOpen : writer.handle = some path)
    (holds : writer.files.get? path = some text) :
    ∃ after, writer.writeAll env records = .ok after ∧
      after.files.get? path = some (text ++ records.flatMap (recordLine env)) ∧
      ∀ other, other ≠ path → after.files.get? other = writer.files.get? other := by
  induction records generalizing writer text with
  | nil => exact ⟨writer, rfl, by rw [List.flatMap_nil, List.append_nil, holds], fun _ _ => rfl⟩
  | cons record records ih =>
      let written : RecordWriter :=
        { writer with files := writer.files.set path (text ++ recordLine env record) }
      have wrote : writer.write env record = .ok written := by
        simp only [write, isOpen, Dict.getD, holds, Option.getD_some, written]
      obtain ⟨after, ran, found, others⟩ :=
        @ih (text ++ recordLine env record) written isOpen (by simp [written])
      refine ⟨after, ?_, ?_, fun other apart => ?_⟩
      · rw [writeAll, wrote]
        exact ran
      · rw [found, List.flatMap_cons, List.append_assoc]
      · rw [others other apart]
        simp [written, apart]

/-! What the reader makes of it. -/

theorem JsonLine.not_blank (json : JsonLine env record) (brace : isSpace '\x7b' = false)
    (starts : tail <+: recordLine env record) (some : tail ≠ []) : tail.all isSpace = false := by
  obtain ⟨letter, others, rfl⟩ := List.exists_cons_of_ne_nil some
  obtain ⟨more, same⟩ := starts
  have opens := json.opening
  cases shown : recordText env record with
  | nil =>
      rw [shown] at opens
      cases opens
  | cons first following =>
      rw [shown, List.head?_cons, Option.some.injEq] at opens
      rw [recordLine, shown, closed, List.cons_append, List.cons_append, List.cons.injEq] at same
      rw [List.all_cons, same.1, opens, brace, Bool.false_and]

theorem yieldRecords_record {line : List Char} (blank : line.all isSpace = false)
    (loads : env.loads (String.ofList line) = .ok record) :
    yieldRecords env isSpace (line :: rest) =
      (record :: (yieldRecords env isSpace rest).1, (yieldRecords env isSpace rest).2) := by
  rw [yieldRecords, blank, tryLoads_parsed.mpr loads]
  rfl

theorem yieldRecords_error {line : List Char} {message : String} (blank : line.all isSpace = false)
    (refused : env.loads (String.ofList line) = .error (.decodeError message)) :
    yieldRecords env isSpace (line :: rest) = ([], .jsonDecodeError message) := by
  rw [yieldRecords, blank, Env.tryLoads, refused]
  rfl

theorem yieldRecords_lines (brace : isSpace '\x7b' = false)
    (json : ∀ record ∈ records, JsonLine env record) :
    yieldRecords env isSpace (records.map (recordLine env) ++ rest) =
      (records ++ (yieldRecords env isSpace rest).1, (yieldRecords env isSpace rest).2) := by
  induction records with
  | nil => rfl
  | cons record records ih =>
      have own := json record List.mem_cons_self
      have blank := own.not_blank brace List.prefix_rfl (by simp [recordLine, closed])
      rw [List.map_cons, List.cons_append, yieldRecords_record blank own.line,
        ih fun other member => json other (List.mem_cons_of_mem record member)]
      rfl

theorem readRecords_headed {first : List Char} (absent : '\r' ∉ text)
    (lines : splitLines text = first :: rest)
    (header : env.loads (String.ofList first) = .ok schemaLine) :
    readRecords env isSpace path text = yieldRecords env isSpace rest := by
  have same : schemaLine.pyEq schemaLine = true := by decide
  unfold readRecords
  rw [universalNewlines_eq absent, lines]
  dsimp only
  rw [tryLoads_parsed.mpr header]
  dsimp only
  rw [if_pos same]

/-- The lines after the first one, when the file ends after some records and perhaps a part of the
next. -/
theorem yieldRecords_cut {count : Nat} (brace : isSpace '\x7b' = false)
    (json : ∀ record ∈ records, JsonLine env record) (bound : count ≤ records.length)
    (ends : tail = [] ∨ ∃ record, records[count]? = some record ∧ tail <+: recordText env record) :
    Recovered env records (recordFile env (records.take count) ++ tail)
    (yieldRecords env isSpace ((records.take count).map (recordLine env) ++ splitLines tail)) :=
        by
  rw [yieldRecords_lines brace fun record member => json record (List.mem_of_mem_take member)]
  by_cases none : tail = []
  · subst none
    rw [splitLines, yieldRecords, List.append_nil, List.append_nil]
    exact .whole bound (.inl rfl)
  · obtain ⟨record, next, starts⟩ := ends.resolve_left none
    have own := json record (List.mem_of_getElem? next)
    have blank := own.not_blank brace (starts.trans (List.prefix_append _ _)) none
    have oneLine : '\n' ∉ tail := fun member => own.noNewline (starts.subset member)
    rw [splitLines_open oneLine none]
    by_cases full : tail = recordText env record
    · have taken : records.take (count + 1) = records.take count ++ [record] := by
        rw [List.take_add_one, next, Option.toList_some]
      obtain ⟨below, -⟩ := List.getElem?_eq_some_iff.mp next
      have read : (records.take count ++ [record], RecordEnding.finished) =
        (records.take (count + 1), .finished) := by
        rw [taken]
      rw [full] at blank
      rw [full, yieldRecords_record blank own.text]
      refine read ▸ Recovered.whole below (.inr ?_)
      rw [taken, recordFile_snoc, closed, List.append_assoc]
      rfl
    · obtain ⟨message, refused⟩ := own.part tail starts full
      rw [yieldRecords_error blank refused, List.append_nil]
      exact .torn next none starts full rfl

theorem noReturn_recordFile (json : ∀ record ∈ schemaLine :: records, JsonLine env record) :
    '\r' ∉ recordFile env records := by
  intro member
  obtain ⟨piece, written, inside⟩ := List.mem_flatMap.mp member
  obtain ⟨record, there, rfl⟩ := List.mem_map.mp written
  rcases List.mem_append.mp inside with own | newline
  · exact (json record there).noReturn own
  · exact absurd newline (by decide)

theorem readRecords_written (json : ∀ record ∈ schemaLine :: records, JsonLine env record)
    (absent : '\r' ∉ tail) :
    readRecords env isSpace path (recordFile env records ++ tail) =
      yieldRecords env isSpace (records.map (recordLine env) ++ splitLines tail) := by
  have schema := json schemaLine List.mem_cons_self
  have oneLine : ∀ piece ∈ (schemaLine :: records).map (recordText env), '\n' ∉ piece := by
    intro piece member
    obtain ⟨record, there, rfl⟩ := List.mem_map.mp member
    exact (json record there).noNewline
  have lines := @splitLines_pieces tail _ oneLine
  rw [List.map_map] at lines
  refine readRecords_headed (fun member => ?_) lines schema.line
  rcases List.mem_append.mp member with own | after
  · exact noReturn_recordFile json own
  · exact absent after

theorem readRecords_head (schema : JsonLine env schemaLine)
    (starts : part <+: recordText env schemaLine) :
    Recovered env records part (readRecords env isSpace path part) := by
  have absent : '\r' ∉ part := fun member => schema.noReturn (starts.subset member)
  by_cases none : part = []
  · subst none
    refine .headless starts fun short => ?_
    have opens := schema.opening
    rw [← short] at opens
    cases opens
  · have oneLine : '\n' ∉ part := fun member => schema.noNewline (starts.subset member)
    have lines := splitLines_open oneLine none
    by_cases full : part = recordText env schemaLine
    · rw [readRecords_headed absent lines (full ▸ schema.text), full]
      refine .whole (Nat.zero_le _) (.inr ?_)
      rw [recordFile_eq, List.take_zero, List.flatMap_nil, List.append_nil]
      rfl
    · obtain ⟨message, refused⟩ := schema.part part starts full
      unfold readRecords
      rw [universalNewlines_eq absent, lines]
      dsimp only
      rw [Env.tryLoads, refused]
      exact .headless starts full

theorem readRecords_recovered (brace : isSpace '\x7b' = false)
    (json : ∀ record ∈ schemaLine :: records, JsonLine env record)
    (cut : part <+: recordFile env records) :
    Recovered env records part (readRecords env isSpace path part) := by
  have others : ∀ record ∈ records, JsonLine env record :=
    fun record member => json record (List.mem_cons_of_mem _ member)
  have absent : '\r' ∉ part := fun member => noReturn_recordFile json (cut.subset member)
  obtain ⟨count, tail, same, ends⟩ := prefix_pieces cut
  cases count with
  | zero =>
      obtain ⟨piece, there, starts⟩ :=
        ends.resolve_left fun all => absurd all.1 (Nat.succ_ne_zero _).symm
      cases there
      cases same
      exact readRecords_head (json schemaLine List.mem_cons_self) starts
  | succ count =>
      rw [List.map_cons, List.take_succ_cons, ← List.map_take] at same
      have written : part = recordFile env (records.take count) ++ tail := same
      have left : count ≤ records.length ∧ (tail = [] ∨ ∃ record, records[count]? = some record ∧
          tail <+: recordText env record) := by
        rw [List.map_cons, List.length_cons, List.length_map] at ends
        rcases ends with ⟨all, none⟩ | ⟨piece, there, starts⟩
        · exact ⟨by omega, .inl none⟩
        · rw [List.getElem?_cons_succ, List.getElem?_map, Option.map_eq_some_iff] at there
          obtain ⟨record, next, rfl⟩ := there
          obtain ⟨below, -⟩ := List.getElem?_eq_some_iff.mp next
          exact ⟨below.le, .inr ⟨record, next, starts⟩⟩
      have taken : ∀ record ∈ schemaLine :: records.take count, JsonLine env record :=
        fun record member =>
          json record (List.cons_subset_cons _ (List.take_subset count records) member)
      rw [written] at absent ⊢
      rw [readRecords_written taken fun member => absent (List.mem_append_right _ member)]
      exact yieldRecords_cut brace others left.1 left.2

/-- A panel run that writes its records leaves its file and no other changed; the file reads back as
the records, and any part of it as the records that are whole in it. -/
theorem recordRun_recovered (brace : isSpace '\x7b' = false)
    (json : ∀ record ∈ schemaLine :: records, JsonLine env record) :
    ∃ after, (writer.enter env timestamp).writeAll env records = .ok after ∧
      after.leave.files.get? (writer.pathAt timestamp) = some (recordFile env records) ∧
      (∀ other, other ≠ writer.pathAt timestamp →
        after.leave.files.get? other = writer.files.get? other) ∧
      readRecords env isSpace path (recordFile env records) = (records, .finished) ∧
      ∀ part, part <+: recordFile env records →
        Recovered env records part (readRecords env isSpace path part) := by
  have entered : (writer.enter env timestamp).files.get? (writer.pathAt timestamp) =
      some (recordLine env schemaLine) := by
    simp [RecordWriter.enter]
  obtain ⟨after, ran, found, others⟩ := @RecordWriter.writeAll_files env _ records _ _ rfl entered
  refine ⟨after, ran, ?_, fun other apart => ?_, ?_, fun part cut =>
    readRecords_recovered brace json cut⟩
  · rw [recordFile_eq]
    exact found
  · refine (others other apart).trans ?_
    simp [RecordWriter.enter, apart]
  · have written := @readRecords_written env isSpace path records [] json List.not_mem_nil
    have lines := @yieldRecords_lines env isSpace records [] brace fun record member =>
      json record (List.mem_cons_of_mem _ member)
    rw [List.append_nil] at written
    rw [written, splitLines, lines, yieldRecords, List.append_nil]

def sampleSchemaText : List Char := "\x7b\"schema_version\": \"1\"\x7d".toList

def answerRecord (answer : String) : Val := .obj [("answer", .str answer)]

def sampleYesText : List Char := "\x7b\"answer\": \"yes\"\x7d".toList

def sampleNoText : List Char := "\x7b\"answer\": \"no\"\x7d".toList

def sampleJsonLoads (text : List Char) : Except JsonError Val :=
  if text = sampleSchemaText then .ok schemaLine
  else if text = sampleYesText then .ok (answerRecord "yes")
  else if text = sampleNoText then .ok (answerRecord "no")
  else .error (.decodeError "Expecting value")

theorem sampleJsonLoads_contained (text : List Char) : Contained (sampleJsonLoads text) := by
  unfold sampleJsonLoads
  split
  · exact contained_ok
  split
  · exact contained_ok
  split
  · exact contained_ok
  · exact contained_decodeError

def sampleJson : Env :=
  { sampleEnv with
    dumps := fun record => String.ofList (
      if record.pyEq schemaLine then sampleSchemaText
      else if record.pyEq (answerRecord "yes") then sampleYesText
      else if record.pyEq (answerRecord "no") then sampleNoText
      else [])
    loads := fun text => sampleJsonLoads (text.toList.rdropWhile Char.isWhitespace)
    envelopeContained := fun _ => sampleJsonLoads_contained _ }

theorem sampleJson_refuses {text : List Char}
    (parts : ∀ part ∈ text.inits, part ≠ text →
      part.rdropWhile Char.isWhitespace ∉ [sampleSchemaText, sampleYesText, sampleNoText])
    (part : List Char) (starts : part <+: text) (short : part ≠ text) :
    ∃ message, sampleJson.loads (String.ofList part) = .error (.decodeError message) := by
  have other := parts part ((List.mem_inits part text).mpr starts) short
  simp only [List.mem_cons, List.not_mem_nil, or_false, not_or] at other
  refine ⟨"Expecting value", ?_⟩
  simp only [sampleJson, String.toList_ofList, sampleJsonLoads]
  rw [if_neg other.1, if_neg other.2.1, if_neg other.2.2]

theorem sampleJson_schema : JsonLine sampleJson schemaLine where
  opening := by decide
  noNewline := by decide
  noReturn := by decide
  text := rfl
  line := rfl
  part := sampleJson_refuses (by decide)

theorem sampleJson_yes : JsonLine sampleJson (answerRecord "yes") where
  opening := by decide
  noNewline := by decide
  noReturn := by decide
  text := rfl
  line := rfl
  part := sampleJson_refuses (by decide)

theorem sampleJson_no : JsonLine sampleJson (answerRecord "no") where
  opening := by decide
  noNewline := by decide
  noReturn := by decide
  text := rfl
  line := rfl
  part := sampleJson_refuses (by decide)

/-- The first of the two records is left when the second is cut in the middle. -/
theorem recordRun_recovered_torn : ∃ after text,
    (RecordWriter.enter sampleJson ⟨"runs", none, none, Table.empty⟩ "now").writeAll sampleJson
        [answerRecord "yes", answerRecord "no"] = .ok after ∧
      after.leave.files.get? "runs/now.jsonl" = some text ∧
      Recovered sampleJson [answerRecord "yes", answerRecord "no"] (text.take 50)
        (readRecords sampleJson Char.isWhitespace "runs/now.jsonl" (text.take 50)) := by
  have json : ∀ record ∈ [schemaLine, answerRecord "yes",
    answerRecord "no"], JsonLine sampleJson record := by
    intro record member
    simp only [List.mem_cons, List.not_mem_nil, or_false] at member
    rcases member with rfl | rfl | rfl
    · exact sampleJson_schema
    · exact sampleJson_yes
    · exact sampleJson_no
  obtain ⟨after, ran, held, -, -, read⟩ :=
    @recordRun_recovered sampleJson Char.isWhitespace "runs/now.jsonl" "now"
    [answerRecord "yes", answerRecord "no"] ⟨"runs", none, none, Table.empty⟩ (by decide) json
  exact ⟨after, _, ran, held, read _ (List.take_prefix 50 _)⟩

end Megalos
