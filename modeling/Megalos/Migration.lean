import Megalos.Library.Interleaving
import Megalos.Value

/-!
`_get_conn` of `db.py`: how a connection brings the file to the present schema.  Each
statement commits on its own, so that the statements of connections that open at the same
time interleave, and the database may refuse any of them, as when it is locked.
-/

namespace Megalos

open Interleaving StatefulProgram StatefulProgram.Program

inductive Cell where
  | null
  | text (value : String)
  deriving DecidableEq

/-- A column that `ALTER TABLE` adds, and what the rows that are there read in it. -/
structure Column where
  name : String
  fallback : Cell
  deriving DecidableEq

/-- The table `sessions`, with a cell of each row for each column. -/
structure SessionsTable where
  columns : List String
  rows : List (List Cell)
  distinct : columns.Nodup
  aligned : ∀ row ∈ rows, row.length = columns.length

def SessionsTable.addColumn (table : SessionsTable) (column : Column)
    (absent : column.name ∉ table.columns) : SessionsTable where
  columns := table.columns ++ [column.name]
  rows := table.rows.map (· ++ [column.fallback])
  distinct := by
    rw [List.nodup_append]
    refine ⟨table.distinct, List.nodup_singleton _, fun name there other last same => absent ?_⟩
    rw [List.mem_singleton] at last
    rwa [← last, ← same]
  aligned := by
    intro row member
    obtain ⟨old, there, rfl⟩ := List.mem_map.mp member
    rw [List.length_append, List.length_append, table.aligned old there]
    rfl

def sessionColumns : List String := [
  "session_id", "workflow_type", "current_step", "step_data", "retry_counts", "step_visit_counts", "escalation",
  "artifact_checkpoints", "created_at", "updated_at", "completed_at", "called_session", "parent_session_id",
  "workflow_fingerprint"]

def migratedColumns : List Column := [
  ⟨"called_session", .null⟩, ⟨"parent_session_id", .null⟩, ⟨"workflow_fingerprint",
    .text "pre-versioning"⟩]

def SessionsTable.fresh : SessionsTable := ⟨sessionColumns, [], by decide, by simp⟩

/-- The file, without the rows of the stack. -/
structure Database where
  sessions : Option SessionsTable
  sessionStack : Bool
  stackIndex : Bool

/-- The statements of `_get_conn`. -/
inductive Statement where
  | walMode
  | synchronous
  | foreignKeys
  | createSessions
  | tableInfo
  | addColumn (name : String)
  | createStack
  | createIndex
  deriving DecidableEq

def operationalError (message : String) : Exn := .uncaught "OperationalError" message

namespace Database

def createSessions : Program Database Exn Unit :=
  write fun database => { database with sessions := some (database.sessions.getD .fresh) }

def tableInfo : Program Database Exn (List String) :=
  read fun database => (database.sessions.map SessionsTable.columns).getD []

def addColumn (column : Column) : Program Database Exn Unit where
  run database :=
    match database.sessions with
    | none => (.error (operationalError "no such table: sessions"), database)
    | some table =>
        if absent : column.name ∉ table.columns then
          (.ok (), { database with sessions := some (table.addColumn column absent) })
        else (.error (operationalError ("duplicate column name: " ++ column.name)), database)

def createStack : Program Database Exn Unit := write fun database => { database with sessionStack := true }

def createIndex : Program Database Exn Unit where
  run database :=
    if database.sessionStack then (.ok (), { database with stackIndex := true })
    else (.error (operationalError "no such table: main.session_stack"), database)

end Database

abbrev Connecting (α : Type) := Thread Statement Database Exn α

section Connection

-- what the database raises of itself at each statement, if anything: it is locked, unreadable or
-- full
variable (trouble : Statement → Option Exn)

def execute {α : Type} (statement : Statement) (act : Program Database Exn α) : Connecting α :=
  Thread.atomic (fun _ => statement) ((trouble statement).elim act raise)

def addMissing (existing : List String) : List Column → Connecting Unit
  | [] => return ()
  | column :: rest => do
      if column.name ∉ existing then execute trouble (.addColumn column.name) (Database.addColumn column)
      addMissing existing rest

/-- `_get_conn`, from an open file on.  The pragmas leave the schema as it is. -/
def getConn : Connecting Unit := do
  execute trouble .walMode (pure ())
  execute trouble .synchronous (pure ())
  execute trouble .foreignKeys (pure ())
  execute trouble .createSessions Database.createSessions
  let existing ← execute trouble .tableInfo Database.tableInfo
  addMissing trouble existing migratedColumns
  execute trouble .createStack Database.createStack
  execute trouble .createIndex Database.createIndex

end Connection

/-! What a connection does, in phases. -/

inductive ConnPhase where
  /-- With the pragmas that it still sets. -/
  | opened (pragmas : List Statement)
  | created
  /-- With the columns that it still adds. -/
  | adding (rest : List Column)
  | stacked
  | connected
  | refused (raised : Exn)
  | troubled (raised : Exn)

structure Connection where
  trouble : Statement → Option Exn
  phase : ConnPhase

def missing (columns : List String) : List Column :=
    migratedColumns.filter fun column => column.name ∉ columns

def Database.columns (database : Database) : List String :=
    (database.sessions.map SessionsTable.columns).getD []

inductive Moves (trouble : Statement → Option Exn) : ConnPhase → Statement → Database → Database →
    ConnPhase → Prop
  | pragma {database : Database} {pragma : Statement} {rest : List Statement} :
      Moves trouble (.opened (pragma :: rest)) pragma database database (.opened rest)
  | create {database : Database} : Moves trouble (.opened []) .createSessions database
      { database with sessions := some (database.sessions.getD .fresh) } .created
  | inspect {database : Database} :
      Moves trouble .created .tableInfo database database (.adding (missing database.columns))
  | add {before after : Database} {column : Column} {rest : List Column}
      (ran : (Database.addColumn column).run before = (.ok (), after)) :
      Moves trouble (.adding (column :: rest)) (.addColumn column.name) before after (.adding rest)
  | refuse {before after : Database} {column : Column} {rest : List Column} {raised : Exn}
      (ran : (Database.addColumn column).run before = (.error raised, after)) :
      Moves trouble (.adding (column :: rest))
        (.addColumn column.name) before after (.refused raised)
  | stack {database : Database} : Moves trouble (.adding []) .createStack database
      { database with sessionStack := true } .stacked
  | index {before after : Database} (ran : Database.createIndex.run before = (.ok (), after)) :
      Moves trouble .stacked .createIndex before after .connected
  | refuseIndex {before after : Database} {raised : Exn}
      (ran : Database.createIndex.run before = (.error raised, after)) :
      Moves trouble .stacked .createIndex before after (.refused raised)
  /-- The connection is in trouble before it has settled. -/
  | trouble {database : Database} {phase : ConnPhase} {statement : Statement} {raised : Exn}
      (hits : trouble statement = some raised) :
        Moves trouble phase statement database database (.troubled raised)

def Connects : Protocol Statement Database Connection := fun conn statement before after later =>
  later.trouble = conn.trouble ∧ Moves conn.trouble conn.phase statement before after later.phase

inductive Settled : Connection → Except Exn Unit → Prop
  | connected {trouble : Statement → Option Exn} : Settled ⟨trouble, .connected⟩ (.ok ())
  | refused {trouble : Statement → Option Exn} {raised : Exn} :
      Settled ⟨trouble, .refused raised⟩ (.error raised)
  | troubled {trouble : Statement → Option Exn} {raised : Exn} :
      Settled ⟨trouble, .troubled raised⟩ (.error raised)

theorem settled_ok {conn : Connection} (settled : Settled conn (.ok ())) :
    conn.phase = .connected := by
  cases settled
  rfl

theorem settled_error {conn : Connection} {raised : Exn} (settled : Settled conn (.error raised)) :
    conn.phase = .refused raised ∨ conn.phase = .troubled raised := by
  cases settled with
  | refused => exact .inl rfl
  | troubled => exact .inr rfl

section Follows

variable {trouble : Statement → Option Exn}

theorem access_follows {α : Type} {phase : ConnPhase} {statement : Statement}
    {act : Program Database Exn α} {rest : Except Exn α → Connecting Unit}
    (stops : ∀ raised, rest (.error raised) = .done (.error raised))
    (onOk : ∀ before after value, act.run before = (.ok value, after) → ∃ later,
      Moves trouble phase statement before after later ∧
        Protocol.Follows Connects Settled ⟨trouble, later⟩ (rest (.ok value)))
    (onRaise : ∀ before after raised, act.run before = (.error raised, after) →
      Moves trouble phase statement before after (.refused raised)) :
    Protocol.Follows Connects Settled ⟨trouble, phase⟩
      (.access (fun _ => statement) ((trouble statement).elim act raise) rest) := by
  intro before
  cases hit : trouble statement with
  | some raised =>
      refine ⟨⟨trouble, .troubled raised⟩, ⟨rfl, .trouble hit⟩, ?_⟩
      rw [show ((some raised).elim act raise).run before = (.error raised, before) from rfl, stops]
      exact .troubled
  | none =>
      rw [Option.elim_none]
      cases ran : act.run before with
      | mk outcome after =>
          cases outcome with
          | ok value =>
              obtain ⟨later, takes, follows⟩ := onOk before after value ran
              exact ⟨⟨trouble, later⟩, ⟨rfl, takes⟩, follows⟩
          | error raised =>
              refine ⟨⟨trouble, .refused raised⟩, ⟨rfl, onRaise before after raised ran⟩, ?_⟩
              rw [stops]
              exact .refused

theorem createIndex_follows : Protocol.Follows Connects Settled ⟨trouble, .stacked⟩
    (execute trouble .createIndex Database.createIndex) := by
  refine access_follows (fun _ => rfl) ?_ ?_
  · intro before after value ran
    exact ⟨.connected, .index ran, .connected⟩
  · intro before after raised ran
    exact .refuseIndex ran

theorem addMissing_follows (existing : List String) (columns : List Column) :
    Protocol.Follows Connects Settled ⟨trouble, .adding (columns.filter fun column => column.name ∉ existing)⟩
      (addMissing trouble existing columns >>= fun _ => do
        execute trouble .createStack Database.createStack
        execute trouble .createIndex Database.createIndex) := by
  induction columns with
  | nil =>
      refine access_follows (fun _ => rfl) ?_ ?_
      · intro before after value ran
        cases ran
        exact ⟨.stacked, .stack, createIndex_follows⟩
      · intro before after raised ran
        cases ran
  | cons column rest ih =>
      by_cases there : column.name ∈ existing
      · rw [List.filter_cons_of_neg (by simpa using there)]
        have skips : addMissing trouble existing (column :: rest) = addMissing trouble existing rest := by
          rw [addMissing, if_neg (not_not.mpr there)]
        rw [skips]
        exact ih
      · rw [List.filter_cons_of_pos (by simpa using there)]
        have adds : addMissing trouble existing (column :: rest) =
            (execute trouble (.addColumn column.name) (Database.addColumn column) >>= fun _ =>
              addMissing trouble existing rest) := by
          rw [addMissing, if_pos there]
        rw [adds]
        refine access_follows (fun _ => rfl) ?_ ?_
        · intro before after value ran
          exact ⟨.adding _, .add ran, ih⟩
        · intro before after raised ran
          exact .refuse ran

def pragmas : List Statement := [.walMode, .synchronous, .foreignKeys]

theorem pragma_follows {pragma : Statement} {rest : List Statement} {next : Unit → Connecting Unit}
    (later : Protocol.Follows Connects Settled ⟨trouble, .opened rest⟩ (next ())) :
    Protocol.Follows Connects Settled ⟨trouble, .opened (pragma :: rest)⟩
      (execute trouble pragma (pure ()) >>= next) := by
  refine access_follows (fun _ => rfl) ?_ ?_
  · intro before after value ran
    cases ran
    exact ⟨.opened rest, .pragma, later⟩
  · intro before after raised ran
    cases ran

theorem getConn_follows :
    Protocol.Follows Connects Settled ⟨trouble, .opened pragmas⟩ (getConn trouble) := by
  refine pragma_follows (pragma_follows (pragma_follows ?_))
  refine access_follows (fun _ => rfl) ?_ ?_
  · intro before after value ran
    cases ran
    refine ⟨.created, .create, access_follows (fun _ => rfl) ?_ ?_⟩
    · intro inspected after value ran
      cases ran
      exact ⟨.adding (missing inspected.columns), .inspect,
        addMissing_follows inspected.columns migratedColumns⟩
    · intro before after raised ran
      cases ran
  · intro before after raised ran
    cases ran

end Follows

/-! What many connections make of the file. -/

def Database.base (database : Database) : SessionsTable := database.sessions.getD .fresh

def Database.lacking (database : Database) : List Column := missing database.base.columns

/-- So many of the lacking columns have been added in their order, and each row has kept its cells.
-/
structure Upgraded (start : Database) (count : Nat) (table : SessionsTable) : Prop where
  columns : table.columns = start.base.columns ++ (start.lacking.take count).map Column.name
  rows : table.rows = start.base.rows.map (· ++ (start.lacking.take count).map Column.fallback)

def ConnPhase.Stands (lacking : List Column) (count : Nat) (database : Database) : ConnPhase → Prop
  | .opened _ => True
  | .created => True
  | .adding rest => ∃ passed ≤ count, rest = lacking.drop passed
  | .stacked => count = lacking.length ∧ database.sessionStack = true
  | .connected => count = lacking.length ∧ database.sessionStack = true ∧ database.stackIndex = true
  | .refused raised => ∃ column ∈ lacking.take count,
      raised = operationalError ("duplicate column name: " ++ column.name)
  | .troubled _ => True

def ConnPhase.Excused (phase : ConnPhase) : Prop :=
    phase = .connected ∨ ∃ raised, phase = .troubled raised

/-- The connection that added the last column goes on with the next one, unless it is in trouble. -/
def ConnPhase.Leads (lacking : List Column) (count : Nat) : ConnPhase → Prop
  | .adding rest => rest = lacking.drop count
  | .stacked => True
  | .connected => True
  | .troubled _ => True
  | _ => False

inductive Migrating {ι : Type} (start : Database) : Database → (ι → ConnPhase) → Prop
  | unopened {phases : ι → ConnPhase} (absent : start.sessions = none)
      (all : ∀ conn, (∃ pragmas, phases conn = .opened pragmas) ∨
        ∃ raised, phases conn = .troubled raised) : Migrating start start phases
  | upgrading {now : Database} {phases : ι → ConnPhase} {count : Nat} {table : SessionsTable}
      (there : now.sessions = some table) (most : count ≤ start.lacking.length)
      (upgraded : Upgraded start count table)
      (each : ∀ conn, (phases conn).Stands start.lacking count now)
      (leads : 0 < count → ∃ conn, (phases conn).Leads start.lacking count) :
        Migrating start now phases

theorem lacking_distinct (start : Database) : (start.lacking.map Column.name).Nodup := by
  have all : (migratedColumns.map Column.name).Nodup := by decide
  exact all.sublist (List.filter_sublist.map Column.name)

theorem lacking_absent {start : Database} {column : Column} (lacks : column ∈ start.lacking) :
    column.name ∉ start.base.columns := by
  simpa using (List.mem_filter.mp lacks).2

theorem name_notMem_take {columns rest : List Column} {column : Column} {count : Nat}
    (distinct : (columns.map Column.name).Nodup) (next : columns.drop count = column :: rest) :
    column.name ∉ (columns.take count).map Column.name := by
  rw [← List.take_append_drop count columns, List.map_append, List.nodup_append, next] at distinct
  intro member
  exact distinct.2.2 _ member _ List.mem_cons_self rfl

theorem mem_take {columns rest : List Column} {column : Column} {passed count : Nat}
    (next : columns.drop passed = column :: rest) (behind : passed < count) :
    column ∈ columns.take count := by
  have there : columns[passed]? = some column := by
    rw [← List.head?_drop, next]
    rfl
  rw [List.mem_iff_getElem?]
  exact ⟨passed, by rw [List.getElem?_take_of_lt behind, there]⟩

theorem filter_notMem_take {columns : List Column} (distinct : (columns.map Column.name).Nodup)
    (count : Nat) :
    columns.filter (fun column => column.name ∉ (columns.take count).map Column.name) =
      columns.drop count := by
  conv_lhs => rw [← List.take_append_drop count columns]
  rw [← List.take_append_drop count columns, List.map_append, List.nodup_append] at distinct
  rw [List.filter_append, List.take_append_drop]
  have gone : (columns.take count).filter (fun column =>
    column.name ∉ (columns.take count).map Column.name) = [] := by
    rw [List.filter_eq_nil_iff]
    intro column member
    rw [decide_eq_true_eq, not_not]
    exact List.mem_map_of_mem member
  have kept : (columns.drop count).filter (fun column =>
    column.name ∉ (columns.take count).map Column.name) =
      columns.drop count := by
    rw [List.filter_eq_self]
    intro column member
    rw [decide_eq_true_eq]
    intro taken
    exact distinct.2.2 _ taken _ (List.mem_map_of_mem member) rfl
  rw [gone, kept, List.nil_append]

theorem Upgraded.missing {start : Database} {count : Nat} {table : SessionsTable}
    (upgraded : Upgraded start count table) :
    Megalos.missing table.columns = start.lacking.drop count := by
  rw [← filter_notMem_take (lacking_distinct start) count, upgraded.columns, Database.lacking,
    Megalos.missing, Megalos.missing, List.filter_filter]
  refine List.filter_congr fun column _ => ?_
  simp only [List.mem_append, not_or, Bool.decide_and, Bool.and_comm]

/-- The column at which a connection stands is in the table if and only if the connection is behind.
-/
theorem Upgraded.present_iff {start : Database} {count passed : Nat} {table : SessionsTable}
    {column : Column} {rest : List Column} (upgraded : Upgraded start count table)
    (next : start.lacking.drop passed = column :: rest)
    (within : passed ≤ count) : column.name ∈ table.columns ↔ passed < count := by
  rw [upgraded.columns, List.mem_append]
  constructor
  · rintro (old | taken)
    · have lacks : column ∈ start.lacking := by
        refine (List.drop_sublist passed _).subset ?_
        rw [next]
        exact List.mem_cons_self
      exact absurd old (lacking_absent lacks)
    · refine lt_of_le_of_ne within ?_
      rintro rfl
      exact name_notMem_take (lacking_distinct start) next taken
  · intro behind
    exact .inr (List.mem_map_of_mem (mem_take next behind))

theorem Upgraded.next {start : Database} {count : Nat} {table : SessionsTable} {column : Column}
    {rest : List Column} (upgraded : Upgraded start count table)
    (next : start.lacking.drop count = column :: rest)
    (absent : column.name ∉ table.columns) : Upgraded start (count + 1)
    (table.addColumn column absent) := by
  have grown : start.lacking.take (count + 1) = start.lacking.take count ++ [column] := by
    rw [List.take_add, next]
    rfl
  constructor
  · rw [grown, List.map_append, ← List.append_assoc, ← upgraded.columns]
    rfl
  · change table.rows.map (· ++ [column.fallback]) = _
    rw [grown, upgraded.rows, List.map_map, List.map_append]
    refine List.map_congr_left fun row _ => ?_
    exact List.append_assoc ..

variable {lacking : List Column} {count more : Nat} {now after : Database} {phase : ConnPhase}

theorem ConnPhase.Stands.later (stands : phase.Stands lacking count now) (grows : count ≤ more)
    (most : more ≤ lacking.length) (stack : now.sessionStack = true → after.sessionStack = true)
    (index : now.stackIndex = true → after.stackIndex = true) :
    phase.Stands lacking more after := by
  cases phase with
  | opened pragmas => exact trivial
  | created => exact trivial
  | adding rest =>
      obtain ⟨passed, within, same⟩ := stands
      exact ⟨passed, within.trans grows, same⟩
  | stacked => exact ⟨le_antisymm most (stands.1 ▸ grows), stack stands.2⟩
  | connected => exact ⟨le_antisymm most (stands.1 ▸ grows), stack stands.2.1, index stands.2.2⟩
  | refused raised =>
      obtain ⟨column, member, same⟩ := stands
      exact ⟨column, (List.take_sublist_take_left grows).subset member, same⟩
  | troubled raised => exact trivial

theorem addColumn_ok {column : Column}
    (ran : (Database.addColumn column).run now = (.ok (), after)) :
    ∃ table, now.sessions = some table ∧ ∃ absent : column.name ∉ table.columns,
      after = { now with sessions := some (table.addColumn column absent) } := by
  unfold Database.addColumn at ran
  dsimp only at ran
  split at ran
  · cases ran
  · rename_i table there
    split at ran
    · rename_i absent
      exact ⟨table, there, absent, (Prod.mk.inj ran).2.symm⟩
    · cases ran

theorem addColumn_error {column : Column} {raised : Exn} {table : SessionsTable}
    (there : now.sessions = some table)
    (ran : (Database.addColumn column).run now = (.error raised, after)) :
    column.name ∈ table.columns ∧ after = now ∧
      raised = operationalError ("duplicate column name: " ++ column.name) := by
  unfold Database.addColumn at ran
  dsimp only at ran
  rw [there] at ran
  dsimp only at ran
  split at ran
  · cases ran
  · rename_i present
    cases ran
    exact ⟨not_not.mp present, rfl, rfl⟩

theorem createIndex_run (stack : now.sessionStack = true) :
    Database.createIndex.run now = (.ok (), { now with stackIndex := true }) := if_pos stack

variable {ι : Type} {start : Database} {phases : ι → ConnPhase} {conn : ι} {later : ConnPhase}
    {table : SessionsTable}

theorem Database.columns_of_some (there : now.sessions = some table) :
    now.columns = table.columns := by
  rw [Database.columns, there]
  rfl

/-- The file has all columns, and the rows of before have the defaults in the new ones. -/
structure Current (start now : Database) : Prop where
  sessions : ∃ table, now.sessions = some table ∧ Upgraded start start.lacking.length table
  sessionStack : now.sessionStack = true
  stackIndex : now.stackIndex = true

theorem Migrating.upgraded (migrating : Migrating start now phases) :
    now.sessions = start.sessions ∨
    ∃ count table, now.sessions = some table ∧ Upgraded start count table := by
  cases migrating with
  | unopened absent all => exact .inl rfl
  | upgrading there most upgraded each leads => exact .inr ⟨_, _, there, upgraded⟩

theorem Migrating.connected (migrating : Migrating start now phases)
    (isConnected : phases conn = .connected) :
    Current start now := by
  cases migrating with
  | unopened absent all =>
      rcases all conn with ⟨_, same⟩ | ⟨_, same⟩ <;> cases isConnected.symm.trans same
  | upgrading there most upgraded each leads =>
      have own := each conn
      rw [isConnected] at own
      obtain ⟨whole, stack, index⟩ := own
      exact ⟨⟨_, there, whole ▸ upgraded⟩, stack, index⟩

theorem Migrating.refused {raised : Exn} (migrating : Migrating start now phases)
    (isRefused : phases conn = .refused raised) : ∃ column ∈ start.lacking,
      raised = operationalError ("duplicate column name: " ++ column.name) ∧
        column.name ∈ now.columns := by
  cases migrating with
  | unopened absent all =>
      rcases all conn with ⟨_, same⟩ | ⟨_, same⟩ <;> cases isRefused.symm.trans same
  | upgrading there most upgraded each leads =>
      have own := each conn
      rw [isRefused] at own
      obtain ⟨column, member, same⟩ := own
      refine ⟨column, (List.take_sublist _ _).subset member, same, ?_⟩
      rw [Database.columns_of_some there, upgraded.columns]
      exact List.mem_append_right _ (List.mem_map_of_mem member)

/-- When no connection has a statement left, one of them is open or has been in trouble. -/
theorem Migrating.finished (migrating : Migrating start now phases)
    (all : ∀ conn, (phases conn).Excused ∨ ∃ raised, phases conn = .refused raised) (conn : ι) :
    ∃ other, (phases other).Excused := by
  cases migrating with
  | unopened absent every =>
      rcases all conn with excused | ⟨raised, same⟩
      · exact ⟨conn, excused⟩
      · rcases every conn with ⟨_, other⟩ | ⟨_, other⟩ <;> cases same.symm.trans other
  | upgrading there most upgraded each leads =>
      rename_i count table
      rcases Nat.eq_zero_or_pos count with rfl | some
      · rcases all conn with excused | ⟨raised, same⟩
        · exact ⟨conn, excused⟩
        · have own := each conn
          rw [same] at own
          obtain ⟨column, member, -⟩ := own
          rw [List.take_zero] at member
          cases member
      · obtain ⟨leader, leading⟩ := leads some
        rcases all leader with excused | ⟨raised, same⟩
        · exact ⟨leader, excused⟩
        · rw [same] at leading
          exact leading.elim

theorem Migrating.initial (start : Database) :
    Migrating start start fun _ : ι => .opened pragmas := by
  cases there : start.sessions with
  | none => exact .unopened there fun _ => .inl ⟨_, rfl⟩
  | some table =>
      have base : start.base = table := by rw [Database.base, there]; rfl
      refine .upgrading there (Nat.zero_le _) ⟨?_, ?_⟩ (fun _ => trivial) fun some =>
        absurd some (Nat.lt_irrefl 0)
      · rw [List.take_zero, List.map_nil, List.append_nil, base]
      · rw [List.take_zero, List.map_nil, base]
        simp only [List.append_nil, List.map_id']

section Moves

variable [DecidableEq ι]

theorem stands_update (each : ∀ conn, (phases conn).Stands start.lacking count now)
    (grows : count ≤ more) (most : more ≤ start.lacking.length)
    (stack : now.sessionStack = true → after.sessionStack = true)
    (index : now.stackIndex = true → after.stackIndex = true)
    (own : later.Stands start.lacking more after) (other : ι) :
    (Function.update phases conn later other).Stands start.lacking more after := by
  by_cases same : other = conn
  · rw [same, Function.update_self]
    exact own
  · rw [Function.update_of_ne same]
    exact (each other).later grows most stack index

/-- The leader stays one when another connection moves, or moves on as one. -/
theorem leads_update (leads : ∃ leader, (phases leader).Leads lacking count)
    (goesOn : (phases conn).Leads lacking count → later.Leads lacking count) :
    ∃ leader, (Function.update phases conn later leader).Leads lacking count := by
  obtain ⟨leader, leading⟩ := leads
  by_cases same : leader = conn
  · rw [same] at leading
    exact ⟨conn, by rw [Function.update_self]; exact goesOn leading⟩
  · exact ⟨leader, by rwa [Function.update_of_ne same]⟩

/-- A statement that leaves the columns alone. -/
theorem Migrating.sameTable (there : after.sessions = some table)
    (most : count ≤ start.lacking.length) (upgraded : Upgraded start count table)
    (each : ∀ conn, (phases conn).Stands start.lacking count now)
    (leads : 0 < count → ∃ conn, (phases conn).Leads start.lacking count)
    (stack : now.sessionStack = true → after.sessionStack = true)
    (index : now.stackIndex = true → after.stackIndex = true)
    (own : later.Stands start.lacking count after)
    (goesOn : (phases conn).Leads start.lacking count → later.Leads start.lacking count) :
    Migrating start after (Function.update phases conn later) :=
  .upgrading there most upgraded (stands_update each (le_refl count) most stack index own)
    fun some => leads_update (leads some) goesOn

/-- The first statement that reaches the schema creates the table. -/
theorem Migrating.opens {trouble : Statement → Option Exn} {statement : Statement}
    (absent : start.sessions = none)
    (all : ∀ conn, (∃ pragmas, phases conn = .opened pragmas) ∨
      ∃ raised, phases conn = .troubled raised)
    (takes : Moves trouble (phases conn) statement start after later) :
    Migrating start after (Function.update phases conn later) := by
  have unchanged : ∀ kept,
      ((∃ pragmas, kept = ConnPhase.opened pragmas) ∨ ∃ raised, kept = .troubled raised) →
        Migrating start start (Function.update phases conn kept) := by
    intro kept waits
    refine .unopened absent fun other => ?_
    by_cases same : other = conn
    · rw [same, Function.update_self]
      exact waits
    · rw [Function.update_of_ne same]
      exact all other
  generalize phase : phases conn = before at takes
  cases takes with
  | pragma => exact unchanged _ (.inl ⟨_, rfl⟩)
  | trouble hits => exact unchanged _ (.inr ⟨_, rfl⟩)
  | create =>
      have each : ∀ other, (phases other).Stands start.lacking 0 start := by
        intro other
        rcases all other with ⟨_, same⟩ | ⟨_, same⟩ <;> rw [same] <;> exact trivial
      refine .upgrading rfl (Nat.zero_le _) ⟨?_, ?_⟩
        (stands_update each (le_refl 0) (Nat.zero_le _) id id trivial) fun some =>
          absurd some (Nat.lt_irrefl 0)
      · rw [List.take_zero, List.map_nil, List.append_nil]
        rfl
      · rw [List.take_zero, List.map_nil]
        simp only [List.append_nil, List.map_id']
        rfl
  | _ => rcases all conn with ⟨_, same⟩ | ⟨_, same⟩ <;> cases phase.symm.trans same

theorem Migrating.move {trouble : Statement → Option Exn} {statement : Statement}
    (migrating : Migrating start now phases)
    (takes : Moves trouble (phases conn) statement now after later) :
    Migrating start after (Function.update phases conn later) := by
  cases migrating with
  | unopened absent all => exact .opens absent all takes
  | upgrading there most upgraded each leads =>
      rename_i count table
      have own := each conn
      have notYet : ∀ {phase kept : ConnPhase}, phases conn = phase →
          ¬phase.Leads start.lacking count → (phases conn).Leads start.lacking count →
          kept.Leads start.lacking count := fun same behind leading =>
        absurd (same ▸ leading) behind
      generalize phase : phases conn = before at takes own
      cases takes with
      | pragma =>
          exact .sameTable there most upgraded each leads id id trivial (notYet phase id)
      | trouble hits =>
          exact .sameTable there most upgraded each leads id id trivial fun _ => trivial
      | create =>
          refine .sameTable ?_ most upgraded each leads id id trivial (notYet phase id)
          dsimp only
          rw [there]
          rfl
      | inspect =>
          rw [Database.columns_of_some there, upgraded.missing]
          exact .sameTable there most upgraded each leads id id ⟨count, le_refl count, rfl⟩
            (notYet phase id)
      | add ran =>
          rename_i column rest
          obtain ⟨found, isFound, absent, rfl⟩ := addColumn_ok ran
          obtain rfl : table = found := Option.some.inj (there.symm.trans isFound)
          obtain ⟨passed, within, next⟩ := own
          have front : ¬passed < count :=
            fun behind => absent ((upgraded.present_iff next.symm within).mpr behind)
          obtain rfl : passed = count := by omega
          have grown : start.lacking.drop (passed + 1) = rest := by
            rw [← List.drop_drop, ← next]
            rfl
          have room : passed < start.lacking.length := by
            by_contra full
            rw [List.drop_eq_nil_of_le (Nat.le_of_not_lt full)] at next
            cases next
          refine .upgrading rfl room (upgraded.next next.symm absent)
            (stands_update each (Nat.le_succ passed) room id id ?_) fun _ => ⟨conn, ?_⟩
          · exact ⟨passed + 1, le_refl _, grown.symm⟩
          · rw [Function.update_self]
            exact grown.symm
      | refuse ran =>
          rename_i column rest raised
          obtain ⟨present, rfl, rfl⟩ := addColumn_error there ran
          obtain ⟨passed, within, next⟩ := own
          have passedOver : passed < count := (upgraded.present_iff next.symm within).mp present
          have behind : column :: rest ≠ start.lacking.drop count := fun front =>
            absurd ((upgraded.present_iff front.symm (le_refl count)).mp present)
              (Nat.lt_irrefl count)
          exact .sameTable there most upgraded each leads id id
            ⟨column, mem_take next.symm passedOver, rfl⟩ (notYet phase behind)
      | stack =>
          obtain ⟨passed, within, next⟩ := own
          have whole : count = start.lacking.length := by
            have short := List.drop_eq_nil_iff.mp next.symm
            omega
          exact .sameTable there most upgraded each leads (fun _ => rfl) id ⟨whole, rfl⟩
            fun _ => trivial
      | index ran =>
          obtain ⟨whole, stack⟩ := own
          rw [createIndex_run stack] at ran
          cases ran
          exact .sameTable there most upgraded each leads id (fun _ => rfl) ⟨whole, stack, rfl⟩
            fun _ => trivial
      | refuseIndex ran =>
          obtain ⟨whole, stack⟩ := own
          rw [createIndex_run stack] at ran
          cases ran

theorem phases_update {reached : ι → Connection} {later : Connection} :
    (fun other => (Function.update reached conn later other).phase) =
      Function.update (fun other => (reached other).phase) conn later.phase := by
  funext other
  exact Function.apply_update (fun _ => Connection.phase) reached conn later other

variable {trouble : ι → Statement → Option Exn}

theorem Migrating.run {trace : List (ι × Statement)} {reached : ι → Connection}
    (ran : Protocol.Run Connects start (fun conn =>
      ⟨trouble conn, .opened pragmas⟩) trace now reached) :
    Migrating start now fun conn => (reached conn).phase := by
  induction ran with
  | start => exact .initial start
  | move ran takes ih =>
      rw [phases_update]
      exact ih.move takes.2

theorem troubled_run {trace : List (ι × Statement)} {reached : ι → Connection}
    (ran : Protocol.Run Connects start (fun conn =>
      ⟨trouble conn, .opened pragmas⟩) trace now reached) (conn : ι) :
    (reached conn).trouble = trouble conn ∧
      ∀ raised, (reached conn).phase = .troubled raised →
        ∃ statement, trouble conn statement = some raised := by
  induction ran with
  | start => exact ⟨rfl, fun raised same => by cases same⟩
  | @move trace before after reached mover tag later ran takes ih =>
      by_cases same : conn = mover
      · subst same
        rw [Function.update_self]
        refine ⟨takes.1.trans ih.1, fun raised isTroubled => ?_⟩
        have moves := takes.2
        rw [isTroubled, ih.1] at moves
        generalize isPhase : (reached conn).phase = phase at moves
        cases moves with
        | trouble hits => exact ⟨_, hits⟩
      · rw [Function.update_of_ne same]
        exact ih

end Moves

/-! Three connections that find a table of before the columns, one of them while it is locked. -/

def legacyTable : SessionsTable :=
    ⟨["session_id", "workflow_type"], [[.text "s", .text "wf"]], by decide, by decide⟩

def legacyFile : Database := ⟨some legacyTable, false, false⟩

def lockedOut (conn : Fin 3) (statement : Statement) : Option Exn :=
  if conn = 2 ∧ statement = .walMode then some (operationalError "database is locked") else none

def connectOrder : List (Fin 3) := [0, 0, 0, 1, 1, 1, 2, 1, 0, 1, 0, 1, 0, 1, 0, 1, 1, 1, 1]

def racedPool : Pool (Fin 3) Statement Database Exn Unit :=
  (Pool.play connectOrder [] ⟨legacyFile, fun conn => getConn (lockedOut conn)⟩).2

end Megalos
