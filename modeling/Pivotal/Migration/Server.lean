import Pivotal.Async.Crash
import Pivotal.Migration.DbMigration
import Pivotal.Store.Session
import Pivotal.Store.Table

/-! The database that is migrated: what each act of a run makes of it, and how a run, or a
connection, may break. -/
namespace Migration
open Async Store

/-- A row of the history table, of which the other columns are never read. -/
structure HistoryRow extends AppliedMigration where
  description : String
  success : Bool
  deriving DecidableEq

/-- The history table. Its indexes and `NOT NULL` only reject statements, as a connection may
do anyway. -/
structure History where
  table : Table fun r : HistoryRow => r.version
  hashColumn : Bool
  absent : hashColumn = false → ∀ r ∈ table.rows, r.hash = none

/-- The tables of the application, and the history. -/
structure Database (σ : Type) where
  data : σ
  history : Option History

namespace Database

variable {σ : Type}

def rows (d : Database σ) : List HistoryRow :=
  match d.history with
  | none => []
  | some h => h.table.rows

/-- `CREATE TABLE IF NOT EXISTS` -/
def createHistory (d : Database σ) : Database σ :=
  match d.history with
  | none => { d with history := some ⟨Table.empty, true, by simp⟩ }
  | some _ => d

/-- `ALTER TABLE … ADD COLUMN hash` -/
def addHash (d : Database σ) : Option (Database σ) :=
  match d.history with
  | none => none
  | some h =>
    if h.hashColumn then none else some { d with history := some ⟨h.table, true, by simp⟩ }

/-- `UPDATE … SET hash = ? WHERE version = ?` -/
def updateHash (hash version : String) (d : Database σ) : Option (Database σ) :=
  match d.history with
  | none => none
  | some h =>
    if hc : h.hashColumn = true then
      let table := h.table.modify (fun r => r.version = version)
        (fun r => { r with hash := some hash }) fun _ => rfl
      some { d with history := some ⟨table, true, by simp⟩ }
    else none

/-- `ALTER TABLE … MODIFY COLUMN hash CHAR(64) NOT NULL` -/
def requireHash (d : Database σ) : Option (Database σ) :=
  if ∀ r ∈ d.rows, r.hash ≠ none then some d else none

def recorded (migration : MigrationFile) : HistoryRow where
  toAppliedMigration := DbMigration.applied migration
  description := migration.description
  success := true

/-- `INSERT INTO …`, of a version that is not in use. -/
def insertMigration (migration : MigrationFile) (d : Database σ) : Option (Database σ) :=
  match d.history with
  | none => none
  | some h =>
    if hnew : h.hashColumn = true ∧ ∀ r ∈ h.table.rows, r.version ≠ migration.version then
      some { d with history := some ⟨h.table.insert (recorded migration) hnew.2, true, by simp⟩ }
    else none

/-- A statement of the application's tables. -/
def onData (st : Statement σ) : Statement (Database σ) where
  commits := st.commits
  effect d := (st.effect d.data).map fun x => { d with data := x }

/-- `SELECT version, script, hash … WHERE success = true` -/
def applied (d : Database σ) : List AppliedMigration :=
  (d.rows.filter (·.success)).map HistoryRow.toAppliedMigration

/-- Whether the history has a column `hash`. -/
def Ready (d : Database σ) : Prop := ∃ h, d.history = some h ∧ h.hashColumn = true

end Database

/-- What is outside the run: the statements a text is read as. -/
abbrev Parser (σ : Type) := String → List (Statement σ)

/-- The directories with their files. -/
structure Disk where
  files : String → List String
  content : String → String → String

section

variable {σ : Type} (parse : Parser σ)

/-- The statements of an act, but for those that only begin and end a transaction or the
connection itself. -/
def statements : Act → Option (List (Statement (Database σ)))
  | .createHistory _ _ => some [⟨true, fun d => some d.createHistory⟩]
  | .addHash _ => some [⟨true, Database.addHash⟩]
  | .updateHash _ hash version => some [⟨false, Database.updateHash hash version⟩]
  | .requireHash _ => some [⟨true, Database.requireHash⟩]
  | .addHashIndex _ _ => some [⟨true, some⟩]
  | .dropIndex _ _ => some [⟨true, some⟩]
  | .query sql => some ((parse sql).map Database.onData)
  | .insertMigration _ migration _ => some [⟨false, Database.insertMigration migration⟩]
  | _ => none

def control : Act → Option (Session (Database σ) → Session (Database σ))
  | .createConnection => some Session.rollback
  | .beginTransaction => some Session.start
  | .commit => some Session.commit
  | .rollback => some Session.rollback
  | .endConnection => some Session.rollback
  | _ => none

/-- What a read answers. Only whether there is a history with a hash column is known of the
information schema. -/
def Shows (disk : Disk) (d : Database σ) : (r : Read) → r.Value → Prop
  | .readdir location, files => files = disk.files location
  | .readFile location file, sql => sql = disk.content location file
  | .countColumns _ _, count => 0 < count ↔ d.Ready
  | .countIndexes _ _, _ => True
  | .selectApplied _ true, rows => d.Ready ∧ rows = d.applied
  | .selectApplied _ false, rows => rows = d.applied.map fun a => { a with hash := none }
  | .now, _ => True

/-- How the session answers. Any call may be rejected, also because the connection broke, and
then what it asked for may have been done. -/
inductive Answers (disk : Disk) : Session (Database σ) → (op : Op) → Answer op →
    Session (Database σ) → Prop
  | shown {s : Session (Database σ)} {r : Read} {v : r.Value} :
      Shows disk s.current r v → Answers disk s (.read r) (.ok v) s
  | executed {s s' : Session (Database σ)} {a : Act} {script : List (Statement (Database σ))} :
      statements parse a = some script → Session.executeAll script s = some s' →
      Answers disk s (.act a) (.ok ()) s'
  | failed {s s' : Session (Database σ)} {a : Act} {script : List (Statement (Database σ))}
      (e : String) : statements parse a = some script → Session.Fails script s s' →
      Answers disk s (.act a) (.error e) s'
  | controlled {s : Session (Database σ)} {a : Act}
      {f : Session (Database σ) → Session (Database σ)} :
      control a = some f → Answers disk s (.act a) (.ok ()) (f s)
  | broken {s : Session (Database σ)} {a : Act}
      {f : Session (Database σ) → Session (Database σ)} (e : String) :
      control a = some f → Answers disk s (.act a) (.error e) (f s).rollback
  | rejected (s : Session (Database σ)) (op : Op) (e : String) : Answers disk s op (.error e) s
  | lost (s : Session (Database σ)) (op : Op) (e : String) :
      Answers disk s op (.error e) s.rollback

/-- Whether the history has a column `hash`, as the information schema counts it. -/
def Database.hasHashColumn (d : Database σ) : Bool :=
  match d.history with
  | none => false
  | some h => h.hashColumn

/-- What an act comes to on a server that is never disturbed. -/
def obey (s : Session (Database σ)) (a : Act) : Except String Unit × Session (Database σ) :=
  match statements parse a with
  | some script =>
    match Session.executeAll script s with
    | some s' => (.ok (), s')
    | none => (.error "ER_UNKNOWN_ERROR", s)
  | none =>
    match control a with
    | some f => (.ok (), f s)
    | none => (.error "ER_UNKNOWN_ERROR", s)

/-- A server that is never disturbed, with every index there is. -/
def respond (disk : Disk) (s : Session (Database σ)) : (op : Op) → Answer op × Session (Database σ)
  | .read (.readdir location) => (.ok (disk.files location), s)
  | .read (.readFile location file) => (.ok (disk.content location file), s)
  | .read (.countColumns _ _) => (.ok (if s.current.hasHashColumn then 1 else 0), s)
  | .read (.countIndexes _ _) => (.ok 1, s)
  | .read (.selectApplied _ true) =>
    (if s.current.hasHashColumn then .ok s.current.applied else .error "Unknown column 'hash'", s)
  | .read (.selectApplied _ false) =>
    (.ok (s.current.applied.map fun a => { a with hash := none }), s)
  | .read .now => (.ok 0, s)
  | .act a => obey parse s a

theorem Database.hasHashColumn_iff (d : Database σ) : d.hasHashColumn = true ↔ d.Ready := by
  unfold hasHashColumn Ready
  split
  · rename_i h
    simp [h]
  · rename_i h
    simp [h]

theorem answers_respond (disk : Disk) (s : Session (Database σ)) (op : Op) :
    Answers parse disk s op (respond parse disk s op).1 (respond parse disk s op).2 := by
  rcases op with (_ | _ | _ | _ | ⟨table, withHash⟩ | _) | a
  · exact .shown rfl
  · exact .shown rfl
  · refine .shown ?_
    rw [Shows, ← Database.hasHashColumn_iff]
    cases s.current.hasHashColumn <;> simp
  · exact .shown trivial
  · cases withHash with
    | true =>
      unfold respond
      cases h : s.current.hasHashColumn with
      | true => exact .shown ⟨(Database.hasHashColumn_iff _).mp h, rfl⟩
      | false => exact .rejected _ _ _
    | false => exact .shown rfl
  · exact .shown trivial
  · show Answers parse disk s (.act a) (obey parse s a).1 (obey parse s a).2
    unfold obey
    split
    · rename_i script hscript
      split
      · exact .executed hscript ‹_›
      · exact .rejected _ _ _
    · split
      · exact .controlled ‹_›
      · exact .rejected _ _ _

end
end Migration
