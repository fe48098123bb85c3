import Mathlib.Data.List.Sort
import Pivotal.Async.Program
import Pivotal.Js.Map
import Pivotal.Js.Numeral

/-! The runner of the SQL migrations: the files it finds, the history table it keeps, and
what it asks of the file system and of the connection. -/
namespace Migration
open Async Js

structure DbMigrationSettings where
  database : String
  historyTable : Option String
  locations : List String

structure MigrationFile where
  version : String
  versionTuple : List Number
  description : String
  filename : String
  sql : String
  hash : String
  deriving DecidableEq

structure AppliedMigration where
  version : String
  script : String
  hash : Option String
  deriving DecidableEq

/-- Whether a recorded hash is `null` or empty. -/
def AppliedMigration.unhashed (applied : AppliedMigration) : Bool :=
  applied.hash = none || applied.hash = some ""

/-- `createHash('sha256').update(sql).digest('hex')` -/
structure Sha256 where
  hex : String → String
  length : ∀ sql, (hex sql).length = 64

inductive Read where
  | readdir (location : String)
  | readFile (location file : String)
  | countColumns (table column : String)
  | countIndexes (table index : String)
  | selectApplied (table : String) (withHash : Bool)
  | now
  deriving DecidableEq

@[reducible] def Read.Value : Read → Type
  | .readdir _ => List String
  | .readFile _ _ => String
  | .countColumns _ _ => ℕ
  | .countIndexes _ _ => ℕ
  | .selectApplied _ _ => List AppliedMigration
  | .now => ℤ

inductive Act where
  | createConnection
  | createHistory (table : String) (hashRequired : Bool)
  | addHash (table : String)
  | updateHash (table hash version : String)
  | requireHash (table : String)
  | addHashIndex (table index : String)
  | dropIndex (table index : String)
  | beginTransaction
  | query (sql : String)
  | insertMigration (table : String) (migration : MigrationFile) (executionTime : ℤ)
  | commit
  | rollback
  | endConnection
  deriving DecidableEq

/-- What a run awaits. A rejection is an `Error`, of which only the message is read. -/
inductive Op where
  | read (r : Read)
  | act (a : Act)
  deriving DecidableEq

@[reducible] def Value : Op → Type
  | .read r => r.Value
  | .act _ => Unit

@[reducible] def Answer (op : Op) : Type := Except String (Value op)

abbrev MigrationProgram := Program Op Answer String

def read (r : Read) : MigrationProgram (Value (.read r)) :=
  Program.perform (Op.read r) >>= fun answer => Program.lift answer

def act (a : Act) : MigrationProgram (Value (.act a)) :=
  Program.perform (Op.act a) >>= fun answer => Program.lift answer

namespace DbMigration

/-- Where the version is read up to: nothing yet, a digit, or `_` after one. -/
inductive VersionState where
  | start | digit | underscore
  deriving DecidableEq

/-- `([\d]+(?:_[\d]+)*)__`, and what follows it. -/
def matchVersion : VersionState → List Char → Option (List Char × List Char)
  | _, [] => none
  | state, c :: cs =>
    if isDigit c then
      (matchVersion .digit cs).map fun (version, rest) =>
        ((if state = .underscore then ['_', c] else [c]) ++ version, rest)
    else if c = '_' then
      match state with
      | .start => none
      | .digit => matchVersion .underscore cs
      | .underscore => some ([], cs)
    else none

def isLineTerminator (c : Char) : Bool :=
  c = '\n' || c = '\r' || c.toNat = 0x2028 || c.toNat = 0x2029

/-- `(.+)\.sql$` -/
def matchDescription (cs : List Char) : Option (List Char) :=
  let description := cs.take (cs.length - 4)
  if (cs.drop (cs.length - 4)).map Char.toLower = ".sql".toList ∧ description ≠ [] ∧
      description.all (!isLineTerminator ·) = true
  then some description
  else none

/-- `/^V([\d]+(?:_[\d]+)*)__(.+)\.sql$/i`: the version and the description. -/
def matchFilename (file : String) : Option (List Char × List Char) :=
  match file.toList with
  | [] => none
  | c :: cs =>
    if c.toLower = 'v' then
      (matchVersion .start cs).bind fun (version, rest) =>
        (matchDescription rest).map fun description => (version, description)
    else none

def replaceChar (c c' : Char) (cs : List Char) : List Char :=
  cs.map fun d => if d = c then c' else d

def parseVersionTuple (raw : List Char) : List Number :=
  (split '_' (replaceChar '.' '_' raw)).map fun part => Number.ofText (String.ofList part)

/-- The sign of `a - b`; `NaN` has none. -/
def difference : Number → Number → Option Ordering
  | .nan, _ => none
  | _, .nan => none
  | .infinite s, .infinite t => if s = t then none else some (if s then .lt else .gt)
  | .infinite s, .finite _ _ _ => some (if s then .lt else .gt)
  | .finite _ _ _, .infinite t => some (if t then .gt else .lt)
  | .finite s q _, .finite t r _ => some (compare (if s then -q else q) (if t then -r else r))

/-- The sign of the first difference that is not zero; a missing component is `0`. -/
def compareVersions (a b : List Number) : Option Ordering :=
  let zero := Number.ofText "0"
  let diffs := (List.range (max a.length b.length)).map fun i =>
    difference (a.getD i zero) (b.getD i zero)
  (diffs.find? fun diff => diff ≠ some .eq).getD (some .eq)

/-- What `sort` leaves in this order. -/
def Before (m m' : MigrationFile) : Prop :=
  compareVersions m.versionTuple m'.versionTuple ≠ some .gt

instance : DecidableRel Before := fun m m' =>
  inferInstanceAs (Decidable (compareVersions m.versionTuple m'.versionTuple ≠ some .gt))

section

variable (sha256 : Sha256)

/-- What a file of a matching name is pushed as. -/
def migrationFile (file sql : String) (version description : List Char) : MigrationFile where
  version := String.ofList (replaceChar '_' '.' version)
  versionTuple := parseVersionTuple version
  description := String.ofList (replaceChar '_' ' ' description)
  filename := file
  sql := sql
  hash := sha256.hex sql

def readMigration (location : String) (migrations : List MigrationFile) (file : String) :
    MigrationProgram (List MigrationFile) :=
  match matchFilename file with
  | none => pure migrations
  | some (version, description) => do
    let sql ← read (.readFile location file)
    pure (migrations ++ [migrationFile sha256 file sql version description])

def readLocation (migrations : List MigrationFile) (location : String) :
    MigrationProgram (List MigrationFile) := do
  let files ← tryCatch (read (.readdir location)) fun _ =>
    throw ("Migration location not found or unreadable: " ++ location)
  files.foldlM (readMigration sha256 location) migrations

def discoverMigrations (locations : List String) : MigrationProgram (List MigrationFile) := do
  let migrations ← locations.foldlM (readLocation sha256) []
  pure (migrations.insertionSort Before)

end

def escapeIdentifier (value : String) : String :=
  String.ofList (value.toList.flatMap fun c => if c.toNat = 96 then [c, c] else [c])

def hasColumn (table column : String) : MigrationProgram Bool := do
  let count ← read (.countColumns table column)
  pure (0 < count)

def hasIndex (table index : String) : MigrationProgram Bool := do
  let count ← read (.countIndexes table index)
  pure (0 < count)

def getAppliedMigrations (table : String) : MigrationProgram (List AppliedMigration) := do
  let escapedTable := escapeIdentifier table
  let hasHashColumn ← hasColumn table "hash"
  act (.createHistory escapedTable hasHashColumn)
  read (.selectApplied escapedTable hasHashColumn)

def backfillHash (table : String) (migrationsByVersion : Map String MigrationFile)
    (appliedMigration : AppliedMigration) : MigrationProgram Unit :=
  if appliedMigration.unhashed then
    match migrationsByVersion.get appliedMigration.version with
    | none => throw ("Unable to backfill hash for applied migration version " ++
        appliedMigration.version ++ " in history table \"" ++ table ++
        "\" because the migration file is not available.")
    | some migration =>
      act (.updateHash (escapeIdentifier table) migration.hash appliedMigration.version)
  else pure ()

/-- `new Map(items.map((item) => [key(item), item]))` -/
def mapBy {α : Type} (key : α → String) (items : List α) : Map String α :=
  items.foldl (fun m item => m.set (key item) item) Map.empty

/-- The applied migrations, once the history has its column `hash`. -/
def withHashColumn (table : String) : MigrationProgram (List AppliedMigration) := do
  let applied ← getAppliedMigrations table
  let hasHashColumn ← hasColumn table "hash"
  if hasHashColumn then pure applied else do
    act (.addHash (escapeIdentifier table))
    getAppliedMigrations table

def addMissingIndex (table hashIndex : String) : MigrationProgram Unit := do
  let found ← hasIndex table hashIndex
  if found then pure () else act (.addHashIndex (escapeIdentifier table) hashIndex)

def dropOldIndex (table scriptIndex : String) : MigrationProgram Unit := do
  let found ← hasIndex table scriptIndex
  if found then act (.dropIndex (escapeIdentifier table) scriptIndex) else pure ()

def ensureHistoryTable (table : String) (migrations : List MigrationFile) :
    MigrationProgram Unit := do
  let escapedTable := escapeIdentifier table
  let migrationsByVersion := mapBy MigrationFile.version migrations
  let applied ← withHashColumn table
  applied.foldlM
    (fun _ appliedMigration => backfillHash table migrationsByVersion appliedMigration) ()
  act (.requireHash escapedTable)
  addMissingIndex table (escapedTable ++ "_hash_uk")
  dropOldIndex table (escapedTable ++ "_script_uk")

def recordMigration (table : String) (migration : MigrationFile) (executionTime : ℤ) :
    MigrationProgram Unit :=
  act (.insertMigration (escapeIdentifier table) migration executionTime)

/-- The variables of the loop over the files. -/
structure Progress where
  appliedByVersion : Map String AppliedMigration
  appliedByHash : Map String AppliedMigration
  migrationsExecuted : ℕ

/-- The query, the record and the commit of one file. -/
def executeMigration (historyTable : String) (migration : MigrationFile) (start : ℤ) :
    MigrationProgram Unit := do
  act (.query migration.sql)
  let finished ← read .now
  recordMigration historyTable migration (finished - start)
  act .commit

def applied (migration : MigrationFile) : AppliedMigration where
  version := migration.version
  script := migration.filename
  hash := some migration.hash

def Progress.recorded (progress : Progress) (migration : MigrationFile) : Progress where
  appliedByVersion := progress.appliedByVersion.set migration.version (applied migration)
  appliedByHash := progress.appliedByHash.set migration.hash (applied migration)
  migrationsExecuted := progress.migrationsExecuted + 1

/-- A file that is not in the history, in a transaction of its own. -/
def runMigration (historyTable : String) (progress : Progress) (migration : MigrationFile) :
    MigrationProgram Progress := do
  let start ← read .now
  act .beginTransaction
  tryCatch (executeMigration historyTable migration start) fun error => do
    act .rollback
    throw ("Migration " ++ migration.filename ++ " failed: " ++ error)
  pure (progress.recorded migration)

/-- `${hash}` of a hash that may be `null`. -/
def hashText (hash : Option String) : String := hash.getD "null"

def migrateOne (historyTable : String) (progress : Progress) (migration : MigrationFile) :
    MigrationProgram Progress :=
  match progress.appliedByVersion.get migration.version with
  | some appliedMigration =>
    if appliedMigration.hash = some migration.hash then pure progress
    else throw ("Migration version conflict: version " ++ migration.version ++
      " was previously applied as \"" ++ appliedMigration.script ++ "\" with hash \"" ++
      hashText appliedMigration.hash ++ "\" but the current file is \"" ++ migration.filename ++
      "\" with hash \"" ++ migration.hash ++ "\".")
  | none =>
    match progress.appliedByHash.get migration.hash with
    | some appliedHashMigration =>
      throw ("Migration content conflict: hash \"" ++ migration.hash ++
        "\" was previously applied as version " ++ appliedHashMigration.version ++ " in \"" ++
        appliedHashMigration.script ++ "\" but the current file is \"" ++ migration.filename ++
        "\" with version " ++ migration.version ++ ".")
    | none => runMigration historyTable progress migration

structure Result where
  database : String
  migrationsExecuted : ℕ
  deriving DecidableEq

section

variable (sha256 : Sha256)

/-- What `migrate` does between opening and closing the connection. -/
def migrateConnected (settings : DbMigrationSettings) (historyTable : String) :
    MigrationProgram Result := do
  let all ← discoverMigrations sha256 settings.locations
  ensureHistoryTable historyTable all
  let applied ← getAppliedMigrations historyTable
  let progress ← all.foldlM (migrateOne historyTable)
    { appliedByVersion := mapBy AppliedMigration.version applied
      appliedByHash := mapBy (fun a => a.hash.getD "") (applied.filter fun a => !a.unhashed)
      migrationsExecuted := 0 }
  pure ⟨settings.database, progress.migrationsExecuted⟩

def migrate (settings : DbMigrationSettings) : MigrationProgram Result := do
  act .createConnection
  (migrateConnected sha256 settings (settings.historyTable.getD "migration_history")).tryFinally
    (act .endConnection)

end

end DbMigration
end Migration
