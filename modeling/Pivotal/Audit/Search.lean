import Mathlib.Data.Prod.Lex
import Mathlib.Data.Rat.Floor
import Pivotal.Audit.Transaction
import Pivotal.Js.Buffer
import Pivotal.Js.Map
import Pivotal.Js.RoundTrip
import Pivotal.Store.Keyset
import Pivotal.Store.Table

/-! The search for transactions: pages of the rows that match a filter, read from one cursor to
the next. -/
namespace Audit
open Fspiop Store

/-- The database, as far as a search depends on it: the order of its texts, which is that of the
program as well, and the integer that it reads a text as. -/
structure Database where
  collation : LinearOrder String
  toBigint : String → ℤ
  toBigint_toString : ∀ id : ℕ, toBigint (toString id) = id

/-- The texts of a database. -/
def Database.Text (_ : Database) : Type := String

instance (db : Database) : LinearOrder db.Text := db.collation

/-- The values of JSON in the program: the dates of texts that are not in the ISO format, and the
texts of values that are none. -/
structure Runtime (μ : Type) where
  numbers : Js.Numbers μ
  otherDate : String → Option Js.Date
  otherText : Js.Value μ → String

/-- `String(value)` -/
def Runtime.toText {μ : Type} (runtime : Runtime μ) : Js.Value μ → String
  | .string s => Js.ofUnits s
  | value => runtime.otherText value

namespace FindTransactionsQuery

structure AccessScope where
  fspId : String
  deriving DecidableEq

structure DateRange where
  startInclusive : Option Js.Date
  endExclusive : Option Js.Date
  deriving DecidableEq

/-- A criterion for a nullable `subId` can ask for `NULL`. -/
structure Criteria where
  payerFsp : Option String := none
  payeeFsp : Option String := none
  payerIdType : Option PartyIdType := none
  payerId : Option String := none
  payerSubId : Option (Option String) := none
  payeeIdType : Option PartyIdType := none
  payeeId : Option String := none
  payeeSubId : Option (Option String) := none
  transferId : Option String := none
  payerHomeTransactionId : Option String := none
  payeeHomeTransactionId : Option String := none
  flow : Option ℤ := none
  transferType : Option TransactionScenario := none
  subScenario : Option String := none
  transactionStartAt : Option DateRange := none
  error : Option Bool := none
  dispute : Option Bool := none
  deriving DecidableEq

inductive Position where
  | first | last | next | prev
  deriving DecidableEq

/-- The number that is asked for as the size of a page. -/
inductive Size where
  | nan
  | infinite (negative : Bool)
  | finite (value : ℚ)
  deriving DecidableEq

def Size.AtLeastOne : Size → Prop
  | .nan => False
  | .infinite negative => negative = false
  | .finite value => 1 ≤ value

structure Cursor where
  position : Position
  token : Option String
  size : Size
  deriving DecidableEq

inductive Column where
  | correlationId | transactionStartAt | transactionCompletedAt
  deriving DecidableEq

inductive Direction where
  | asc | desc
  deriving DecidableEq

def Direction.flip : Direction → Direction
  | .asc => .desc
  | .desc => .asc

structure Order where
  column : Column
  direction : Direction
  deriving DecidableEq

structure PageInfo where
  hasNext : Bool
  hasPrev : Bool
  startCursor : Option String
  endCursor : Option String
  deriving DecidableEq

structure Output (J ν : Type) where
  records : List (Transaction J ν)
  pageInfo : PageInfo
  deriving DecidableEq

end FindTransactionsQuery

/-- What a search throws. -/
inductive SearchError where
  | badRequest (code message : String)
  | rangeError
  deriving DecidableEq

namespace TransactionRepository
open FindTransactionsQuery

def defaultSize : ℕ := 20

def maxSize : ℕ := 200

def clampSize : Size → ℕ
  | .finite value => if value ≤ 0 then defaultSize else min value.floor.toNat maxSize
  | _ => defaultSize

inductive SortKind where
  | datetime | string

@[reducible] def SortKind.Value (db : Database) : SortKind → Type
  | .datetime => Js.Date
  | .string => db.Text

instance (db : Database) : (kind : SortKind) → LinearOrder (kind.Value db)
  | .datetime => Int.instLinearOrder
  | .string => inferInstanceAs (LinearOrder db.Text)

/-- The text of a value in a cursor. -/
def SortKind.toText {db : Database} : (kind : SortKind) → kind.Value db → Option String
  | .datetime, date => Js.toISOString date
  | .string, text => some text

/-- The value of a text in a cursor; an invalid date is passed as `NULL`. -/
def SortKind.ofText {μ : Type} (runtime : Runtime μ) {db : Database} :
    (kind : SortKind) → String → Option (kind.Value db)
  | .datetime, text => Js.parseDate runtime.otherDate text
  | .string, text => some text

variable {J ν μ : Type}

/-- A column to sort by. -/
structure SortMeta (J ν : Type) (db : Database) where
  kind : SortKind
  nullable : Bool
  value : Transaction J ν → Option (kind.Value db)
  isSome_value : nullable = false → ∀ row, (value row).isSome

def sortMeta (db : Database) : Column → SortMeta J ν db
  | .correlationId => ⟨.string, false, fun row => some row.correlationId, fun _ _ => rfl⟩
  | .transactionCompletedAt => ⟨.datetime, true, fun row => row.transactionCompletedAt, by simp⟩
  | .transactionStartAt =>
    ⟨.datetime, false, fun row => some row.transactionStartedAt, fun _ _ => rfl⟩

structure DecodedCursor where
  v : Option String
  id : String
  deriving DecidableEq

section Cursors

variable (runtime : Runtime μ) {db : Database}

/-- The payload `{v, id}` in base64. -/
def cursorToken (value : Js.Value μ) (id : String) : String :=
  (Js.Buffer.fromUtf8 (Js.Value.stringify runtime.numbers
    (.object [(Js.units "v", value), (Js.units "id", .string (Js.units id))]))).toBase64

def encodeCursor (record : Transaction J ν) (column : SortMeta J ν db) :
    Except SearchError String :=
  match column.value record with
  | none => .ok (cursorToken runtime .null (toString record.id))
  | some raw =>
    match column.kind.toText raw with
    | some text => .ok (cursorToken runtime (.string (Js.units text)) (toString record.id))
    | none => .error .rangeError

def invalidCursor : SearchError :=
  .badRequest "AUDIT_INVALID_CURSOR" "The pagination cursor is invalid."

/-- A field of an object, with nothing for null. -/
def field (fields : List (Js.Units × Js.Value μ)) (name : String) : Option (Js.Value μ) :=
  match fields.find? fun field => field.1 = Js.units name with
  | some (_, .null) => none
  | some (_, value) => some value
  | none => none

def decodeCursor (token : String) : Except SearchError DecodedCursor :=
  match Js.Value.parse runtime.numbers (Js.Buffer.fromBase64Url token).toUtf8 with
  | some (.object fields) =>
    match field fields "id" with
    | none => throw invalidCursor
    | some id => return ⟨(field fields "v").map runtime.toText, runtime.toText id⟩
  | _ => throw invalidCursor

end Cursors

section Search

variable {db : Database}

/-- `column < value` in SQL, which `NULL` does not satisfy. -/
def sqlLt {α : Type} [LinearOrder α] : Option α → Option α → Bool
  | some a, some b => a < b
  | _, _ => false

def sqlEq {α : Type} [DecidableEq α] : Option α → Option α → Bool
  | some a, some b => a = b
  | _, _ => false

/-- Whether a row is strictly beyond the cursor. -/
def keysetWhere (runtime : Runtime μ) (column : SortMeta J ν db) (effectiveDir : Direction)
    (cursor : DecodedCursor) (row : Transaction J ν) : Bool :=
  let col := column.value row
  let keysetCid := db.toBigint cursor.id
  let keysetCv := cursor.v.bind (column.kind.ofText runtime)
  match effectiveDir with
  | .desc =>
    if cursor.v.isNone then col.isNone && row.id < keysetCid
    else
      let core := sqlLt col keysetCv || (sqlEq col keysetCv && row.id < keysetCid)
      if column.nullable then core || col.isNone else core
  | .asc =>
    if cursor.v.isNone then col.isSome || (col.isNone && keysetCid < row.id)
    else sqlLt keysetCv col || (sqlEq col keysetCv && keysetCid < row.id)

/-- `andWhere('column = :value')`, where a value is given. -/
def equals {α : Type} [DecidableEq α] (value column : Option α) : Bool :=
  value.isNone || column = value

def applyDateRange (range : DateRange) (column : Js.Date) : Bool :=
  range.startInclusive.all (· ≤ column) && range.endExclusive.all (column < ·)

def applyCriteria (criteria : Criteria) (row : Transaction J ν) : Bool :=
  equals criteria.payerFsp (some row.payer.fsp) && equals criteria.payeeFsp (some row.payee.fsp) &&
  equals criteria.payerIdType row.payer.idType && equals criteria.payerId row.payer.id &&
  equals criteria.payerSubId (some row.payer.subId) &&
  equals criteria.payeeIdType row.payee.idType && equals criteria.payeeId row.payee.id &&
  equals criteria.payeeSubId (some row.payee.subId) &&
  equals criteria.transferId (some row.correlationId) &&
  equals criteria.payerHomeTransactionId row.payerHomeTransactionId &&
  equals criteria.payeeHomeTransactionId row.payeeHomeTransactionId &&
  equals criteria.flow (row.flow.map (↑)) && equals criteria.transferType row.transactionType &&
  equals criteria.subScenario row.subScenario &&
  criteria.transactionStartAt.all (applyDateRange · row.transactionStartedAt) &&
  equals criteria.error (some row.error) && equals criteria.dispute (some row.possibleDispute)

/-- The column of a leg and the participant it is scoped to. -/
structure Leg (J ν : Type) where
  property : Transaction J ν → String
  fspId : String

/-- What `ORDER BY` sorts by, with `NULL` before every value. -/
def SortMeta.key (column : SortMeta J ν db) (row : Transaction J ν) :
    WithBot (column.kind.Value db) ×ₗ ℕ :=
  toLex (latest (column.value row), row.id)

/-- `ORDER BY column direction, id direction` -/
def orderBy (column : SortMeta J ν db) (direction : Direction) (a b : Transaction J ν) : Bool :=
  match direction with
  | .asc => column.key a ≤ column.key b
  | .desc => column.key b ≤ column.key a

def fetchLeg (runtime : Runtime μ) (rows : List (Transaction J ν)) (criteria : Criteria)
    (column : SortMeta J ν db) (effectiveDir : Direction) (decoded : Option DecodedCursor)
    (fetchLimit : ℕ) (leg : Option (Leg J ν)) : List (Transaction J ν) :=
  ((rows.filter fun row => applyCriteria criteria row &&
      leg.all (fun leg => leg.property row = leg.fspId) &&
      decoded.all (keysetWhere runtime column effectiveDir · row)).mergeSort
    (orderBy column effectiveDir)).take fetchLimit

/-- The sign of what the comparison of `sort` returns. -/
def compareValues {α : Type} [LinearOrder α] (left right : Option α) (direction : Direction) :
    Ordering :=
  match left, right with
  | none, none => .eq
  | none, some _ => if direction = .desc then .gt else .lt
  | some _, none => if direction = .desc then .lt else .gt
  | some left, some right =>
    let comparison : Ordering := if left < right then .lt else if right < left then .gt else .eq
    if direction = .desc then comparison.swap else comparison

def compareId (left right : ℕ) (direction : Direction) : Ordering :=
  let comparison : Ordering := if left < right then .lt else if right < left then .gt else .eq
  if direction = .desc then comparison.swap else comparison

def compareForMerge (column : SortMeta J ν db) (direction : Direction)
    (left right : Transaction J ν) : Ordering :=
  let valueComparison := compareValues (column.value left) (column.value right) direction
  if valueComparison ≠ .eq then valueComparison else compareId left.id right.id direction

/-- The two legs by their ids, where a row of both is there once. -/
def byId (payerLeg payeeLeg : List (Transaction J ν)) : Js.Map ℕ (Transaction J ν) :=
  let payers := payerLeg.foldl (fun byId record => byId.set record.id record) Js.Map.empty
  payeeLeg.foldl (fun byId record =>
    if (byId.get record.id).isNone then byId.set record.id record else byId) payers

def mergeLegs (payerLeg payeeLeg : List (Transaction J ν)) (column : SortMeta J ν db)
    (effectiveDir : Direction) (limit : ℕ) : List (Transaction J ν) :=
  (((byId payerLeg payeeLeg).entries.map Prod.snd).mergeSort fun left right =>
    (compareForMerge column effectiveDir left right).isLE).take limit

def buildPageInfo (runtime : Runtime μ) (position : Position) (hasMore : Bool)
    (page : List (Transaction J ν)) (column : SortMeta J ν db) : Except SearchError PageInfo := do
  let (hasNext, hasPrev) := match position with
    | .next => (hasMore, true)
    | .prev => (true, hasMore)
    | .last => (false, hasMore)
    | .first => (hasMore, false)
  let startCursor ← page.head?.mapM (encodeCursor runtime · column)
  let endCursor ← page.getLast?.mapM (encodeCursor runtime · column)
  return ⟨hasNext, hasPrev, startCursor, endCursor⟩

/-- The pages before a place are fetched in the reverse order. -/
def reverse (position : Position) : Bool := position = .prev || position = .last

def effectiveDir (order : Order) (position : Position) : Direction :=
  if reverse position then order.direction.flip else order.direction

def usesToken (position : Position) : Bool := position = .next || position = .prev

def decoded (runtime : Runtime μ) (cursor : Cursor) : Except SearchError (Option DecodedCursor) :=
  if usesToken cursor.position then cursor.token.mapM (decodeCursor runtime) else .ok none

/-- The rows that are fetched for a page, in one leg or in two. -/
def fetchRows (runtime : Runtime μ) (rows : List (Transaction J ν)) (criteria : Criteria)
    (column : SortMeta J ν db) (direction : Direction) (decoded : Option DecodedCursor)
    (fetchLimit : ℕ) (accessScope : Option AccessScope) : List (Transaction J ν) :=
  let fetch := fetchLeg runtime rows criteria column direction decoded fetchLimit
  match accessScope with
  | some scope => mergeLegs (fetch (some ⟨fun row => row.payer.fsp, scope.fspId⟩))
      (fetch (some ⟨fun row => row.payee.fsp, scope.fspId⟩)) column direction fetchLimit
  | none => fetch none

/-- The rows are those of the database that is read from. -/
def find (db : Database) (runtime : Runtime μ) (rows : List (Transaction J ν))
    (criteria : Criteria) (cursor : Cursor) (order : Order) (accessScope : Option AccessScope) :
    Except SearchError (Output J ν) := do
  let column := sortMeta db order.column
  let size := clampSize cursor.size
  let decoded ← decoded runtime cursor
  let fetched := fetchRows runtime rows criteria column (effectiveDir order cursor.position)
    decoded (size + 1) accessScope
  let hasMore : Bool := size < fetched.length
  let page := if hasMore then fetched.take size else fetched
  let page := if reverse cursor.position then page.reverse else page
  return ⟨page, ← buildPageInfo runtime cursor.position hasMore page column⟩

end Search
end TransactionRepository
end Audit
