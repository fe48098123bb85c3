import Mathlib.Data.List.Lex
import Mathlib.Order.Basic
import Pivotal.Audit.Keyset

/-! The legs of a scope are sorted by the database, which compares texts by the weights of a
collation, and merged by the program, which compares them by their code units. -/
namespace Audit
open Fspiop Store
open FindTransactionsQuery TransactionRepository

/-- A database, with the weight by which it compares a text. -/
structure CollatedDatabase where
  Weight : Type
  order : LinearOrder Weight
  weight : String → Weight
  toBigint : String → ℤ
  toBigint_toString : ∀ id : ℕ, toBigint (toString id) = id

namespace CollatedDatabase

instance (db : CollatedDatabase) : LinearOrder db.Weight := db.order

def codeUnits (text : String) : List ℕ := (Js.units text).map UInt16.toNat

theorem codeUnits_injective : Function.Injective codeUnits := by
  intro s t h
  exact Js.units_injective (List.map_injective_iff.mpr (fun _ _ => UInt16.toNat_inj.mp) h)

/-- The order of texts in the program. -/
@[reducible] def unitsOrder : LinearOrder String := LinearOrder.lift' codeUnits codeUnits_injective

/-- The database as the program takes it to be, with its own order of texts. -/
def program (db : CollatedDatabase) : Database where
  collation := unitsOrder
  toBigint := db.toBigint
  toBigint_toString := db.toBigint_toString

/-- A database that compares texts by an order of theirs: the weights are the texts. -/
def ofDatabase (db : Database) : CollatedDatabase where
  Weight := String
  order := db.collation
  weight text := text
  toBigint := db.toBigint
  toBigint_toString := db.toBigint_toString

variable {J ν μ : Type} (db : CollatedDatabase)

/-- What the database compares a value by. -/
@[reducible] def Value : SortKind → Type
  | .datetime => Js.Date
  | .string => db.Weight

instance : (kind : SortKind) → LinearOrder (db.Value kind)
  | .datetime => Int.instLinearOrder
  | .string => inferInstanceAs (LinearOrder db.Weight)

def read : (kind : SortKind) → kind.Value db.program → db.Value kind
  | .datetime, date => date
  | .string, text => db.weight text

variable (column : SortMeta J ν db.program)

/-- The value of a column to the database. -/
def value (row : Transaction J ν) : Option (db.Value column.kind) :=
  (column.value row).map (db.read column.kind)

/-- What `ORDER BY` sorts by, with `NULL` before every value. -/
def key (row : Transaction J ν) : WithBot (db.Value column.kind) ×ₗ ℕ :=
  toLex (latest (db.value column row), row.id)

/-- `ORDER BY column direction, id direction` -/
def orderBy (direction : Direction) (a b : Transaction J ν) : Bool :=
  match direction with
  | .asc => db.key column a ≤ db.key column b
  | .desc => db.key column b ≤ db.key column a

/-- The order of the database. -/
def Precedes (direction : Direction) (a b : Transaction J ν) : Prop :=
  match direction with
  | .asc => db.key column a < db.key column b
  | .desc => db.key column b < db.key column a

instance (direction : Direction) : IsStrictOrder (Transaction J ν) (db.Precedes column direction) where
  irrefl a := by cases direction <;> exact lt_irrefl (db.key column a)
  trans a b c hab hbc := by
    cases direction with
    | asc => exact lt_trans hab hbc
    | desc => exact lt_trans hbc hab

/-- `keysetWhere`, as the database evaluates it. -/
def keysetWhere (runtime : Runtime μ) (effectiveDir : Direction) (cursor : DecodedCursor)
    (row : Transaction J ν) : Bool :=
  keysetSql column.nullable effectiveDir cursor.v.isNone
    ((cursor.v.bind (column.kind.ofText runtime)).map (db.read column.kind))
    (db.toBigint cursor.id) (db.value column row) row.id

/-- The first rows with a property, in the order of the database. -/
def fetch (rows : List (Transaction J ν)) (p : Transaction J ν → Bool) (direction : Direction)
    (limit : ℕ) : List (Transaction J ν) :=
  ((rows.filter p).mergeSort (db.orderBy column direction)).take limit

/-- The rows strictly beyond a cursor are those that come after its row. -/
theorem keysetWhere_iff {runtime : Runtime μ} {cursor : DecodedCursor} {r : Transaction J ν}
    (h : cursor.Names runtime column r) (direction : Direction) (s : Transaction J ν) :
    db.keysetWhere column runtime direction cursor s = true ↔ db.Precedes column direction r s := by
  have hid : db.toBigint cursor.id = r.id := h.id
  have hnull : cursor.v.isNone = (db.value column r).isNone := by
    rw [h.isNone, value, Option.isNone_map]
  have hsome : column.nullable = false → (db.value column s).isSome := by
    intro hnot
    rw [value, Option.isSome_map]
    exact column.isSome_value hnot s
  unfold keysetWhere
  rw [h.value, hid, hnull]
  exact (keysetSql_iff hsome direction r.id s.id).trans (by cases direction <;> rfl)

theorem lists_mergeSort (direction : Direction) {rows : List (Transaction J ν)}
    (hrows : (rows.map fun row => row.id).Nodup) :
    Lists (db.Precedes column direction) (· ∈ rows)
      (rows.mergeSort (db.orderBy column direction)) := by
  have hkey : ∀ {a b : Transaction J ν}, a ∈ rows → b ∈ rows → a ≠ b →
      db.key column a ≠ db.key column b := by
    intro a b ha hb hne hkey
    exact hne (List.inj_on_of_nodup_map hrows ha hb (congrArg Prod.snd (toLex.injective hkey)))
  apply Lists.ofMergeSort _ _ (List.Nodup.of_map _ hrows)
  · intro a ha b hb hab hne
    cases direction with
    | asc => exact lt_of_le_of_ne (of_decide_eq_true hab) (hkey ha hb hne)
    | desc => exact lt_of_le_of_ne (of_decide_eq_true hab) (hkey hb ha hne.symm)
  · intro a b c hab hbc
    cases direction with
    | asc => exact decide_eq_true ((of_decide_eq_true hab).trans (of_decide_eq_true hbc))
    | desc => exact decide_eq_true ((of_decide_eq_true hbc).trans (of_decide_eq_true hab))
  · intro a b
    rw [Bool.or_eq_true]
    cases direction with
    | asc => exact (le_total (db.key column a) (db.key column b)).imp decide_eq_true decide_eq_true
    | desc => exact (le_total (db.key column b) (db.key column a)).imp decide_eq_true decide_eq_true

/-- What is fetched begins the list of the rows with the property. -/
theorem exists_fetch (direction : Direction) {rows : List (Transaction J ν)}
    (hrows : (rows.map fun row => row.id).Nodup) (p : Transaction J ν → Bool) :
    ∃ l, Lists (db.Precedes column direction) (fun row => row ∈ rows ∧ p row = true) l ∧
      ∀ limit, db.fetch column rows p direction limit = l.take limit := by
  have hfiltered := hrows.sublist (List.filter_sublist (p := p).map _)
  refine ⟨_, (db.lists_mergeSort column direction hfiltered).congr fun row => ?_, fun _ => rfl⟩
  rw [List.mem_filter]

theorem mem_fetch_of_length_le (rows : List (Transaction J ν)) (p : Transaction J ν → Bool)
    (direction : Direction) (limit : ℕ) (h : rows.length ≤ limit) (row : Transaction J ν) :
    row ∈ db.fetch column rows p direction limit ↔ row ∈ rows ∧ p row = true := by
  have hlength : ((rows.filter p).mergeSort (db.orderBy column direction)).length ≤ limit := by
    rw [List.length_mergeSort]
    exact (List.length_filter_le p rows).trans h
  rw [fetch, List.take_of_length_le hlength, (List.mergeSort_perm _ _).mem_iff, List.mem_filter]

section OfDatabase

variable {J ν μ : Type} (db : Database)

theorem map_read_ofDatabase (date : Option Js.Date) :
    date.map ((ofDatabase db).read .datetime) = date := Option.map_id' ..

theorem keysetWhere_ofDatabase (runtime : Runtime μ) (column : Column) (direction : Direction)
    (cursor : DecodedCursor) (row : Transaction J ν) :
    (ofDatabase db).keysetWhere (sortMeta _ column) runtime direction cursor row =
      TransactionRepository.keysetWhere runtime (sortMeta db column) direction cursor row := by
  obtain ⟨v, id⟩ := cursor
  unfold keysetWhere value
  cases column with
  | correlationId => cases v <;> rfl
  | transactionStartAt =>
    dsimp only [sortMeta]
    rw [map_read_ofDatabase, map_read_ofDatabase]
    rfl
  | transactionCompletedAt =>
    dsimp only [sortMeta]
    rw [map_read_ofDatabase, map_read_ofDatabase]
    rfl

theorem orderBy_ofDatabase (column : Column) (direction : Direction) :
    (ofDatabase db).orderBy (J := J) (ν := ν) (sortMeta _ column) direction =
      TransactionRepository.orderBy (sortMeta db column) direction := by
  funext a b
  cases column with
  | correlationId => rfl
  | transactionStartAt => rfl
  | transactionCompletedAt =>
    have hkey : ∀ row : Transaction J ν,
        (ofDatabase db).key (sortMeta _ .transactionCompletedAt) row =
          (sortMeta db .transactionCompletedAt).key row := by
      intro row
      unfold key value
      dsimp only [sortMeta]
      rw [map_read_ofDatabase]
      rfl
    have hle : ∀ row row' : Transaction J ν,
        (ofDatabase db).key (sortMeta _ .transactionCompletedAt) row ≤
          (ofDatabase db).key (sortMeta _ .transactionCompletedAt) row' ↔
        (sortMeta db .transactionCompletedAt).key row ≤
          (sortMeta db .transactionCompletedAt).key row' := by
      intro row row'
      rw [hkey, hkey]
      exact Iff.rfl
    cases direction with
    | asc => exact decide_eq_decide.mpr (hle a b)
    | desc => exact decide_eq_decide.mpr (hle b a)

end OfDatabase

end CollatedDatabase

namespace TransactionRepository

variable {J ν μ : Type} (db : CollatedDatabase) (runtime : Runtime μ)
  (table : Table fun row : Transaction J ν => row.id) (p q : Transaction J ν → Bool)
  (column : Column) (direction : Direction) (size : ℕ)

variable {db column direction} in
theorem precedes_of_date (h : column ≠ .correlationId) {a b : Transaction J ν}
    (hab : db.Precedes (sortMeta db.program column) direction a b) :
    Precedes (sortMeta db.program column) direction a b := by
  cases column with
  | correlationId => exact absurd rfl h
  | transactionStartAt => cases direction <;> exact hab
  | transactionCompletedAt =>
    have hkey : ∀ row : Transaction J ν, db.key (sortMeta db.program .transactionCompletedAt) row =
        (sortMeta db.program .transactionCompletedAt).key row := by
      intro row
      show toLex (latest (row.transactionCompletedAt.map fun date => date), row.id) = _
      rw [Option.map_id']
      rfl
    unfold CollatedDatabase.Precedes at hab
    unfold Precedes
    rw [← hkey, ← hkey]
    exact hab

/-- A page of a scope: the first of the rows of two legs, and one more. -/
def mergedRows : List (Transaction J ν) :=
  mergeLegs (db.fetch (sortMeta db.program column) table.rows p direction (size + 1))
    (db.fetch (sortMeta db.program column) table.rows q direction (size + 1))
    (sortMeta db.program column) direction (size + 1)

/-- The merge begins as the rows of both legs do in the order of the database, and of these rows
each is either on the page or beyond the cursor of its last row. -/
structure MergesInOrder : Prop where
  merged : mergedRows db table p q column direction size =
    db.fetch (sortMeta db.program column) table.rows (fun row => p row || q row) direction (size + 1)
  continued : ∀ r ∈ ((mergedRows db table p q column direction size).take size).getLast?,
    ∀ token, encodeCursor runtime r (sortMeta db.program column) = .ok token →
      ∀ cursor, decodeCursor runtime token = .ok cursor →
        ∀ s ∈ table.rows, p s = true ∨ q s = true →
          (s ∈ (mergedRows db table p q column direction size).take size ↔
            db.keysetWhere (sortMeta db.program column) runtime direction cursor s = false)

/-- What comes after one of the first rows in the database comes after it in the program. -/
def OrderedAlike : Prop :=
  ∀ a ∈ db.fetch (sortMeta db.program column) table.rows (fun row => p row || q row) direction
      (size + 1),
    ∀ b, b ∈ db.fetch (sortMeta db.program column) table.rows p direction (size + 1) ∨
        b ∈ db.fetch (sortMeta db.program column) table.rows q direction (size + 1) →
      db.Precedes (sortMeta db.program column) direction a b →
        Precedes (sortMeta db.program column) direction a b

/-- Dates are compared alike. -/
theorem orderedAlike_of_date (h : column ≠ .correlationId) :
    OrderedAlike db table p q column direction size :=
  fun _ _ _ _ hab => precedes_of_date h hab

variable {db table p q column direction size}

/-- The rows of the legs, in the order of the program and in that of the database. -/
theorem mergedRows_eq_iff : mergedRows db table p q column direction size =
      db.fetch (sortMeta db.program column) table.rows (fun row => p row || q row) direction
        (size + 1) ↔
    OrderedAlike db table p q column direction size := by
  obtain ⟨payers, hpayers, hpayerLeg⟩ := db.exists_fetch (sortMeta db.program column) direction
    table.distinct p
  obtain ⟨payees, hpayees, hpayeeLeg⟩ := db.exists_fetch (sortMeta db.program column) direction
    table.distinct q
  obtain ⟨l, hl, hfetch⟩ := db.exists_fetch (sortMeta db.program column) direction
    table.distinct fun row => p row || q row
  have hunion := hl.congr (q := fun row => (row ∈ table.rows ∧ p row = true) ∨
    (row ∈ table.rows ∧ q row = true)) fun row => by rw [Bool.or_eq_true, and_or_left]
  -- The first rows of the legs have the first rows of both.
  obtain ⟨u, hu, htake⟩ := hunion.take_union hpayers hpayees (size + 1)
  have hpayer : ∀ row ∈ payers.take (size + 1), row ∈ table.rows := fun row hrow =>
    ((hpayers.mem row).mp (List.mem_of_mem_take hrow)).1
  have hpayee : ∀ row ∈ payees.take (size + 1), row ∈ table.rows := fun row hrow =>
    ((hpayees.mem row).mp (List.mem_of_mem_take hrow)).1
  classical
  obtain ⟨v, hv⟩ := exists_lists (sortMeta db.program column) direction table.distinct fun row =>
    row ∈ payers.take (size + 1) ∨ row ∈ payees.take (size + 1)
  have hv := hv.congr (q := fun row => row ∈ payers.take (size + 1) ∨ row ∈ payees.take (size + 1))
    fun row => by
      rw [decide_eq_true_eq]
      exact and_iff_right_of_imp fun hrow => hrow.elim (hpayer row) (hpayee row)
  unfold mergedRows OrderedAlike
  rw [hpayerLeg, hpayeeLeg, hfetch, mergeLegs_eq table.distinct hpayer hpayee hv, ← htake]
  exact hu.take_eq_iff hv (size + 1)

/-- A page of the database and what is beyond the cursor of its last row are all rows. -/
theorem mem_page_iff (hmerged : mergedRows db table p q column direction size =
      db.fetch (sortMeta db.program column) table.rows (fun row => p row || q row) direction
        (size + 1))
    {r : Transaction J ν}
    (hr : ((mergedRows db table p q column direction size).take size).getLast? = some r)
    {cursor : DecodedCursor} (hcursor : cursor.Names runtime (sortMeta db.program column) r)
    {s : Transaction J ν} (hs : s ∈ table.rows ∧ (p s || q s) = true) :
    s ∈ (mergedRows db table p q column direction size).take size ↔
      db.keysetWhere (sortMeta db.program column) runtime direction cursor s = false := by
  obtain ⟨l, hl, hfetch⟩ := db.exists_fetch (sortMeta db.program column) direction
    table.distinct fun row => p row || q row
  rw [hmerged, hfetch, List.take_take, min_eq_left (Nat.le_succ size)] at hr ⊢
  obtain ⟨before, hpage⟩ := List.getLast?_eq_some_iff.mp hr
  have hsplit : l = before ++ r :: l.drop size := by
    conv_lhs => rw [← List.take_append_drop size l, hpage, List.append_assoc]
    rfl
  have hbeyond := hl
  rw [hsplit] at hbeyond
  have hafter := hbeyond.beyond.mem s
  have hnodup := hl.nodup
  rw [← List.take_append_drop size l, List.nodup_append] at hnodup
  have hmem := (hl.mem s).mpr hs
  rw [← List.take_append_drop size l, List.mem_append] at hmem
  rw [← Bool.not_eq_true, db.keysetWhere_iff (sortMeta db.program column) hcursor]
  constructor
  · intro hpage hlt
    exact hnodup.2.2 s hpage s (hafter.mpr ⟨hs, hlt⟩) rfl
  · intro hnot
    exact hmem.resolve_right fun hdrop => hnot (hafter.mp hdrop).2

/-- The merge is that of the database exactly if the first rows are ordered in the program as they are
in the database. -/
theorem merges_in_order_iff (db : CollatedDatabase) (runtime : Runtime μ)
    (table : Table fun row : Transaction J ν => row.id) (p q : Transaction J ν → Bool)
    (column : Column) (direction : Direction) (size : ℕ) :
    MergesInOrder db runtime table p q column direction size ↔
      OrderedAlike db table p q column direction size := by
  rw [← mergedRows_eq_iff]
  constructor
  · exact fun h => h.merged
  · intro hmerged
    constructor
    · exact hmerged
    · intro r hr token htoken cursor hcursor s hs hpq
      obtain ⟨cursor', hcursor', hnames⟩ := decodeCursor_encodeCursor htoken
      obtain rfl := Except.ok.inj (hcursor.symm.trans hcursor')
      exact mem_page_iff runtime hmerged hr hnames ⟨hs, Bool.or_eq_true_iff.mpr hpq⟩

section Sample

/-- A collation that does not tell capitals from small letters. -/
def sampleCollated : CollatedDatabase where
  Weight := List ℕ
  order := inferInstance
  weight text := CollatedDatabase.codeUnits (Js.toLowerCase text)
  toBigint text := (Js.parseBigInt text).getD 0
  toBigint_toString := Js.getD_parseBigInt_toString

def sampleLegRow (id : ℕ) (correlationId payer payee : String) : Transaction Unit ℤ where
  id := id
  correlationId := correlationId
  payer := { fsp := payer }
  payee := { fsp := payee }
  transactionStartedAt := 0
  error := false
  possibleDispute := false
  disputeResolvedAt := none
  createdAt := 0
  updatedAt := 0

/-- A payment by the bank and one to it. -/
def sampleLegs : Table fun row : Transaction Unit ℤ => row.id where
  rows := [sampleLegRow 1 "a" "bank" "shop", sampleLegRow 2 "B" "shop" "bank"]
  distinct := by decide

theorem precedes_sample : sampleCollated.Precedes (sortMeta sampleCollated.program .correlationId) .asc
    (sampleLegRow 1 "a" "bank" "shop") (sampleLegRow 2 "B" "shop" "bank") :=
  Prod.Lex.left _ _ (by decide)

theorem not_precedes_sample : ¬ Precedes (sortMeta sampleCollated.program .correlationId) .asc
    (sampleLegRow 1 "a" "bank" "shop") (sampleLegRow 2 "B" "shop" "bank") := by
  intro hprogram
  have hunits : ¬ CollatedDatabase.codeUnits "a" < CollatedDatabase.codeUnits "B" := by decide
  rcases (key_lt_iff _ _ _).mp hprogram with (hlt | ⟨hnone, -⟩) | ⟨heq, -⟩
  · exact hunits (of_decide_eq_true hlt)
  · cases hnone
  · exact absurd (Option.some.inj heq) (by decide : ("a" : String) ≠ "B")

/-- The database has `a` before `B`, and the program `B` before `a`. -/
theorem not_merges_in_order : ¬ ∀ (db : CollatedDatabase) (runtime : Runtime Unit)
    (table : Table fun row : Transaction Unit ℤ => row.id) (fspId : String) (column : Column)
    (direction : Direction) (size : ℕ),
    MergesInOrder db runtime table (fun row => row.payer.fsp = fspId) (fun row => row.payee.fsp = fspId)
      column direction size := by
  intro h
  have hmerged := (h sampleCollated ⟨.unit, fun _ => none, fun _ => ""⟩ sampleLegs "bank"
    .correlationId .asc 1).merged
  have halike := mergedRows_eq_iff.mp hmerged
  have hfirst := sampleCollated.mem_fetch_of_length_le (sortMeta _ .correlationId) sampleLegs.rows
    (fun row => row.payer.fsp = "bank" || row.payee.fsp = "bank") .asc 2 (by decide)
    (sampleLegRow 1 "a" "bank" "shop")
  have hsecond := sampleCollated.mem_fetch_of_length_le (sortMeta _ .correlationId) sampleLegs.rows
    (fun row => row.payee.fsp = "bank") .asc 2 (by decide) (sampleLegRow 2 "B" "shop" "bank")
  exact not_precedes_sample (halike _ (hfirst.mpr ⟨.head _, by decide⟩) _
    (.inr (hsecond.mpr ⟨.tail _ (.head _), by decide⟩)) precedes_sample)

end Sample

end TransactionRepository
end Audit
