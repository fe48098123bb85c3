import Mathlib.Data.List.Dedup
import Pivotal.Audit.Merge
import Pivotal.Audit.Paging
import Pivotal.Audit.ReportDownloads
import Pivotal.Audit.ReportFiles
import Pivotal.Audit.ReportParams

/-! The rows of a report: its files hold the rows that match, each once and in the order of the
database, exactly if the program merges every page of the two legs in that order. -/
namespace Audit
open Fspiop Store FindTransactionsQuery

namespace CollatedDatabase

variable {J ν : Type} (db : CollatedDatabase)

/-- `column = :value` of texts. -/
def equal (column value : String) : Bool := db.weight column = db.weight value

/-- `andWhere('column = :value')` of texts, where a value is given. -/
def equals (value column : Option String) : Bool :=
  TransactionRepository.equals (value.map db.weight) (column.map db.weight)

/-- `applyCriteria`, as the database evaluates it. -/
def applyCriteria (criteria : Criteria) (row : Transaction J ν) : Bool :=
  db.equals criteria.payerFsp (some row.payer.fsp) &&
  db.equals criteria.payeeFsp (some row.payee.fsp) &&
  TransactionRepository.equals criteria.payerIdType row.payer.idType &&
  db.equals criteria.payerId row.payer.id &&
  criteria.payerSubId.all (fun value =>
    if value.isNone then row.payer.subId.isNone else db.equals value row.payer.subId) &&
  TransactionRepository.equals criteria.payeeIdType row.payee.idType &&
  db.equals criteria.payeeId row.payee.id &&
  criteria.payeeSubId.all (fun value =>
    if value.isNone then row.payee.subId.isNone else db.equals value row.payee.subId) &&
  db.equals criteria.transferId (some row.correlationId) &&
  db.equals criteria.payerHomeTransactionId row.payerHomeTransactionId &&
  db.equals criteria.payeeHomeTransactionId row.payeeHomeTransactionId &&
  TransactionRepository.equals criteria.flow (row.flow.map (↑)) &&
  TransactionRepository.equals criteria.transferType row.transactionType &&
  db.equals criteria.subScenario row.subScenario &&
  criteria.transactionStartAt.all
    (TransactionRepository.applyDateRange · row.transactionStartedAt) &&
  TransactionRepository.equals criteria.error (some row.error) &&
  TransactionRepository.equals criteria.dispute (some row.possibleDispute)

/-- A row is selected by the filter and within the scope. -/
def Matches (criteria : Criteria) (accessScope : Option AccessScope) (row : Transaction J ν) : Prop :=
  db.applyCriteria criteria row = true ∧
    ∀ scope ∈ accessScope, db.equal row.payer.fsp scope.fspId = true ∨
      db.equal row.payee.fsp scope.fspId = true

section OfDatabase

variable (db : Database)

theorem equals_ofDatabase (value column : Option String) :
    (ofDatabase db).equals value column = TransactionRepository.equals value column := by
  have hvalue : value.map (ofDatabase db).weight = value := Option.map_id' ..
  have hcolumn : column.map (ofDatabase db).weight = column := Option.map_id' ..
  unfold equals
  rw [hvalue, hcolumn]
  exact congrArg (value.isNone || ·) (decide_eq_decide.mpr Iff.rfl)

theorem applyCriteria_ofDatabase (criteria : Criteria) (row : Transaction J ν) :
    (ofDatabase db).applyCriteria criteria row =
      TransactionRepository.applyCriteria criteria row := by
  have hsub : ∀ (value : Option (Option String)) (subId : Option String),
      (value.all fun value =>
        if value.isNone then subId.isNone else TransactionRepository.equals value subId) =
        TransactionRepository.equals value (some subId) := by
    rintro (_ | _ | value) (_ | subId) <;> simp [TransactionRepository.equals]
  simp only [applyCriteria, equals_ofDatabase, hsub]
  rfl

end OfDatabase

end CollatedDatabase

namespace TransactionRepository

variable {J ν μ : Type}

/-- The rows that a query without an order selects, as the database comes upon them. -/
structure Scan (rows : List (Transaction J ν)) where
  select : (Transaction J ν → Bool) → List (Transaction J ν)
  perm : ∀ p, (select p).Perm (rows.filter p)

abbrev ReportPage (J ν : Type) := Batch (Transaction J ν) String

section Queries

variable (db : CollatedDatabase) (runtime : Runtime μ) {rows : List (Transaction J ν)}
  (criteria : Criteria)

def payerLeg (scope : AccessScope) : Leg J ν := ⟨fun row => row.payer.fsp, scope.fspId⟩

def payeeLeg (scope : AccessScope) : Leg J ν := ⟨fun row => row.payee.fsp, scope.fspId⟩

/-- The condition of a leg. -/
def inLeg (leg : Option (Leg J ν)) (row : Transaction J ν) : Bool :=
  leg.all fun leg => db.equal (leg.property row) leg.fspId

structure Count where
  count : ℕ
  capped : Bool
  deriving DecidableEq

/-- The ids that a probe selects, of which it takes as many as decide whether there are too many. -/
def buildProbe (scan : Scan rows) (probeLimit : ℕ) (leg : Option (Leg J ν)) : List ℕ :=
  ((scan.select fun row => db.applyCriteria criteria row && inLeg db leg row).take probeLimit).map
    fun row => row.id

def count (scan : Scan rows) (maxLimit : ℕ) (accessScope : Option AccessScope) : Count :=
  let probeLimit := maxLimit + 1
  let matched := match accessScope with
    | some scope => ((buildProbe db criteria scan probeLimit (some (payerLeg scope)) ++
        buildProbe db criteria scan probeLimit (some (payeeLeg scope))).dedup).length
    | none => (buildProbe db criteria scan probeLimit none).length
  ⟨min matched maxLimit, maxLimit < matched⟩

def countForReport (scan : Scan rows) (maxLimit : ℕ) (accessScope : Option AccessScope) : Count :=
  count db criteria scan maxLimit accessScope

variable (rows) (column : SortMeta J ν db.program) (effectiveDir : Direction)
  (decoded : Option DecodedCursor) (fetchLimit : ℕ)

def fetchReportLeg (leg : Option (Leg J ν)) : List (Transaction J ν) :=
  db.fetch column rows (fun row => db.applyCriteria criteria row && inLeg db leg row &&
    decoded.all (db.keysetWhere column runtime effectiveDir · row)) effectiveDir fetchLimit

/-- The rows that are fetched for a page, in one leg or in two. -/
def fetchReportRows (accessScope : Option AccessScope) : List (Transaction J ν) :=
  let fetch := fetchReportLeg db runtime rows criteria column effectiveDir decoded fetchLimit
  match accessScope with
  | some scope =>
    mergeLegs (fetch (some (payerLeg scope))) (fetch (some (payeeLeg scope))) column effectiveDir
      fetchLimit
  | none => fetch none

def findForReport (order : Order) (cursorToken : Option String) (limit : ℕ)
    (accessScope : Option AccessScope) : Except SearchError (ReportPage J ν) := do
  let column := sortMeta db.program order.column
  let decoded ← cursorToken.mapM (decodeCursor runtime)
  let fetchLimit := max 1 limit + 1
  let fetched := fetchReportRows db runtime rows criteria column order.direction decoded fetchLimit
    accessScope
  let hasMore : Bool := fetchLimit ≤ fetched.length
  let page := if hasMore then fetched.take (fetchLimit - 1) else fetched
  if h : hasMore ∧ page ≠ [] then
    let nextCursor ← encodeCursor runtime (page.getLast h.2) column
    return ⟨page, some nextCursor, fun _ => h.2⟩
  else return ⟨page, none, fun hnone => absurd rfl hnone⟩

end Queries

/-- Where the weights of the texts are the texts, a leg of a report is one of a listing. -/
theorem fetchReportLeg_ofDatabase (db : Database) (runtime : Runtime μ) (rows : List (Transaction J ν))
    (criteria : Criteria) (column : Column) (direction : Direction)
    (decoded : Option DecodedCursor) (fetchLimit : ℕ) (leg : Option (Leg J ν)) :
    fetchReportLeg (.ofDatabase db) runtime rows criteria (sortMeta _ column) direction
        decoded fetchLimit leg =
      fetchLeg runtime rows criteria (sortMeta db column) direction decoded fetchLimit leg := by
  unfold fetchReportLeg fetchLeg CollatedDatabase.fetch
  rw [CollatedDatabase.orderBy_ofDatabase]
  simp only [CollatedDatabase.applyCriteria_ofDatabase,
    CollatedDatabase.keysetWhere_ofDatabase]
  congr 4
  funext row
  congr 2
  cases leg with
  | none => rfl
  | some leg => exact decide_eq_decide.mpr Iff.rfl

section Pages

variable {db : CollatedDatabase} {runtime : Runtime μ} {snapshot : Snapshot J ν}
  {criteria : Criteria} {accessScope : Option AccessScope}

theorem of_mem_fetch {column : SortMeta J ν db.program} {rows : List (Transaction J ν)}
    {p : Transaction J ν → Bool} {direction : Direction} {limit : ℕ} {row : Transaction J ν}
    (h : row ∈ db.fetch column rows p direction limit) : row ∈ rows ∧ p row = true := by
  have hsorted := List.mem_of_mem_take h
  rw [(List.mergeSort_perm _ _).mem_iff] at hsorted
  exact List.mem_filter.mp hsorted

/-- The first of the rows that have a property, when it is known which they are. -/
theorem fetch_eq {column : SortMeta J ν db.program} {direction : Direction}
    {p : Transaction J ν → Bool} {l : List (Transaction J ν)}
    (hl : Lists (db.Precedes column direction)
      (fun row => row ∈ snapshot.table.rows ∧ p row = true) l) (limit : ℕ) :
    db.fetch column snapshot.table.rows p direction limit = l.take limit := by
  obtain ⟨l', hl', hfetch⟩ := db.exists_fetch column direction snapshot.table.distinct p
  rw [hfetch, hl.unique hl']

/-- The merge of two legs, in the order of the program. -/
theorem exists_merged (column : SortMeta J ν db.program) (direction : Direction)
    {payers payees : List (Transaction J ν)} (hpayers : ∀ row ∈ payers, row ∈ snapshot.table.rows)
    (hpayees : ∀ row ∈ payees, row ∈ snapshot.table.rows) :
    ∃ l, Lists (Precedes column direction) (fun row => row ∈ payers ∨ row ∈ payees) l ∧
      ∀ limit, mergeLegs payers payees column direction limit = l.take limit := by
  classical
  obtain ⟨l, hl⟩ := exists_lists column direction snapshot.table.distinct fun row =>
    row ∈ payers ∨ row ∈ payees
  have hl := hl.congr (q := fun row => row ∈ payers ∨ row ∈ payees) fun row => by
    rw [decide_eq_true_eq]
    exact and_iff_right_of_imp fun hrow => hrow.elim (hpayers row) (hpayees row)
  exact ⟨l, hl, mergeLegs_eq snapshot.table.distinct hpayers hpayees hl⟩

theorem of_mem_fetchReportLeg {rows : List (Transaction J ν)} {column : SortMeta J ν db.program}
    {direction : Direction} {decoded : Option DecodedCursor} {limit : ℕ} {leg : Option (Leg J ν)}
    {row : Transaction J ν}
    (h : row ∈ fetchReportLeg db runtime rows criteria column direction decoded limit leg) :
    row ∈ rows ∧ db.applyCriteria criteria row = true ∧ inLeg db leg row = true := by
  obtain ⟨hrow, hselected⟩ := of_mem_fetch h
  simp only [Bool.and_eq_true] at hselected
  exact ⟨hrow, hselected.1⟩

/-- Nothing is fetched but what the filter selects within the scope. -/
theorem of_mem_fetchReportRows {column : SortMeta J ν db.program} {direction : Direction}
    {decoded : Option DecodedCursor} {limit : ℕ} {row : Transaction J ν}
    (h : row ∈ fetchReportRows db runtime snapshot.table.rows criteria column direction decoded limit
      accessScope) : row ∈ snapshot.table.rows ∧ db.Matches criteria accessScope row := by
  cases accessScope with
  | none =>
    obtain ⟨hrow, hcriteria, -⟩ := of_mem_fetchReportLeg h
    exact ⟨hrow, hcriteria, by simp⟩
  | some scope =>
    obtain ⟨l, hl, hmerged⟩ := exists_merged column direction
      (fun _ h => (of_mem_fetchReportLeg h).1) (fun _ h => (of_mem_fetchReportLeg h).1)
    unfold fetchReportRows at h
    dsimp only at h
    rw [hmerged] at h
    rcases (hl.mem row).mp (List.mem_of_mem_take h) with hleg | hleg
    · obtain ⟨hrow, hcriteria, hscope⟩ := of_mem_fetchReportLeg hleg
      exact ⟨hrow, hcriteria, fun _ hsome => by cases hsome; exact .inl hscope⟩
    · obtain ⟨hrow, hcriteria, hscope⟩ := of_mem_fetchReportLeg hleg
      exact ⟨hrow, hcriteria, fun _ hsome => by cases hsome; exact .inr hscope⟩

/-- The rows beyond a cursor, of which the first are fetched. -/
abbrev Beyond (db : CollatedDatabase) (runtime : Runtime μ) (snapshot : Snapshot J ν)
    (criteria : Criteria) (accessScope : Option AccessScope) (column : SortMeta J ν db.program)
    (direction : Direction) (decoded : Option DecodedCursor) (l : List (Transaction J ν)) : Prop :=
  Lists (db.Precedes column direction)
    (fun row => (row ∈ snapshot.table.rows ∧ db.Matches criteria accessScope row) ∧
      decoded.all (db.keysetWhere column runtime direction · row) = true) l

/-- What comes after one of the first `limit` rows of a list in the database comes after it in the
program, as far as it is fetched in one of the legs of a scope. -/
def PageAlike (db : CollatedDatabase) (column : SortMeta J ν db.program) (direction : Direction)
    (accessScope : Option AccessScope) (l : List (Transaction J ν)) (limit : ℕ) : Prop :=
  ∀ scope ∈ accessScope, ∀ a ∈ l.take limit, ∀ b,
    b ∈ (l.filter (inLeg db (some (payerLeg scope)))).take (limit + 1) ∨
      b ∈ (l.filter (inLeg db (some (payeeLeg scope)))).take (limit + 1) →
    db.Precedes column direction a b → Precedes column direction a b

theorem fetchReportLeg_eq {column : SortMeta J ν db.program} {direction : Direction}
    {decoded : Option DecodedCursor} (leg : Option (Leg J ν)) {l : List (Transaction J ν)}
    (hl : Lists (db.Precedes column direction)
      (fun row => ((row ∈ snapshot.table.rows ∧ db.applyCriteria criteria row = true) ∧
        inLeg db leg row = true) ∧
          decoded.all (db.keysetWhere column runtime direction · row) = true) l) (limit : ℕ) :
    fetchReportLeg db runtime snapshot.table.rows criteria column direction decoded limit leg =
      l.take limit := by
  apply fetch_eq
  refine hl.congr fun row => ?_
  simp only [Bool.and_eq_true, and_assoc]

/-- As many rows are fetched as there are, up to the limit, and they are the first ones exactly if their
order is that of the database. -/
theorem fetchReportRows_spec {column : SortMeta J ν db.program} {direction : Direction}
    {decoded : Option DecodedCursor} {l : List (Transaction J ν)}
    (hl : Beyond db runtime snapshot criteria accessScope column direction decoded l) (limit : ℕ) :
    (fetchReportRows db runtime snapshot.table.rows criteria column direction decoded (limit + 1)
        accessScope).length = min (limit + 1) l.length ∧
      ((fetchReportRows db runtime snapshot.table.rows criteria column direction decoded (limit + 1)
          accessScope).take limit = l.take limit ↔
        PageAlike db column direction accessScope l limit) := by
  cases accessScope with
  | none =>
    have hfetch : fetchReportLeg db runtime snapshot.table.rows criteria column direction decoded
        (limit + 1) none = l.take (limit + 1) := by
      apply fetchReportLeg_eq
      refine hl.congr fun row => ?_
      simp [CollatedDatabase.Matches, inLeg]
    unfold fetchReportRows
    dsimp only
    rw [hfetch, List.length_take, List.take_take, min_eq_left (Nat.le_succ limit)]
    refine ⟨rfl, iff_of_true rfl ?_⟩
    intro scope hscope
    cases hscope
  | some scope =>
    have hleg : ∀ leg, leg = payerLeg scope ∨ leg = payeeLeg scope →
        fetchReportLeg db runtime snapshot.table.rows criteria column direction decoded (limit + 1)
          (some leg) = (l.filter (inLeg db (some leg))).take (limit + 1) := by
      intro leg hleg
      have hscope (row : Transaction J ν) (hrow : inLeg db (some leg) row = true) :
          db.equal row.payer.fsp scope.fspId = true ∨ db.equal row.payee.fsp scope.fspId = true := by
        rcases hleg with rfl | rfl
        · exact .inl hrow
        · exact .inr hrow
      apply fetchReportLeg_eq
      refine (hl.filter (inLeg db (some leg))).congr fun row => ?_
      have hscope := hscope row
      simp only [CollatedDatabase.Matches, Option.mem_some_iff, forall_eq']
      tauto
    have hpayers := hl.filter (inLeg db (some (payerLeg scope)))
    have hpayees := hl.filter (inLeg db (some (payeeLeg scope)))
    have hunion := hl.congr fun row => (and_iff_left_of_imp fun hrow => hrow.1.2.2 scope rfl).symm.trans
      and_or_left
    obtain ⟨u, hu, htake⟩ := hunion.take_union hpayers hpayees (limit + 1)
    have hrows (leg : Leg J ν) : ∀ row ∈ (l.filter (inLeg db (some leg))).take (limit + 1),
        row ∈ snapshot.table.rows := fun row hrow =>
      ((hl.mem row).mp (List.mem_of_mem_filter (List.mem_of_mem_take hrow))).1.1
    obtain ⟨v, hv, hmerged⟩ := exists_merged column direction (hrows (payerLeg scope))
      (hrows (payeeLeg scope))
    have hlength : v.length = u.length := List.Perm.length_eq
      ((List.perm_ext_iff_of_nodup hv.nodup hu.nodup).mpr fun row => (hv.mem row).trans (hu.mem row).symm)
    have hfirst : u.take limit = l.take limit := by
      have h := congrArg (List.take limit) htake
      rwa [List.take_take, List.take_take, min_eq_left (Nat.le_succ limit)] at h
    unfold fetchReportRows
    dsimp only
    rw [hleg _ (.inl rfl), hleg _ (.inr rfl), hmerged]
    constructor
    · rw [List.length_take, hlength, ← List.length_take, htake, List.length_take]
    · rw [List.take_take, min_eq_left (Nat.le_succ limit), ← hfirst, hu.take_eq_iff hv limit, hfirst]
      unfold PageAlike
      simp only [Option.mem_some_iff, forall_eq']

/-- A page is what is fetched, but for the row that shows that there are more. -/
theorem exists_page (order : Order) (accessScope : Option AccessScope) {cursorToken : Option String}
    {decoded : Option DecodedCursor}
    (hdecoded : cursorToken.mapM (decodeCursor runtime) = .ok decoded) {limit : ℕ} (hlimit : 0 < limit)
    {fetched : List (Transaction J ν)}
    (hfetched : fetchReportRows db runtime snapshot.table.rows criteria (sortMeta db.program order.column)
      order.direction decoded (limit + 1) accessScope = fetched) :
    ∃ page, findForReport db runtime snapshot.table.rows criteria order cursorToken limit accessScope =
        .ok page ∧
      page.records = fetched.take limit ∧
      (fetched.length ≤ limit → page.nextCursor = none) ∧
      (limit < fetched.length → ∃ last token, (fetched.take limit).getLast? = some last ∧
        encodeCursor runtime last (sortMeta db.program order.column) = .ok token ∧
        page.nextCursor = some token) := by
  have hmax : max 1 limit = limit := max_eq_right hlimit
  have hmem : ∀ row ∈ fetched, row ∈ snapshot.table.rows := by
    rw [← hfetched]
    exact fun row hrow => (of_mem_fetchReportRows hrow).1
  unfold findForReport
  rw [hdecoded]
  simp only [bind, Except.bind, hmax, hfetched, Nat.add_sub_cancel]
  rcases Nat.lt_or_ge limit fetched.length with hmore | hall
  · have hpage : fetched.take limit ≠ [] := by
      apply List.ne_nil_of_length_pos
      rw [List.length_take]
      omega
    have hlast := List.getLast_mem hpage
    obtain ⟨token, htoken⟩ := exists_encodeCursor
      (snapshot.valid _ (hmem _ (List.mem_of_mem_take hlast))) runtime db.program order.column
    have hmany : decide (limit + 1 ≤ fetched.length) = true := decide_eq_true hmore
    simp only [hmany, if_true, hpage, ne_eq, not_false_eq_true, and_self, dif_pos, htoken]
    exact ⟨_, rfl, rfl, fun hall => absurd hmore hall.not_gt,
      fun _ => ⟨_, token, List.getLast?_eq_some_getLast hpage, htoken, rfl⟩⟩
  · have hfew : decide (limit + 1 ≤ fetched.length) = false := decide_eq_false (by omega)
    simp only [hfew, Bool.false_eq_true, false_and, dif_neg, not_false_eq_true, if_false]
    exact ⟨_, rfl, (List.take_of_length_le hall).symm, fun _ => rfl, fun hmore => absurd hmore hall.not_gt⟩

/-- The rows that a report is for, in the order of the database. -/
abbrev ReportListing (db : CollatedDatabase) (snapshot : Snapshot J ν) (criteria : Criteria)
    (order : Order) (accessScope : Option AccessScope) (l : List (Transaction J ν)) : Prop :=
  Lists (db.Precedes (sortMeta db.program order.column) order.direction)
    (fun row => row ∈ snapshot.table.rows ∧ db.Matches criteria accessScope row) l

theorem exists_reportListing (db : CollatedDatabase) (snapshot : Snapshot J ν) (criteria : Criteria)
    (order : Order) (accessScope : Option AccessScope) :
    ∃ l, ReportListing db snapshot criteria order accessScope l := by
  classical
  obtain ⟨l, hl, -⟩ := db.exists_fetch (sortMeta db.program order.column) order.direction
    snapshot.table.distinct fun row => db.Matches criteria accessScope row
  exact ⟨l, hl.congr fun row => by rw [decide_eq_true_eq]⟩

theorem beyond_none {order : Order} {l : List (Transaction J ν)}
    (hl : ReportListing db snapshot criteria order accessScope l) (runtime : Runtime μ) :
    Beyond db runtime snapshot criteria accessScope (sortMeta db.program order.column) order.direction
      none l :=
  hl.congr fun _ => (and_iff_left rfl).symm

theorem mapM_token {last : Transaction J ν} {token : String} {column : SortMeta J ν db.program}
    (h : encodeCursor runtime last column = .ok token) :
    ∃ cursor, (some token).mapM (decodeCursor runtime) = .ok (some cursor) ∧
      cursor.Names runtime column last := by
  obtain ⟨cursor, hcursor, hnames⟩ := decodeCursor_encodeCursor h
  refine ⟨cursor, ?_, hnames⟩
  rw [Option.mapM_some, hcursor]
  rfl

/-- Beyond the cursor of a row are those that come after it. -/
theorem beyond_token {order : Order} {l before after : List (Transaction J ν)}
    {last : Transaction J ν} {cursor : DecodedCursor}
    (hl : ReportListing db snapshot criteria order accessScope l) (hsplit : l = before ++ last :: after)
    (hnames : cursor.Names runtime (sortMeta db.program order.column) last) :
    Beyond db runtime snapshot criteria accessScope (sortMeta db.program order.column) order.direction
      (some cursor) after := by
  subst hsplit
  refine (Lists.beyond hl).congr fun row => and_congr_right fun _ => ?_
  exact (db.keysetWhere_iff _ hnames order.direction row).symm

/-- `findForReport` reads the rows of a report. -/
def reportReader (runtime : Runtime μ) {order : Order} {l : List (Transaction J ν)}
    (hl : ReportListing db snapshot criteria order accessScope l) :
    Reader (fun cursor limit =>
        findForReport db runtime snapshot.table.rows criteria order cursor limit accessScope) l
      (fun k => PageAlike db (sortMeta db.program order.column) order.direction accessScope
        (l.drop k)) where
  Valid cursor := ∃ decoded, cursor.mapM (decodeCursor runtime) = .ok decoded
  At k cursor := ∃ decoded, cursor.mapM (decodeCursor runtime) = .ok decoded ∧
    Beyond db runtime snapshot criteria accessScope (sortMeta db.program order.column) order.direction
      decoded (l.drop k)
  start := ⟨none, rfl, beyond_none hl runtime⟩
  valid := fun ⟨decoded, hdecoded, _⟩ => ⟨decoded, hdecoded⟩
  cursor_ne_none := by
    rintro k _ ⟨decoded, hdecoded, hbeyond⟩ hpos hlt rfl
    cases hdecoded
    have hlength := congrArg List.length (hbeyond.unique (beyond_none hl runtime))
    rw [List.length_drop] at hlength
    omega
  read := by
    rintro cursor limit ⟨decoded, hdecoded⟩ hlimit
    obtain ⟨page, hpage, hrecords, hnone, hsome⟩ := exists_page order accessScope hdecoded hlimit rfl
    refine ⟨page, hpage, ?_, ?_, ?_⟩
    · rw [hrecords]
      exact List.length_take_le _ _
    · rw [hrecords]
      exact fun row hrow => (hl.mem row).mpr (of_mem_fetchReportRows (List.mem_of_mem_take hrow))
    · rcases Nat.lt_or_ge limit _ with hmore | hall
      · obtain ⟨last, token, -, htoken, hcursor⟩ := hsome hmore
        obtain ⟨decoded', hdecoded', -⟩ := mapM_token htoken
        exact ⟨some decoded', hcursor ▸ hdecoded'⟩
      · exact ⟨none, hnone hall ▸ rfl⟩
  records := by
    rintro k cursor limit page ⟨decoded, hdecoded, hbeyond⟩ hlimit hcount hpage
    obtain ⟨page', hpage', hrecords, -⟩ := exists_page order accessScope hdecoded hlimit rfl
    cases hpage.symm.trans hpage'
    obtain ⟨hlength, hfirst⟩ := fetchReportRows_spec hbeyond limit
    rw [hrecords, List.length_take, hlength, List.length_drop]
    exact ⟨by omega, hfirst⟩
  next := by
    rintro k cursor limit page ⟨decoded, hdecoded, hbeyond⟩ hlimit hcount hpage hright
    obtain ⟨page', hpage', -, -, hsome⟩ := exists_page order accessScope hdecoded hlimit rfl
    cases hpage.symm.trans hpage'
    obtain ⟨hlength, hfirst⟩ := fetchReportRows_spec hbeyond limit
    obtain ⟨last, token, hlast, htoken, hcursor⟩ := hsome (by
      rw [hlength, List.length_drop]
      omega)
    obtain ⟨decoded', hdecoded', hnames⟩ := mapM_token htoken
    rw [hfirst.mpr hright] at hlast
    obtain ⟨early, hpage⟩ := List.getLast?_eq_some_iff.mp hlast
    have hsplit : l = (l.take k ++ early) ++ last :: l.drop (k + limit) := by
      have hrest := List.take_append_drop limit (l.drop k)
      rw [hpage, List.drop_drop] at hrest
      conv_lhs => rw [← List.take_append_drop k l, ← hrest]
      simp
    exact ⟨some decoded', hcursor ▸ hdecoded', beyond_token hl hsplit hnames⟩
  last := by
    rintro k cursor limit page ⟨decoded, hdecoded, hbeyond⟩ hlimit hcount hpage
    obtain ⟨page', hpage', -, hnone, -⟩ := exists_page order accessScope hdecoded hlimit rfl
    cases hpage.symm.trans hpage'
    apply hnone
    rw [(fetchReportRows_spec hbeyond limit).1, List.length_drop]
    omega

end Pages

section Counts

variable {db : CollatedDatabase} {snapshot : Snapshot J ν} {criteria : Criteria}
  {accessScope : Option AccessScope}

theorem nodup_ids {rows : List (Transaction J ν)} (hnodup : rows.Nodup)
    (hrows : ∀ row ∈ rows, row ∈ snapshot.table.rows) : (rows.map fun row => row.id).Nodup := by
  refine hnodup.map_on ?_
  intro a ha b hb hid
  exact List.inj_on_of_nodup_map snapshot.table.distinct (hrows a ha) (hrows b hb) hid

/-- The distinct ids of two legs are as many as the rows. -/
theorem length_dedup_ids {payers payees l : List (Transaction J ν)} (hnodup : l.Nodup)
    (hl : ∀ row ∈ l, row ∈ snapshot.table.rows) (hmem : ∀ row, row ∈ l ↔ row ∈ payers ∨ row ∈ payees) :
    ((payers.map (fun row => row.id) ++ payees.map fun row => row.id).dedup).length = l.length := by
  have hperm : ((payers.map (fun row => row.id) ++ payees.map fun row => row.id).dedup).Perm
      (l.map fun row => row.id) := by
    refine (List.perm_ext_iff_of_nodup (List.nodup_dedup _) (nodup_ids hnodup hl)).mpr fun id => ?_
    simp only [List.mem_dedup, List.mem_append, List.mem_map, hmem, or_and_right, exists_or]
  rw [hperm.length_eq, List.length_map]

variable {order : Order} {l : List (Transaction J ν)}

theorem mem_scan (scan : Scan snapshot.table.rows) (p : Transaction J ν → Bool) (row : Transaction J ν) :
    row ∈ scan.select p ↔ row ∈ snapshot.table.rows ∧ p row = true := by
  rw [(scan.perm p).mem_iff, List.mem_filter]

theorem nodup_scan (scan : Scan snapshot.table.rows) (p : Transaction J ν → Bool) :
    (scan.select p).Nodup :=
  (scan.perm p).nodup_iff.mpr ((List.Nodup.of_map _ snapshot.table.distinct).filter p)

theorem count_of_matched {matched total maxLimit : ℕ}
    (h : matched = total ∨ maxLimit < matched ∧ maxLimit < total) :
    (⟨min matched maxLimit, maxLimit < matched⟩ : Count) = ⟨min total maxLimit, maxLimit < total⟩ := by
  rcases h with rfl | ⟨hmatched, htotal⟩
  · rfl
  · rw [min_eq_right hmatched.le, min_eq_right htotal.le, decide_eq_true hmatched, decide_eq_true htotal]

/-- One leg that is too long makes both the count and the report so. -/
theorem lt_count {leg : List (Transaction J ν)} {ids : List ℕ} {maxLimit : ℕ} (hleg : leg.Nodup)
    (hl : ∀ row ∈ leg, row ∈ l) (hrows : ∀ row ∈ l, row ∈ snapshot.table.rows)
    (hids : ∀ id ∈ (leg.take (maxLimit + 1)).map (fun row => row.id), id ∈ ids)
    (h : maxLimit < leg.length) : maxLimit < ids.dedup.length ∧ maxLimit < l.length := by
  constructor
  · have hnodup : ((leg.take (maxLimit + 1)).map fun row => row.id).Nodup :=
      nodup_ids (hleg.sublist (List.take_sublist _ _)) fun row hrow =>
        hrows row (hl row (List.mem_of_mem_take hrow))
    have hle := (List.subperm_of_subset hnodup fun id hid => List.mem_dedup.mpr (hids id hid)).length_le
    rw [List.length_map, List.length_take] at hle
    omega
  · exact h.trans_le (List.subperm_of_subset hleg hl).length_le

/-- The rows are counted, up to the limit, however the database comes upon them. -/
theorem countForReport_eq (hl : ReportListing db snapshot criteria order accessScope l)
    (scan : Scan snapshot.table.rows) (maxLimit : ℕ) :
    countForReport db criteria scan maxLimit accessScope =
      ⟨min l.length maxLimit, maxLimit < l.length⟩ := by
  have hrows : ∀ row ∈ l, row ∈ snapshot.table.rows := fun row hrow => ((hl.mem row).mp hrow).1
  unfold countForReport count
  cases accessScope with
  | none =>
    have hperm : (scan.select fun row => db.applyCriteria criteria row && inLeg db none row).Perm l := by
      refine (List.perm_ext_iff_of_nodup (nodup_scan scan _) hl.nodup).mpr fun row => ?_
      rw [mem_scan, hl.mem]
      simp [CollatedDatabase.Matches, inLeg]
    apply count_of_matched
    dsimp only
    rw [buildProbe, List.length_map, List.length_take, hperm.length_eq]
    omega
  | some scope =>
    have hmem (row : Transaction J ν) : row ∈ l ↔
        row ∈ scan.select (fun row => db.applyCriteria criteria row &&
          inLeg db (some (payerLeg scope)) row) ∨
        row ∈ scan.select (fun row => db.applyCriteria criteria row &&
          inLeg db (some (payeeLeg scope)) row) := by
      rw [hl.mem, mem_scan, mem_scan]
      simp only [CollatedDatabase.Matches, Option.mem_some_iff, forall_eq', Bool.and_eq_true]
      show _ ∧ _ ∧ (inLeg db (some (payerLeg scope)) row = true ∨
        inLeg db (some (payeeLeg scope)) row = true) ↔ _
      tauto
    apply count_of_matched
    dsimp only
    unfold buildProbe
    rcases Nat.lt_or_ge maxLimit (scan.select fun row => db.applyCriteria criteria row &&
      inLeg db (some (payerLeg scope)) row).length with hpayers | hpayers
    · exact .inr (lt_count (nodup_scan scan _) (fun row hrow => (hmem row).mpr (.inl hrow)) hrows
        (fun id hid => List.mem_append_left _ hid) hpayers)
    · rcases Nat.lt_or_ge maxLimit (scan.select fun row => db.applyCriteria criteria row &&
        inLeg db (some (payeeLeg scope)) row).length with hpayees | hpayees
      · exact .inr (lt_count (nodup_scan scan _) (fun row hrow => (hmem row).mpr (.inr hrow)) hrows
          (fun id hid => List.mem_append_right _ hid) hpayees)
      · rw [List.take_of_length_le (hpayers.trans (Nat.le_succ maxLimit)),
          List.take_of_length_le (hpayees.trans (Nat.le_succ maxLimit))]
        exact .inl (length_dedup_ids hl.nodup hrows hmem)

end Counts

end TransactionRepository

/-- What the generator throws. -/
inductive ReportError where
  | search (error : SearchError)
  | tooManyRows (message : String)
  deriving DecidableEq

namespace TransactionReportGenerator
open TransactionRepository TransactionReportParams

variable {J ν μ : Type}

theorem maxRowsPerGeneratedFile_pos (settings : ReportFileSettings) (fileType : ReportFileType) :
    0 < maxRowsPerGeneratedFile settings fileType := by
  cases fileType with
  | csv => exact settings.maxRowsPerFile_pos
  | xlsx => exact lt_min settings.maxRowsPerFile_pos (by decide)

theorem maxRowsPerGeneratedFile_le (settings : ReportFileSettings) (fileType : ReportFileType) :
    maxRowsPerGeneratedFile settings fileType ≤ settings.maxRowsPerFile := by
  cases fileType with
  | csv => exact le_rfl
  | xlsx => exact min_le_left _ _

def tooManyRows (maxRows : ℕ) : ReportError :=
  .tooManyRows s!"Report exceeds maximum downloadable rows ({maxRows}). Narrow the search filters."

/-- The rows are those of the database that is read from. -/
def generate (db : CollatedDatabase) (runtime : Runtime μ) {rows : List (Transaction J ν)}
    (scan : Scan rows) (texts : TextValues) (settings : ReportFileSettings)
    (request : ReportDownloadRequest) (params : Js.Map String String) :
    Except ReportError (ReportFile (Transaction J ν)) :=
  let criteria := toCriteria texts params
  let order := toOrder params
  let accessScope := toAccessScope params
  let fileType := reportFileType request.fileType
  let maxRows := maxDownloadRows settings fileType
  let total := countForReport db criteria scan maxRows accessScope
  let find cursor limit := findForReport db runtime rows criteria order cursor limit accessScope
  if total.capped then .error (tooManyRows maxRows)
  else
    match fileType with
    | .xlsx => (generateXlsxZip find settings request.id total.count
        (maxRowsPerGeneratedFile_pos settings .xlsx)).mapError .search
    | .csv => (generateCsvReport find settings request.id total.count
        (maxRowsPerGeneratedFile settings .csv)).mapError .search

theorem generate_of_many {db : CollatedDatabase} {runtime : Runtime μ} {snapshot : Snapshot J ν}
    {scan : Scan snapshot.table.rows} {texts : TextValues} {settings : ReportFileSettings}
    {request : ReportDownloadRequest} {params : Js.Map String String} {l : List (Transaction J ν)}
    (hl : ReportListing db snapshot (toCriteria texts params) (toOrder params) (toAccessScope params) l)
    (h : maxDownloadRows settings (reportFileType request.fileType) < l.length) :
    generate db runtime scan texts settings request params =
      .error (tooManyRows (maxDownloadRows settings (reportFileType request.fileType))) := by
  unfold generate
  dsimp only
  rw [countForReport_eq hl, if_pos (by simpa using h)]

/-- Every page is merged in the order of the database: for each part, and for each page of the part, its
rows come first in the program too among those that are fetched for it. -/
def PagesAlike (db : CollatedDatabase) (settings : ReportFileSettings) (fileType : ReportFileType)
    (order : Order) (accessScope : Option AccessScope) (l : List (Transaction J ν)) : Prop :=
  Blocks (maxRowsPerGeneratedFile settings fileType)
    (Blocks settings.pageSize fun k => PageAlike db (sortMeta db.program order.column)
      order.direction accessScope (l.drop k)) 0 l.length

/-- A report that is not too long is made, and its files are cut from its rows. -/
theorem exists_generate (db : CollatedDatabase) (runtime : Runtime μ) (snapshot : Snapshot J ν)
    (scan : Scan snapshot.table.rows) (texts : TextValues) (settings : ReportFileSettings)
    (request : ReportDownloadRequest) (params : Js.Map String String) {l : List (Transaction J ν)}
    (hl : ReportListing db snapshot (toCriteria texts params) (toOrder params) (toAccessScope params) l)
    (h : l.length ≤ maxDownloadRows settings (reportFileType request.fileType)) :
    ∃ file, generate db runtime scan texts settings request params = .ok file ∧
      (∀ rows ∈ file.content.parts, rows.length ≤ settings.maxRowsPerFile ∧ rows ⊆ l) ∧
      file.content.names.Nodup ∧
      (file.content.parts.flatten = l ↔ PagesAlike db settings (reportFileType request.fileType)
        (toOrder params) (toAccessScope params) l) := by
  have hwritten : ∃ file, generate db runtime scan texts settings request params = .ok file ∧
      WrittenFrom settings (maxRowsPerGeneratedFile settings (reportFileType request.fileType)) l
        (fun k => PageAlike db (sortMeta db.program (toOrder params).column)
          (toOrder params).direction (toAccessScope params) (l.drop k)) file.content := by
    unfold generate
    dsimp only
    rw [countForReport_eq hl, min_eq_left h, if_neg (by simpa using h)]
    cases reportFileType request.fileType with
    | csv =>
      obtain ⟨file, hfile, hwritten⟩ := exists_csvReport (reportReader runtime hl) settings
        (maxRowsPerGeneratedFile_pos settings .csv) request.id
      exact ⟨file, by rw [hfile]; rfl, hwritten⟩
    | xlsx =>
      obtain ⟨file, hfile, hwritten⟩ := exists_xlsxZip (reportReader runtime hl) settings
        (maxRowsPerGeneratedFile_pos settings .xlsx) request.id
      exact ⟨file, by rw [hfile]; rfl, hwritten⟩
  obtain ⟨file, hfile, hwritten⟩ := hwritten
  refine ⟨file, hfile, ?_, hwritten.names, hwritten.complete_iff⟩
  intro rows hrows
  obtain ⟨hlength, hsubset⟩ := hwritten.bounded rows hrows
  exact ⟨hlength.trans (maxRowsPerGeneratedFile_le settings _), hsubset⟩

/-- Without a scope there is one leg, and by a date two are merged as the database orders them. -/
theorem pagesAlike_of (db : CollatedDatabase) (settings : ReportFileSettings)
    (fileType : ReportFileType) (order : Order) (accessScope : Option AccessScope)
    (l : List (Transaction J ν)) (h : accessScope = none ∨ order.column ≠ .correlationId) :
    PagesAlike db settings fileType order accessScope l := by
  intro _ _ _ _ scope hscope a _ b _ hab
  rcases h with rfl | hdate
  · cases hscope
  · exact precedes_of_date hdate hab

/-- A report is refused if it is too long. Otherwise it is made, no part has more rows than a file may,
no part takes the place of another, and together they have the matching rows, each once and in the order
of the database, exactly if every page is merged in that order. -/
theorem report_rows_iff (db : CollatedDatabase) (runtime : Runtime μ) (snapshot : Snapshot J ν)
    (scan : Scan snapshot.table.rows) (texts : TextValues) (settings : ReportFileSettings)
    (request : ReportDownloadRequest) (params : Js.Map String String) :
    ∃ l, ReportListing db snapshot (toCriteria texts params) (toOrder params) (toAccessScope params) l ∧
      if maxDownloadRows settings (reportFileType request.fileType) < l.length then
        generate db runtime scan texts settings request params =
          .error (tooManyRows (maxDownloadRows settings (reportFileType request.fileType)))
      else ∃ file, generate db runtime scan texts settings request params = .ok file ∧
        (∀ rows ∈ file.content.parts, rows.length ≤ settings.maxRowsPerFile) ∧
        file.content.names.Nodup ∧
        (file.content.parts.flatten = l ↔ PagesAlike db settings (reportFileType request.fileType)
          (toOrder params) (toAccessScope params) l) := by
  obtain ⟨l, hl⟩ := exists_reportListing db snapshot (toCriteria texts params) (toOrder params)
    (toAccessScope params)
  refine ⟨l, hl, ?_⟩
  split
  · rename_i hmany
    exact generate_of_many hl hmany
  · rename_i hfew
    obtain ⟨file, hfile, hbounded, hrest⟩ :=
      exists_generate db runtime snapshot scan texts settings request params hl (not_lt.mp hfew)
    exact ⟨file, hfile, fun rows hrows => (hbounded rows hrows).1, hrest⟩

/-- Nothing is in a report but what its parameters select within their scope. -/
theorem matches_of_generate {db : CollatedDatabase} {runtime : Runtime μ} {snapshot : Snapshot J ν}
    {scan : Scan snapshot.table.rows} {texts : TextValues} {settings : ReportFileSettings}
    {request : ReportDownloadRequest} {params : Js.Map String String}
    {file : ReportFile (Transaction J ν)}
    (h : generate db runtime scan texts settings request params = .ok file) :
    ∀ rows ∈ file.content.parts, ∀ row ∈ rows,
      db.Matches (toCriteria texts params) (toAccessScope params) row := by
  obtain ⟨l, hl⟩ := exists_reportListing db snapshot (toCriteria texts params) (toOrder params)
    (toAccessScope params)
  have hfew : l.length ≤ maxDownloadRows settings (reportFileType request.fileType) := by
    by_contra hmany
    cases h.symm.trans (generate_of_many hl (not_le.mp hmany))
  obtain ⟨file', hfile, hbounded, -⟩ :=
    exists_generate db runtime snapshot scan texts settings request params hl hfew
  cases h.symm.trans hfile
  exact fun rows hrows row hrow => ((hl.mem row).mp ((hbounded rows hrows).2 hrow)).2

section Sample

def sampleReportSnapshot : Snapshot Unit ℤ where
  table := sampleLegs
  valid := by
    have hdate : -Js.maxTime ≤ (0 : ℤ) ∧ (0 : ℤ) ≤ Js.maxTime := by decide
    intro row hrow
    rcases List.mem_cons.mp hrow with rfl | hrow
    · exact ⟨hdate, by simp [sampleLegRow]⟩
    · cases List.mem_singleton.mp hrow
      exact ⟨hdate, by simp [sampleLegRow]⟩

def sampleScan : Scan sampleReportSnapshot.table.rows where
  select p := sampleReportSnapshot.table.rows.filter p
  perm _ := .refl _

def samplePages : ReportFileSettings where
  pageSize := 1
  maxRowsPerFile := 50000
  maxZipFiles := 1
  pageSize_pos := by decide
  maxRowsPerFile_pos := by decide
  maxZipFiles_pos := by decide

/-- What the bank pays and is paid, by the correlation id. -/
def sampleReportParams : Js.Map String String :=
  ofRows [("orderColumn", "correlationId"), ("orderDirection", "ASC"), ("accessFspId", "bank")]

def sampleReportDownload : ReportDownloadRequest where
  id := "1"
  reportType := .transactionDetail
  paramsSignature := ""
  status := .running
  fileType := "csv"
  fileKey := none
  errorMessage := none
  requestedByUserId := none
  requestedByFspId := none
  finishedAt := none
  createdAt := 0
  updatedAt := 0

theorem sampleReportParams_read : toCriteria sampleTexts sampleReportParams = {} ∧
    toOrder sampleReportParams = ⟨.correlationId, .asc⟩ ∧
    toAccessScope sampleReportParams = some ⟨"bank"⟩ := by
  decide

/-- The row `a` is left out. -/
theorem not_report_rows : ¬ ∀ (db : CollatedDatabase) (runtime : Runtime Unit)
    (snapshot : Snapshot Unit ℤ) (scan : Scan snapshot.table.rows) (texts : TextValues)
    (settings : ReportFileSettings) (request : ReportDownloadRequest) (params : Js.Map String String)
    (l : List (Transaction Unit ℤ)) (file : ReportFile (Transaction Unit ℤ)),
    ReportListing db snapshot (toCriteria texts params) (toOrder params) (toAccessScope params) l →
    generate db runtime scan texts settings request params = .ok file →
    file.content.parts.flatten = l := by
  intro hrows
  obtain ⟨hcriteria, horder, hscope⟩ := sampleReportParams_read
  have hl : ReportListing sampleCollated sampleReportSnapshot
      (toCriteria sampleTexts sampleReportParams) (toOrder sampleReportParams)
      (toAccessScope sampleReportParams)
      [sampleLegRow 1 "a" "bank" "shop", sampleLegRow 2 "B" "shop" "bank"] := by
    rw [hcriteria, horder, hscope]
    constructor
    · intro row
      refine (and_iff_left_of_imp fun hrow => ?_).symm
      rcases List.mem_cons.mp hrow with rfl | hrow
      · exact ⟨rfl, fun scope hscope => by cases hscope; exact .inl (decide_eq_true rfl)⟩
      · cases List.mem_singleton.mp hrow
        exact ⟨rfl, fun scope hscope => by cases hscope; exact .inr (decide_eq_true rfl)⟩
    · exact List.pairwise_pair.mpr precedes_sample
  have hfew : ∀ fileType, 2 ≤ maxDownloadRows samplePages fileType := by
    intro fileType
    cases fileType <;> decide
  obtain ⟨file, hfile, -, -, hiff⟩ := exists_generate sampleCollated
    sampleRuntime sampleReportSnapshot sampleScan sampleTexts samplePages sampleReportDownload
    sampleReportParams hl (hfew _)
  have halike := hiff.mp (hrows _ _ _ _ _ _ _ _ _ _ hl hfile)
  rw [horder, hscope] at halike
  have hpos := maxRowsPerGeneratedFile_pos samplePages (reportFileType sampleReportDownload.fileType)
  have hfirst := halike 0 (by simp) 0 (by simp [hpos])
  have hone : min samplePages.pageSize
      (min (maxRowsPerGeneratedFile samplePages (reportFileType sampleReportDownload.fileType)) 2) = 1 := by
    have hsize : samplePages.pageSize = 1 := rfl
    omega
  simp only [Nat.zero_mul, Nat.add_zero, Nat.sub_zero, List.drop_zero, List.length_cons,
    List.length_nil, Nat.zero_add, hone] at hfirst
  exact not_precedes_sample
    (hfirst ⟨"bank"⟩ rfl _ (.head _) _ (.inr (by decide +kernel)) precedes_sample)

end Sample

end TransactionReportGenerator

namespace ReportDownloadProcessor
open Async TransactionRepository TransactionReportParams TransactionReportGenerator

/-- A request that is accepted, and the parameters that are stored with it. -/
structure CreatedReport (texts : TextValues) where
  id : String
  input : ReportInput
  params : List (String × String)
  requested : ∃ claims query,
    TransactionReportsAuditController.requestTransactionReport texts claims query = .ok input
  stored : fromInput texts input.criteria input.order input.accessScope = some params

section Workers

variable {texts : TextValues} {created shown : List (CreatedReport texts)}
  {report : CreatedReport texts} {request : ReportDownloadRequest}
  {t : List (Event ReportOp ReportAnswer)}

/-- The parameters of a request in a database in which these requests have been created. -/
def storedParams (created : List (CreatedReport texts)) (requestId : String) :
    List (String × String) :=
  ((created.find? fun report => report.id = requestId).map fun report => report.params).getD []

theorem storedParams_of_mem (hnodup : (created.map fun report => report.id).Nodup)
    (h : report ∈ created) : storedParams created report.id = report.params := by
  obtain ⟨other, hother⟩ : ∃ other, created.find? (fun other => other.id = report.id) = some other :=
    Option.isSome_iff_exists.mp (List.find?_isSome.mpr ⟨report, h, by simp⟩)
  have hsame := List.inj_on_of_nodup_map hnodup (List.mem_of_find?_eq_some hother) h
    (by simpa using List.find?_some hother)
  rw [storedParams, hother, hsame]
  rfl

/-- The parameters that are read are those of a database in which these have been created, in whatever
order their rows come back. -/
def ReadFrom (shown : List (CreatedReport texts)) (t : List (Event ReportOp ReportAnswer)) : Prop :=
  ∀ requestId params, ⟨.findParamsByRequestId requestId, .ok params⟩ ∈ t →
    params.Perm (storedParams shown requestId)

/-- A worker makes its file of the parameters that it has read of the request, and uploads no other. -/
def fileMonitor (request : ReportDownloadRequest) :
    Monitor ReportOp ReportAnswer (List (Event ReportOp ReportAnswer)) where
  next := Monitor.trace.next
  allows t
    | .generate request' params =>
      request' = request ∧ ⟨.findParamsByRequestId request.id, .ok params⟩ ∈ t
    | .upload _ file => ∃ params, ⟨.generate request params, .ok file⟩ ∈ t
    | _ => True

theorem processRequest_obeys (settings : ReportDownloadSettings) (request : ReportDownloadRequest) :
    (processRequest settings request).Obeys (fileMonitor request) [] fun _ _ => True := by
  have hfailed : ∀ t error, (do let _ ← ReportDownloadRepository.markFailed request.id error :
      ReportProgram Unit).Obeys (fileMonitor request) t fun _ _ => True := by
    intro t error
    refine ⟨trivial, fun now => ⟨trivial, ?_⟩⟩
    rintro (affected | message | message) <;> trivial
  refine ⟨trivial, ?_⟩
  rintro (message | params)
  · exact hfailed _ message
  · refine ⟨⟨rfl, List.mem_singleton.mpr rfl⟩, ?_⟩
    rintro (message | file)
    · exact hfailed _ message
    · refine ⟨trivial, fun now => ⟨⟨params, by simp [fileMonitor, Monitor.trace]⟩, ?_⟩⟩
      rintro (message | _)
      · exact hfailed _ message
      · refine ⟨trivial, fun now => ⟨trivial, ?_⟩⟩
        rintro (affected | message | message)
        · trivial
        · exact hfailed _ message
        · exact hfailed _ message

variable {settings : ReportDownloadSettings} {rest : ReportProgram Unit}

/-- A call of a run is one that what has been called before allows. -/
theorem allowed_of_mem (h : (processRequest settings request).Runs t rest)
    {e : Event ReportOp ReportAnswer} (he : e ∈ t) :
    ∃ before, before ⊆ t ∧ (fileMonitor request).allows before e.op := by
  obtain ⟨before, after, rfl⟩ := List.append_of_mem he
  have hallowed := (processRequest_obeys settings request).allowed h
  have hbefore : (fileMonitor request).after [] before = before := Monitor.trace_after [] before
  rw [hbefore] at hallowed
  exact ⟨before, List.subset_append_left _ _, hallowed⟩

/-- Whatever the parameters are, a file is made of them. -/
theorem exists_run (settings : ReportDownloadSettings) {params : List (String × String)}
    (h : params.Perm (storedParams shown request.id)) :
    ∃ t rest, (processRequest settings request).Runs t rest ∧ ReadFrom shown t ∧
      ∃ file, ⟨.generate request params, .ok file⟩ ∈ t := by
  refine ⟨[⟨.findParamsByRequestId request.id, .ok params⟩,
    ⟨.generate request params, .ok ⟨[], "csv", "text/csv"⟩⟩], _, .call _ (.call _ (.refl _)), ?_, _,
    .tail _ (.head _)⟩
  intro requestId params' hmem
  simp only [List.mem_cons, Event.mk.injEq, List.not_mem_nil, or_false] at hmem
  rcases hmem with ⟨hop, hanswer⟩ | ⟨hop, -⟩
  · cases hop
    cases hanswer
    exact h
  · cases hop

variable {J ν μ : Type}

/-- The files that a worker makes are within the scope and have rows of the participant only, whatever
the transactions are, and it uploads no others. -/
structure Isolates (J ν : Type) (db : CollatedDatabase) (runtime : Runtime μ) (texts : TextValues)
    (files : ReportFileSettings) (fspId : String) (t : List (Event ReportOp ReportAnswer)) : Prop where
  scope_read : ∀ request params answer, ⟨.generate request params, answer⟩ ∈ t →
    toAccessScope (ofRows params) = some ⟨fspId⟩
  rows : ∀ request params answer, ⟨.generate request params, answer⟩ ∈ t →
    ∀ (snapshot : Snapshot J ν) (scan : Scan snapshot.table.rows) file,
      generate db runtime scan texts files request (ofRows params) = .ok file →
      ∀ rows ∈ file.content.parts, ∀ row ∈ rows,
        db.equal row.payer.fsp fspId = true ∨ db.equal row.payee.fsp fspId = true
  uploads : ∀ objectKey file answer, ⟨.upload objectKey file, answer⟩ ∈ t →
    ∃ request params, ⟨.generate request params, .ok file⟩ ∈ t

end Workers

/-- What a user of a bank asks for. -/
def sampleCreated : CreatedReport sampleTexts where
  id := "1"
  input := sampleReportInput
  params := (fromInput sampleTexts sampleReportInput.criteria sampleReportInput.order
    sampleReportInput.accessScope).getD []
  requested := ⟨some ⟨some "bank-a", by decide⟩, sampleReportQuery, by rfl⟩
  stored := by rfl

def sampleWorker : ReportDownloadSettings := ⟨1, 60000, fun _ id _ extension => id ++ extension⟩

end ReportDownloadProcessor
end Audit
