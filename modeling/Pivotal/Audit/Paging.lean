import Mathlib.Data.String.Basic
import Pivotal.Audit.Keyset

/-! The pages of a search are those that the list of the matching rows is cut into, and what they
say of the rows before and after them is so: following the cursors forward enumerates the list,
and going back returns to the page one came from. -/
namespace Audit
open Fspiop Store
namespace TransactionRepository
open FindTransactionsQuery

variable {J ν μ : Type} {db : Database} {runtime : Runtime μ} {rows : List (Transaction J ν)}

/-- The first of the rows that match and are beyond the cursor, in one leg or in two. -/
theorem fetchRows_eq {column : SortMeta J ν db} {direction : Direction} {criteria : Criteria}
    {decoded : Option DecodedCursor} {accessScope : Option AccessScope}
    {l : List (Transaction J ν)} (hrows : (rows.map fun row => row.id).Nodup)
    (hl : Lists (Precedes column direction) (fun row => (row ∈ rows ∧
      Matches criteria accessScope row) ∧
        decoded.all (keysetWhere runtime column direction · row) = true) l) (limit : ℕ) :
    fetchRows runtime rows criteria column direction decoded limit accessScope =
      l.take limit := by
  cases accessScope with
  | none =>
    apply fetchLeg_eq none hrows
    refine hl.congr fun row => ?_
    simp [Matches, and_assoc]
  | some scope =>
    obtain ⟨payers, hpayers⟩ := exists_lists column direction hrows fun row =>
      applyCriteria criteria row && (row.payer.fsp = scope.fspId : Bool) &&
        decoded.all (keysetWhere runtime column direction · row)
    obtain ⟨payees, hpayees⟩ := exists_lists column direction hrows fun row =>
      applyCriteria criteria row && (row.payee.fsp = scope.fspId : Bool) &&
        decoded.all (keysetWhere runtime column direction · row)
    have hpayerLeg := fetchLeg_eq (some ⟨fun row => row.payer.fsp, scope.fspId⟩) hrows
      hpayers limit
    have hpayeeLeg := fetchLeg_eq (some ⟨fun row => row.payee.fsp, scope.fspId⟩) hrows
      hpayees limit
    unfold fetchRows
    dsimp only
    rw [hpayerLeg, hpayeeLeg]
    refine mergeLegs_take hrows ?_ hpayers hpayees (hl.congr fun row => ?_) limit
    · rintro row (⟨hrow, -⟩ | ⟨hrow, -⟩) <;> exact hrow
    · simp only [Matches, Option.mem_some_iff, forall_eq', Bool.and_eq_true, decide_eq_true_eq]
      tauto

/-- What the driver returns of a row can be written in the ISO format. -/
structure HasValidDates (row : Transaction J ν) : Prop where
  startedAt : -Js.maxTime ≤ row.transactionStartedAt ∧ row.transactionStartedAt ≤ Js.maxTime
  completedAt : ∀ date ∈ row.transactionCompletedAt, -Js.maxTime ≤ date ∧ date ≤ Js.maxTime

theorem exists_encodeCursor {row : Transaction J ν} (h : HasValidDates row)
    (runtime : Runtime μ) (db : Database) (column : Column) :
    ∃ token, encodeCursor runtime row (sortMeta db column) = .ok token := by
  have hdate {date : Js.Date} (hvalid : -Js.maxTime ≤ date ∧ date ≤ Js.maxTime) :
      ∃ text, Js.toISOString date = some text := ⟨_, if_pos hvalid⟩
  cases column with
  | correlationId => exact ⟨_, rfl⟩
  | transactionStartAt =>
    obtain ⟨text, htext⟩ := hdate h.startedAt
    have hkind : @SortKind.toText db .datetime row.transactionStartedAt = some text := htext
    simp [encodeCursor, sortMeta, hkind]
  | transactionCompletedAt =>
    cases hcompleted : row.transactionCompletedAt with
    | none => simp [encodeCursor, sortMeta, hcompleted]
    | some date =>
      obtain ⟨text, htext⟩ := hdate (h.completedAt date hcompleted)
      have hkind : @SortKind.toText db .datetime date = some text := htext
      simp [encodeCursor, sortMeta, hcompleted, hkind]

/-- An output shows a page of a list: its flags tell whether there are rows before it and after
it, and its cursors are those of its first and last rows. -/
structure Shows (runtime : Runtime μ) (column : SortMeta J ν db) (l : List (Transaction J ν))
    (size : ℕ) (before page after : List (Transaction J ν)) (out : Output J ν) : Prop where
  cut : Cut l size before page after
  records : out.records = page
  hasNext : out.pageInfo.hasNext = !after.isEmpty
  hasPrev : out.pageInfo.hasPrev = !before.isEmpty
  startCursor : page.head?.mapM (encodeCursor runtime · column) = .ok out.pageInfo.startCursor
  endCursor : page.getLast?.mapM (encodeCursor runtime · column) = .ok out.pageInfo.endCursor

theorem Shows.unique {column : SortMeta J ν db} {l before page after : List (Transaction J ν)}
    {size : ℕ} {out out' : Output J ν} (h : Shows runtime column l size before page after out)
    (h' : Shows runtime column l size before page after out') : out = out' := by
  obtain ⟨records, hasNext, hasPrev, startCursor, endCursor⟩ := out
  obtain ⟨records', hasNext', hasPrev', startCursor', endCursor'⟩ := out'
  have hrecords : records = records' := h.records.trans h'.records.symm
  have hnext : hasNext = hasNext' := h.hasNext.trans h'.hasNext.symm
  have hprev : hasPrev = hasPrev' := h.hasPrev.trans h'.hasPrev.symm
  have hstart := h.startCursor.symm.trans h'.startCursor
  have hend := h.endCursor.symm.trans h'.endCursor
  cases hrecords
  cases hnext
  cases hprev
  cases hstart
  cases hend
  rfl

/-- The information on a page of valid rows, and what it says. -/
theorem exists_pageInfo {page : List (Transaction J ν)} (hpage : ∀ row ∈ page, HasValidDates row)
    (runtime : Runtime μ) (db : Database) (column : Column) (position : Position)
    (hasMore : Bool) :
    ∃ info, buildPageInfo runtime position hasMore page (sortMeta db column) = .ok info ∧
      info.hasNext = (position = .prev || (hasMore && position ≠ .last)) ∧
      info.hasPrev = (position = .next || (hasMore && position ≠ .first)) ∧
      page.head?.mapM (encodeCursor runtime · (sortMeta db column)) = .ok info.startCursor ∧
      page.getLast?.mapM (encodeCursor runtime · (sortMeta db column)) = .ok info.endCursor := by
  have hcursor (row? : Option (Transaction J ν)) (hrow : ∀ row ∈ row?, row ∈ page) :
      ∃ token, row?.mapM (encodeCursor runtime · (sortMeta db column)) = .ok token := by
    cases row? with
    | none => exact ⟨none, rfl⟩
    | some row =>
      obtain ⟨token, htoken⟩ := exists_encodeCursor (hpage row (hrow row rfl)) runtime db column
      refine ⟨some token, ?_⟩
      rw [Option.mapM_some, htoken]
      rfl
  obtain ⟨start, hstart⟩ := hcursor page.head? fun row hrow => List.mem_of_head? hrow
  obtain ⟨last, hlast⟩ := hcursor page.getLast? fun row hrow => List.mem_of_getLast? hrow
  unfold buildPageInfo
  rw [hstart, hlast]
  cases position <;> exact ⟨_, rfl, by simp, by simp, rfl, rfl⟩

/-- The rows of `transactions` while they stay as they are. -/
structure Snapshot (J ν : Type) where
  table : Table fun row : Transaction J ν => row.id
  valid : ∀ row ∈ table.rows, HasValidDates row

/-- The rows that a search is for, in its order. -/
abbrev Listing (db : Database) (snapshot : Snapshot J ν) (criteria : Criteria) (order : Order)
    (accessScope : Option AccessScope) (l : List (Transaction J ν)) : Prop :=
  Lists (Precedes (sortMeta db order.column) order.direction)
    (fun row => row ∈ snapshot.table.rows ∧ Matches criteria accessScope row) l

theorem exists_listing (db : Database) (snapshot : Snapshot J ν) (criteria : Criteria)
    (order : Order) (accessScope : Option AccessScope) :
    ∃ l, Listing db snapshot criteria order accessScope l := by
  classical
  obtain ⟨l, hl⟩ := exists_lists (sortMeta db order.column) order.direction
    snapshot.table.distinct fun row => Matches criteria accessScope row
  exact ⟨l, hl.congr fun row => by rw [decide_eq_true_eq]⟩

section Pages

variable {snapshot : Snapshot J ν} {criteria : Criteria} {order : Order}
  {accessScope : Option AccessScope} {l : List (Transaction J ν)} {size : Size}

/-- A page is what the rows beyond the cursor begin with, and its flags depend on whether there
are more of them. -/
theorem find_eq (cursor : Cursor) {decodedCursor : Option DecodedCursor}
    {beyond : List (Transaction J ν)} (hdecoded : decoded runtime cursor = .ok decodedCursor)
    (hbeyond : Lists (Precedes (sortMeta db order.column) (effectiveDir order cursor.position))
      (fun row => (row ∈ snapshot.table.rows ∧ Matches criteria accessScope row) ∧
        decodedCursor.all (keysetWhere runtime (sortMeta db order.column)
          (effectiveDir order cursor.position) · row) = true) beyond) :
    ∃ out, find db runtime snapshot.table.rows criteria cursor order accessScope = .ok out ∧
      out.records = (if reverse cursor.position then (beyond.take (clampSize cursor.size)).reverse
        else beyond.take (clampSize cursor.size)) ∧
      out.pageInfo.hasNext = (cursor.position = .prev ||
        (!(beyond.drop (clampSize cursor.size)).isEmpty && cursor.position ≠ .last)) ∧
      out.pageInfo.hasPrev = (cursor.position = .next ||
        (!(beyond.drop (clampSize cursor.size)).isEmpty && cursor.position ≠ .first)) ∧
      out.records.head?.mapM (encodeCursor runtime · (sortMeta db order.column)) =
        .ok out.pageInfo.startCursor ∧
      out.records.getLast?.mapM (encodeCursor runtime · (sortMeta db order.column)) =
        .ok out.pageInfo.endCursor := by
  have hfetched := fetchRows_eq snapshot.table.distinct hbeyond (clampSize cursor.size + 1)
  have hmore : decide (clampSize cursor.size < (beyond.take (clampSize cursor.size + 1)).length) =
      !(beyond.drop (clampSize cursor.size)).isEmpty := by
    rw [Bool.eq_iff_iff, decide_eq_true_eq, size_lt_length_take]
    simp
  have hpage : (if (!(beyond.drop (clampSize cursor.size)).isEmpty) = true
      then (beyond.take (clampSize cursor.size + 1)).take (clampSize cursor.size)
      else beyond.take (clampSize cursor.size + 1)) = beyond.take (clampSize cursor.size) := by
    simpa only [← hmore, decide_eq_true_eq] using probe beyond (clampSize cursor.size)
  have hvalid : ∀ row ∈ (if reverse cursor.position
      then (beyond.take (clampSize cursor.size)).reverse
      else beyond.take (clampSize cursor.size)), HasValidDates row := by
    intro row hrow
    have hmem : row ∈ beyond.take (clampSize cursor.size) := by
      split at hrow
      · exact List.mem_reverse.mp hrow
      · exact hrow
    exact snapshot.valid row ((hbeyond.mem row).mp (List.mem_of_mem_take hmem)).1.1
  obtain ⟨info, hinfo, hflags⟩ := exists_pageInfo hvalid runtime db order.column cursor.position
    (!(beyond.drop (clampSize cursor.size)).isEmpty)
  refine ⟨⟨_, info⟩, ?_, rfl, hflags⟩
  unfold find
  rw [hdecoded]
  simp only [bind, Except.bind, hfetched, hmore, hpage, hinfo]
  rfl

/-- The list in the order of its reversed fetch. -/
theorem Listing.reversed (h : Listing db snapshot criteria order accessScope l) :
    Lists (Precedes (sortMeta db order.column) order.direction.flip)
      (fun row => row ∈ snapshot.table.rows ∧ Matches criteria accessScope row) l.reverse := by
  obtain ⟨hmem, hsorted⟩ := Lists.reverse h
  refine ⟨hmem, hsorted.imp ?_⟩
  intro a b hba
  exact (precedes_flip _ _ a b).mpr hba

/-- With no cursor every matching row is fetched from. -/
theorem lists_noCursor {direction : Direction} {column : SortMeta J ν db}
    {p : Transaction J ν → Prop} (h : Lists (Precedes column direction) p l)
    (runtime : Runtime μ) :
    Lists (Precedes column direction) (fun row => p row ∧ (none : Option DecodedCursor).all
      (keysetWhere runtime column direction · row) = true) l :=
  h.congr fun _ => (and_iff_left rfl).symm

/-- With the cursor of a row the rows after it are. -/
theorem lists_afterCursor {direction : Direction} {column : SortMeta J ν db}
    {p : Transaction J ν → Prop} {before after : List (Transaction J ν)} {r : Transaction J ν}
    {cursor : DecodedCursor} (h : Lists (Precedes column direction) p (before ++ r :: after))
    (hcursor : cursor.Names runtime column r) :
    Lists (Precedes column direction) (fun row => p row ∧ (some cursor).all
      (keysetWhere runtime column direction · row) = true) after :=
  h.beyond.congr fun row => and_congr_right fun _ => (keysetWhere_iff hcursor direction row).symm

theorem find_first (h : Listing db snapshot criteria order accessScope l)
    (runtime : Runtime μ) (size : Size) :
    ∃ out, find db runtime snapshot.table.rows criteria ⟨.first, none, size⟩ order accessScope =
        .ok out ∧
      Shows runtime (sortMeta db order.column) l (clampSize size) [] (l.take (clampSize size))
        (l.drop (clampSize size)) out := by
  obtain ⟨out, hfind, hrecords, hnext, hprev, hstart, hend⟩ :=
    find_eq ⟨.first, none, size⟩ rfl (lists_noCursor h runtime)
  have hpage : out.records = l.take (clampSize size) := hrecords
  rw [hpage] at hstart hend
  refine ⟨out, hfind, .first l _, hpage, ?_, ?_, hstart, hend⟩
  · simpa using hnext
  · simpa using hprev

theorem find_last (h : Listing db snapshot criteria order accessScope l)
    (runtime : Runtime μ) (size : Size) :
    ∃ out, find db runtime snapshot.table.rows criteria ⟨.last, none, size⟩ order accessScope =
        .ok out ∧
      Shows runtime (sortMeta db order.column) l (clampSize size) (l.rdrop (clampSize size))
        (l.rtake (clampSize size)) [] out := by
  obtain ⟨out, hfind, hrecords, hnext, hprev, hstart, hend⟩ :=
    find_eq ⟨.last, none, size⟩ rfl (lists_noCursor h.reversed runtime)
  have hpage : out.records = l.rtake (clampSize size) := by
    rw [List.rtake_eq_reverse_take_reverse]
    exact hrecords
  rw [hpage] at hstart hend
  refine ⟨out, hfind, .last l _, hpage, ?_, ?_, hstart, hend⟩
  · simpa using hnext
  · rw [hprev, List.rdrop_eq_reverse_drop_reverse, List.isEmpty_reverse]
    simp

theorem decoded_token {position : Position} {token : String} {cursor : DecodedCursor}
    (hposition : usesToken position = true) (htoken : decodeCursor runtime token = .ok cursor)
    (size : Size) : decoded runtime ⟨position, some token, size⟩ = .ok (some cursor) := by
  unfold decoded
  rw [if_pos hposition, Option.mapM_some, htoken]
  rfl

theorem find_next {before after : List (Transaction J ν)} {r : Transaction J ν} {token : String}
    (h : Listing db snapshot criteria order accessScope (before ++ r :: after))
    (htoken : encodeCursor runtime r (sortMeta db order.column) = .ok token) (size : Size) :
    ∃ out, find db runtime snapshot.table.rows criteria ⟨.next, some token, size⟩ order
        accessScope = .ok out ∧
      Shows runtime (sortMeta db order.column) (before ++ r :: after) (clampSize size)
        (before ++ [r]) (after.take (clampSize size)) (after.drop (clampSize size)) out := by
  obtain ⟨cursor, hcursor, hnames⟩ := decodeCursor_encodeCursor htoken
  obtain ⟨out, hfind, hrecords, hnext, hprev, hstart, hend⟩ :=
    find_eq ⟨.next, some token, size⟩ (decoded_token rfl hcursor size)
      (lists_afterCursor h hnames)
  have hpage : out.records = after.take (clampSize size) := hrecords
  rw [hpage] at hstart hend
  refine ⟨out, hfind, .next rfl _, hpage, ?_, ?_, hstart, hend⟩
  · simpa using hnext
  · rw [hprev]
    simp

theorem find_prev {before after : List (Transaction J ν)} {r : Transaction J ν} {token : String}
    (h : Listing db snapshot criteria order accessScope (before ++ r :: after))
    (htoken : encodeCursor runtime r (sortMeta db order.column) = .ok token) (size : Size) :
    ∃ out, find db runtime snapshot.table.rows criteria ⟨.prev, some token, size⟩ order
        accessScope = .ok out ∧
      Shows runtime (sortMeta db order.column) (before ++ r :: after) (clampSize size)
        (before.rdrop (clampSize size)) (before.rtake (clampSize size)) (r :: after) out := by
  obtain ⟨cursor, hcursor, hnames⟩ := decodeCursor_encodeCursor htoken
  have hreversed := h.reversed
  rw [List.reverse_append, List.reverse_cons, List.append_assoc, List.singleton_append]
    at hreversed
  obtain ⟨out, hfind, hrecords, hnext, hprev, hstart, hend⟩ :=
    find_eq ⟨.prev, some token, size⟩ (decoded_token rfl hcursor size)
      (lists_afterCursor hreversed hnames)
  have hpage : out.records = before.rtake (clampSize size) := by
    rw [List.rtake_eq_reverse_take_reverse]
    exact hrecords
  rw [hpage] at hstart hend
  refine ⟨out, hfind, .prev rfl _, hpage, ?_, ?_, hstart, hend⟩
  · simpa using hnext
  · rw [hprev, List.rdrop_eq_reverse_drop_reverse, List.isEmpty_reverse]
    simp

/-- A cursor that is there is that of a row that is. -/
theorem eq_of_mapM {row? : Option (Transaction J ν)} {column : SortMeta J ν db} {token : String}
    (h : row?.mapM (encodeCursor runtime · column) = Except.ok (some token)) :
    ∃ row, row? = some row ∧ encodeCursor runtime row column = .ok token := by
  cases row? with
  | none => cases h
  | some row =>
    rw [Option.mapM_some] at h
    cases hrow : encodeCursor runtime row column with
    | error e =>
      rw [hrow] at h
      cases h
    | ok encoded =>
      rw [hrow] at h
      cases h
      exact ⟨row, rfl, hrow⟩

/-- The last row of a page, by its cursor. -/
theorem Shows.eq_of_endCursor {column : SortMeta J ν db}
    {before page after : List (Transaction J ν)} {n : ℕ} {out : Output J ν} {token : String}
    (h : Shows runtime column l n before page after out)
    (htoken : out.pageInfo.endCursor = some token) :
    ∃ early row, page = early ++ [row] ∧ encodeCursor runtime row column = .ok token := by
  have hend := h.endCursor
  rw [htoken] at hend
  obtain ⟨row, hrow, hencode⟩ := eq_of_mapM hend
  obtain ⟨early, hpage⟩ := List.getLast?_eq_some_iff.mp hrow
  exact ⟨early, row, hpage, hencode⟩

theorem Shows.eq_of_startCursor {column : SortMeta J ν db}
    {before page after : List (Transaction J ν)} {n : ℕ} {out : Output J ν} {token : String}
    (h : Shows runtime column l n before page after out)
    (htoken : out.pageInfo.startCursor = some token) :
    ∃ row late, page = row :: late ∧ encodeCursor runtime row column = .ok token := by
  have hstart := h.startCursor
  rw [htoken] at hstart
  obtain ⟨row, hrow, hencode⟩ := eq_of_mapM hstart
  obtain ⟨late, hpage⟩ := List.head?_eq_some_iff.mp hrow
  exact ⟨row, late, hpage, hencode⟩

theorem Shows.exists_endCursor {column : SortMeta J ν db}
    {before page after : List (Transaction J ν)} {n : ℕ} {out : Output J ν}
    (h : Shows runtime column l n before page after out) (hpage : page ≠ []) :
    ∃ token, out.pageInfo.endCursor = some token := by
  have hend := h.endCursor
  rw [List.getLast?_eq_some_getLast hpage, Option.mapM_some] at hend
  cases hencode : encodeCursor runtime (page.getLast hpage) column with
  | error e =>
    rw [hencode] at hend
    cases hend
  | ok token =>
    rw [hencode] at hend
    exact ⟨token, (Except.ok.inj hend).symm⟩

end Pages

section Forward

/-- The outputs from a cursor on, following the cursor of the last row as long as there is said to
be a next page. -/
inductive Forward (query : Cursor → Except SearchError (Output J ν)) (size : Size) :
    Cursor → List (Output J ν) → Prop
  | last {cursor : Cursor} {out : Output J ν} :
      query cursor = .ok out → out.pageInfo.hasNext = false → Forward query size cursor [out]
  | next {cursor : Cursor} {out : Output J ν} {token : String} {outs : List (Output J ν)} :
      query cursor = .ok out → out.pageInfo.hasNext = true → out.pageInfo.endCursor = some token →
      Forward query size ⟨.next, some token, size⟩ outs → Forward query size cursor (out :: outs)

theorem Forward.unique {query : Cursor → Except SearchError (Output J ν)} {size : Size}
    {cursor : Cursor} {outs outs' : List (Output J ν)} (h : Forward query size cursor outs)
    (h' : Forward query size cursor outs') : outs' = outs := by
  induction h generalizing outs' with
  | last hquery hnext =>
    cases h' with
    | last hquery' _ =>
      rw [hquery] at hquery'
      cases hquery'
      rfl
    | next hquery' hnext' _ _ =>
      rw [hquery] at hquery'
      cases hquery'
      exact absurd hnext' (by simp [hnext])
  | next hquery hnext htoken _ ih =>
    cases h' with
    | last hquery' hnext' =>
      rw [hquery] at hquery'
      cases hquery'
      exact absurd hnext (by simp [hnext'])
    | next hquery' _ htoken' hrest =>
      rw [hquery] at hquery'
      cases hquery'
      rw [htoken] at htoken'
      cases htoken'
      rw [ih hrest]

variable {snapshot : Snapshot J ν} {criteria : Criteria} {order : Order}
  {accessScope : Option AccessScope} {l : List (Transaction J ν)} {size : Size}

theorem take_ne_nil {n : ℕ} (hn : 0 < n) (h : l.drop n ≠ []) : l.take n ≠ [] := by
  have hlength := List.length_pos_of_ne_nil h
  rw [List.length_drop] at hlength
  apply List.ne_nil_of_length_pos
  rw [List.length_take]
  omega

/-- From a page on the outputs show that page and all the rows after it. -/
theorem exists_forward (h : Listing db snapshot criteria order accessScope l)
    (hsize : 0 < clampSize size) (n : ℕ) : ∀ {cursor : Cursor} {out : Output J ν}
      {before page after : List (Transaction J ν)}, after.length ≤ n →
      find db runtime snapshot.table.rows criteria cursor order accessScope = .ok out →
      Shows runtime (sortMeta db order.column) l (clampSize size) before page after out →
      (after ≠ [] → page ≠ []) →
      ∃ outs, Forward (find db runtime snapshot.table.rows criteria · order accessScope) size
          cursor outs ∧
        outs.flatMap (fun out => out.records) = page ++ after := by
  induction n with
  | zero =>
    intro cursor out before page after hn hfind hshows _
    have hafter : after = [] := List.eq_nil_of_length_eq_zero (Nat.le_zero.mp hn)
    subst hafter
    refine ⟨[out], .last hfind (by rw [hshows.hasNext]; rfl), ?_⟩
    simp [hshows.records]
  | succ n ih =>
    intro cursor out before page after hn hfind hshows hpage
    by_cases hafter : after = []
    · subst hafter
      refine ⟨[out], .last hfind (by rw [hshows.hasNext]; rfl), ?_⟩
      simp [hshows.records]
    · obtain ⟨token, htoken⟩ := hshows.exists_endCursor (hpage hafter)
      obtain ⟨early, row, rfl, hencode⟩ := hshows.eq_of_endCursor htoken
      obtain ⟨first, rest, rfl⟩ := List.exists_cons_of_ne_nil hafter
      have hl : l = (before ++ early) ++ row :: first :: rest := by
        rw [hshows.cut.eq]
        simp
      subst hl
      obtain ⟨out', hfind', hshows'⟩ := find_next h hencode size
      have hlength : ((first :: rest).drop (clampSize size)).length ≤ n := by
        rw [List.length_drop, List.length_cons]
        rw [List.length_cons] at hn
        omega
      obtain ⟨outs, houts, hrows⟩ := ih hlength hfind' hshows' (take_ne_nil hsize)
      refine ⟨out :: outs, .next hfind (by rw [hshows.hasNext]; rfl) htoken houts, ?_⟩
      rw [List.flatMap_cons, hrows, hshows.records, List.take_append_drop]

theorem clampSize_pos (h : size.AtLeastOne) : 0 < clampSize size := by
  cases size with
  | nan => exact absurd h id
  | infinite negative => exact (by decide : 0 < defaultSize)
  | finite value =>
    have hvalue : 1 ≤ value := h
    have hfloor : (1 : ℤ) ≤ value.floor := Int.le_floor.mpr (by exact_mod_cast hvalue)
    have hpositive : ¬ value ≤ 0 := by
      intro hle
      linarith
    simp only [clampSize]
    rw [if_neg hpositive, Nat.lt_min]
    constructor
    · omega
    · decide

/-- Following the cursors from the first page ends, with the only output that says there is no
next page, and shows every matching row once and in order. -/
theorem forward_enumerates (db : Database) (runtime : Runtime μ) (snapshot : Snapshot J ν)
    (criteria : Criteria) (order : Order) (accessScope : Option AccessScope)
    (hsize : size.AtLeastOne) :
    ∃ outs, (∀ outs', Forward (find db runtime snapshot.table.rows criteria · order accessScope)
        size ⟨.first, none, size⟩ outs' ↔ outs' = outs) ∧
      Listing db snapshot criteria order accessScope (outs.flatMap fun out => out.records) := by
  obtain ⟨l, h⟩ := exists_listing db snapshot criteria order accessScope
  obtain ⟨out, hfind, hshows⟩ := find_first h runtime size
  obtain ⟨outs, houts, hrows⟩ := exists_forward h (clampSize_pos hsize) _ le_rfl hfind hshows
    (take_ne_nil (clampSize_pos hsize))
  rw [List.take_append_drop] at hrows
  refine ⟨outs, fun outs' => ⟨houts.unique, ?_⟩, hrows ▸ h⟩
  rintro rfl
  exact houts

end Forward

section Back

/-- The outputs that a session of one page size comes to, by the positions without a cursor and by
the cursors of the outputs before. -/
inductive Visited (query : Cursor → Except SearchError (Output J ν)) (size : Size) :
    Output J ν → Prop
  | begin {position : Position} {out : Output J ν} (hposition : usesToken position = false) :
      query ⟨position, none, size⟩ = .ok out → Visited query size out
  | move {position : Position} {out out' : Output J ν} {token : String}
      (hposition : usesToken position = true) (h : Visited query size out)
      (htoken : out.pageInfo.startCursor = some token ∨ out.pageInfo.endCursor = some token) :
      query ⟨position, some token, size⟩ = .ok out' → Visited query size out'

variable {snapshot : Snapshot J ν} {criteria : Criteria} {order : Order}
  {accessScope : Option AccessScope} {l : List (Transaction J ν)} {size : Size}

theorem Visited.shows (h : Listing db snapshot criteria order accessScope l) {out : Output J ν}
    (hout : Visited (find db runtime snapshot.table.rows criteria · order accessScope) size out) :
    ∃ before page after,
      Shows runtime (sortMeta db order.column) l (clampSize size) before page after out := by
  induction hout with
  | @begin position out hposition hquery =>
    cases position with
    | first =>
      obtain ⟨out', hfind, hshows⟩ := find_first h runtime size
      cases hquery.symm.trans hfind
      exact ⟨_, _, _, hshows⟩
    | last =>
      obtain ⟨out', hfind, hshows⟩ := find_last h runtime size
      cases hquery.symm.trans hfind
      exact ⟨_, _, _, hshows⟩
    | next => exact absurd hposition (by decide)
    | prev => exact absurd hposition (by decide)
  | @move position out out' token hposition _ htoken hquery ih =>
    obtain ⟨before, page, after, hshows⟩ := ih
    obtain ⟨xs, row, ys, hl, hencode⟩ : ∃ xs row ys, l = xs ++ row :: ys ∧
        encodeCursor runtime row (sortMeta db order.column) = .ok token := by
      rcases htoken with htoken | htoken
      · obtain ⟨row, late, hpage, hencode⟩ := hshows.eq_of_startCursor htoken
        exact ⟨before, row, late ++ after, by simp [hshows.cut.eq, hpage], hencode⟩
      · obtain ⟨early, row, hpage, hencode⟩ := hshows.eq_of_endCursor htoken
        exact ⟨before ++ early, row, after, by simp [hshows.cut.eq, hpage], hencode⟩
    subst hl
    cases position with
    | first => exact absurd hposition (by decide)
    | last => exact absurd hposition (by decide)
    | next =>
      obtain ⟨out'', hfind, hshows'⟩ := find_next h hencode size
      cases hquery.symm.trans hfind
      exact ⟨_, _, _, hshows'⟩
    | prev =>
      obtain ⟨out'', hfind, hshows'⟩ := find_prev h hencode size
      cases hquery.symm.trans hfind
      exact ⟨_, _, _, hshows'⟩

/-- The page before the next page is the page. -/
theorem Shows.back (h : Listing db snapshot criteria order accessScope l)
    {before page after : List (Transaction J ν)} {out out' : Output J ν} {token token' : String}
    (hshows : Shows runtime (sortMeta db order.column) l (clampSize size) before page after out)
    (htoken : out.pageInfo.endCursor = some token)
    (hnext : find db runtime snapshot.table.rows criteria ⟨.next, some token, size⟩ order
      accessScope = .ok out')
    (htoken' : out'.pageInfo.startCursor = some token') :
    find db runtime snapshot.table.rows criteria ⟨.prev, some token', size⟩ order accessScope =
      .ok out := by
  obtain ⟨early, row, rfl, hencode⟩ := hshows.eq_of_endCursor htoken
  have hl : l = (before ++ early) ++ row :: after := by simp [hshows.cut.eq]
  obtain ⟨next, hfind, hshows'⟩ := find_next (hl ▸ h) hencode size
  cases hnext.symm.trans hfind
  obtain ⟨first, late, hpage, hencode'⟩ := hshows'.eq_of_startCursor htoken'
  have hafter : after = first :: (late ++ after.drop (clampSize size)) := by
    rw [← List.cons_append, ← hpage, List.take_append_drop]
  generalize late ++ after.drop (clampSize size) = rest at hafter
  subst hafter
  have hl' : l = (before ++ (early ++ [row])) ++ first :: rest := by simp [hl]
  obtain ⟨prev, hprev, hshows''⟩ := find_prev (hl' ▸ h) hencode' size
  rw [hshows.cut.rtake_eq, hshows.cut.rdrop_eq, ← hl'] at hshows''
  rw [hprev, hshows''.unique hshows]

/-- In a session the flags of an output tell whether there are rows before and after it, the page
before the page after an output is that output, and the last page is what the list ends with, as
far as the size of a page allows. -/
theorem paging_consistent (db : Database) (runtime : Runtime μ) (snapshot : Snapshot J ν)
    (criteria : Criteria) (order : Order) (accessScope : Option AccessScope) (size : Size) :
    ∃ l, Listing db snapshot criteria order accessScope l ∧
      (∀ out, Visited (find db runtime snapshot.table.rows criteria · order accessScope) size out →
        ∃ before after, l = before ++ out.records ++ after ∧
          (out.pageInfo.hasPrev = true ↔ before ≠ []) ∧
          (out.pageInfo.hasNext = true ↔ after ≠ [])) ∧
      (∀ out out' token token',
        Visited (find db runtime snapshot.table.rows criteria · order accessScope) size out →
        out.pageInfo.endCursor = some token →
        find db runtime snapshot.table.rows criteria ⟨.next, some token, size⟩ order accessScope =
          .ok out' →
        out'.pageInfo.startCursor = some token' →
        find db runtime snapshot.table.rows criteria ⟨.prev, some token', size⟩ order accessScope =
          .ok out) ∧
      ∃ out, find db runtime snapshot.table.rows criteria ⟨.last, none, size⟩ order accessScope =
          .ok out ∧ out.records = l.rtake (clampSize size) := by
  obtain ⟨l, h⟩ := exists_listing db snapshot criteria order accessScope
  refine ⟨l, h, ?_, ?_, ?_⟩
  · intro out hout
    obtain ⟨before, page, after, hshows⟩ := hout.shows h
    refine ⟨before, after, ?_, ?_, ?_⟩
    · rw [hshows.records, hshows.cut.eq]
    · simp [hshows.hasPrev]
    · simp [hshows.hasNext]
  · intro out out' token token' hout htoken hnext htoken'
    obtain ⟨before, page, after, hshows⟩ := hout.shows h
    exact hshows.back h htoken hnext htoken'
  · obtain ⟨out, hfind, hshows⟩ := find_last h runtime size
    exact ⟨out, hfind, hshows.records⟩

end Back

section Sample

def sampleDatabase : Database where
  collation := inferInstance
  toBigint text := (Js.parseBigInt text).getD 0
  toBigint_toString := Js.getD_parseBigInt_toString

/-- No number is written. -/
def sampleRuntime : Runtime Unit where
  numbers := .unit
  otherDate _ := none
  otherText _ := ""

/-- Transactions that began and ended at one instant. -/
def sampleTransaction (id : ℕ) : Transaction Unit ℤ where
  id := id
  correlationId := toString id
  payer := { fsp := "a" }
  payee := { fsp := "b" }
  transactionStartedAt := 0
  error := false
  possibleDispute := false
  disputeResolvedAt := none
  createdAt := 0
  updatedAt := 0

def sampleSnapshot (n : ℕ) : Snapshot Unit ℤ where
  table := {
    rows := (List.range n).map sampleTransaction
    distinct := by
      rw [List.map_map]
      exact (List.nodup_range.map fun _ _ h => h) }
  valid row hrow := by
    obtain ⟨id, -, rfl⟩ := List.mem_map.mp hrow
    exact ⟨(by decide : -Js.maxTime ≤ 0 ∧ 0 ≤ Js.maxTime), by simp [sampleTransaction]⟩

def sampleOrder : Order := ⟨.transactionCompletedAt, .desc⟩

/-- Pages of one row, of rows that are tied and `NULL`. -/
theorem forward_enumerates_sample : ∃ outs : List (Output Unit ℤ),
    (∀ outs', Forward (find sampleDatabase sampleRuntime (sampleSnapshot 3).table.rows {} ·
        sampleOrder (some ⟨"a"⟩)) (.finite 1) ⟨.first, none, .finite 1⟩ outs' ↔ outs' = outs) ∧
      Listing sampleDatabase (sampleSnapshot 3) {} sampleOrder (some ⟨"a"⟩)
        (outs.flatMap fun out => out.records) :=
  forward_enumerates sampleDatabase sampleRuntime (sampleSnapshot 3) {} sampleOrder (some ⟨"a"⟩)
    (le_refl (1 : ℚ))

/-- A page has no more rows than the greatest size of a page, however many are asked for. -/
theorem not_last_rows : ¬ ∀ (snapshot : Snapshot Unit ℤ) (criteria : Criteria) (order : Order)
    (accessScope : Option AccessScope) (n : ℕ) (l : List (Transaction Unit ℤ))
    (out : Output Unit ℤ), Listing sampleDatabase snapshot criteria order accessScope l →
      find sampleDatabase sampleRuntime snapshot.table.rows criteria ⟨.last, none, .finite n⟩ order
        accessScope = .ok out → out.records = l.rtake n := by
  intro hlast
  obtain ⟨l, h⟩ := exists_listing sampleDatabase (sampleSnapshot 201) {} sampleOrder none
  obtain ⟨out, hfind, hshows⟩ := find_last h sampleRuntime (.finite (201 : ℕ))
  have hlist : l.Perm (sampleSnapshot 201).table.rows := by
    refine (List.perm_ext_iff_of_nodup (Lists.nodup h)
      (List.Nodup.of_map _ (sampleSnapshot 201).table.distinct)).mpr fun row => ?_
    have hmatches : Matches {} none row := by simp [Matches, applyCriteria, equals]
    rw [h.mem, and_iff_left hmatches]
  have hlength : l.length = 201 := by
    rw [hlist.length_eq]
    simp [sampleSnapshot]
  have hrecords := hlast (sampleSnapshot 201) {} sampleOrder none 201 l out h hfind
  have hsize : clampSize (.finite (201 : ℕ)) = 200 := by decide +kernel
  have hle := hshows.cut.length_le
  rw [← hshows.records, hrecords, hsize, List.rtake, List.length_drop, hlength] at hle
  exact absurd hle (by decide)

end Sample

end TransactionRepository
end Audit
