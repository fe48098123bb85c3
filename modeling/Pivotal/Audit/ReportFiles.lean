import Mathlib.Data.List.Nodup
import Pivotal.Js.Text
import Pivotal.Store.Batches

/-! The files of a report: parts of at most as many rows as a file can have, of which each is read in
pages. -/
namespace Audit
open Store

/-- The settings that the files depend on; they are read as positive integers. -/
structure ReportFileSettings where
  pageSize : ℕ
  maxRowsPerFile : ℕ
  maxZipFiles : ℕ
  pageSize_pos : 0 < pageSize
  maxRowsPerFile_pos : 0 < maxRowsPerFile
  maxZipFiles_pos : 0 < maxZipFiles

def ReportFileSettings.maxDownloadRows : ℕ := 50000

inductive ReportFileType where
  | csv | xlsx
  deriving DecidableEq

/-- The rows of a part, of which each is written as a line or as a row of the sheet. -/
structure ReportPart (ρ κ : Type) where
  rows : List ρ
  nextCursor : Option κ

structure ZipEntry (ρ : Type) where
  name : String
  rows : List ρ

inductive ReportContent (ρ : Type) where
  | part (rows : List ρ)
  | zip (entries : List (ZipEntry ρ))

/-- The rows of the parts, in their order. -/
def ReportContent.parts {ρ : Type} : ReportContent ρ → List (List ρ)
  | .part rows => [rows]
  | .zip entries => entries.map fun entry => entry.rows

def ReportContent.names {ρ : Type} : ReportContent ρ → List String
  | .part _ => []
  | .zip entries => entries.map fun entry => entry.name

structure ReportFile (ρ : Type) where
  content : ReportContent ρ
  extension : String
  contentType : String

namespace TransactionReportGenerator

def xlsxMaxDataRowsPerSheet : ℕ := 1048575

def reportFileType (fileType : String) : ReportFileType :=
  if Js.toLowerCase (Js.trim fileType) = "csv" then .csv else .xlsx

def maxRowsPerGeneratedFile (settings : ReportFileSettings) : ReportFileType → ℕ
  | .xlsx => min settings.maxRowsPerFile xlsxMaxDataRowsPerSheet
  | .csv => settings.maxRowsPerFile

def maxDownloadRows (settings : ReportFileSettings) (fileType : ReportFileType) : ℕ :=
  min (maxRowsPerGeneratedFile settings fileType * settings.maxZipFiles)
    ReportFileSettings.maxDownloadRows

def partName (requestId : String) (extension : String) (partNumber : ℕ) : String :=
  "TransactionReport-" ++ requestId ++ "-Part" ++ toString partNumber ++ "." ++ extension

variable {ρ κ ε : Type} (find : Option κ → ℕ → Except ε (Batch ρ κ))

/-- The loop of `readRows`, with the rows that are read so far. -/
def readRowsFrom (pageSize : ℕ) (cursor : Option κ) (rowCount : ℕ) (rows : List ρ) :
    Except ε (ReportPart ρ κ) :=
  if rows.length < rowCount then
    let limit := min pageSize (rowCount - rows.length)
    match find cursor limit with
    | .error e => .error e
    | .ok page =>
      if page.records.length = 0 ∨ page.nextCursor.isNone then
        .ok ⟨rows ++ page.records, page.nextCursor⟩
      else readRowsFrom pageSize page.nextCursor rowCount (rows ++ page.records)
  else .ok ⟨rows, cursor⟩
termination_by rowCount - rows.length
decreasing_by
  rw [List.length_append]
  omega

def readRows (pageSize : ℕ) (initialCursor : Option κ) (rowCount : ℕ) :
    Except ε (ReportPart ρ κ) :=
  readRowsFrom find pageSize initialCursor rowCount []

theorem rows_ne_nil {pageSize rowCount : ℕ} {cursor : Option κ} {rows : List ρ}
    {part : ReportPart ρ κ} (hpart : readRowsFrom find pageSize cursor rowCount rows = .ok part)
    (hcount : 0 < rowCount) (hcursor : part.nextCursor ≠ none) : part.rows ≠ [] := by
  fun_induction readRowsFrom find pageSize cursor rowCount rows with
  | case1 => cases hpart
  | case2 cursor rows hlt limit page hpage hstop =>
    cases hpart
    exact List.append_ne_nil_of_right_ne_nil rows (page.nonempty hcursor)
  | case3 cursor rows hlt limit page hpage hmore ih => exact ih hpart
  | case4 cursor rows hdone =>
    cases hpart
    exact List.ne_nil_of_length_pos (lt_of_lt_of_le hcount (not_lt.mp hdone))

section Zip

variable (settings : ReportFileSettings) (name : ℕ → String) (totalRows : ℕ)

/-- The loop of `generateCsvReport` over the parts. -/
def addCsvParts (maxRowsPerFile : ℕ) (cursor : Option κ) (writtenRows partNumber : ℕ)
    (zip : List (ZipEntry ρ)) : Except ε (List (ZipEntry ρ)) :=
  if writtenRows < totalRows then
    let rowsInPart := min maxRowsPerFile (totalRows - writtenRows)
    match readRows find settings.pageSize cursor rowsInPart with
    | .error e => .error e
    | .ok part =>
      let zip := zip ++ [⟨name partNumber, part.rows⟩]
      if part.rows.length = 0 ∨ part.nextCursor.isNone then .ok zip
      else addCsvParts maxRowsPerFile part.nextCursor (writtenRows + part.rows.length)
        (partNumber + 1) zip
  else .ok zip
termination_by totalRows - writtenRows
decreasing_by omega

/-- A part after which there is more to write has rows. -/
theorem remaining_lt {maxRowsPerFile writtenRows : ℕ} (hfile : 0 < maxRowsPerFile)
    {cursor : Option κ} {part : ReportPart ρ κ}
    (hpart : readRows find settings.pageSize cursor
      (min maxRowsPerFile (totalRows - writtenRows)) = .ok part)
    (hmore : writtenRows + part.rows.length < totalRows ∧ part.nextCursor.isSome) :
    totalRows - (writtenRows + part.rows.length) < totalRows - writtenRows := by
  have hne : part.rows ≠ [] := by
    refine rows_ne_nil find hpart ?_ (Option.ne_none_iff_isSome.mpr hmore.2)
    rw [Nat.lt_min]
    omega
  have hlength := List.length_pos_of_ne_nil hne
  omega

/-- The loop of `generateXlsxZip` over the parts, which writes one before it looks whether there are
rows. -/
def addXlsxParts {maxRowsPerFile : ℕ} (hfile : 0 < maxRowsPerFile) (cursor : Option κ)
    (writtenRows partNumber : ℕ) (zip : List (ZipEntry ρ)) : Except ε (List (ZipEntry ρ)) :=
  let rowsInPart := min maxRowsPerFile (totalRows - writtenRows)
  match hpart : readRows find settings.pageSize cursor rowsInPart with
  | .error e => .error e
  | .ok part =>
    let zip := zip ++ [⟨name partNumber, part.rows⟩]
    if hmore : writtenRows + part.rows.length < totalRows ∧ part.nextCursor.isSome then
      addXlsxParts hfile part.nextCursor (writtenRows + part.rows.length) (partNumber + 1) zip
    else .ok zip
termination_by totalRows - writtenRows
decreasing_by exact remaining_lt find settings totalRows hfile hpart hmore

end Zip

/-- One file, or where it would have too many rows a ZIP file of parts. -/
def generateCsvReport (settings : ReportFileSettings) (requestId : String)
    (totalRows maxRowsPerFile : ℕ) : Except ε (ReportFile ρ) :=
  if totalRows ≤ maxRowsPerFile then do
    let part ← readRows find settings.pageSize none totalRows
    return ⟨.part part.rows, "csv", "text/csv"⟩
  else do
    let zip ← addCsvParts find settings (partName requestId "csv") totalRows maxRowsPerFile none 0 1 []
    return ⟨.zip zip, "zip", "application/zip"⟩

def generateXlsxZip (settings : ReportFileSettings) (requestId : String) (totalRows : ℕ)
    {maxRowsPerFile : ℕ} (hfile : 0 < maxRowsPerFile) : Except ε (ReportFile ρ) := do
  let zip ← addXlsxParts find settings (partName requestId "xlsx") totalRows hfile none 0 1 []
  return ⟨.zip zip, "zip", "application/zip"⟩

section Loops

variable {find} {l : List ρ} {right : ℕ → ℕ → Prop} (reader : Reader find l right) {pageSize : ℕ}
  (hpage : 0 < pageSize)

include hpage in
/-- A part has no more rows than are asked for, and none but those of the list, whatever the pages
are. -/
theorem exists_readRowsFrom (rowCount : ℕ) {cursor : Option κ} (hcursor : reader.Valid cursor)
    {rows : List ρ} (hrows : rows.length ≤ rowCount) :
    ∃ part, readRowsFrom find pageSize cursor rowCount rows = .ok part ∧ rows <+: part.rows ∧
      part.rows.length ≤ rowCount ∧ (rows ⊆ l → part.rows ⊆ l) ∧ reader.Valid part.nextCursor := by
  fun_induction readRowsFrom find pageSize cursor rowCount rows with
  | case1 cursor rows hlt limit e herror =>
    obtain ⟨page, hok, -⟩ := reader.read hcursor (by omega : 0 < limit)
    cases herror.symm.trans hok
  | case2 cursor rows hlt limit page hfound hstop =>
    obtain ⟨page', hok, hlength, hpages, hvalid⟩ := reader.read hcursor (by omega : 0 < limit)
    cases hfound.symm.trans hok
    refine ⟨_, rfl, List.prefix_append rows page.records, ?_, ?_, hvalid⟩
    · rw [List.length_append]
      omega
    · exact fun hrows => List.append_subset.mpr ⟨hrows, hpages⟩
  | case3 cursor rows hlt limit page hfound hmore ih =>
    obtain ⟨page', hok, hlength, hpages, hvalid⟩ := reader.read hcursor (by omega : 0 < limit)
    cases hfound.symm.trans hok
    have hrows : (rows ++ page.records).length ≤ rowCount := by
      rw [List.length_append]
      omega
    obtain ⟨part, hpart, hbegins, hlength, hmem, hvalid⟩ := ih hvalid hrows
    exact ⟨part, hpart, (List.prefix_append rows page.records).trans hbegins, hlength,
      fun hrows => hmem (List.append_subset.mpr ⟨hrows, hpages⟩), hvalid⟩
  | case4 cursor rows hdone => exact ⟨_, rfl, List.prefix_rfl, hrows, id, hcursor⟩

include hpage in
/-- A part is what the list goes on with, when every page of it is. -/
theorem readRowsFrom_of_blocks {k rowCount : ℕ} {cursor : Option κ} (hcursor : reader.At k cursor)
    {rows : List ρ} (hrows : rows.length ≤ rowCount) (hcount : k + (rowCount - rows.length) ≤ l.length)
    {part : ReportPart ρ κ} (hpart : readRowsFrom find pageSize cursor rowCount rows = .ok part)
    (h : Blocks pageSize right k (rowCount - rows.length)) :
    part.rows = rows ++ (l.drop k).take (rowCount - rows.length) ∧
      (k + (rowCount - rows.length) < l.length →
        reader.At (k + (rowCount - rows.length)) part.nextCursor) := by
  fun_induction readRowsFrom find pageSize cursor rowCount rows generalizing k with
  | case1 => cases hpart
  | case2 cursor rows hlt limit page hfound =>
    rename_i hstop
    cases hpart
    have hlimit : 0 < limit := by omega
    have hright := ((blocks_iff (by omega)).mp h).1
    obtain ⟨-, hrecords⟩ := reader.records hcursor hlimit (by omega) hfound
    have hend := reader.at_end hcursor hlimit (by omega) hfound hright hstop
    have hall : limit = rowCount - rows.length := by omega
    rw [← hall]
    exact ⟨congrArg (rows ++ ·) (hrecords.mpr hright), fun hbefore => absurd hend hbefore.ne⟩
  | case3 cursor rows hlt limit page hfound hmore =>
    rename_i ih
    have hlimit : 0 < limit := by omega
    obtain ⟨hright, hrest⟩ := (blocks_iff (by omega)).mp h
    obtain ⟨hlength, hrecords⟩ := reader.records hcursor hlimit (by omega) hfound
    have hbefore := reader.before_end hcursor hlimit (by omega) hfound hmore
    have hnext := reader.next hcursor hlimit hbefore hfound hright
    have hleft : rowCount - (rows ++ page.records).length = rowCount - rows.length - limit := by
      rw [List.length_append]
      omega
    rw [hleft] at ih
    obtain ⟨hrows', hat⟩ := ih hnext (by rw [List.length_append]; omega) (by omega) hpart hrest
    have hplace : k + limit + (rowCount - rows.length - limit) = k + (rowCount - rows.length) := by
      omega
    rw [hplace] at hat
    refine ⟨?_, hat⟩
    rw [hrows', hrecords.mpr hright, List.append_assoc, ← List.drop_drop, ← List.take_add]
    congr 2
    omega
  | case4 cursor rows hdone =>
    cases hpart
    have hzero : rowCount - rows.length = 0 := by omega
    rw [hzero, List.take_zero, List.append_nil]
    exact ⟨rfl, fun _ => hcursor⟩

include hpage in
/-- Every page is right of a part that begins what the list goes on with. -/
theorem blocks_of_prefix {k rowCount : ℕ} {cursor : Option κ} (hcursor : reader.At k cursor)
    {rows : List ρ} (hrows : rows.length ≤ rowCount) (hcount : k + (rowCount - rows.length) ≤ l.length)
    {part : ReportPart ρ κ} (hpart : readRowsFrom find pageSize cursor rowCount rows = .ok part)
    (h : part.rows <+: rows ++ l.drop k) : Blocks pageSize right k (rowCount - rows.length) := by
  fun_induction readRowsFrom find pageSize cursor rowCount rows generalizing k with
  | case1 => cases hpart
  | case2 cursor rows hlt limit page hfound =>
    rename_i hstop
    cases hpart
    have hlimit : 0 < limit := by omega
    have hright := reader.right_of_prefix hcursor hlimit (by omega) hfound
      ((List.prefix_append_right_inj rows).mp h)
    have hend := reader.at_end hcursor hlimit (by omega) hfound hright hstop
    have hzero : rowCount - rows.length - limit = 0 := by omega
    rw [blocks_iff (by omega)]
    exact ⟨hright, hzero ▸ blocks_zero _ _ _⟩
  | case3 cursor rows hlt limit page hfound hmore =>
    rename_i ih
    have hlimit : 0 < limit := by omega
    obtain ⟨hlength, hrecords⟩ := reader.records hcursor hlimit (by omega) hfound
    have hbefore := reader.before_end hcursor hlimit (by omega) hfound hmore
    have hrows' : (rows ++ page.records).length ≤ rowCount := by
      rw [List.length_append]
      omega
    have hright : right k limit := by
      obtain ⟨page', hok, -, -, hvalid⟩ := reader.read (reader.valid hcursor) hlimit
      cases hfound.symm.trans hok
      obtain ⟨part', hpart', hbegins, -⟩ := exists_readRowsFrom reader hpage rowCount hvalid hrows'
      cases hpart.symm.trans hpart'
      exact reader.right_of_prefix hcursor hlimit (by omega) hfound
        ((List.prefix_append_right_inj rows).mp (hbegins.trans h))
    have hleft : rowCount - (rows ++ page.records).length = rowCount - rows.length - limit := by
      rw [List.length_append]
      omega
    rw [hleft] at ih
    have hlist : rows ++ page.records ++ l.drop (k + limit) = rows ++ l.drop k := by
      rw [hrecords.mpr hright, List.append_assoc, ← List.drop_drop, List.take_append_drop]
    have hnext := reader.next hcursor hlimit hbefore hfound hright
    rw [blocks_iff (by omega)]
    exact ⟨hright, ih hnext hrows' (by omega) hpart (hlist ▸ h)⟩
  | case4 cursor rows hdone =>
    have hzero : rowCount - rows.length = 0 := by omega
    rw [hzero]
    exact blocks_zero _ _ _

include hpage in
theorem exists_readRows {cursor : Option κ} (hcursor : reader.Valid cursor) (rowCount : ℕ) :
    ∃ part, readRows find pageSize cursor rowCount = .ok part ∧
      (part.rows.length ≤ rowCount ∧ part.rows ⊆ l) ∧ reader.Valid part.nextCursor ∧
      ∀ k, reader.At k cursor → k + rowCount ≤ l.length →
        (part.rows <+: l.drop k ↔ Blocks pageSize right k rowCount) ∧
        (part.rows <+: l.drop k → part.rows = (l.drop k).take rowCount ∧
          (k + rowCount < l.length → reader.At (k + rowCount) part.nextCursor)) := by
  have hempty : ([] : List ρ).length ≤ rowCount := Nat.zero_le _
  obtain ⟨part, hpart, -, hlength, hmem, hvalid⟩ :=
    exists_readRowsFrom reader hpage rowCount hcursor hempty
  refine ⟨part, hpart, ⟨hlength, hmem (List.nil_subset l)⟩, hvalid, ?_⟩
  intro k hat hcount
  have hblocks : part.rows <+: l.drop k → Blocks pageSize right k rowCount :=
    blocks_of_prefix reader hpage hat (Nat.zero_le _) hcount hpart
  have hpart := readRowsFrom_of_blocks reader hpage hat (Nat.zero_le _) hcount hpart
  refine ⟨⟨hblocks, fun h => ?_⟩, fun h => hpart (hblocks h)⟩
  rw [(hpart h).1]
  exact List.take_prefix _ _

variable (settings : ReportFileSettings) (name : ℕ → String) (totalRows : ℕ) {maxRowsPerFile : ℕ}

/-- The parts that a loop adds: none has more rows than it may, nor others than the list, they are
numbered, and they are what the list goes on with exactly if their pages are right. -/
theorem exists_addCsvParts (hfile : 0 < maxRowsPerFile) {cursor : Option κ} (writtenRows : ℕ)
    (hcursor : reader.Valid cursor) (partNumber : ℕ) (zip : List (ZipEntry ρ)) :
    ∃ entries, addCsvParts find settings name totalRows maxRowsPerFile cursor writtenRows partNumber
        zip = .ok (zip ++ entries) ∧
      (∀ entry ∈ entries, entry.rows.length ≤ maxRowsPerFile ∧ entry.rows ⊆ l) ∧
      entries.map (fun entry => entry.name) = (List.range' partNumber entries.length).map name ∧
      (totalRows = l.length → writtenRows ≤ totalRows →
        (writtenRows < totalRows → reader.At writtenRows cursor) →
        (entries.flatMap (fun entry => entry.rows) = l.drop writtenRows ↔
          Blocks maxRowsPerFile (Blocks settings.pageSize right) writtenRows
            (totalRows - writtenRows))) := by
  fun_induction addCsvParts find settings name totalRows maxRowsPerFile cursor writtenRows partNumber zip
    with
  | case1 cursor writtenRows partNumber zip hlt rowsInPart e herror =>
    obtain ⟨part, hpart, -⟩ := exists_readRows reader settings.pageSize_pos hcursor rowsInPart
    cases herror.symm.trans hpart
  | case2 cursor writtenRows partNumber zip hlt rowsInPart part hfound zip' hstop =>
    obtain ⟨part', hpart, hlength, -, hplace⟩ :=
      exists_readRows reader settings.pageSize_pos hcursor rowsInPart
    cases hfound.symm.trans hpart
    refine ⟨[⟨name partNumber, part.rows⟩], rfl, ?_, rfl, ?_⟩
    · intro entry hentry
      cases List.mem_singleton.mp hentry
      exact ⟨hlength.1.trans (min_le_left _ _), hlength.2⟩
    · intro htotal hle hat
      obtain ⟨hblocks, htake⟩ := hplace writtenRows (hat hlt) (by omega)
      have hone : [(⟨name partNumber, part.rows⟩ : ZipEntry ρ)].flatMap (fun entry => entry.rows) =
          part.rows := List.append_nil _
      rw [hone, blocks_iff (by omega)]
      constructor
      · intro hall
        have hcount := congrArg List.length hall
        rw [List.length_drop] at hcount
        have hzero : totalRows - writtenRows - rowsInPart = 0 := by omega
        exact ⟨hblocks.mp (hall ▸ List.prefix_rfl), hzero ▸ blocks_zero _ _ _⟩
      · rintro ⟨hfirst, -⟩
        obtain ⟨hrows, hnext⟩ := htake (hblocks.mpr hfirst)
        have hend : l.length ≤ writtenRows + rowsInPart := by
          by_contra hbefore
          have hbefore := not_le.mp hbefore
          have hsome := reader.cursor_ne_none (hnext hbefore) (by omega) hbefore
          rcases hstop with hempty | hnone
          · rw [hrows, List.length_take, List.length_drop] at hempty
            omega
          · exact hsome (Option.isNone_iff_eq_none.mp hnone)
        rw [hrows, List.take_of_length_le (by rw [List.length_drop]; omega)]
  | case3 cursor writtenRows partNumber zip hlt rowsInPart part hfound zip' hmore ih =>
    obtain ⟨part', hpart, hlength, hvalid, hplace⟩ :=
      exists_readRows reader settings.pageSize_pos hcursor rowsInPart
    cases hfound.symm.trans hpart
    obtain ⟨entries, hadd, hlengths, hnames, hrows⟩ := ih hvalid
    refine ⟨⟨name partNumber, part.rows⟩ :: entries, ?_, ?_, ?_, ?_⟩
    · rw [hadd, List.append_assoc]
      rfl
    · intro entry hentry
      rcases List.mem_cons.mp hentry with rfl | hentry
      · exact ⟨hlength.1.trans (min_le_left _ _), hlength.2⟩
      · exact hlengths entry hentry
    · rw [List.map_cons, hnames, List.length_cons, List.range'_succ, List.map_cons]
    · intro htotal hle hat
      obtain ⟨hblocks, htake⟩ := hplace writtenRows (hat hlt) (by omega)
      have hrest : part.rows <+: l.drop writtenRows →
          (part.rows ++ entries.flatMap (fun entry => entry.rows) = l.drop writtenRows ↔
            Blocks maxRowsPerFile (Blocks settings.pageSize right) (writtenRows + rowsInPart)
              (totalRows - writtenRows - rowsInPart)) := by
        intro hbegins
        obtain ⟨hpart, hnext⟩ := htake hbegins
        have hcount : part.rows.length = rowsInPart := by
          rw [hpart, List.length_take, List.length_drop]
          omega
        rw [hcount] at hrows
        rw [Nat.sub_sub, ← hrows htotal (by omega) fun hmore => hnext (by omega), hpart,
          ← List.drop_drop]
        have hsplit := List.take_append_drop rowsInPart (l.drop writtenRows)
        exact ⟨fun hall => List.append_cancel_left (hall.trans hsplit.symm), fun hall => by rw [hall, hsplit]⟩
      rw [List.flatMap_cons, blocks_iff (by omega)]
      constructor
      · intro hall
        have hbegins : part.rows <+: l.drop writtenRows := hall ▸ List.prefix_append _ _
        exact ⟨hblocks.mp hbegins, (hrest hbegins).mp hall⟩
      · rintro ⟨hfirst, hothers⟩
        exact (hrest (hblocks.mpr hfirst)).mpr hothers
  | case4 cursor writtenRows partNumber zip hdone =>
    refine ⟨[], by rw [List.append_nil], by simp, rfl, ?_⟩
    intro htotal hle _
    have hzero : totalRows - writtenRows = 0 := by omega
    rw [hzero, List.drop_eq_nil_of_le (by omega)]
    exact iff_of_true rfl (blocks_zero _ _ _)

/-- Where rows are left to write, the loop of `generateXlsxZip` is that of `generateCsvReport`. -/
theorem addXlsxParts_eq (find : Option κ → ℕ → Except ε (Batch ρ κ)) (hfile : 0 < maxRowsPerFile)
    {cursor : Option κ} {writtenRows partNumber : ℕ} {zip : List (ZipEntry ρ)}
    (h : writtenRows < totalRows) :
    addXlsxParts find settings name totalRows hfile cursor writtenRows partNumber zip =
      addCsvParts find settings name totalRows maxRowsPerFile cursor writtenRows partNumber zip := by
  fun_induction addXlsxParts find settings name totalRows hfile cursor writtenRows partNumber zip with
  | case1 cursor writtenRows partNumber zip rowsInPart e herror =>
    dsimp only [rowsInPart] at herror
    rw [addCsvParts, if_pos h]
    simp only [herror]
  | case2 cursor writtenRows partNumber zip rowsInPart part hfound zip' hmore ih =>
    dsimp only [rowsInPart] at hfound
    have hrows : part.rows ≠ [] :=
      rows_ne_nil find hfound (by omega) (Option.ne_none_iff_isSome.mpr hmore.2)
    have hgo : ¬ (part.rows.length = 0 ∨ part.nextCursor.isNone) := by
      simp [hrows, ← Option.isSome_iff_ne_none, hmore.2]
    rw [ih hmore.1]
    conv_rhs => rw [addCsvParts, if_pos h]
    simp only [hfound, if_neg hgo]
    rfl
  | case3 cursor writtenRows partNumber zip rowsInPart part hfound zip' hstop =>
    dsimp only [rowsInPart] at hfound
    rw [addCsvParts, if_pos h]
    simp only [hfound]
    split
    · rfl
    · rename_i hgo
      have hdone : ¬ writtenRows + part.rows.length < totalRows := by
        intro hlt
        have hsome : part.nextCursor ≠ none := fun hnone =>
          (not_or.mp hgo).2 (Option.isNone_iff_eq_none.mpr hnone)
        exact hstop ⟨hlt, Option.ne_none_iff_isSome.mp hsome⟩
      rw [addCsvParts, if_neg hdone]

theorem partName_injective (requestId extension : String) :
    Function.Injective (partName requestId extension) := by
  intro m n h
  unfold partName at h
  rw [String.append_left_inj, String.append_left_inj, String.append_right_inj] at h
  have hparse := congrArg (fun text => (Js.parseBigInt text).getD 0) h
  simp only [Js.getD_parseBigInt_toString] at hparse
  exact_mod_cast hparse

/-- A file of parts: none has too many rows, nor others than the list, none takes the place of another,
and together they have the rows of the list, in its order, exactly if all the pages are right. -/
structure WrittenFrom (settings : ReportFileSettings) (maxRowsPerFile : ℕ) (l : List ρ)
    (right : ℕ → ℕ → Prop) (content : ReportContent ρ) : Prop where
  bounded : ∀ rows ∈ content.parts, rows.length ≤ maxRowsPerFile ∧ rows ⊆ l
  names : content.names.Nodup
  complete_iff : content.parts.flatten = l ↔
    Blocks maxRowsPerFile (Blocks settings.pageSize right) 0 l.length

include reader

/-- The ZIP file of the parts that a loop adds. -/
theorem exists_zip (hfile : 0 < maxRowsPerFile) (requestId extension : String) :
    ∃ entries, addCsvParts find settings (partName requestId extension) l.length maxRowsPerFile none 0
        1 [] = .ok entries ∧
      WrittenFrom settings maxRowsPerFile l right (.zip entries) := by
  obtain ⟨entries, hadd, hbounded, hnames, hrows⟩ := exists_addCsvParts reader settings
    (partName requestId extension) l.length hfile 0 (reader.valid reader.start) 1 []
  refine ⟨entries, hadd, ?_, ?_, ?_⟩
  · intro rows hmem
    obtain ⟨entry, hentry, rfl⟩ := List.mem_map.mp hmem
    exact hbounded entry hentry
  · show (entries.map fun entry => entry.name).Nodup
    rw [hnames]
    exact List.Nodup.map (partName_injective requestId extension) List.nodup_range'
  · exact hrows rfl (Nat.zero_le _) fun _ => reader.start

theorem exists_csvReport (hfile : 0 < maxRowsPerFile) (requestId : String) :
    ∃ file, generateCsvReport find settings requestId l.length maxRowsPerFile = .ok file ∧
      WrittenFrom settings maxRowsPerFile l right file.content := by
  unfold generateCsvReport
  split
  · rename_i hone
    obtain ⟨part, hpart, hlength, -, hplace⟩ := exists_readRows reader settings.pageSize_pos
      (reader.valid reader.start) l.length
    refine ⟨⟨.part part.rows, "csv", "text/csv"⟩, by rw [hpart]; rfl, ?_, List.nodup_nil, ?_⟩
    · intro rows hmem
      cases List.mem_singleton.mp hmem
      exact ⟨hlength.1.trans hone, hlength.2⟩
    · obtain ⟨hblocks, htake⟩ := hplace 0 reader.start (by omega)
      rw [blocks_single hone (blocks_zero _ _ _), ← hblocks]
      have hparts : (ReportContent.part part.rows).parts.flatten = part.rows := List.append_nil _
      rw [hparts]
      constructor
      · intro hall
        exact hall ▸ List.prefix_rfl
      · intro hbegins
        rw [(htake hbegins).1, List.drop_zero, List.take_length]
  · obtain ⟨entries, hadd, hwritten⟩ := exists_zip reader settings hfile requestId "csv"
    exact ⟨_, by rw [hadd]; rfl, hwritten⟩

theorem exists_xlsxZip (hfile : 0 < maxRowsPerFile) (requestId : String) :
    ∃ file, generateXlsxZip find settings requestId l.length hfile = .ok file ∧
      WrittenFrom settings maxRowsPerFile l right file.content := by
  unfold generateXlsxZip
  rcases Nat.eq_zero_or_pos l.length with hempty | hpos
  · -- One part is written, though there are no rows.
    have hread : readRows find settings.pageSize none (min maxRowsPerFile (l.length - 0)) =
        .ok ⟨[], none⟩ := by
      rw [hempty, Nat.zero_sub, Nat.min_zero, readRows, readRowsFrom, if_neg (Nat.not_lt_zero _)]
    have hadd : addXlsxParts find settings (partName requestId "xlsx") l.length hfile none 0 1 [] =
        .ok [⟨partName requestId "xlsx" 1, []⟩] := by
      rw [addXlsxParts]
      split
      · rename_i herror
        cases herror.symm.trans hread
      · rename_i hpart
        cases hpart.symm.trans hread
        rw [dif_neg (by simp)]
        rfl
    refine ⟨⟨.zip [⟨partName requestId "xlsx" 1, []⟩], "zip", "application/zip"⟩, by rw [hadd]; rfl,
      ?_, List.nodup_singleton _, ?_⟩
    · intro rows hmem
      cases List.mem_singleton.mp hmem
      exact ⟨Nat.zero_le _, List.nil_subset l⟩
    · rw [hempty]
      exact iff_of_true (List.eq_nil_of_length_eq_zero hempty).symm (blocks_zero _ _ _)
  · obtain ⟨entries, hadd, hwritten⟩ := exists_zip reader settings hfile requestId "xlsx"
    rw [addXlsxParts_eq settings _ _ find hfile hpos, hadd]
    exact ⟨_, rfl, hwritten⟩

end Loops

end TransactionReportGenerator
end Audit
