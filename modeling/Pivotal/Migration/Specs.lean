import Pivotal.Migration.Server

/-! What each function of the runner makes of the database, wherever it is stopped. -/
namespace Migration
open Async Async.Program Store DbMigration

variable {σ : Type}

namespace Database

theorem rows_of_history {d : Database σ} {h : History} (hd : d.history = some h) :
    d.rows = h.table.rows := by
  unfold rows
  rw [hd]

theorem eq_of_version (d : Database σ) {r r' : HistoryRow} (hr : r ∈ d.rows) (hr' : r' ∈ d.rows)
    (hv : r.version = r'.version) : r = r' := by
  cases hd : d.history with
  | none => simp [rows, hd] at hr
  | some h =>
    rw [rows_of_history hd] at hr hr'
    exact Table.eq_of_key _ hr hr' hv

theorem createHistory_data (d : Database σ) : d.createHistory.data = d.data := by
  unfold createHistory
  split
  · rfl
  · rfl

theorem createHistory_rows (d : Database σ) : d.createHistory.rows = d.rows := by
  unfold createHistory
  split
  · rename_i hnone
    simp [rows, hnone, Table.empty]
  · rfl

theorem createHistory_of_ready {d : Database σ} (h : d.Ready) : d.createHistory = d := by
  obtain ⟨t, ht, -⟩ := h
  unfold createHistory
  rw [ht]

theorem applied_congr {d d' : Database σ} (h : d.rows = d'.rows) : d.applied = d'.applied := by
  unfold applied
  rw [h]

theorem mem_applied {d : Database σ} {a : AppliedMigration} :
    a ∈ d.applied ↔ ∃ r ∈ d.rows, r.success = true ∧ r.toAppliedMigration = a := by
  simp [applied, and_assoc]

theorem nodup_applied (d : Database σ) : d.applied.Nodup := by
  unfold applied rows
  split
  · simp
  · rename_i h hd
    have hversions : (h.table.rows.map fun r => r.version).Nodup := h.table.distinct
    refine List.Nodup.of_map AppliedMigration.version ?_
    rw [List.map_map]
    exact hversions.sublist (List.filter_sublist.map _)

/-- Without the column, a history shows no hash that it does not have. -/
theorem applied_absent {d : Database σ} (h : ¬ d.Ready) :
    (d.applied.map fun a => { a with hash := none }) = d.applied := by
  refine (List.map_congr_left ?_).trans (List.map_id _)
  intro a ha
  obtain ⟨r, hr, -, rfl⟩ := mem_applied.mp ha
  have hhash : r.hash = none := by
    cases hd : d.history with
    | none => simp [rows, hd] at hr
    | some t =>
      refine t.absent ?_ r (rows_of_history hd ▸ hr)
      exact Bool.eq_false_iff.mpr fun hc => h ⟨t, hd, hc⟩
  simp [← hhash]

theorem addHash_spec {d d' : Database σ} (h : d.addHash = some d') :
    d'.data = d.data ∧ d'.rows = d.rows ∧ d'.Ready := by
  unfold addHash at h
  split at h
  · cases h
  · rename_i t ht
    split at h
    · cases h
    · cases h
      exact ⟨rfl, by simp [rows, ht], _, rfl, rfl⟩

theorem updateHash_spec {hash version : String} {d d' : Database σ}
    (h : d.updateHash hash version = some d') : d'.data = d.data ∧ d'.Ready ∧
      d'.rows = d.rows.map fun r =>
        if r.version = version then { r with hash := some hash } else r := by
  unfold updateHash at h
  split at h
  · cases h
  · rename_i t ht
    split at h
    · cases h
      refine ⟨rfl, ⟨_, rfl, rfl⟩, ?_⟩
      simp [rows, ht, Table.modify]
    · cases h

theorem requireHash_spec {d d' : Database σ} (h : d.requireHash = some d') :
    d' = d ∧ ∀ r ∈ d.rows, r.hash ≠ none := by
  unfold requireHash at h
  split at h
  · cases h
    exact ⟨rfl, ‹_›⟩
  · cases h

theorem insertMigration_spec {migration : MigrationFile} {d d' : Database σ}
    (h : d.insertMigration migration = some d') :
    d'.data = d.data ∧ d'.Ready ∧ d'.rows = d.rows ++ [recorded migration] := by
  unfold insertMigration at h
  split at h
  · cases h
  · rename_i t ht
    split at h
    · cases h
      refine ⟨rfl, ⟨_, rfl, rfl⟩, ?_⟩
      simp [rows, ht, Table.insert]
    · cases h

/-- A script of the application leaves the history alone. -/
theorem applyAll_onData {script : List (Statement σ)} {d d' : Database σ}
    (h : applyAll (script.map onData) d = some d') :
    applyAll script d.data = some d'.data ∧ d'.rows = d.rows := by
  induction script generalizing d with
  | nil =>
    cases h
    exact ⟨rfl, rfl⟩
  | cons st script ih =>
    obtain ⟨d₁, hd₁, hrest⟩ := Option.bind_eq_some_iff.mp h
    obtain ⟨x, hx, rfl⟩ := Option.map_eq_some_iff.mp hd₁
    obtain ⟨hdata, hrows⟩ := ih hrest
    refine ⟨?_, hrows⟩
    show (st.effect d.data).bind (applyAll script) = some d'.data
    rw [hx]
    exact hdata

theorem leftover_onData {script : List (Statement σ)} {d d' : Database σ}
    (h : Leftover (script.map onData) d d') :
    Leftover script d.data d'.data ∧ d'.rows = d.rows := by
  obtain ⟨ran, rest, hscript, hran, st, hst, hc⟩ := h
  obtain ⟨ran, rest, rfl, rfl, rfl⟩ := List.map_eq_append_iff.mp hscript
  obtain ⟨hdata, hrows⟩ := applyAll_onData hran
  refine ⟨⟨ran, rest, rfl, hdata, ?_⟩, hrows⟩
  rw [← List.map_take, ← List.map_append] at hst
  obtain ⟨st', hst', rfl⟩ := List.mem_map.mp hst
  exact ⟨st', hst', hc⟩

end Database

section

variable {parse : Parser σ} {disk : Disk} {K : Database σ → Prop} {s : Session (Database σ)}

/-- What is asked of the files that a run finds. -/
def Covers (rows : List HistoryRow) (m : MigrationFile) : Prop :=
  ∃ r ∈ rows, r.success = true ∧ r.version = m.version ∧ r.hash = some m.hash

/-- Neither its version nor its content has been applied. -/
def Fresh (rows : List HistoryRow) (m : MigrationFile) : Prop :=
  ∀ r ∈ rows, r.success = true → r.version ≠ m.version ∧ r.hash ≠ some m.hash

/-- `m` is what a loop over `all` comes to, with all before it applied. -/
def Next (all : List MigrationFile) (rows : List HistoryRow) (m : MigrationFile) : Prop :=
  Fresh rows m ∧ ∃ before after, all = before ++ m :: after ∧ ∀ x ∈ before, Covers rows x

/-- The rows when the rows of one version get a hash. -/
def backfill (m : MigrationFile) (rows : List HistoryRow) : List HistoryRow :=
  rows.map fun r => if r.version = m.version then { r with hash := some m.hash } else r

/-- What is kept by all that a run over `all` may leave of the data and the history. -/
structure Closed (parse : Parser σ) (all : List MigrationFile) (I : σ → List HistoryRow → Prop) :
    Prop where
  backfilled {d : σ} {rows : List HistoryRow} {m : MigrationFile} : I d rows → m ∈ all →
    (∃ r ∈ rows, r.success = true ∧ r.version = m.version ∧ r.unhashed = true) →
    I d (backfill m rows)
  leftover {d d' : σ} {rows : List HistoryRow} {m : MigrationFile} : I d rows → Next all rows m →
    Leftover (parse m.sql) d d' → I d' rows
  executed {d d' : σ} {rows : List HistoryRow} {m : MigrationFile} : I d rows → Next all rows m →
    applyAll (parse m.sql) d = some d' → I d' (rows ++ [Database.recorded m])

/-- A read leaves the session, whatever is kept when it breaks. -/
theorem withstands_read (r : Read) (hK : K s.durable) :
    (read r).Withstands (Answers parse disk) (fun s => K s.durable) s
      fun s' v => s' = s ∧ Shows disk s.current r v := by
  refine withstands_ask hK ?_
  intro a s' ha
  cases ha with
  | shown hv =>
    refine ⟨hK, ?_⟩
    rintro b ⟨⟩
    exact ⟨rfl, hv⟩
  | rejected => exact ⟨hK, by rintro b ⟨⟩⟩
  | lost => exact ⟨hK, by rintro b ⟨⟩⟩

/-- A statement outside a transaction takes effect at once. -/
theorem withstands_statement (st : Statement (Database σ)) {a : Act} {d : Database σ}
    (ha : statements parse a = some [st]) (hc : control (σ := σ) a = none) (hK : K d)
    (hst : ∀ d', st.effect d = some d' → K d') :
    (act a).Withstands (Answers parse disk) (fun s => K s.durable) (Session.idle d)
      fun s' _ => ∃ d', st.effect d = some d' ∧ s' = Session.idle d' := by
  have hbefore : Session.before st (Session.idle d) = Session.idle d := by
    unfold Session.before
    split
    · rfl
    · rfl
  have hexecute : ∀ s', Session.execute st (Session.idle d) = some s' →
      ∃ d', st.effect d = some d' ∧ s' = Session.idle d' := by
    intro s' hs
    unfold Session.execute at hs
    rw [hbefore] at hs
    obtain ⟨d', hd', rfl⟩ := Option.map_eq_some_iff.mp hs
    exact ⟨d', hd', rfl⟩
  refine withstands_ask hK ?_
  intro b s' hb
  cases hb with
  | executed hscript hs =>
    rw [ha] at hscript
    cases hscript
    obtain ⟨s₁, hs₁, hs'⟩ := Option.bind_eq_some_iff.mp hs
    cases hs'
    obtain ⟨d', hd', rfl⟩ := hexecute s' hs₁
    exact ⟨hst d' hd', fun _ _ => ⟨d', hd', rfl⟩⟩
  | failed e hscript hf =>
    rw [ha] at hscript
    cases hscript
    refine ⟨?_, by rintro b ⟨⟩⟩
    cases hf with
    | rejected =>
      rw [hbefore]
      exact hK
    | lost => exact hK
    | next hs₁ hrest =>
      obtain ⟨d', hd', rfl⟩ := hexecute _ hs₁
      cases hrest with
      | lost => exact hst d' hd'
  | controlled hf =>
    rw [hc] at hf
    cases hf
  | broken e hf =>
    rw [hc] at hf
    cases hf
  | rejected => exact ⟨hK, by rintro b ⟨⟩⟩
  | lost => exact ⟨hK, by rintro b ⟨⟩⟩

/-- What begins or ends a transaction, or the connection. -/
theorem withstands_control {a : Act} {f : Session (Database σ) → Session (Database σ)}
    (ha : statements parse a = none) (hc : control (σ := σ) a = some f) (hK : K s.durable)
    (hf : K (f s).durable) :
    (act a).Withstands (Answers parse disk) (fun s => K s.durable) s fun s' _ => s' = f s := by
  refine withstands_ask hK ?_
  intro b s' hb
  cases hb with
  | executed hscript =>
    rw [ha] at hscript
    cases hscript
  | failed e hscript =>
    rw [ha] at hscript
    cases hscript
  | controlled hg =>
    rw [hc] at hg
    cases hg
    exact ⟨hf, fun _ _ => rfl⟩
  | broken e hg =>
    rw [hc] at hg
    cases hg
    exact ⟨hf, by rintro b ⟨⟩⟩
  | rejected => exact ⟨hK, by rintro b ⟨⟩⟩
  | lost => exact ⟨hK, by rintro b ⟨⟩⟩

/-- The files of a directory whose names match. -/
def fileAt (sha256 : Sha256) (disk : Disk) (location file : String) : Option MigrationFile :=
  (matchFilename file).map fun (version, description) =>
    migrationFile sha256 file (disk.content location file) version description

/-- What `discoverMigrations` finds. -/
def discovered (sha256 : Sha256) (disk : Disk) (locations : List String) : List MigrationFile :=
  (locations.flatMap fun location =>
    (disk.files location).filterMap (fileAt sha256 disk location)).insertionSort Before

theorem hash_ne_of_discovered {sha256 : Sha256} {disk : Disk} {locations : List String}
    {m : MigrationFile} (h : m ∈ discovered sha256 disk locations) : m.hash ≠ "" := by
  obtain ⟨location, -, hm⟩ := List.mem_flatMap.mp ((List.perm_insertionSort _ _).mem_iff.mp h)
  obtain ⟨file, -, hfile⟩ := List.mem_filterMap.mp hm
  obtain ⟨⟨version, description⟩, -, rfl⟩ := Option.map_eq_some_iff.mp hfile
  have hlength := sha256.length (disk.content location file)
  intro hempty
  rw [show sha256.hex (disk.content location file) = "" from hempty] at hlength
  cases hlength

theorem withstands_readMigration (sha256 : Sha256) (location file : String)
    (migrations : List MigrationFile) (hK : K s.durable) :
    (readMigration sha256 location migrations file).Withstands (Answers parse disk)
      (fun s => K s.durable) s fun s' ms =>
        s' = s ∧ ms = migrations ++ (fileAt sha256 disk location file).toList := by
  unfold readMigration fileAt
  cases matchFilename file with
  | none => exact withstands_pure hK ⟨rfl, by simp⟩
  | some found =>
    refine (withstands_read (.readFile location file) hK).bind ?_
    rintro sql s' hK' ⟨rfl, rfl⟩
    exact withstands_pure hK' ⟨rfl, rfl⟩

theorem withstands_readLocation (sha256 : Sha256) (location : String)
    (migrations : List MigrationFile) (hK : K s.durable) :
    (readLocation sha256 migrations location).Withstands (Answers parse disk)
      (fun s => K s.durable) s fun s' ms => s' = s ∧
        ms = migrations ++ (disk.files location).filterMap (fileAt sha256 disk location) := by
  have hfiles : (tryCatch (read (.readdir location)) fun _ =>
      throw ("Migration location not found or unreadable: " ++ location)).Withstands
      (Answers parse disk) (fun s => K s.durable) s
      fun s' files => s' = s ∧ files = disk.files location :=
    (withstands_read (.readdir location) hK).tryCatch fun _ _ hK' => withstands_throw hK'
  refine hfiles.bind ?_
  rintro files s' hK' ⟨rfl, rfl⟩
  refine Withstands.foldlM (fun before s'' ms => s'' = s' ∧
    ms = migrations ++ before.filterMap (fileAt sha256 disk location)) ?_ hK' ⟨rfl, by simp⟩
  rintro before file after - s'' ms hK'' ⟨rfl, rfl⟩
  refine (withstands_readMigration sha256 location file _ hK'').mono ?_
  rintro s₁ ms - ⟨rfl, rfl⟩
  refine ⟨rfl, ?_⟩
  rw [List.filterMap_append, List.append_assoc]
  cases hfile : fileAt sha256 disk location file with
  | none => simp [hfile]
  | some m => simp [hfile]

theorem withstands_discoverMigrations (sha256 : Sha256) (locations : List String)
    (hK : K s.durable) :
    (discoverMigrations sha256 locations).Withstands (Answers parse disk) (fun s => K s.durable) s
      fun s' all => s' = s ∧ all = discovered sha256 disk locations := by
  have hloop : (locations.foldlM (readLocation sha256) []).Withstands (Answers parse disk)
      (fun s => K s.durable) s fun s' ms => s' = s ∧ ms = locations.flatMap fun location =>
        (disk.files location).filterMap (fileAt sha256 disk location) := by
    refine Withstands.foldlM (fun before s' ms => s' = s ∧ ms = before.flatMap fun location =>
      (disk.files location).filterMap (fileAt sha256 disk location)) ?_ hK ⟨rfl, rfl⟩
    rintro before location after - s' ms hK' ⟨rfl, rfl⟩
    refine (withstands_readLocation sha256 location _ hK').mono ?_
    rintro s₁ ms - ⟨rfl, rfl⟩
    exact ⟨rfl, by simp⟩
  refine hloop.bind ?_
  rintro ms s' hK' ⟨rfl, rfl⟩
  exact withstands_pure hK' ⟨rfl, rfl⟩

theorem withstands_hasColumn (table column : String) (hK : K s.durable) :
    (hasColumn table column).Withstands (Answers parse disk) (fun s => K s.durable) s
      fun s' v => s' = s ∧ (v = true ↔ s.current.Ready) := by
  refine (withstands_read (.countColumns table column) hK).bind ?_
  rintro count s' hK' ⟨rfl, hcount⟩
  exact withstands_pure hK' ⟨rfl, decide_eq_true_iff.trans hcount⟩

theorem withstands_hasIndex (table index : String) (hK : K s.durable) :
    (hasIndex table index).Withstands (Answers parse disk) (fun s => K s.durable) s
      fun s' _ => s' = s := by
  refine (withstands_read (.countIndexes table index) hK).bind ?_
  rintro count s' hK' ⟨rfl, -⟩
  exact withstands_pure hK' rfl

theorem withstands_getAppliedMigrations (table : String) {d : Database σ} (hK : K d)
    (hcreated : K d.createHistory) :
    (getAppliedMigrations table).Withstands (Answers parse disk) (fun s => K s.durable)
      (Session.idle d) fun s' v =>
        s' = Session.idle d.createHistory ∧ v = d.createHistory.applied := by
  refine (withstands_hasColumn table "hash" hK).bind ?_
  rintro hasHash s' - ⟨rfl, hhash⟩
  refine (withstands_statement ⟨true, fun d => some d.createHistory⟩ rfl rfl hK ?_).bind ?_
  · rintro d' ⟨⟩
    exact hcreated
  · rintro - s' - ⟨d', ⟨⟩, rfl⟩
    refine (withstands_read (.selectApplied (escapeIdentifier table) hasHash) hcreated).mono ?_
    rintro s' v - ⟨rfl, hv⟩
    refine ⟨rfl, ?_⟩
    cases hasHash with
    | true => exact hv.2
    | false =>
      have habsent : ¬ d.Ready := fun h => by simpa using hhash.mpr h
      refine Eq.trans hv ?_
      rw [Session.idle_current, Database.applied_congr (Database.createHistory_rows d),
        Database.applied_absent habsent]

variable {all : List MigrationFile} {I : σ → List HistoryRow → Prop}

/-- A row that gets the hash of the file of its version, if it has none. -/
def filled (byVersion : Js.Map String MigrationFile) (r : HistoryRow) : HistoryRow :=
  if r.unhashed then
    match byVersion.get r.version with
    | some m => { r with hash := some m.hash }
    | none => r
  else r

/-- The history once the applied migrations `before` have been looked at. -/
structure Filled (byVersion : Js.Map String MigrationFile) (d : Database σ)
    (before : List AppliedMigration) (d' : Database σ) : Prop where
  data : d'.data = d.data
  ready : d'.Ready
  rows : d'.rows = d.rows.map fun r =>
    if r.toAppliedMigration ∈ before then filled byVersion r else r
  known : ∀ a ∈ before, a.unhashed = true → byVersion.get a.version ≠ none

theorem mem_of_mapBy {m : MigrationFile} {version : String}
    (h : (mapBy MigrationFile.version all).get version = some m) :
    m ∈ all ∧ m.version = version := by
  rcases Js.Map.get_foldl_set_key h with hm | hm
  · exact hm
  · cases hm

theorem filled_skip {byVersion : Js.Map String MigrationFile} {d d' : Database σ}
    {before : List AppliedMigration} {a : AppliedMigration} (h : Filled byVersion d before d')
    (ha : a.unhashed = false) : Filled byVersion d (before ++ [a]) d' := by
  refine ⟨h.data, h.ready, h.rows.trans (List.map_congr_left fun r _ => ?_), ?_⟩
  · by_cases hr : r.toAppliedMigration = a
    · have hfilled : filled byVersion r = r := by simp [filled, hr, ha]
      simp [hfilled]
    · simp [hr]
  · intro b hb hunhashed
    rcases List.mem_append.mp hb with hb | hb
    · exact h.known b hb hunhashed
    · rw [List.mem_singleton.mp hb, ha] at hunhashed
      cases hunhashed

/-- The row of an applied migration that has not been looked at is as it was. -/
theorem Filled.mem {byVersion : Js.Map String MigrationFile} {d d' : Database σ}
    {before : List AppliedMigration} (h : Filled byVersion d before d') {r : HistoryRow}
    (hr : r ∈ d.rows) (hbefore : r.toAppliedMigration ∉ before) : r ∈ d'.rows := by
  rw [h.rows]
  exact List.mem_map.mpr ⟨r, hr, if_neg hbefore⟩

theorem version_filled (byVersion : Js.Map String MigrationFile) (r : HistoryRow) :
    (filled byVersion r).version = r.version := by
  unfold filled
  split
  · split
    · rfl
    · rfl
  · rfl

theorem filled_update {byVersion : Js.Map String MigrationFile} {d d' d'' : Database σ}
    {before : List AppliedMigration} {r₀ : HistoryRow} {m : MigrationFile}
    (h : Filled byVersion d before d') (hr₀ : r₀ ∈ d.rows)
    (hbefore : r₀.toAppliedMigration ∉ before) (hunhashed : r₀.unhashed = true)
    (hget : byVersion.get r₀.version = some m)
    (hd'' : d'.updateHash m.hash r₀.version = some d'') :
    Filled byVersion d (before ++ [r₀.toAppliedMigration]) d'' := by
  obtain ⟨hdata, hready, hrows⟩ := Database.updateHash_spec hd''
  refine ⟨hdata.trans h.data, hready, ?_, ?_⟩
  · rw [hrows, h.rows, List.map_map]
    refine List.map_congr_left fun r hr => ?_
    by_cases hversion : r.version = r₀.version
    · have hr' : r = r₀ := d.eq_of_version hr hr₀ hversion
      subst hr'
      simp [hbefore, filled, hunhashed, hget]
    · have hne : r.toAppliedMigration ≠ r₀.toAppliedMigration :=
        fun heq => hversion (congrArg AppliedMigration.version heq)
      have hkept : (if r.toAppliedMigration ∈ before then filled byVersion r else r).version =
          r.version := by
        split
        · exact version_filled byVersion r
        · rfl
      simp [hkept, hversion, hne]
  · intro a ha hunhashed'
    rcases List.mem_append.mp ha with ha | ha
    · exact h.known a ha hunhashed'
    · rw [List.mem_singleton.mp ha, hget]
      simp

/-- The loop that gives their hashes to the migrations applied without one. -/
theorem withstands_backfill (table : String) (hclosed : Closed parse all I) {d : Database σ}
    (hready : d.Ready) (hI : I d.data d.rows) :
    (d.applied.foldlM (fun _ a => backfillHash table (mapBy MigrationFile.version all) a)
      ()).Withstands (Answers parse disk) (fun s => I s.durable.data s.durable.rows)
      (Session.idle d) fun s' _ => ∃ d', s' = Session.idle d' ∧
        Filled (mapBy MigrationFile.version all) d d.applied d' := by
  refine Withstands.foldlM (fun before s' _ => ∃ d', s' = Session.idle d' ∧
    Filled (mapBy MigrationFile.version all) d before d') ?_ hI
    ⟨d, rfl, rfl, hready, by simp, by simp⟩
  rintro before a after hitems - - hI' ⟨d', rfl, hd'⟩
  obtain ⟨r₀, hr₀, hsuccess, rfl⟩ : ∃ r ∈ d.rows, r.success = true ∧ r.toAppliedMigration = a :=
    Database.mem_applied.mp (by simp [hitems])
  have hbefore : r₀.toAppliedMigration ∉ before := by
    have hnodup := hitems ▸ d.nodup_applied
    exact fun hmem => (List.nodup_append.mp hnodup).2.2 _ hmem _ List.mem_cons_self rfl
  unfold backfillHash
  cases hunhashed : r₀.unhashed with
  | false => exact withstands_pure hI' ⟨d', rfl, filled_skip hd' hunhashed⟩
  | true =>
    cases hget : (mapBy MigrationFile.version all).get r₀.version with
    | none => exact withstands_throw hI'
    | some m =>
      obtain ⟨hm, hversion⟩ := mem_of_mapBy hget
      have hupdated : ∀ d'', d'.updateHash m.hash r₀.version = some d'' → I d''.data d''.rows := by
        intro d'' hd''
        obtain ⟨hdata, -, hrows⟩ := Database.updateHash_spec hd''
        rw [hdata, hrows, ← hversion]
        exact hclosed.backfilled hI' hm
          ⟨r₀, hd'.mem hr₀ hbefore, hsuccess, hversion.symm, hunhashed⟩
      refine (withstands_statement (K := fun d => I d.data d.rows) (d := d')
        ⟨false, Database.updateHash m.hash r₀.version⟩ rfl rfl hI' hupdated).mono ?_
      rintro s' - - ⟨d'', hd'', rfl⟩
      exact ⟨d'', rfl, filled_update hd' hr₀ hbefore hunhashed hget hd''⟩

end
end Migration
