import Pivotal.Migration.Specs

/-! A whole run: what it leaves wherever it is stopped, and what it has reached where it
returns. -/
namespace Migration
open Async Async.Program Store DbMigration

variable {σ : Type} {parse : Parser σ} {disk : Disk} {all : List MigrationFile}
  {I : σ → List HistoryRow → Prop}

/-- What is kept of the database wherever a run stops. -/
def Kept (I : σ → List HistoryRow → Prop) (s : Session (Database σ)) : Prop :=
  I s.durable.data s.durable.rows

/-- Every applied migration has its hash. -/
def Hashed (rows : List HistoryRow) : Prop := ∀ r ∈ rows, r.success = true → r.unhashed = false

theorem hashed_of_filled {byVersion : Js.Map String MigrationFile} {d d' : Database σ}
    (hne : ∀ version m, byVersion.get version = some m → m.hash ≠ "")
    (h : Filled byVersion d d.applied d') : Hashed d'.rows := by
  intro r' hr' hsuccess
  rw [h.rows] at hr'
  obtain ⟨r, hr, rfl⟩ := List.mem_map.mp hr'
  have hsuccess' : r.success = true := by
    split at hsuccess
    · unfold filled at hsuccess
      split at hsuccess
      · split at hsuccess
        · exact hsuccess
        · exact hsuccess
      · exact hsuccess
    · exact hsuccess
  have hmem : r.toAppliedMigration ∈ d.applied := Database.mem_applied.mpr ⟨r, hr, hsuccess', rfl⟩
  rw [if_pos hmem, filled]
  split
  · rename_i hunhashed
    split
    · rename_i m hm
      simp [AppliedMigration.unhashed, hne _ m hm]
    · rename_i hnone
      exact absurd hnone (h.known _ hmem hunhashed)
  · rename_i hhashed
    exact Bool.eq_false_iff.mpr hhashed

/-- The history as it is once it has its column. -/
def Upgraded (d d' : Database σ) : Prop := d'.data = d.data ∧ d'.rows = d.rows ∧ d'.Ready

theorem withstands_withHashColumn (table : String) {d : Database σ} (hI : I d.data d.rows) :
    (withHashColumn table).Withstands (Answers parse disk) (Kept I) (Session.idle d)
      fun s' applied => ∃ d', s' = Session.idle d' ∧ Upgraded d d' ∧ applied = d'.applied := by
  have hcreated : I d.createHistory.data d.createHistory.rows := by
    rw [Database.createHistory_data, Database.createHistory_rows]
    exact hI
  refine (withstands_getAppliedMigrations (K := fun d => I d.data d.rows) table hI hcreated).bind ?_
  rintro applied s' - ⟨rfl, rfl⟩
  refine (withstands_hasColumn (K := fun d => I d.data d.rows)
    (s := Session.idle d.createHistory) table "hash" hcreated).bind ?_
  rintro hasHash s' - ⟨rfl, hhash⟩
  cases hasHash with
  | true =>
    exact withstands_pure hcreated ⟨_, rfl,
      ⟨Database.createHistory_data d, Database.createHistory_rows d, hhash.mp rfl⟩, rfl⟩
  | false =>
    have hadded : ∀ d', d.createHistory.addHash = some d' → I d'.data d'.rows := by
      intro d' hd'
      obtain ⟨hdata, hrows, -⟩ := Database.addHash_spec hd'
      rw [hdata, hrows]
      exact hcreated
    refine (withstands_statement (K := fun d => I d.data d.rows) ⟨true, Database.addHash⟩
      rfl rfl hcreated hadded).bind ?_
    rintro - s' - ⟨d', hd', rfl⟩
    obtain ⟨hdata, hrows, hready⟩ := Database.addHash_spec hd'
    have hsame : d'.createHistory = d' := Database.createHistory_of_ready hready
    refine (withstands_getAppliedMigrations (K := fun d => I d.data d.rows) table (hadded d' hd')
      (hsame.symm ▸ hadded d' hd')).mono ?_
    rintro s' applied - ⟨rfl, rfl⟩
    rw [hsame]
    exact ⟨d', rfl, ⟨hdata.trans (Database.createHistory_data d),
      hrows.trans (Database.createHistory_rows d), hready⟩, rfl⟩

theorem withstands_addMissingIndex (table hashIndex : String) {d : Database σ}
    (hI : I d.data d.rows) : (addMissingIndex table hashIndex).Withstands (Answers parse disk)
      (Kept I) (Session.idle d) fun s' _ => s' = Session.idle d := by
  refine (withstands_hasIndex (K := fun d => I d.data d.rows) (s := Session.idle d) table hashIndex
    hI).bind ?_
  rintro found s' - rfl
  cases found with
  | true => exact withstands_pure hI rfl
  | false =>
    refine (withstands_statement (K := fun d => I d.data d.rows) (d := d) ⟨true, some⟩
      rfl rfl hI ?_).mono ?_
    · rintro d' ⟨⟩
      exact hI
    · rintro s' - - ⟨d', ⟨⟩, rfl⟩
      rfl

theorem withstands_dropOldIndex (table scriptIndex : String) {d : Database σ}
    (hI : I d.data d.rows) : (dropOldIndex table scriptIndex).Withstands (Answers parse disk)
      (Kept I) (Session.idle d) fun s' _ => s' = Session.idle d := by
  refine (withstands_hasIndex (K := fun d => I d.data d.rows) (s := Session.idle d) table
    scriptIndex hI).bind ?_
  rintro found s' - rfl
  cases found with
  | true =>
    refine (withstands_statement (K := fun d => I d.data d.rows) (d := d) ⟨true, some⟩
      rfl rfl hI ?_).mono ?_
    · rintro d' ⟨⟩
      exact hI
    · rintro s' - - ⟨d', ⟨⟩, rfl⟩
      rfl
  | false => exact withstands_pure hI rfl

/-- The history a run over `all` goes on with. -/
def Prepared (d d' : Database σ) : Prop :=
  d'.data = d.data ∧ d'.rows.length = d.rows.length ∧ d'.Ready ∧ Hashed d'.rows

theorem withstands_ensureHistoryTable (table : String) (hclosed : Closed parse all I)
    (hne : ∀ m ∈ all, m.hash ≠ "") {d : Database σ} (hI : I d.data d.rows) :
    (ensureHistoryTable table all).Withstands (Answers parse disk) (Kept I) (Session.idle d)
      fun s' _ => ∃ d', s' = Session.idle d' ∧ Prepared d d' := by
  refine (withstands_withHashColumn table hI).bind ?_
  rintro applied s' hI₁ ⟨d₁, rfl, ⟨hdata₁, hrows₁, hready₁⟩, rfl⟩
  refine (withstands_backfill table hclosed hready₁ hI₁).bind ?_
  rintro - s' hI₂ ⟨d₂, rfl, hd₂⟩
  have hprepared : Prepared d d₂ := by
    refine ⟨hd₂.data.trans hdata₁, ?_, hd₂.ready, hashed_of_filled ?_ hd₂⟩
    · rw [hd₂.rows, List.length_map, hrows₁]
    · exact fun version m hm => hne m (mem_of_mapBy hm).1
  refine (withstands_statement (K := fun d => I d.data d.rows) (d := d₂)
    ⟨true, Database.requireHash⟩ rfl rfl hI₂ ?_).bind ?_
  · intro d' hd'
    rw [(Database.requireHash_spec hd').1]
    exact hI₂
  rintro - s' - ⟨d', hd', rfl⟩
  obtain ⟨rfl, -⟩ := Database.requireHash_spec hd'
  refine (withstands_addMissingIndex table _ hI₂).bind ?_
  rintro - s' - rfl
  refine (withstands_dropOldIndex table _ hI₂).mono ?_
  rintro s' - - rfl
  exact ⟨d', rfl, hprepared⟩

/-- All that the transaction of a file executes. -/
def transaction (parse : Parser σ) (m : MigrationFile) : List (Statement (Database σ)) :=
  (parse m.sql).map Database.onData ++ [⟨false, Database.insertMigration m⟩]

theorem applyAll_transaction {m : MigrationFile} {d d' : Database σ}
    (h : applyAll (transaction parse m) d = some d') :
    applyAll (parse m.sql) d.data = some d'.data ∧ d'.Ready ∧
      d'.rows = d.rows ++ [Database.recorded m] := by
  rw [transaction, Session.applyAll_append] at h
  obtain ⟨d₁, hd₁, hinsert⟩ := Option.bind_eq_some_iff.mp h
  obtain ⟨d₂, hd₂, hrest⟩ := Option.bind_eq_some_iff.mp hinsert
  cases hrest
  obtain ⟨hscript, hrows⟩ := Database.applyAll_onData hd₁
  obtain ⟨hdata, hready, hrows'⟩ := Database.insertMigration_spec hd₂
  exact ⟨hdata ▸ hscript, hready, hrows'.trans (by rw [hrows])⟩

/-- Wherever the transaction of a file is stopped: nothing of it is left, or its first
statements, or all. -/
theorem kept_of_transaction (hclosed : Closed parse all I) {m : MigrationFile} {d d' : Database σ}
    (hI : I d.data d.rows) (hnext : Next all d.rows m)
    (h : d' = d ∨ Leftover (transaction parse m) d d') : I d'.data d'.rows := by
  rcases h with rfl | h
  · exact hI
  · rcases h.of_snoc rfl with h | h
    · obtain ⟨hdata, hrows⟩ := Database.leftover_onData h
      rw [hrows]
      exact hclosed.leftover hI hnext hdata
    · obtain ⟨hdata, -, hrows⟩ := applyAll_transaction h
      rw [hrows]
      exact hclosed.executed hI hnext hdata

theorem withstands_executeMigration (table : String) (start : ℤ) (hclosed : Closed parse all I)
    {m : MigrationFile} {d : Database σ} (hI : I d.data d.rows) (hnext : Next all d.rows m) :
    (executeMigration table m start).Withstands (Answers parse disk) (Kept I)
      (Session.idle d).start fun s' _ => ∃ d', s' = Session.idle d' ∧
        applyAll (transaction parse m) d = some d' := by
  have hkept : ∀ s : Session (Database σ),
      (s.durable = d ∨ Leftover (transaction parse m) d s.durable) → Kept I s :=
    fun s hs => kept_of_transaction hclosed hI hnext hs
  have hquery : (act (.query m.sql)).Withstands (Answers parse disk) (Kept I)
      (Session.idle d).start fun s' _ =>
        Session.Ran d ((parse m.sql).map Database.onData) s' := by
    refine withstands_ask hI ?_
    intro b s' hb
    cases hb with
    | executed hscript hs =>
      cases hscript
      have hran := (Session.ran_start d).executeAll hs
      exact ⟨hkept s' (hran.durable _), fun _ _ => hran⟩
    | failed e hscript hf =>
      cases hscript
      exact ⟨hkept s' (hf.durable.imp_right fun h => h.append _), by rintro b ⟨⟩⟩
    | controlled hf => cases hf
    | broken e hf => cases hf
    | rejected => exact ⟨hI, by rintro b ⟨⟩⟩
    | lost => exact ⟨hI, by rintro b ⟨⟩⟩
  refine hquery.bind ?_
  rintro - s₁ - hran
  have hkept₁ : Kept I s₁ := hkept s₁ (hran.durable _)
  refine (withstands_read (K := fun d => I d.data d.rows) .now hkept₁).bind ?_
  rintro finished s' - ⟨rfl, -⟩
  have hinsert : (recordMigration table m (finished - start)).Withstands (Answers parse disk)
      (Kept I) s' fun s'' _ => Session.Ran d (transaction parse m) s'' := by
    refine withstands_ask hkept₁ ?_
    intro b s'' hb
    cases hb with
    | executed hscript hs =>
      cases hscript
      have hran' : Session.Ran d (transaction parse m) s'' := hran.executeAll hs
      exact ⟨hkept s'' (by simpa using hran'.durable []), fun _ _ => hran'⟩
    | failed e hscript hf =>
      cases hscript
      exact ⟨hkept s'' (hran.fails hf), by rintro b ⟨⟩⟩
    | controlled hf => cases hf
    | broken e hf => cases hf
    | rejected => exact ⟨hkept₁, by rintro b ⟨⟩⟩
    | lost => exact ⟨hkept₁, by rintro b ⟨⟩⟩
  refine hinsert.bind ?_
  rintro - s₂ hkept₂ hran'
  have hcommit : I s₂.commit.durable.data s₂.commit.durable.rows := by
    obtain ⟨hdata, -, hrows⟩ := applyAll_transaction hran'.current
    show I s₂.current.data s₂.current.rows
    rw [hrows]
    exact hclosed.executed hI hnext hdata
  refine (withstands_control (K := fun d => I d.data d.rows) (f := Session.commit) rfl rfl hkept₂
    hcommit).mono ?_
  rintro s' - - rfl
  exact ⟨s₂.current, rfl, hran'.current⟩

theorem withstands_runMigration (table : String) (progress : Progress)
    (hclosed : Closed parse all I) {m : MigrationFile} {d : Database σ} (hI : I d.data d.rows)
    (hnext : Next all d.rows m) :
    (runMigration table progress m).Withstands (Answers parse disk) (Kept I) (Session.idle d)
      fun s' progress' => progress' = progress.recorded m ∧
        ∃ d', s' = Session.idle d' ∧ applyAll (transaction parse m) d = some d' := by
  refine (withstands_read (K := fun d => I d.data d.rows) (s := Session.idle d) .now hI).bind ?_
  rintro start s' - ⟨rfl, -⟩
  refine (withstands_control (K := fun d => I d.data d.rows) (s := Session.idle d)
    (f := Session.start) rfl rfl hI hI).bind ?_
  rintro - s' - rfl
  have hcaught : (tryCatch (executeMigration table m start) fun error => do
      act .rollback
      throw ("Migration " ++ m.filename ++ " failed: " ++ error)).Withstands (Answers parse disk)
      (Kept I) (Session.idle d).start fun s' _ => ∃ d', s' = Session.idle d' ∧
        applyAll (transaction parse m) d = some d' := by
    refine (withstands_executeMigration table start hclosed hI hnext).tryCatch ?_
    intro error s' hkept
    refine (withstands_control (K := fun d => I d.data d.rows) (f := Session.rollback) rfl rfl
      hkept hkept).bind ?_
    intro _ s'' hkept' _
    exact withstands_throw hkept'
  refine hcaught.bind ?_
  rintro - s' hkept hd'
  exact withstands_pure hkept ⟨rfl, hd'⟩

/-- What the two maps of the loop know of the history. -/
structure Tracks (rows : List HistoryRow) (progress : Progress) : Prop where
  absent : ∀ version, progress.appliedByVersion.get version = none →
    ∀ r ∈ rows, r.success = true → r.version ≠ version
  present : ∀ version a, progress.appliedByVersion.get version = some a →
    ∃ r ∈ rows, r.success = true ∧ r.version = version ∧ r.toAppliedMigration = a
  unused : ∀ hash, hash ≠ "" → progress.appliedByHash.get hash = none →
    ∀ r ∈ rows, r.success = true → r.hash ≠ some hash

theorem tracks_applied (d : Database σ) : Tracks d.rows
    { appliedByVersion := mapBy AppliedMigration.version d.applied
      appliedByHash := mapBy (fun a => a.hash.getD "") (d.applied.filter fun a => !a.unhashed)
      migrationsExecuted := 0 } := by
  constructor
  · intro version hnone r hr hsuccess
    exact (Js.Map.get_foldl_set_key_eq_none hnone).2 _
      (Database.mem_applied.mpr ⟨r, hr, hsuccess, rfl⟩)
  · intro version a ha
    rcases Js.Map.get_foldl_set_key ha with ⟨hmem, hversion⟩ | hempty
    · obtain ⟨r, hr, hsuccess, rfl⟩ := Database.mem_applied.mp hmem
      exact ⟨r, hr, hsuccess, hversion, rfl⟩
    · cases hempty
  · intro hash hne hnone r hr hsuccess hhash
    refine (Js.Map.get_foldl_set_key_eq_none hnone).2 r.toAppliedMigration ?_ (by simp [hhash])
    refine List.mem_filter.mpr ⟨Database.mem_applied.mpr ⟨r, hr, hsuccess, rfl⟩, ?_⟩
    simp [AppliedMigration.unhashed, hhash, hne]

theorem Tracks.recorded {rows : List HistoryRow} {progress : Progress} (h : Tracks rows progress)
    (m : MigrationFile) : Tracks (rows ++ [Database.recorded m]) (progress.recorded m) := by
  constructor
  · intro version hnone r hr hsuccess
    rw [Progress.recorded, Js.Map.get_set] at hnone
    split at hnone
    · cases hnone
    · rename_i hne
      rcases List.mem_append.mp hr with hr | hr
      · exact h.absent version hnone r hr hsuccess
      · rw [List.mem_singleton.mp hr]
        exact fun heq => hne heq.symm
  · intro version a ha
    rw [Progress.recorded, Js.Map.get_set] at ha
    split at ha
    · rename_i heq
      cases ha
      exact ⟨Database.recorded m, by simp, rfl, heq.symm, rfl⟩
    · obtain ⟨r, hr, hrest⟩ := h.present version a ha
      exact ⟨r, List.mem_append_left _ hr, hrest⟩
  · intro hash hne hnone r hr hsuccess
    rw [Progress.recorded, Js.Map.get_set] at hnone
    split at hnone
    · cases hnone
    · rename_i hdiff
      rcases List.mem_append.mp hr with hr | hr
      · exact h.unused hash hne hnone r hr hsuccess
      · rw [List.mem_singleton.mp hr]
        exact fun heq => hdiff (Option.some.inj heq).symm

theorem Covers.append {rows : List HistoryRow} {m : MigrationFile} (h : Covers rows m)
    (more : List HistoryRow) : Covers (rows ++ more) m := by
  obtain ⟨r, hr, hrest⟩ := h
  exact ⟨r, List.mem_append_left _ hr, hrest⟩

/-- The database after the files `before` of a run that began with `n` rows. -/
structure Reached (n : ℕ) (before : List MigrationFile) (progress : Progress) (d : Database σ) :
    Prop where
  hashed : Hashed d.rows
  tracks : Tracks d.rows progress
  covers : ∀ m ∈ before, Covers d.rows m
  length : d.rows.length = n + progress.migrationsExecuted

theorem Reached.skip {n : ℕ} {before : List MigrationFile} {progress : Progress} {d : Database σ}
    {m : MigrationFile} (h : Reached n before progress d) (hm : Covers d.rows m) :
    Reached n (before ++ [m]) progress d := by
  refine ⟨h.hashed, h.tracks, ?_, h.length⟩
  intro x hx
  rcases List.mem_append.mp hx with hx | hx
  · exact h.covers x hx
  · exact List.mem_singleton.mp hx ▸ hm

theorem Reached.recorded {n : ℕ} {before : List MigrationFile} {progress : Progress}
    {d d' : Database σ} {m : MigrationFile} (h : Reached n before progress d) (hne : m.hash ≠ "")
    (hrows : d'.rows = d.rows ++ [Database.recorded m]) :
    Reached n (before ++ [m]) (progress.recorded m) d' := by
  constructor
  · rw [hrows]
    intro r hr hsuccess
    rcases List.mem_append.mp hr with hr | hr
    · exact h.hashed r hr hsuccess
    · rw [List.mem_singleton.mp hr]
      simp [AppliedMigration.unhashed, Database.recorded, applied, hne]
  · exact hrows ▸ h.tracks.recorded m
  · rw [hrows]
    intro x hx
    rcases List.mem_append.mp hx with hx | hx
    · exact (h.covers x hx).append _
    · rw [List.mem_singleton.mp hx]
      exact ⟨Database.recorded m, by simp, rfl, rfl, rfl⟩
  · rw [hrows, List.length_append, h.length]
    exact Nat.add_assoc _ _ _

theorem withstands_migrateOne (table : String) (hclosed : Closed parse all I) {n : ℕ}
    {before after : List MigrationFile} {m : MigrationFile} (hall : all = before ++ m :: after)
    (hne : m.hash ≠ "") {progress : Progress} {d : Database σ} (hI : I d.data d.rows)
    (h : Reached n before progress d) :
    (migrateOne table progress m).Withstands (Answers parse disk) (Kept I) (Session.idle d)
      fun s' progress' => ∃ d', s' = Session.idle d' ∧ Reached n (before ++ [m]) progress' d' := by
  unfold migrateOne
  cases hversion : progress.appliedByVersion.get m.version with
  | some a =>
    obtain ⟨r, hr, hsuccess, hv, rfl⟩ := h.tracks.present _ _ hversion
    show Withstands _ _ (if r.hash = some m.hash then pure progress else throw _) _ _
    split
    · rename_i hhash
      exact withstands_pure hI ⟨d, rfl, h.skip ⟨r, hr, hsuccess, hv, hhash⟩⟩
    · exact withstands_throw hI
  | none =>
    cases hhash : progress.appliedByHash.get m.hash with
    | some a => exact withstands_throw hI
    | none =>
      have hnext : Next all d.rows m := by
        refine ⟨fun r hr hsuccess => ⟨h.tracks.absent _ hversion r hr hsuccess, ?_⟩, before, after,
          hall, h.covers⟩
        exact h.tracks.unused _ hne hhash r hr hsuccess
      refine (withstands_runMigration table progress hclosed hI hnext).mono ?_
      rintro s' progress' - ⟨rfl, d', rfl, hd'⟩
      exact ⟨d', rfl, h.recorded hne (applyAll_transaction hd').2.2⟩

/-- What a run over `all` that returns has reached, when it began with `n` rows. -/
structure Finished (all : List MigrationFile) (n : ℕ) (rows : List HistoryRow) (result : Result) :
    Prop where
  hashed : Hashed rows
  covers : ∀ m ∈ all, Covers rows m
  length : rows.length = n + result.migrationsExecuted

theorem withstands_migrateConnected (sha256 : Sha256) (settings : DbMigrationSettings)
    (table : String) (hclosed : Closed parse (discovered sha256 disk settings.locations) I)
    {d : Database σ} (hI : I d.data d.rows) :
    (migrateConnected sha256 settings table).Withstands (Answers parse disk) (Kept I)
      (Session.idle d) fun s' result => Finished (discovered sha256 disk settings.locations)
        d.rows.length s'.durable.rows result := by
  refine (withstands_discoverMigrations (K := fun d => I d.data d.rows) (s := Session.idle d)
    sha256 settings.locations hI).bind ?_
  rintro all s' - ⟨rfl, rfl⟩
  refine (withstands_ensureHistoryTable table hclosed (fun m hm => hash_ne_of_discovered hm)
    hI).bind ?_
  rintro - s' hI₁ ⟨d₁, rfl, -, hlength, hready, hhashed⟩
  have hsame : d₁.createHistory = d₁ := Database.createHistory_of_ready hready
  refine (withstands_getAppliedMigrations (K := fun d => I d.data d.rows) (d := d₁) table hI₁
    (hsame.symm ▸ hI₁)).bind ?_
  rintro applied s' - ⟨rfl, rfl⟩
  rw [hsame]
  refine Withstands.bind (U := fun s' progress => ∃ d', s' = Session.idle d' ∧ Reached
    d.rows.length (discovered sha256 disk settings.locations) progress d') ?_ ?_
  · refine Withstands.foldlM (fun before s' progress => ∃ d', s' = Session.idle d' ∧
      Reached d.rows.length before progress d') ?_ hI₁
      ⟨d₁, rfl, hhashed, tracks_applied d₁, by simp, hlength⟩
    rintro before m after hall - progress hI' ⟨d', rfl, hd'⟩
    have hm : m ∈ discovered sha256 disk settings.locations := by simp [hall]
    exact withstands_migrateOne table hclosed hall (hash_ne_of_discovered hm) hI' hd'
  · rintro progress s' hI' ⟨d', rfl, hd'⟩
    exact withstands_pure hI' ⟨hd'.hashed, hd'.covers, hd'.length⟩

/-- Whatever breaks, a run keeps what is closed under what it does, and where it returns
every file is applied. -/
theorem withstands_migrate (sha256 : Sha256) (settings : DbMigrationSettings)
    (hclosed : Closed parse (discovered sha256 disk settings.locations) I)
    {s : Session (Database σ)} (hs : Kept I s) :
    (migrate sha256 settings).Withstands (Answers parse disk) (Kept I) s fun s' result =>
      Finished (discovered sha256 disk settings.locations) s.durable.rows.length s'.durable.rows
        result := by
  have hconnect : (act .createConnection).Withstands (Answers parse disk) (Kept I) s
      fun s' _ => s' = s.rollback :=
    withstands_control (K := fun d => I d.data d.rows) (f := Session.rollback) rfl rfl hs hs
  refine hconnect.bind ?_
  rintro - s' - rfl
  refine (withstands_migrateConnected sha256 settings _ hclosed hs).tryFinally ?_ ?_
  · intro s' hs'
    exact (withstands_control (K := fun d => I d.data d.rows) (f := Session.rollback) rfl rfl hs'
      hs').mono fun _ _ _ _ => trivial
  · intro result s' hs' hfinished
    refine (withstands_control (K := fun d => I d.data d.rows) (f := Session.rollback) rfl rfl hs'
      hs').mono ?_
    rintro s'' - - rfl
    exact hfinished

end Migration

/-! Runs one after the other, each stopped anywhere: what they leave together. -/
namespace Migration
open Async Async.Program Store DbMigration

/-- A start of an application, with the files it comes with. -/
structure Attempt where
  locations : List String
  disk : Disk

variable {σ : Type} (parse : Parser σ) (sha256 : Sha256) (settings : DbMigrationSettings)

namespace Attempt

def files (a : Attempt) : List MigrationFile := discovered sha256 a.disk a.locations

def run (a : Attempt) : MigrationProgram Result :=
  migrate sha256 { settings with locations := a.locations }

end Attempt

/-- The attempts `as`, each stopped anywhere or returned before the next one begins. -/
inductive Attempted (s : Session (Database σ)) : List Attempt → Session (Database σ) → Prop
  | none : Attempted s [] s
  | attempt {as : List Attempt} {s' s'' : Session (Database σ)} (a : Attempt) :
      Attempted s as s' → (a.run sha256 settings).Leaves (Answers parse a.disk) s' s'' →
      Attempted s (as ++ [a]) s''

/-- What attempts may make of a database: scripts that ran whole and were recorded, each once,
and before it is recorded the beginnings of a script that one of its statements committed. -/
inductive Built (known : MigrationFile → Prop) (d₀ : Database σ) : σ → List HistoryRow → Prop
  | start : Built known d₀ d₀.data d₀.rows
  | backfilled {d : σ} {rows : List HistoryRow} {m : MigrationFile} : Built known d₀ d rows →
      known m → (∃ r ∈ rows, r.success = true ∧ r.version = m.version ∧ r.unhashed = true) →
      Built known d₀ d (backfill m rows)
  | leftover {d d' : σ} {rows : List HistoryRow} {m : MigrationFile} : Built known d₀ d rows →
      known m → Fresh rows m → Leftover (parse m.sql) d d' → Built known d₀ d' rows
  | executed {d d' : σ} {rows : List HistoryRow} {m : MigrationFile} : Built known d₀ d rows →
      known m → Fresh rows m → applyAll (parse m.sql) d = some d' →
      Built known d₀ d' (rows ++ [Database.recorded m])

/-- A database of the texts it has run. -/
def sampleParse : Parser (List String) := fun sql => [⟨false, fun d => some (d ++ [sql])⟩]

/-- Texts of different lengths have different hashes. -/
def sampleSha256 : Sha256 where
  hex sql := String.ofList (List.replicate 64 (Nat.digitChar (sql.length % 10)))
  length _ := by rw [String.length_ofList, List.length_replicate]

def sampleAttempt : Attempt where
  locations := ["sql"]
  disk := { files := fun _ => ["V2_0__fill.sql", "V1_0__create.sql", "README.md"], content := fun _ file => file }

def sampleSettings : DbMigrationSettings := ⟨"audit", none, []⟩

/-- A whole run on a server that nothing disturbs. -/
def sampleRun (s : Session (Database (List String))) : Session (Database (List String)) ×
    List (Event Op Answer) × Except String Result :=
  (sampleAttempt.run sampleSha256 sampleSettings).solo (respond sampleParse sampleAttempt.disk) s []

def sampleStart : Session (Database (List String)) := Session.idle ⟨[], none⟩

/-- A run that is stopped after that many calls. -/
def sampleStop (n : ℕ) (s : Session (Database (List String))) :
    Session (Database (List String)) :=
  ((sampleAttempt.run sampleSha256 sampleSettings).advance
    (respond sampleParse sampleAttempt.disk) n s []).1

/-- The first file is committed, and the second one has been run in its transaction. -/
def sampleStopped : Session (Database (List String)) := sampleStop 24 sampleStart

/-- The first file of each version. -/
def firsts (all : List MigrationFile) : List MigrationFile :=
  all.foldl (fun done m => if ∃ x ∈ done, x.version = m.version then done else done ++ [m]) []

/-- All the statements of the files, one file after the other. -/
def scripts (files : List MigrationFile) : List (Statement σ) := files.flatMap fun m => parse m.sql

variable {parse sha256 settings} {s s' : Session (Database σ)} {as : List Attempt}

theorem mem_of_next {all : List MigrationFile} {rows : List HistoryRow} {m : MigrationFile}
    (h : Next all rows m) : m ∈ all := by
  obtain ⟨-, before, after, rfl, -⟩ := h
  simp

/-- What every attempt keeps, all of them keep. -/
theorem Attempted.kept {I : σ → List HistoryRow → Prop}
    (h : Attempted parse sha256 settings s as s')
    (hclosed : ∀ a ∈ as, Closed parse (a.files sha256) I) (hs : Kept I s) : Kept I s' := by
  induction h with
  | none => exact hs
  | attempt a _ hrun ih =>
    have hbefore := ih fun b hb => hclosed b (List.mem_append_left _ hb)
    have ha := hclosed a (by simp)
    exact (withstands_migrate sha256 { settings with locations := a.locations } ha
      hbefore).of_leaves hrun

theorem closed_built {all : List MigrationFile} {known : MigrationFile → Prop} {d₀ : Database σ}
    (h : ∀ m ∈ all, known m) : Closed parse all (Built parse known d₀) where
  backfilled hbuilt hm hr := .backfilled hbuilt (h _ hm) hr
  leftover hbuilt hnext hleft := .leftover hbuilt (h _ (mem_of_next hnext)) hnext.1 hleft
  executed hbuilt hnext hall := .executed hbuilt (h _ (mem_of_next hnext)) hnext.1 hall

/-- From an empty history, all that is recorded succeeded, and no content is recorded twice. -/
theorem Built.hashes {known : MigrationFile → Prop} {d₀ : Database σ} {d : σ}
    {rows : List HistoryRow} (h : Built parse known d₀ d rows) (hd₀ : d₀.rows = [])
    (hne : ∀ m, known m → m.hash ≠ "") :
    (∀ r ∈ rows, r.success = true ∧ r.unhashed = false) ∧ (rows.map fun r => r.hash).Nodup := by
  induction h with
  | start => simp [hd₀]
  | backfilled _ _ hr ih =>
    obtain ⟨r, hr, -, -, hunhashed⟩ := hr
    rw [(ih.1 r hr).2] at hunhashed
    cases hunhashed
  | leftover _ _ _ _ ih => exact ih
  | @executed _ _ rows m _ hm hfresh _ ih =>
    constructor
    · intro r hr
      rcases List.mem_append.mp hr with hr | hr
      · exact ih.1 r hr
      · rw [List.mem_singleton.mp hr]
        exact ⟨rfl, by simp [AppliedMigration.unhashed, Database.recorded, applied, hne m hm]⟩
    · rw [List.map_append, List.nodup_append]
      refine ⟨ih.2, by simp, ?_⟩
      intro hash hhash hash' hhash' heq
      obtain ⟨r, hr, rfl⟩ := List.mem_map.mp hhash
      rw [List.map_singleton, List.mem_singleton] at hhash'
      exact (hfresh r hr (ih.1 r hr).1).2 (heq.trans hhash')

/-- Whatever attempts a database has seen, and wherever each was stopped. -/
theorem attempts_build {d₀ : Database σ}
    (h : Attempted parse sha256 settings (Session.idle d₀) as s) :
    Built parse (fun m => ∃ a ∈ as, m ∈ a.files sha256) d₀ s.durable.data s.durable.rows ∧
      (d₀.rows = [] → (∀ r ∈ s.durable.rows, r.success = true) ∧
        (s.durable.rows.map fun r => r.version).Nodup ∧
        (s.durable.rows.map fun r => r.hash).Nodup) := by
  have hbuilt : Kept (Built parse (fun m => ∃ a ∈ as, m ∈ a.files sha256) d₀) s :=
    h.kept (fun a ha => closed_built fun m hm => ⟨a, ha, hm⟩) .start
  refine ⟨hbuilt, fun hd₀ => ?_⟩
  have hne : ∀ m, (∃ a ∈ as, m ∈ a.files sha256) → m.hash ≠ "" := by
    rintro m ⟨a, -, hm⟩
    exact hash_ne_of_discovered hm
  obtain ⟨hrows, hhashes⟩ := Built.hashes hbuilt hd₀ hne
  refine ⟨fun r hr => (hrows r hr).1, ?_, hhashes⟩
  unfold Database.rows
  split
  · simp
  · rename_i history _
    exact history.table.distinct

theorem sampleRun_executes (s : Session (Database (List String))) :
    (sampleAttempt.run sampleSha256 sampleSettings).Executes
      (Answers sampleParse sampleAttempt.disk) s (sampleRun s).2.2 (sampleRun s).1 :=
  executes_solo (answers_respond sampleParse sampleAttempt.disk) _ s []

theorem sampleStop_leaves (n : ℕ) (s : Session (Database (List String))) :
    (sampleAttempt.run sampleSha256 sampleSettings).Leaves
      (Answers sampleParse sampleAttempt.disk) s (sampleStop n s) :=
  leaves_advance (answers_respond sampleParse sampleAttempt.disk) n _ s []

theorem sample_attempted : Attempted sampleParse sampleSha256 sampleSettings sampleStart
    [sampleAttempt] sampleStopped :=
  .attempt sampleAttempt .none (sampleStop_leaves 24 sampleStart)

theorem sampleRun_second : (sampleRun sampleStopped).2.2 = .ok ⟨"audit", 1⟩ := by decide +kernel

/-- The attempt that is stopped at the second file leaves the first, and one more runs the rest. -/
theorem sample_attempts_build :
    sampleStopped.durable.data = ["V1_0__create.sql"] ∧
      Built sampleParse
        (fun m => ∃ a ∈ [sampleAttempt, sampleAttempt], m ∈ a.files sampleSha256) ⟨[], none⟩
        (sampleRun sampleStopped).1.durable.data (sampleRun sampleStopped).1.durable.rows := by
  constructor
  · decide +kernel
  · exact (attempts_build (.attempt sampleAttempt sample_attempted
      (sampleRun_executes sampleStopped).leaves)).1

theorem firsts_append (before after : List MigrationFile) :
    firsts before <+: firsts (before ++ after) := by
  unfold firsts
  rw [List.foldl_append]
  generalize before.foldl _ [] = done
  induction after generalizing done with
  | nil => exact List.prefix_rfl
  | cons m after ih =>
    rw [List.foldl_cons]
    split
    · exact ih done
    · exact (List.prefix_append done [m]).trans (ih _)

theorem firsts_snoc {before : List MigrationFile} {m : MigrationFile}
    (h : ∀ x ∈ firsts before, x.version ≠ m.version) :
    firsts (before ++ [m]) = firsts before ++ [m] := by
  unfold firsts at h ⊢
  rw [List.foldl_append]
  exact if_neg fun ⟨x, hx, hv⟩ => h x hx hv

/-- Each version has one of its files among the first, and only one. -/
theorem firsts_spec (all : List MigrationFile) :
    (∀ x ∈ firsts all, x ∈ all) ∧ (∀ m ∈ all, ∃ x ∈ firsts all, x.version = m.version) ∧
      ((firsts all).map MigrationFile.version).Nodup := by
  induction all using List.reverseRecOn with
  | nil => simp [firsts]
  | append_singleton before m ih =>
    obtain ⟨hsub, hversions, hnodup⟩ := ih
    by_cases hseen : ∃ x ∈ firsts before, x.version = m.version
    · have hsame : firsts (before ++ [m]) = firsts before := by
        unfold firsts at hseen ⊢
        rw [List.foldl_append]
        exact if_pos hseen
      rw [hsame]
      refine ⟨fun x hx => List.mem_append_left _ (hsub x hx), ?_, hnodup⟩
      intro x hx
      rcases List.mem_append.mp hx with hx | hx
      · exact hversions x hx
      · exact List.mem_singleton.mp hx ▸ hseen
    · have hnew : ∀ x ∈ firsts before, x.version ≠ m.version :=
        fun x hx hv => hseen ⟨x, hx, hv⟩
      rw [firsts_snoc hnew]
      refine ⟨?_, ?_, ?_⟩
      · intro x hx
        rcases List.mem_append.mp hx with hx | hx
        · exact List.mem_append_left _ (hsub x hx)
        · exact List.mem_append_right _ hx
      · intro x hx
        rcases List.mem_append.mp hx with hx | hx
        · obtain ⟨y, hy, hv⟩ := hversions x hx
          exact ⟨y, List.mem_append_left _ hy, hv⟩
        · exact ⟨m, by simp, congrArg _ (List.mem_singleton.mp hx).symm⟩
      · rw [List.map_append, List.nodup_append]
        refine ⟨hnodup, by simp, ?_⟩
        intro v hv v' hv' heq
        obtain ⟨x, hx, rfl⟩ := List.mem_map.mp hv
        rw [List.map_singleton, List.mem_singleton] at hv'
        exact hnew x hx (heq.trans hv')

/-- A beginning of a list that has all its keys is the list. -/
theorem eq_of_keys_subset {α κ : Type} {key : α → κ} {l l' : List α} (h : l <+: l')
    (hnodup : (l'.map key).Nodup) (hkeys : ∀ x ∈ l', key x ∈ l.map key) : l = l' := by
  refine h.eq_of_length_le ?_
  have hsub : l'.map key ⊆ l.map key := by
    intro k hk
    obtain ⟨x, hx, rfl⟩ := List.mem_map.mp hk
    exact hkeys x hx
  simpa using (hnodup.subperm hsub).length_le

/-- The database after the files `done`, of scripts that commit nothing by themselves. -/
def InOrder (parse : Parser σ) (all : List MigrationFile) (d₀ : σ) (d : σ)
    (rows : List HistoryRow) : Prop :=
  ∃ done, done <+: firsts all ∧ rows = done.map Database.recorded ∧
    applyAll (scripts parse done) d₀ = some d

theorem mem_versions_of_covers {done : List MigrationFile} {m : MigrationFile}
    (h : Covers (done.map Database.recorded) m) : m.version ∈ done.map MigrationFile.version := by
  obtain ⟨r, hr, -, hv, -⟩ := h
  obtain ⟨x, hx, rfl⟩ := List.mem_map.mp hr
  exact List.mem_map.mpr ⟨x, hx, hv⟩

/-- A run that goes by the order of the files comes to the next of the first ones. -/
theorem done_of_next {all done : List MigrationFile} {m : MigrationFile}
    (hdone : done <+: firsts all) (hnext : Next all (done.map Database.recorded) m) :
    done ++ [m] <+: firsts all := by
  obtain ⟨hfresh, before, after, rfl, hcovers⟩ := hnext
  have hnotin : m.version ∉ done.map MigrationFile.version := by
    intro hmem
    obtain ⟨x, hx, hv⟩ := List.mem_map.mp hmem
    exact (hfresh _ (List.mem_map_of_mem hx) rfl).1 hv
  obtain ⟨hsub, -, hnodup⟩ := firsts_spec before
  have hkeys : ∀ x ∈ firsts before, x.version ∈ done.map MigrationFile.version :=
    fun x hx => mem_versions_of_covers (hcovers x (hsub x hx))
  have hnew : ∀ x ∈ firsts before, x.version ≠ m.version :=
    fun x hx hv => hnotin (hv ▸ hkeys x hx)
  have hfirst : firsts before ++ [m] <+: firsts (before ++ m :: after) := by
    rw [← firsts_snoc hnew, List.append_cons before m after]
    exact firsts_append _ _
  rcases Nat.lt_or_ge (firsts before).length done.length with hlt | hge
  · have hin : firsts before ++ [m] <+: done :=
      List.prefix_of_prefix_length_le hfirst hdone (by simpa using Nat.succ_le_of_lt hlt)
    exact absurd (List.mem_map_of_mem (hin.subset (by simp))) hnotin
  · have hprefix : done <+: firsts before :=
      List.prefix_of_prefix_length_le hdone ((List.prefix_append _ _).trans hfirst) hge
    rw [eq_of_keys_subset hprefix hnodup hkeys]
    exact hfirst

theorem closed_inOrder {all : List MigrationFile} {d₀ : σ} (hne : ∀ m ∈ all, m.hash ≠ "")
    (hscripts : ∀ m ∈ all, ∀ st ∈ parse m.sql, st.commits = false) :
    Closed parse all (InOrder parse all d₀) where
  backfilled := by
    rintro d rows m ⟨done, hdone, rfl, -⟩ - ⟨r, hr, -, -, hunhashed⟩
    obtain ⟨x, hx, rfl⟩ := List.mem_map.mp hr
    have hxne : x.hash ≠ "" := hne x ((firsts_spec all).1 x (hdone.subset hx))
    simp [AppliedMigration.unhashed, Database.recorded, applied, hxne] at hunhashed
  leftover := by
    intro d d' rows m _ hnext hleft
    exact absurd hleft (Session.not_leftover (hscripts m (mem_of_next hnext)))
  executed := by
    rintro d d' rows m ⟨done, hdone, rfl, hdata⟩ hnext hall
    refine ⟨done ++ [m], done_of_next hdone hnext, by simp, ?_⟩
    rw [scripts, List.flatMap_append, Session.applyAll_append, ← scripts, hdata]
    simpa [scripts] using hall

/-- Attempts on files of which the first have been executed go on with the next of them. -/
theorem attempts_inOrder {b : Attempt} {n : ℕ} {base : σ}
    (hscripts : ∀ m ∈ b.files sha256, ∀ st ∈ parse m.sql, st.commits = false)
    (hs : Kept (InOrder parse (b.files sha256) base) s)
    (h : Attempted parse sha256 settings s (List.replicate n b) s') :
    Kept (InOrder parse (b.files sha256) base) s' ∧
      ∀ result s'', (b.run sha256 settings).Executes (Answers parse b.disk) s' (.ok result) s'' →
        s''.durable.rows = (firsts (b.files sha256)).map Database.recorded ∧
        applyAll (scripts parse (firsts (b.files sha256))) base = some s''.durable.data ∧
        s'.durable.rows.length + result.migrationsExecuted = (firsts (b.files sha256)).length := by
  have hclosed : Closed parse (b.files sha256) (InOrder parse (b.files sha256) base) :=
    closed_inOrder (fun m hm => hash_ne_of_discovered hm) hscripts
  have hs' : Kept (InOrder parse (b.files sha256) base) s' :=
    h.kept (fun a ha => List.eq_of_mem_replicate ha ▸ hclosed) hs
  refine ⟨hs', ?_⟩
  intro result s'' hrun
  have hwithstands := withstands_migrate sha256 { settings with locations := b.locations }
    hclosed hs'
  obtain ⟨done, hdone, hrows, hdata⟩ := hwithstands.of_leaves hrun.leaves
  have hfinished := hwithstands.of_executes hrun
  have hall : done = firsts (b.files sha256) := by
    refine eq_of_keys_subset hdone (firsts_spec _).2.2 fun x hx => ?_
    have hcovers := hfinished.covers x ((firsts_spec _).1 x hx)
    rw [hrows] at hcovers
    exact mem_versions_of_covers hcovers
  refine ⟨hall ▸ hrows, hall ▸ hdata, ?_⟩
  have hlength := hfinished.length
  rw [hrows, List.length_map, hall] at hlength
  omega

/-- With transactional scripts only, a run that returns leaves what one undisturbed run of all
the scripts makes, whatever attempts there were before it. -/
theorem attempts_converge {a : Attempt} {n : ℕ} {d₀ : Database σ} {result : Result}
    (hd₀ : d₀.rows = [])
    (hscripts : ∀ m ∈ a.files sha256, ∀ st ∈ parse m.sql, st.commits = false)
    (hbefore : Attempted parse sha256 settings (Session.idle d₀) (List.replicate n a) s)
    (hrun : (a.run sha256 settings).Executes (Answers parse a.disk) s (.ok result) s') :
    s'.durable.rows = (firsts (a.files sha256)).map Database.recorded ∧
      applyAll (scripts parse (firsts (a.files sha256))) d₀.data = some s'.durable.data := by
  have hstart : Kept (InOrder parse (a.files sha256) d₀.data) (Session.idle d₀) :=
    ⟨[], List.nil_prefix, by simp [hd₀], rfl⟩
  obtain ⟨hrows, hdata, -⟩ := (attempts_inOrder hscripts hstart hbefore).2 result s' hrun
  exact ⟨hrows, hdata⟩

theorem sample_attempts_converge :
    (sampleRun sampleStopped).1.durable.rows =
        (firsts (sampleAttempt.files sampleSha256)).map Database.recorded ∧
      applyAll (scripts sampleParse (firsts (sampleAttempt.files sampleSha256))) [] =
        some (sampleRun sampleStopped).1.durable.data :=
  attempts_converge (n := 1) rfl (by simp [sampleParse]) sample_attempted
    (sampleRun_second ▸ sampleRun_executes sampleStopped)

/-- The second file with another text. -/
def sampleFixed : Attempt where
  locations := ["sql"]
  disk := { sampleAttempt.disk with
    content := fun _ file => if file = "V2_0__fill.sql" then "fixed" else file }

def sampleFixedRun : Session (Database (List String)) × List (Event Op Answer) ×
    Except String Result :=
  (sampleFixed.run sampleSha256 sampleSettings).solo (respond sampleParse sampleFixed.disk)
    sampleStopped []

theorem sampleFixedRun_result : sampleFixedRun.2.2 = .ok ⟨"audit", 1⟩ := by decide +kernel

/-- The statements of a script up to the one that fails. -/
def executeWhile {ρ : Type} : List (Statement ρ) → Session ρ → Session ρ
  | [], s => s
  | st :: script, s =>
    match Session.execute st s with
    | some s' => executeWhile script s'
    | none => Session.before st s

theorem fails_executeWhile {ρ : Type} {script : List (Statement ρ)} {s : Session ρ}
    (h : Session.executeAll script s = none) : Session.Fails script s (executeWhile script s) := by
  induction script generalizing s with
  | nil => cases h
  | cons st script ih =>
    rw [Session.executeAll] at h
    rw [executeWhile]
    cases hexecute : Session.execute st s with
    | none => exact .rejected st script s
    | some s' =>
      rw [hexecute] at h
      exact .next hexecute (ih h)

/-- Each text creates what cannot be rolled back, and then fails. -/
def failingParse : Parser (List String) := fun sql =>
  [⟨true, fun d => some (d ++ [sql])⟩, ⟨false, fun _ => none⟩]

def failing (s : Session (Database (List String))) : (op : Op) →
    Answer op × Session (Database (List String))
  | .act (.query sql) => (.error "ER_NO_SUCH_TABLE",
      executeWhile ((failingParse sql).map Database.onData) s)
  | op => respond failingParse sampleAttempt.disk s op

theorem answers_failing (s : Session (Database (List String))) (op : Op) :
    Answers failingParse sampleAttempt.disk s op (failing s op).1 (failing s op).2 := by
  unfold failing
  split
  · exact .failed _ rfl (fails_executeWhile rfl)
  · exact answers_respond failingParse sampleAttempt.disk s _

def failedRun : Session (Database (List String)) × List (Event Op Answer) × Except String Result :=
  (sampleAttempt.run sampleSha256 sampleSettings).solo failing sampleStart []

/-- What a run left that returned on the same files. -/
theorem closed_same {all : List MigrationFile} {d₁ : Database σ} (hhashed : Hashed d₁.rows)
    (hcovers : ∀ m ∈ all, Covers d₁.rows m) :
    Closed parse all fun d rows => d = d₁.data ∧ rows = d₁.rows where
  backfilled := by
    rintro d rows m ⟨rfl, rfl⟩ - ⟨r, hr, hsuccess, -, hunhashed⟩
    rw [hhashed r hr hsuccess] at hunhashed
    cases hunhashed
  leftover := by
    rintro d d' rows m ⟨rfl, rfl⟩ hnext -
    obtain ⟨r, hr, hsuccess, hv, -⟩ := hcovers m (mem_of_next hnext)
    exact absurd hv (hnext.1 r hr hsuccess).1
  executed := by
    rintro d d' rows m ⟨rfl, rfl⟩ hnext -
    obtain ⟨r, hr, hsuccess, hv, -⟩ := hcovers m (mem_of_next hnext)
    exact absurd hv (hnext.1 r hr hsuccess).1

/-- After a run that returned, further ones on the same files change nothing, and report
nothing. -/
theorem attempts_idle {a : Attempt} {n : ℕ} {s₀ s₁ : Session (Database σ)} {result : Result}
    (hrun : (a.run sha256 settings).Executes (Answers parse a.disk) s₀ (.ok result) s₁)
    (hafter : Attempted parse sha256 settings s₁ (List.replicate n a) s) :
    (s.durable.data = s₁.durable.data ∧ s.durable.rows = s₁.durable.rows) ∧
      ∀ result' s', (a.run sha256 settings).Executes (Answers parse a.disk) s (.ok result') s' →
        result'.migrationsExecuted = 0 := by
  have hfinished := (withstands_migrate (I := fun _ _ => True) sha256
    { settings with locations := a.locations } ⟨by simp, by simp, by simp⟩ trivial).of_executes hrun
  have hclosed : Closed parse (a.files sha256) fun d rows =>
      d = s₁.durable.data ∧ rows = s₁.durable.rows :=
    closed_same hfinished.hashed hfinished.covers
  have hs : Kept (fun d rows => d = s₁.durable.data ∧ rows = s₁.durable.rows) s :=
    hafter.kept (fun b hb => List.eq_of_mem_replicate hb ▸ hclosed) ⟨rfl, rfl⟩
  refine ⟨hs, fun result' s' hrun' => ?_⟩
  have hwithstands := withstands_migrate sha256 { settings with locations := a.locations }
    hclosed hs
  have hs' := hwithstands.of_leaves hrun'.leaves
  have hlength := (hwithstands.of_executes hrun').length
  rw [hs'.2, hs.2] at hlength
  omega

/-- After the run that has returned one is stopped at its ninth call. -/
theorem sample_attempts_idle :
    (sampleStop 9 (sampleRun sampleStopped).1).durable.data =
        (sampleRun sampleStopped).1.durable.data ∧
      (sampleStop 9 (sampleRun sampleStopped).1).durable.rows =
        (sampleRun sampleStopped).1.durable.rows :=
  (attempts_idle (n := 1) (sampleRun_second ▸ sampleRun_executes sampleStopped)
    (.attempt sampleAttempt .none (sampleStop_leaves 9 (sampleRun sampleStopped).1))).1

end Migration
