import Pivotal.Audit.Search

/-! The order of a search and its cursors: a cursor stands for the place of its row, and one leg or
two merged fetch the first of the rows beyond it. -/
namespace Audit
open Fspiop Store
namespace TransactionRepository
open FindTransactionsQuery

variable {J ν μ : Type} {db : Database} {runtime : Runtime μ}

/-- The order of a search: the sort value, and between rows of one value the id. -/
def Precedes (column : SortMeta J ν db) (direction : Direction) (a b : Transaction J ν) : Prop :=
  match direction with
  | .asc => column.key a < column.key b
  | .desc => column.key b < column.key a

instance (column : SortMeta J ν db) (direction : Direction) :
    IsStrictOrder (Transaction J ν) (Precedes column direction) where
  irrefl a := by cases direction <;> exact lt_irrefl (column.key a)
  trans a b c hab hbc := by
    cases direction with
    | asc => exact lt_trans hab hbc
    | desc => exact lt_trans hbc hab

theorem precedes_flip (column : SortMeta J ν db) (direction : Direction) (a b : Transaction J ν) :
    Precedes column direction.flip a b ↔ Precedes column direction b a := by
  cases direction <;> rfl

/-- A row is selected by the filter and within the scope. -/
def Matches (criteria : Criteria) (accessScope : Option AccessScope) (row : Transaction J ν) : Prop :=
  applyCriteria criteria row = true ∧
    ∀ scope ∈ accessScope, row.payer.fsp = scope.fspId ∨ row.payee.fsp = scope.fspId

section Keyset

variable {α : Type} [LinearOrder α]

theorem latest_lt_iff (a b : Option α) :
    latest a < latest b ↔ sqlLt a b = true ∨ a.isNone = true ∧ b.isSome = true := by
  cases a with
  | none =>
    cases b with
    | none =>
      simp [sqlLt]
    | some b =>
      have hlt : latest (none : Option α) < latest (some b) := WithBot.bot_lt_coe b
      simp [hlt]
  | some a =>
    cases b with
    | none =>
      have hlt : ¬ latest (some a) < latest none := not_lt_bot
      simp [hlt, sqlLt]
    | some b =>
      have hlt : latest (some a) < latest (some b) ↔ a < b := WithBot.coe_lt_coe
      simp [hlt, sqlLt]

/-- A value and an id are the place of a row, with `NULL` before every value. -/
theorem place_lt_iff (a b : Option α) (i j : ℕ) :
    toLex (latest a, i) < toLex (latest b, j) ↔
      (sqlLt a b = true ∨ a.isNone = true ∧ b.isSome = true) ∨ a = b ∧ i < j := by
  rw [← latest_lt_iff]
  exact (Prod.Lex.toLex_lt_toLex).trans
    (or_congr_right (and_congr_left' latest_injective.eq_iff))

/-- The predicate of `keysetWhere`, of the values that the database compares. -/
def keysetSql (nullable : Bool) (effectiveDir : Direction) (cursorIsNull : Bool)
    (keysetCv : Option α) (keysetCid : ℤ) (col : Option α) (id : ℕ) : Bool :=
  match effectiveDir with
  | .desc =>
    if cursorIsNull then col.isNone && id < keysetCid
    else
      let core := sqlLt col keysetCv || (sqlEq col keysetCv && id < keysetCid)
      if nullable then core || col.isNone else core
  | .asc =>
    if cursorIsNull then col.isSome || (col.isNone && keysetCid < id)
    else sqlLt keysetCv col || (sqlEq col keysetCv && keysetCid < id)

/-- What is strictly beyond a place. -/
theorem keysetSql_iff {nullable : Bool} {cv col : Option α} (hnullable : nullable = false → col.isSome)
    (direction : Direction) (cid id : ℕ) :
    keysetSql nullable direction cv.isNone cv cid col id = true ↔
      match direction with
      | .asc => toLex (latest cv, cid) < toLex (latest col, id)
      | .desc => toLex (latest col, id) < toLex (latest cv, cid) := by
  unfold keysetSql
  cases direction with
  | asc =>
    dsimp only
    rw [place_lt_iff]
    cases cv with
    | none => cases col <;> simp [sqlLt]
    | some a =>
      cases col with
      | none => simp [sqlLt, sqlEq]
      | some b => simp [sqlLt, sqlEq, @eq_comm _ b a]
  | desc =>
    dsimp only
    rw [place_lt_iff]
    cases cv with
    | none => cases col <;> simp [sqlLt]
    | some a =>
      cases col with
      | none =>
        have htrue : nullable = true := by
          by_contra hnot
          exact absurd (hnullable (Bool.eq_false_iff.mpr hnot)) (by simp)
        simp [htrue]
      | some b => cases nullable <;> simp [sqlLt, sqlEq]

end Keyset

theorem key_lt_iff (column : SortMeta J ν db) (a b : Transaction J ν) :
    column.key a < column.key b ↔
      (sqlLt (column.value a) (column.value b) = true ∨
        (column.value a).isNone = true ∧ (column.value b).isSome = true) ∨
      column.value a = column.value b ∧ a.id < b.id :=
  place_lt_iff _ _ _ _

/-- A cursor that stands for the place of a row. -/
structure DecodedCursor.Names (runtime : Runtime μ) (column : SortMeta J ν db)
    (cursor : DecodedCursor) (row : Transaction J ν) : Prop where
  isNone : cursor.v.isNone = (column.value row).isNone
  value : cursor.v.bind (column.kind.ofText runtime) = column.value row
  id : db.toBigint cursor.id = row.id

/-- The rows strictly beyond a cursor are those that come after its row. -/
theorem keysetWhere_iff {column : SortMeta J ν db} {cursor : DecodedCursor} {r : Transaction J ν}
    (h : cursor.Names runtime column r) (direction : Direction) (s : Transaction J ν) :
    keysetWhere runtime column direction cursor s = true ↔ Precedes column direction r s := by
  have hsql : keysetWhere runtime column direction cursor s =
      keysetSql column.nullable direction cursor.v.isNone
        (cursor.v.bind (column.kind.ofText runtime)) (db.toBigint cursor.id) (column.value s) s.id := rfl
  rw [hsql, h.isNone, h.value, h.id, keysetSql_iff fun hnot => column.isSome_value hnot s]
  cases direction <;> rfl

section Cursors

/-- A value that has a text is what the text is read as. -/
theorem ofText_toText {kind : SortKind} {value : kind.Value db} {text : String}
    (h : kind.toText value = some text) : kind.ofText runtime text = some value := by
  cases kind with
  | datetime =>
    have hiso : Js.toISOString value = some text := h
    unfold Js.toISOString at hiso
    split_ifs at hiso with hvalid
    cases hiso
    have hzone : Js.parseOffset ['Z'] = some 0 := rfl
    have hparse := Js.parseIso_isoChars hvalid hzone
    show Js.parseDate _ _ = _
    unfold Js.parseDate
    rw [String.toList_ofList, hparse]
  | string => exact h.symm

/-- What is read back of a cursor: the value and the id that were written. -/
theorem reread_payload (value : Js.Value μ) (id : Js.Units)
    (hvalue : value.reread runtime.numbers = value) :
    (Js.Value.object [(Js.units "v", value), (Js.units "id", .string id)]).reread
        runtime.numbers =
      .object (Js.Value.ofMembers [(Js.units "v", value), (Js.units "id", .string id)]) := by
  simp [Js.Value.reread, Js.Value.rereadFields, hvalue]

theorem field_ofMembers {fields : List (Js.Units × Js.Value μ)}
    (hkeys : (fields.map Prod.fst).Nodup) (name : String) :
    field (Js.Value.ofMembers fields) name = field fields name := by
  unfold field
  rw [Js.Value.find?_ofMembers hkeys]

theorem units_keys : (Js.units "v" = Js.units "id") = False := by
  simp only [eq_iff_iff, iff_false]
  decide

theorem decodeCursor_cursorToken (value : Js.Value μ) (id : String)
    (hvalue : value.reread runtime.numbers = value) :
    decodeCursor runtime (cursorToken runtime value id) =
      .ok ⟨(field [(Js.units "v", value)] "v").map runtime.toText, id⟩ := by
  have hkeys : ([(Js.units "v", value),
      (Js.units "id", Js.Value.string (Js.units id))].map Prod.fst).Nodup := by
    simp [units_keys]
  unfold decodeCursor cursorToken
  rw [Js.Buffer.fromBase64Url_toBase64, Js.Buffer.toUtf8_fromUtf8, Js.Value.parse_stringify,
    reread_payload value _ hvalue]
  simp only [field_ofMembers hkeys]
  simp [field, units_keys, Runtime.toText, Js.ofUnits_units]
  rfl

/-- The cursor of a row stands for its place. -/
theorem decodeCursor_encodeCursor {column : SortMeta J ν db} {row : Transaction J ν}
    {token : String} (h : encodeCursor runtime row column = .ok token) :
    ∃ cursor, decodeCursor runtime token = .ok cursor ∧ cursor.Names runtime column row := by
  unfold encodeCursor at h
  cases hvalue : column.value row with
  | none =>
    simp only [hvalue, Except.ok.injEq] at h
    rw [← h, decodeCursor_cursorToken _ _ rfl]
    refine ⟨_, rfl, ?_, ?_, db.toBigint_toString row.id⟩
    · rw [hvalue]
      rfl
    · rw [hvalue]
      rfl
  | some raw =>
    cases htext : column.kind.toText raw with
    | none => simp [hvalue, htext] at h
    | some text =>
      simp only [hvalue, htext, Except.ok.injEq] at h
      have hread : (field [(Js.units "v", (Js.Value.string (Js.units text) : Js.Value μ))] "v").map
          runtime.toText = some text := by
        simp [field, Runtime.toText, Js.ofUnits_units]
      rw [← h, decodeCursor_cursorToken _ _ rfl, hread]
      refine ⟨_, rfl, ?_, ?_, db.toBigint_toString row.id⟩
      · rw [hvalue]
        rfl
      · rw [hvalue]
        exact ofText_toText htext

end Cursors

section Legs

theorem orderBy_trans (column : SortMeta J ν db) (direction : Direction) (a b c : Transaction J ν)
    (hab : orderBy column direction a b = true) (hbc : orderBy column direction b c = true) :
    orderBy column direction a c = true := by
  cases direction with
  | asc => exact decide_eq_true ((of_decide_eq_true hab).trans (of_decide_eq_true hbc))
  | desc => exact decide_eq_true ((of_decide_eq_true hbc).trans (of_decide_eq_true hab))

theorem orderBy_total (column : SortMeta J ν db) (direction : Direction) (a b : Transaction J ν) :
    (orderBy column direction a b || orderBy column direction b a) = true := by
  rw [Bool.or_eq_true]
  cases direction with
  | asc => exact (le_total (column.key a) (column.key b)).imp decide_eq_true decide_eq_true
  | desc => exact (le_total (column.key b) (column.key a)).imp decide_eq_true decide_eq_true

/-- Rows with different ids are strictly ordered. -/
theorem precedes_of_orderBy {column : SortMeta J ν db} {direction : Direction}
    {a b : Transaction J ν} (h : orderBy column direction a b = true) (hne : a.id ≠ b.id) :
    Precedes column direction a b := by
  have hkey : column.key a ≠ column.key b := by
    intro hkey
    have hpair := toLex.injective hkey
    exact hne (congrArg Prod.snd hpair)
  cases direction with
  | asc => exact lt_of_le_of_ne (of_decide_eq_true h) hkey
  | desc => exact lt_of_le_of_ne (of_decide_eq_true h) hkey.symm

theorem lists_mergeSort (column : SortMeta J ν db) (direction : Direction)
    {rows : List (Transaction J ν)} (hrows : (rows.map fun row => row.id).Nodup) :
    Lists (Precedes column direction) (· ∈ rows) (rows.mergeSort (orderBy column direction)) := by
  apply Lists.ofMergeSort (orderBy_trans column direction) (orderBy_total column direction)
    (List.Nodup.of_map _ hrows)
  intro a ha b hb hab hne
  apply precedes_of_orderBy hab
  intro hid
  exact hne (List.inj_on_of_nodup_map hrows ha hb hid)

variable {rows : List (Transaction J ν)}

/-- The rows with a property, in order. -/
theorem exists_lists (column : SortMeta J ν db) (direction : Direction)
    (hrows : (rows.map fun row => row.id).Nodup) (f : Transaction J ν → Bool) :
    ∃ l, Lists (Precedes column direction) (fun row => row ∈ rows ∧ f row = true) l := by
  have hfiltered := hrows.sublist (List.filter_sublist (p := f).map _)
  refine ⟨_, (lists_mergeSort column direction hfiltered).congr fun row => ?_⟩
  rw [List.mem_filter]

/-- A leg fetches the first of the rows that it selects. -/
theorem fetchLeg_eq {column : SortMeta J ν db} {direction : Direction} {criteria : Criteria}
    {decoded : Option DecodedCursor} (leg : Option (Leg J ν)) {l : List (Transaction J ν)}
    (hrows : (rows.map fun row => row.id).Nodup)
    (hl : Lists (Precedes column direction) (fun row => row ∈ rows ∧
      (applyCriteria criteria row && leg.all (fun leg => leg.property row = leg.fspId) &&
        decoded.all (keysetWhere runtime column direction · row)) = true) l) (limit : ℕ) :
    fetchLeg runtime rows criteria column direction decoded limit leg = l.take limit := by
  unfold fetchLeg
  congr 1
  refine Lists.unique ((lists_mergeSort column direction ?_).congr ?_) hl
  · exact hrows.sublist (List.filter_sublist.map _)
  · intro row
    rw [List.mem_filter]

section Comparison

variable {α : Type} [LinearOrder α]

theorem isLE_ascending (a b : α) :
    (if a < b then Ordering.lt else if b < a then .gt else .eq).isLE = true ↔ a ≤ b := by
  rcases lt_trichotomy a b with h | rfl | h
  · simp [h, h.le]
  · simp
  · simp [h, h.not_gt]

theorem isGE_ascending (a b : α) :
    (if a < b then Ordering.lt else if b < a then .gt else .eq).isGE = true ↔ b ≤ a := by
  rcases lt_trichotomy a b with h | rfl | h
  · simp [h, h.not_ge]
  · simp
  · simp [h, h.not_gt, h.le]

end Comparison

/-- The comparison of the program sorts as the database does. -/
theorem isLE_compareForMerge (column : SortMeta J ν db) (direction : Direction)
    (a b : Transaction J ν) :
    (compareForMerge column direction a b).isLE = orderBy column direction a b := by
  rw [Bool.eq_iff_iff]
  unfold compareForMerge
  cases direction with
  | asc =>
    simp only [orderBy, decide_eq_true_eq]
    rw [← not_lt, key_lt_iff]
    cases ha : column.value a with
    | none => cases hb : column.value b <;> simp [compareValues, compareId, sqlLt, isLE_ascending]
    | some x =>
      cases hb : column.value b with
      | none => simp [compareValues, sqlLt]
      | some y =>
        rcases lt_trichotomy x y with h | rfl | h
        · simp [compareValues, sqlLt, h, h.not_gt, h.ne']
        · simp [compareValues, compareId, sqlLt, isLE_ascending]
        · simp [compareValues, sqlLt, h, h.not_gt]
  | desc =>
    simp only [orderBy, decide_eq_true_eq]
    rw [← not_lt, key_lt_iff]
    cases ha : column.value a with
    | none => cases hb : column.value b <;> simp [compareValues, compareId, sqlLt, isGE_ascending]
    | some x =>
      cases hb : column.value b with
      | none => simp [compareValues, sqlLt]
      | some y =>
        rcases lt_trichotomy x y with h | rfl | h
        · simp [compareValues, sqlLt, h]
        · simp [compareValues, compareId, sqlLt, isGE_ascending]
        · simp [compareValues, sqlLt, h, h.not_gt, h.ne']

/-- What a map by ids holds. -/
def Holds (m : Js.Map ℕ (Transaction J ν)) (p : Transaction J ν → Prop) : Prop :=
  ∀ k row, m.get k = some row ↔ p row ∧ row.id = k

theorem Holds.congr {m : Js.Map ℕ (Transaction J ν)} {p q : Transaction J ν → Prop}
    (h : Holds m p) (hpq : ∀ row, p row ↔ q row) : Holds m q := by
  intro k row
  rw [h, hpq]

theorem Holds.set {m : Js.Map ℕ (Transaction J ν)} {p : Transaction J ν → Prop}
    {record : Transaction J ν} (h : Holds m p) (hp : ∀ row, p row → row.id = record.id →
      row = record) : Holds (m.set record.id record) fun row => p row ∨ row = record := by
  intro k row
  rw [Js.Map.get_set]
  split
  · rename_i hk
    subst hk
    constructor
    · intro hrow
      cases hrow
      exact ⟨.inr rfl, rfl⟩
    · rintro ⟨hrow | rfl, hid⟩
      · rw [hp row hrow hid]
      · rfl
  · rename_i hk
    rw [h]
    constructor
    · rintro ⟨hrow, hid⟩
      exact ⟨.inl hrow, hid⟩
    · rintro ⟨hrow | rfl, hid⟩
      · exact ⟨hrow, hid⟩
      · exact absurd hid.symm hk

/-- A row of a leg is added, unless one with its id, which is that row, is there. -/
theorem Holds.add {m : Js.Map ℕ (Transaction J ν)} {p : Transaction J ν → Prop}
    {record : Transaction J ν} (h : Holds m p) (hp : ∀ row, p row → row.id = record.id →
      row = record) : Holds (if (m.get record.id).isNone then m.set record.id record else m)
        fun row => p row ∨ row = record := by
  cases hget : m.get record.id with
  | none => exact h.set hp
  | some row =>
    have hrecord := (h _ _).mp hget
    intro k other
    rw [if_neg (by simp), h]
    constructor
    · rintro ⟨hother, hid⟩
      exact ⟨.inl hother, hid⟩
    · rintro ⟨hother | rfl, hid⟩
      · exact ⟨hother, hid⟩
      · rw [hp row hrecord.1 hrecord.2] at hrecord
        exact ⟨hrecord.1, hid⟩

theorem Holds.foldl {add : Js.Map ℕ (Transaction J ν) → Transaction J ν →
      Js.Map ℕ (Transaction J ν)}
    (hadd : ∀ {m p record}, Holds m p → (∀ row, p row → row.id = record.id → row = record) →
      Holds (add m record) fun row => p row ∨ row = record)
    (hrows : (rows.map fun row => row.id).Nodup) (leg : List (Transaction J ν)) :
    ∀ {m : Js.Map ℕ (Transaction J ν)} {p : Transaction J ν → Prop}, Holds m p →
      (∀ row, p row → row ∈ rows) → (∀ row ∈ leg, row ∈ rows) →
      Holds (leg.foldl add m) fun row => p row ∨ row ∈ leg := by
  induction leg with
  | nil =>
    intro m p h _ _
    exact h.congr (by simp)
  | cons record leg ih =>
    intro m p h hp hleg
    have hrecord := hleg record List.mem_cons_self
    have hstep := hadd h fun row hrow hid =>
      List.inj_on_of_nodup_map hrows (hp row hrow) hrecord hid
    have hrest := ih hstep (by rintro row (hrow | rfl); exacts [hp row hrow, hrecord])
      fun row hrow => hleg row (List.mem_cons_of_mem _ hrow)
    refine hrest.congr fun row => ?_
    rw [List.mem_cons, or_assoc]

theorem holds_byId {payerLeg payeeLeg : List (Transaction J ν)}
    (hrows : (rows.map fun row => row.id).Nodup) (hpayer : ∀ row ∈ payerLeg, row ∈ rows)
    (hpayee : ∀ row ∈ payeeLeg, row ∈ rows) :
    Holds (byId payerLeg payeeLeg) fun row => row ∈ payerLeg ∨ row ∈ payeeLeg := by
  have hempty : Holds (J := J) (ν := ν) Js.Map.empty fun _ => False := by
    intro k row
    simp [Js.Map.empty, Js.Map.get]
  have hpayers := Holds.foldl Holds.set hrows payerLeg hempty (fun _ => False.elim) hpayer
  simp only [false_or] at hpayers
  exact Holds.foldl Holds.add hrows payeeLeg hpayers hpayer hpayee

theorem mergeLegs_eq {column : SortMeta J ν db} {direction : Direction}
    {payerLeg payeeLeg l : List (Transaction J ν)}
    (hrows : (rows.map fun row => row.id).Nodup) (hpayer : ∀ row ∈ payerLeg, row ∈ rows)
    (hpayee : ∀ row ∈ payeeLeg, row ∈ rows)
    (hl : Lists (Precedes column direction) (fun row => row ∈ payerLeg ∨ row ∈ payeeLeg) l)
    (limit : ℕ) : mergeLegs payerLeg payeeLeg column direction limit = l.take limit := by
  have hholds := holds_byId hrows hpayer hpayee
  have hids : ((byId payerLeg payeeLeg).entries.map Prod.snd).map (fun row => row.id) =
      (byId payerLeg payeeLeg).entries.map Prod.fst := by
    rw [List.map_map]
    apply List.map_congr_left
    rintro ⟨k, row⟩ hentry
    exact ((hholds k row).mp (Js.Map.mem_entries.mp hentry)).2
  have hle : (fun left right => (compareForMerge column direction left right).isLE) =
      orderBy column direction := by
    funext left right
    exact isLE_compareForMerge column direction left right
  unfold mergeLegs
  rw [hle]
  congr 1
  refine Lists.unique ((lists_mergeSort column direction ?_).congr ?_) hl
  · rw [hids]
    exact (byId payerLeg payeeLeg).nodup
  · intro row
    rw [List.mem_map]
    constructor
    · rintro ⟨⟨k, row⟩, hentry, rfl⟩
      exact ((hholds k row).mp (Js.Map.mem_entries.mp hentry)).1
    · intro hrow
      exact ⟨(row.id, row), Js.Map.mem_entries.mpr ((hholds row.id row).mpr ⟨hrow, rfl⟩), rfl⟩

/-- The merge of what two legs fetch begins as the list of the rows of both. -/
theorem mergeLegs_take {column : SortMeta J ν db} {direction : Direction}
    {p q : Transaction J ν → Prop} {payers payees l : List (Transaction J ν)}
    (hrows : (rows.map fun row => row.id).Nodup) (hmem : ∀ row, p row ∨ q row → row ∈ rows)
    (hpayers : Lists (Precedes column direction) p payers)
    (hpayees : Lists (Precedes column direction) q payees)
    (hl : Lists (Precedes column direction) (fun row => p row ∨ q row) l) (limit : ℕ) :
    mergeLegs (payers.take limit) (payees.take limit) column direction limit = l.take limit := by
  obtain ⟨u, hu, htake⟩ := hl.take_union hpayers hpayees limit
  rw [← htake]
  refine mergeLegs_eq hrows ?_ ?_ hu limit
  · intro row hrow
    exact hmem row (.inl ((hpayers.mem row).mp (List.mem_of_mem_take hrow)))
  · intro row hrow
    exact hmem row (.inr ((hpayees.mem row).mp (List.mem_of_mem_take hrow)))

end Legs

end TransactionRepository
end Audit
