import Mathlib.Data.List.Nodup
import Mathlib.Tactic.Common

/-! Comma-separated values as RFC 4180 has them, over any alphabet: fields are quoted where they
have to be, and what is written is read as the records it was written from. A reader also takes a
line end of one character. -/
namespace Format.Csv

/-- The characters with a meaning. -/
structure Marks (α : Type) where
  quote : α
  comma : α
  cr : α
  lf : α
  distinct : [quote, comma, cr, lf].Nodup

variable {α : Type} (marks : Marks α)

def Marks.IsMark (c : α) : Prop :=
  c = marks.quote ∨ c = marks.comma ∨ c = marks.cr ∨ c = marks.lf

instance [DecidableEq α] (c : α) : Decidable (marks.IsMark c) := inferInstanceAs (Decidable (_ ∨ _))

namespace Marks

theorem comma_ne_quote : marks.comma ≠ marks.quote := by
  have h := marks.distinct
  simp only [List.nodup_cons, List.mem_cons, not_or] at h
  exact Ne.symm h.1.1

theorem cr_ne_quote : marks.cr ≠ marks.quote := by
  have h := marks.distinct
  simp only [List.nodup_cons, List.mem_cons, not_or] at h
  exact Ne.symm h.1.2.1

theorem lf_ne_quote : marks.lf ≠ marks.quote := by
  have h := marks.distinct
  simp only [List.nodup_cons, List.mem_cons, not_or] at h
  exact Ne.symm h.1.2.2.1

theorem cr_ne_comma : marks.cr ≠ marks.comma := by
  have h := marks.distinct
  simp only [List.nodup_cons, List.mem_cons, not_or] at h
  exact Ne.symm h.2.1.1

theorem lf_ne_comma : marks.lf ≠ marks.comma := by
  have h := marks.distinct
  simp only [List.nodup_cons, List.mem_cons, not_or] at h
  exact Ne.symm h.2.1.2.1

end Marks

/-! Reading. -/

/-- Where the reader is: before a field, in one without quotes or with them, after the quote that
closes a field or is the first of two, or after a carriage return that ends a line. -/
inductive State where
  | start | plain | quoted | closed | line
  deriving DecidableEq

/-- What is still to come: the rest of a field, the fields after it in its record, and the records
after that. -/
structure Rest (α : Type) where
  field : List α
  fields : List (List α)
  records : List (List (List α))
  deriving DecidableEq

namespace Rest

def done : Rest α := ⟨[], [], []⟩

def push (c : α) (rest : Rest α) : Rest α := { rest with field := c :: rest.field }

/-- The record that begins with the field. -/
def record (rest : Rest α) : List (List α) := rest.field :: rest.fields

def afterComma (rest : Rest α) : Rest α := ⟨[], rest.record, rest.records⟩

def afterLine (rest : Rest α) : Rest α := ⟨[], [], rest.record :: rest.records⟩

end Rest

/-- The end of the text ends its last line. -/
def endLine (atEnd : Bool) (rest : Option (Rest α)) : Option (Rest α) :=
  if atEnd then some .done else rest.map .afterLine

variable [DecidableEq α]

/-- Nothing for a text that is not well formed. -/
def read : State → List α → Option (Rest α)
  | .quoted, [] => none
  | _, [] => some .done
  | .quoted, c :: cs => if c = marks.quote then read .closed cs else (read .quoted cs).map (.push c)
  | state, c :: cs =>
    if c = marks.quote then
      match state with
      | .plain => none
      | .closed => (read .quoted cs).map (.push c)
      | _ => read .quoted cs
    else if c = marks.comma then (read .start cs).map .afterComma
    else if c = marks.lf then
      if state = .line then read .start cs else endLine cs.isEmpty (read .start cs)
    else if c = marks.cr then endLine (cs = [] || cs = [marks.lf]) (read .line cs)
    else if state = .closed then none
    else (read .plain cs).map (.push c)

/-- The records of a text. -/
def parse (cs : List α) : Option (List (List (List α))) :=
  (read marks .start cs).map fun rest => rest.record :: rest.records

/-! Writing. -/

def quoteField (field : List α) : List α :=
  marks.quote :: (field.flatMap fun c => if c = marks.quote then [c, c] else [c]) ++ [marks.quote]

def writeField (field : List α) : List α :=
  if ∃ c ∈ field, marks.IsMark c then quoteField marks field else field

def writeRow : List (List α) → List α
  | [] => []
  | [field] => writeField marks field
  | field :: fields => writeField marks field ++ marks.comma :: writeRow fields

/-! What is written is read. -/

variable {marks}

theorem read_cons (state : State) (c : α) (cs : List α) :
    read marks state (c :: cs) =
      if state = .quoted then
        if c = marks.quote then read marks .closed cs else (read marks .quoted cs).map (.push c)
      else if c = marks.quote then
        if state = .plain then none
        else if state = .closed then (read marks .quoted cs).map (.push c)
        else read marks .quoted cs
      else if c = marks.comma then (read marks .start cs).map .afterComma
      else if c = marks.lf then
        if state = .line then read marks .start cs
        else endLine cs.isEmpty (read marks .start cs)
      else if c = marks.cr then endLine (cs = [] || cs = [marks.lf]) (read marks .line cs)
      else if state = .closed then none
      else (read marks .plain cs).map (.push c) := by
  cases state <;> rfl

theorem read_quoted {cs : List α} (field : List α) :
    read marks .quoted ((field.flatMap fun c => if c = marks.quote then [c, c] else [c]) ++
        marks.quote :: cs) =
      (read marks .closed cs).map fun rest => { rest with field := field ++ rest.field } := by
  induction field with
  | nil =>
    rw [List.flatMap_nil, List.nil_append, read_cons, if_pos rfl, if_pos rfl]
    exact Option.map_id'.symm
  | cons c field ih =>
    rw [List.flatMap_cons]
    by_cases hc : c = marks.quote
    · simp only [hc, if_pos, List.cons_append, List.nil_append]
      rw [read_cons, if_pos rfl, if_pos rfl, read_cons]
      simp only [reduceCtorEq, if_false, if_pos]
      rw [ih, Option.map_map]
      rfl
    · simp only [if_neg hc, List.cons_append, List.nil_append]
      rw [read_cons, if_pos rfl, if_neg hc, ih, Option.map_map]
      rfl

/-- The text is at its end, at the end of a line, or at a comma. -/
def AtEnd (marks : Marks α) (cs : List α) : Prop :=
  ∀ c ∈ cs.head?, c = marks.comma ∨ c = marks.lf ∨ c = marks.cr

/-- A field that ends is read as one that has not begun. -/
theorem read_end {cs : List α} (h : AtEnd marks cs) :
    read marks .plain cs = read marks .start cs ∧ read marks .closed cs = read marks .start cs := by
  cases cs with
  | nil => exact ⟨rfl, rfl⟩
  | cons c cs =>
    rcases h c rfl with rfl | rfl | rfl
    · simp [read_cons, marks.comma_ne_quote]
    · simp [read_cons, marks.lf_ne_quote, marks.lf_ne_comma]
    · by_cases hlf : marks.cr = marks.lf
      · simp [read_cons, hlf, marks.lf_ne_quote, marks.lf_ne_comma]
      · simp [read_cons, hlf, marks.cr_ne_quote, marks.cr_ne_comma]

theorem read_unquoted {cs field : List α} (hfield : ∀ c ∈ field, ¬ marks.IsMark c)
    (hcs : AtEnd marks cs) :
    read marks .plain (field ++ cs) =
        (read marks .start cs).map (fun rest => { rest with field := field ++ rest.field }) ∧
      read marks .start (field ++ cs) =
        (read marks .start cs).map fun rest => { rest with field := field ++ rest.field } := by
  induction field with
  | nil =>
    rw [List.nil_append, (read_end hcs).1]
    exact ⟨Option.map_id'.symm, Option.map_id'.symm⟩
  | cons c field ih =>
    obtain ⟨hplain, -⟩ := ih fun d hd => hfield d (List.mem_cons_of_mem c hd)
    have hc := hfield c List.mem_cons_self
    simp only [Marks.IsMark, not_or] at hc
    have hstep : ∀ state, state = .plain ∨ state = .start →
        read marks state (c :: (field ++ cs)) = (read marks .plain (field ++ cs)).map (.push c) := by
      rintro _ (rfl | rfl) <;> simp [read_cons, hc]
    rw [List.cons_append, hstep _ (.inl rfl), hstep _ (.inr rfl), hplain, Option.map_map]
    exact ⟨rfl, rfl⟩

theorem writeField_marked {field : List α} (h : ∃ c ∈ field, marks.IsMark c) :
    writeField marks field = quoteField marks field := if_pos h

theorem writeField_plain {field : List α} (h : ¬ ∃ c ∈ field, marks.IsMark c) :
    writeField marks field = field := if_neg h

theorem read_writeField {cs : List α} (field : List α) (hcs : AtEnd marks cs) :
    read marks .start (writeField marks field ++ cs) =
      (read marks .start cs).map fun rest => { rest with field := field ++ rest.field } := by
  by_cases hmark : ∃ c ∈ field, marks.IsMark c
  · have hopen : read marks .start (quoteField marks field ++ cs) =
        read marks .quoted ((field.flatMap fun c => if c = marks.quote then [c, c] else [c]) ++
          marks.quote :: cs) := by
      simp [quoteField, read_cons]
    rw [writeField_marked hmark, hopen, read_quoted, (read_end hcs).2]
  · rw [writeField_plain hmark]
    refine (read_unquoted ?_ hcs).2
    intro c hc hc'
    exact hmark ⟨c, hc, hc'⟩

/-- The fields of a row, up to the end of its line. -/
theorem read_writeRow {cs : List α} {records : List (List (List α))}
    (hread : read marks .start cs = some ⟨[], [], records⟩)
    (hcs : ∀ c ∈ cs.head?, c = marks.lf ∨ c = marks.cr) (field : List α) (fields : List (List α)) :
    read marks .start (writeRow marks (field :: fields) ++ cs) = some ⟨field, fields, records⟩ := by
  induction fields generalizing field with
  | nil =>
    rw [writeRow, read_writeField field fun c hc => .inr (hcs c hc), hread, Option.map_some,
      List.append_nil]
  | cons next fields ih =>
    have hcomma : AtEnd marks (marks.comma :: (writeRow marks (next :: fields) ++ cs)) := by
      intro c hc
      exact .inl (Option.some.inj hc).symm
    have hnext : read marks .start (marks.comma :: (writeRow marks (next :: fields) ++ cs)) =
        (read marks .start (writeRow marks (next :: fields) ++ cs)).map .afterComma := by
      simp [read_cons, marks.comma_ne_quote]
    have hrow : writeRow marks (field :: next :: fields) ++ cs =
        writeField marks field ++ marks.comma :: (writeRow marks (next :: fields) ++ cs) := by
      simp [writeRow]
    rw [hrow, read_writeField field hcomma, hnext, ih next]
    simp [Rest.afterComma, Rest.record]

/-- A row is read as one record with its fields. -/
theorem parse_writeRow {row : List (List α)} (hrow : row ≠ []) :
    parse marks (writeRow marks row) = some [row] := by
  obtain ⟨field, fields, rfl⟩ := List.exists_cons_of_ne_nil hrow
  have hread : read marks .start (writeRow marks (field :: fields) ++ []) = some ⟨field, fields, []⟩ :=
    read_writeRow rfl (by simp) field fields
  rw [List.append_nil] at hread
  rw [parse, hread]
  rfl

end Format.Csv
