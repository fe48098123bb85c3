import Pivotal.Audit.Search
import Pivotal.Format.Csv
import Pivotal.Format.Xml

/-! The cells of a report: what a value is written as in a line of a CSV file and in a sheet. A text
that a spreadsheet would take for a formula is written with an apostrophe before it. -/
namespace Audit
open Js Format

/-- A value of a report's row. -/
inductive CellValue (ν : Type) where
  | date (date : Js.Date)
  | string (s : Units)
  | number (n : ν)
  | boolean (b : Bool)
  | object (value : Value ν)

namespace TransactionReportGenerator

def xlsxMaxCellTextLength : ℕ := 32767

/-- `value.replace(/u/g, text)` -/
def replaceAll (u : UInt16) (text value : Units) : Units :=
  value.flatMap fun v => if v = u then text else [v]

section Text

variable {ν : Type} (runtime : Runtime ν)

/-- `/^[=+\-@]/` -/
def startsFormula (text : Units) : Bool :=
  match text.head? with
  | some u => u = 61 || u = 43 || u = 45 || u = 64
  | none => false

/-- What `safeTextValue` makes of a text. -/
def safeText (normalized : Units) : Units :=
  if normalized = [45] then normalized
  else if startsFormula normalized then 39 :: normalized
  else normalized

/-- An invalid date throws a `RangeError`. -/
def safeTextValue (value : CellValue ν) : Except SearchError Units := do
  let normalized : Units ← match value with
    | .date date => match toISOString date with
      | some text => pure (units text)
      | none => throw .rangeError
    | .string s => pure s
    | .number n => pure (units (runtime.toText (.number n)))
    | .boolean b => pure (units (toString b))
    | .object value => pure (units (value.stringify runtime.numbers))
  return safeText normalized

/-! Lines of a CSV file. -/

def csvValue (value : Option (CellValue ν)) : Except SearchError Units :=
  match value with
  | none => return []
  | some value => do
    let normalized ← safeTextValue runtime value
    let escaped := replaceAll 34 [34, 34] normalized
    if escaped.any fun u => u = 34 || u = 44 || u = 10 || u = 13 then
      return 34 :: escaped ++ [34]
    return escaped

/-- `values.join(',')` -/
def joinCommas : List Units → Units
  | [] => []
  | [value] => value
  | value :: values => value ++ 44 :: joinCommas values

def csvRow (values : List (Option (CellValue ν))) : Except SearchError Units := do
  return joinCommas (← values.mapM (csvValue runtime))

/-! Cells of a sheet. -/

def isValidXmlCharacter (codePoint : ℕ) : Bool :=
  codePoint = 0x09 || codePoint = 0x0A || codePoint = 0x0D ||
    (0x20 ≤ codePoint && codePoint ≤ 0xD7FF) || (0xE000 ≤ codePoint && codePoint ≤ 0xFFFD) ||
    (0x10000 ≤ codePoint && codePoint ≤ 0x10FFFF)

def safeCharacter (codePoint : ℕ) : ℕ :=
  if isValidXmlCharacter codePoint then codePoint else 0xFFFD

/-- The loop of `xlsxTextValue` over the characters. -/
def appendCharacters (result : Units) : List ℕ → Units
  | [] => result
  | codePoint :: codePoints =>
    let safe := fromCodePoint (safeCharacter codePoint)
    if result.length + safe.length > xlsxMaxCellTextLength then result
    else appendCharacters (result ++ safe) codePoints

def xlsxTextValue (value : CellValue ν) : Except SearchError Units := do
  let normalized ← safeTextValue runtime value
  return appendCharacters [] (codePoints normalized)

def xmlValue (value : Units) : Units :=
  replaceAll 39 (units "&apos;") (replaceAll 34 (units "&quot;") (replaceAll 62 (units "&gt;")
    (replaceAll 60 (units "&lt;") (replaceAll 38 (units "&amp;") value))))

end Text

/-! The lines are those of RFC 4180. -/

def csvMarks : Csv.Marks UInt16 where
  quote := 34
  comma := 44
  cr := 13
  lf := 10
  distinct := by decide

section Lines

variable {ν : Type} {runtime : Runtime ν}

/-- The field of a cell. -/
def cellText (value : Option Units) : Units := (value.map safeText).getD []

theorem csvValue_string (value : Option Units) :
    csvValue runtime (value.map .string) = .ok (Csv.writeField csvMarks (cellText value)) := by
  cases value with
  | none => rfl
  | some s =>
    have hany : ((replaceAll 34 [34, 34] (safeText s)).any fun u =>
        u = 34 || u = 44 || u = 10 || u = 13) = true ↔ ∃ c ∈ safeText s, csvMarks.IsMark c := by
      rw [List.any_eq_true]
      constructor
      · rintro ⟨u, hu, hmark⟩
        obtain ⟨v, hv, hu⟩ := List.mem_flatMap.mp hu
        refine ⟨v, hv, ?_⟩
        split at hu
        · rename_i hquote
          exact .inl hquote
        · cases List.mem_singleton.mp hu
          simp only [Bool.or_eq_true, decide_eq_true_eq] at hmark
          simp only [Csv.Marks.IsMark, csvMarks]
          tauto
      · rintro ⟨c, hc, hmark⟩
        refine ⟨c, List.mem_flatMap.mpr ⟨c, hc, ?_⟩, ?_⟩
        · split
          · rename_i hquote
            simp [hquote]
          · exact List.mem_singleton_self c
        · simp only [Csv.Marks.IsMark, csvMarks] at hmark
          simp only [Bool.or_eq_true, decide_eq_true_eq]
          tauto
    have hreplace : replaceAll 34 [34, 34] (safeText s) =
        (safeText s).flatMap fun c => if c = csvMarks.quote then [c, c] else [c] := by
      apply List.flatMap_congr
      intro c _
      show (if c = 34 then [34, 34] else [c]) = if c = 34 then [c, c] else [c]
      by_cases hquote : c = 34
      · rw [if_pos hquote, if_pos hquote, hquote]
      · rw [if_neg hquote, if_neg hquote]
    have hvalue : csvValue runtime (some (.string s)) =
        if (replaceAll 34 [34, 34] (safeText s)).any fun u => u = 34 || u = 44 || u = 10 || u = 13 then
          .ok (34 :: replaceAll 34 [34, 34] (safeText s) ++ [34])
        else .ok (replaceAll 34 [34, 34] (safeText s)) := rfl
    have htext : cellText (some s) = safeText s := rfl
    rw [Option.map_some, hvalue, htext]
    by_cases hmark : ∃ c ∈ safeText s, csvMarks.IsMark c
    · rw [if_pos (hany.mpr hmark), hreplace, Csv.writeField_marked hmark]
      rfl
    · have hplain : replaceAll 34 [34, 34] (safeText s) = safeText s := by
        rw [replaceAll]
        refine (List.flatMap_congr fun c hc => if_neg ?_).trans (List.flatMap_singleton' _)
        rintro rfl
        exact hmark ⟨_, hc, .inl rfl⟩
      rw [if_neg (hany.not.mpr hmark), hplain, Csv.writeField_plain hmark]

theorem joinCommas_eq (fields : List Units) :
    joinCommas (fields.map (Csv.writeField csvMarks)) = Csv.writeRow csvMarks fields := by
  induction fields with
  | nil => rfl
  | cons field fields ih =>
    cases fields with
    | nil => rfl
    | cons next fields =>
      rw [List.map_cons, List.map_cons, joinCommas, Csv.writeRow, ← ih, List.map_cons]
      · rfl
      · exact List.cons_ne_nil _ _
      · exact List.cons_ne_nil _ _

/-- A row of texts is written as the RFC has it. -/
theorem csvRow_strings (row : List (Option Units)) :
    csvRow runtime (row.map (Option.map .string)) =
      .ok (Csv.writeRow csvMarks (row.map cellText)) := by
  have hmapM : (row.map (Option.map .string)).mapM (csvValue runtime) =
      .ok ((row.map cellText).map (Csv.writeField csvMarks)) := by
    induction row with
    | nil => rfl
    | cons value row ih =>
      rw [List.map_cons, List.mapM_cons, csvValue_string, ih]
      rfl
  unfold csvRow
  rw [hmapM, ← joinCommas_eq]
  rfl

/-- A text is written as a formula only where it is a dash. -/
theorem startsFormula_safeText (s : Units) : startsFormula (safeText s) = true → safeText s = [45] := by
  unfold safeText
  intro h
  split at h
  · rename_i hdash
    rw [if_pos hdash, hdash]
  · split at h
    · cases h
    · rename_i hplain
      exact absurd h hplain

/-- A line of a report is read as one record with the texts of its cells, of which none is taken for
a formula. -/
theorem csvRow_faithful (runtime : Runtime ν) {row : List (Option Units)} (hrow : row ≠ []) :
    ∃ line, csvRow runtime (row.map (Option.map .string)) = .ok line ∧
      Csv.parse csvMarks line = some [row.map cellText] ∧
      ∀ field ∈ row.map cellText, field ≠ [45] → startsFormula field = false := by
  refine ⟨_, csvRow_strings row, ?_, ?_⟩
  · apply Csv.parse_writeRow
    rwa [Ne, List.map_eq_nil_iff]
  · intro field hfield hdash
    obtain ⟨value, -, rfl⟩ := List.mem_map.mp hfield
    cases value with
    | none => rfl
    | some s =>
      by_contra hformula
      exact hdash (startsFormula_safeText s (Bool.eq_true_of_not_eq_false hformula))

/-- Quotes, a line end, a formula and a missing value. -/
def sampleReportRow : List (Option Units) :=
  [some (units "a\"b"), some (units "c,d\n"), some (units "=1"), none]

theorem csvRow_faithful_sample : ∃ line,
    csvRow (ν := Unit) ⟨.unit, fun _ => none, fun _ => ""⟩
      (sampleReportRow.map (Option.map .string)) = .ok line ∧
      Csv.parse csvMarks line = some [sampleReportRow.map cellText] ∧
      ∀ field ∈ sampleReportRow.map cellText, field ≠ [45] → startsFormula field = false :=
  csvRow_faithful _ (List.cons_ne_nil _ _)

end Lines

/-! The texts of a sheet are character data of XML. -/

section Sheets

variable {ν : Type}

theorem isChar_safeCharacter (n : ℕ) : Xml.IsChar (safeCharacter n) := by
  unfold safeCharacter Xml.IsChar
  split
  · rename_i hvalid
    simp only [isValidXmlCharacter, Bool.or_eq_true, Bool.and_eq_true, decide_eq_true_eq] at hvalid
    omega
  · omega

/-- What fits of the characters is appended. -/
theorem appendCharacters_spec (codePoints : List ℕ) {result : Units}
    (h : result.length ≤ xlsxMaxCellTextLength) : ∃ kept rest, codePoints = kept ++ rest ∧
      appendCharacters result codePoints =
        result ++ (kept.map safeCharacter).flatMap fromCodePoint ∧
      (appendCharacters result codePoints).length ≤ xlsxMaxCellTextLength ∧
      ∀ n ∈ rest.head?, xlsxMaxCellTextLength <
        (appendCharacters result codePoints).length + (fromCodePoint (safeCharacter n)).length := by
  induction codePoints generalizing result with
  | nil => exact ⟨[], [], rfl, (List.append_nil result).symm, h, by simp⟩
  | cons n codePoints ih =>
    rw [appendCharacters]
    by_cases hfull : result.length + (fromCodePoint (safeCharacter n)).length > xlsxMaxCellTextLength
    · simp only [if_pos hfull]
      refine ⟨[], n :: codePoints, rfl, (List.append_nil result).symm, h, ?_⟩
      intro m hm
      cases hm
      exact hfull
    · simp only [if_neg hfull]
      have hlength : (result ++ fromCodePoint (safeCharacter n)).length ≤ xlsxMaxCellTextLength := by
        rw [List.length_append]
        exact not_lt.mp hfull
      obtain ⟨kept, rest, hsplit, hresult, hfits, hmore⟩ := ih hlength
      refine ⟨n :: kept, rest, by rw [hsplit, List.cons_append], ?_, hfits, hmore⟩
      rw [hresult, List.map_cons, List.flatMap_cons, List.append_assoc]

theorem replaceAll_append (u : UInt16) (text s t : Units) :
    replaceAll u text (s ++ t) = replaceAll u text s ++ replaceAll u text t := List.flatMap_append

theorem xmlValue_append (s t : Units) : xmlValue (s ++ t) = xmlValue s ++ xmlValue t := by
  simp only [xmlValue, replaceAll_append]

theorem xmlValue_singleton (u : UInt16) : xmlValue [u] = Xml.escapeUnit u := by
  have hentity : ∀ entity ∈ Xml.entities, xmlValue [entity.1] = Xml.reference entity.2 := by
    decide
  rcases Xml.escapeUnit_cases u with ⟨hescape, hnone⟩ | ⟨name, hmem, hescape⟩
  · have hkept : ∀ v text, (∃ name, (v, name) ∈ Xml.entities) → replaceAll v text [u] = [u] := by
      rintro v text ⟨name, hmem⟩
      rw [replaceAll, List.flatMap_cons, List.flatMap_nil, List.append_nil,
        if_neg (Ne.symm (hnone _ hmem))]
    rw [hescape, xmlValue, hkept 38, hkept 60, hkept 62, hkept 34, hkept 39]
    all_goals simp [Xml.entities]
  · rw [hescape, hentity _ hmem]

/-- Five replacements, one after another, are those of the entities. -/
theorem xmlValue_eq (s : Units) : xmlValue s = Xml.escape s := by
  induction s with
  | nil => rfl
  | cons u s ih =>
    rw [← List.singleton_append, xmlValue_append, xmlValue_singleton, ih, Xml.escape, Xml.escape]
    rfl

/-- The text of a cell: of the characters of the value, with a replacement for what XML does not have,
as many as a cell can hold, which are escaped so that they are read again. -/
theorem xlsx_text_well_formed (runtime : Runtime ν) (s : Units) :
    ∃ text, xlsxTextValue runtime (.string s) = .ok text ∧
      (∃ kept rest, codePoints (safeText s) = kept ++ rest ∧
        text = (kept.map safeCharacter).flatMap fromCodePoint ∧
        ∀ n ∈ rest.head?, xlsxMaxCellTextLength <
          text.length + (fromCodePoint (safeCharacter n)).length) ∧
      text.length ≤ xlsxMaxCellTextLength ∧
      (∀ n ∈ codePoints (xmlValue text), Xml.IsChar n ∧ IsScalar n) ∧
      (∀ u ∈ xmlValue text, u ≠ 60 ∧ u ≠ 62 ∧ u ≠ 34 ∧ u ≠ 39) ∧
      Xml.unescape none (xmlValue text) = some text := by
  have hempty : ([] : Units).length ≤ xlsxMaxCellTextLength := Nat.zero_le _
  obtain ⟨kept, rest, hsplit, hresult, hfits, hmore⟩ :=
    appendCharacters_spec (codePoints (safeText s)) hempty
  rw [List.nil_append] at hresult
  have hchars : ∀ n ∈ kept.map safeCharacter, Xml.IsChar n := by
    intro n hn
    obtain ⟨m, -, rfl⟩ := List.mem_map.mp hn
    exact isChar_safeCharacter m
  have htext : ∀ n ∈ codePoints (appendCharacters [] (codePoints (safeText s))), Xml.IsChar n := by
    rw [hresult, codePoints_flatMap fun n hn => (hchars n hn).isScalar]
    exact hchars
  refine ⟨_, rfl, ⟨kept, rest, hsplit, hresult, hmore⟩, hfits, ?_, ?_, ?_⟩
  · intro n hn
    rw [xmlValue_eq] at hn
    have hchar := Xml.isChar_escape htext n hn
    exact ⟨hchar, hchar.isScalar⟩
  · intro u hu
    rw [xmlValue_eq] at hu
    exact Xml.escape_no_markup hu
  · rw [xmlValue_eq]
    exact Xml.unescape_escape _

end Sheets

end TransactionReportGenerator
end Audit
