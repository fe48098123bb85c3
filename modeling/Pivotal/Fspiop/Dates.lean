import Pivotal.Fspiop.Errors
import Pivotal.Js.Date

/-! Instants in the bodies of FSPIOP messages. -/
namespace Fspiop.FspiopDates
open Js

def requestBodyGmtOffset : String := "+00:00"

/-- `text.replace(c, replacement)`: the first occurrence only. -/
def replaceFirst (c : Char) (replacement : List Char) : List Char → List Char
  | [] => []
  | x :: xs => if x = c then replacement ++ xs else x :: replaceFirst c replacement xs

/-- A date that is not valid has no text. -/
def forRequestBody (date : Date) : Except JsError String :=
  match toISOString date with
  | none => .error (.plain ⟨"RangeError", "Invalid time value", none, none⟩)
  | some text => .ok (String.ofList (replaceFirst 'Z' requestBodyGmtOffset.toList text.toList))

theorem replaceFirst_append {c : Char} {cs : List Char} (h : ∀ x ∈ cs, x ≠ c)
    (replacement rest : List Char) :
    replaceFirst c replacement (cs ++ rest) = cs ++ replaceFirst c replacement rest := by
  induction cs with
  | nil => rfl
  | cons x xs ih =>
    have hx : x ≠ c := h x List.mem_cons_self
    have hxs : ∀ y ∈ xs, y ≠ c := fun y hy => h y (List.mem_cons_of_mem x hy)
    simp [replaceFirst, hx, ih hxs]

theorem ne_Z_fixedDigits {width n : ℕ} {x : Char} (h : x ∈ fixedDigits width n) : x ≠ 'Z' := by
  have hdigit := List.all_eq_true.mp (isDigit_fixedDigits width n) x h
  rintro rfl
  exact absurd hdigit (by decide)

theorem ne_Z_isoChars {date : Date} {x : Char} (h : x ∈ isoChars date) : x ≠ 'Z' := by
  have hyear : ∀ year, x ∈ yearChars year → x ≠ 'Z' := by
    intro year hx
    unfold yearChars at hx
    split at hx
    · exact ne_Z_fixedDigits hx
    · rcases List.mem_cons.mp hx with rfl | hx
      · split <;> decide
      · exact ne_Z_fixedDigits hx
  simp only [isoChars, CivilDate.chars, timeChars, List.mem_append, List.mem_cons] at h
  rcases h with (h | rfl | h | rfl | h) | rfl | h | rfl | h | rfl | h | rfl | h
  all_goals first
    | exact hyear _ h
    | exact ne_Z_fixedDigits h
    | decide

theorem forRequestBody_ok {date : Date} {text : String} (h : forRequestBody date = .ok text) :
    (-maxTime ≤ date ∧ date ≤ maxTime) ∧
      text = String.ofList (isoChars date ++ requestBodyGmtOffset.toList) := by
  unfold forRequestBody toISOString at h
  by_cases hvalid : -maxTime ≤ date ∧ date ≤ maxTime
  · rw [if_pos hvalid] at h
    simp only [Except.ok.injEq] at h
    rw [← h, String.toList_ofList, replaceFirst_append fun x hx => ne_Z_isoChars hx]
    exact ⟨hvalid, rfl⟩
  · rw [if_neg hvalid] at h
    simp at h

/-- The text of a valid date, read again. -/
theorem parseDate_forRequestBody {date : Date} {text : String} (h : forRequestBody date = .ok text)
    (other : String → Option Date) : parseDate other text = some date := by
  obtain ⟨hvalid, htext⟩ := forRequestBody_ok h
  have hparse := parseIso_isoChars hvalid (show parseOffset requestBodyGmtOffset.toList = some 0 by decide)
  unfold parseDate
  rw [htext, String.toList_ofList, hparse]

theorem forRequestBody_not_blank {date : Date} {text : String}
    (h : forRequestBody date = .ok text) : trim text ≠ "" := by
  obtain ⟨-, htext⟩ := forRequestBody_ok h
  refine trim_ne_empty (c := 'T') ?_ (by decide)
  rw [htext, String.toList_ofList]
  simp [isoChars]

end Fspiop.FspiopDates
