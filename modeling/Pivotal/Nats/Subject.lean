import Mathlib.Data.List.Forall2
import Pivotal.Js.Split

/-! Subjects, and the filters that stand for several of them. -/
namespace Nats

def tokens (subject : String) : List (List Char) := Js.split '.' subject.toList

/-- `*` stands for any token. -/
def tokenMatches (filter token : List Char) : Bool := filter = ['*'] || filter = token

/-- `>` stands for one token or more, at the end. -/
def tokensMatch : List (List Char) → List (List Char) → Bool
  | [], [] => true
  | [['>']], _ :: _ => true
  | filter :: filters, token :: ts => tokenMatches filter token && tokensMatch filters ts
  | _, _ => false

/-- Whether a filter stands for a subject. -/
def subjectMatches (filter subject : String) : Bool := tokensMatch (tokens filter) (tokens subject)

@[simp] theorem tokenMatches_self (token : List Char) : tokenMatches token token = true := by
  simp [tokenMatches]

/-- Without `>` at its end a filter stands for subjects of its own length. -/
theorem tokensMatch_iff {filters ts : List (List Char)} (h : filters.getLast? ≠ some ['>']) :
    tokensMatch filters ts = true ↔ List.Forall₂ (fun f t => tokenMatches f t = true) filters ts := by
  induction filters generalizing ts with
  | nil => cases ts <;> simp [tokensMatch]
  | cons filter filters ih =>
    cases ts with
    | nil => cases filters <;> simp [tokensMatch]
    | cons token ts =>
      cases filters with
      | nil =>
        have hfilter : filter ≠ ['>'] := by simpa using h
        cases ts <;> simp [tokensMatch, hfilter]
      | cons next rest =>
        have hlast : (next :: rest).getLast? ≠ some ['>'] := by
          simpa [List.getLast?_cons_cons] using h
        simp [tokensMatch, ih hlast]

/-- The ends of a filter and of a subject, when they are of one length. -/
theorem forall₂_append_iff {α β : Type} {R : α → β → Prop} {as as' : List α} {bs bs' : List β}
    (h : as'.length = bs'.length) : List.Forall₂ R (as ++ as') (bs ++ bs') ↔
      List.Forall₂ R as bs ∧ List.Forall₂ R as' bs' := by
  constructor
  · intro hboth
    have hlength : as.length = bs.length := by
      have hall := hboth.length_eq
      simp only [List.length_append] at hall
      omega
    constructor
    · have htake := List.forall₂_take as.length hboth
      rwa [List.take_left' rfl, hlength, List.take_left' rfl] at htake
    · have hdrop := List.forall₂_drop as.length hboth
      rwa [List.drop_left' rfl, hlength, List.drop_left' rfl] at hdrop
  · rintro ⟨hfront, hback⟩
    exact List.rel_append hfront hback

end Nats
