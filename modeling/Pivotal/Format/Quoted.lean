import Mathlib.Data.List.Basic
import Mathlib.Tactic.Common

/-! Texts that are parted at a separator outside quotation marks. A mark after the escape is none,
and a quoted text has the escape written before each mark. -/
namespace Format.Quoted

/-- The quotation mark and the escape before one. -/
structure Marks (α : Type) where
  quote : α
  escape : α
  escape_ne_quote : escape ≠ quote

/-- Whether a scan is within quotation marks, and what it has just passed. -/
structure State (α : Type) where
  quoted : Bool
  previous : Option α

variable {α : Type} [DecidableEq α] (m : Marks α)

def step (s : State α) (c : α) : State α :=
  ⟨if c = m.quote ∧ s.previous ≠ some m.escape then !s.quoted else s.quoted, some c⟩

def run (s : State α) (cs : List α) : State α := cs.foldl (step m) s

@[simp] theorem run_nil (s : State α) : run m s [] = s := rfl

@[simp] theorem run_cons (s : State α) (c : α) (cs : List α) :
    run m s (c :: cs) = run m (step m s c) cs := rfl

theorem run_append (s : State α) (cs ds : List α) : run m s (cs ++ ds) = run m (run m s cs) ds :=
  List.foldl_append

/-- What a scan passes before a separator that is not quoted. -/
def beforeSeparator (sep : α) (s : State α) : List α → List α
  | [] => []
  | c :: cs =>
    if c = m.quote ∧ s.previous ≠ some m.escape then c :: beforeSeparator sep (step m s c) cs
    else if c = sep ∧ s.quoted = false then []
    else c :: beforeSeparator sep (step m s c) cs

/-- The texts between the separators that are not quoted. -/
def segments (sep : α) (s : State α) : List α → List (List α)
  | [] => [[]]
  | c :: cs =>
    if ¬ (c = m.quote ∧ s.previous ≠ some m.escape) ∧ c = sep ∧ s.quoted = false then
      [] :: segments sep (step m s c) cs
    else (segments sep (step m s c) cs).modifyHead (c :: ·)

/-- No separator stands in a text outside quotation marks. -/
def Free (sep : α) (s : State α) : List α → Prop
  | [] => True
  | c :: cs => (c = sep → s.quoted = true ∨ c = m.quote ∧ s.previous ≠ some m.escape) ∧
      Free sep (step m s c) cs

theorem free_append {sep : α} {s : State α} {cs ds : List α} :
    Free m sep s (cs ++ ds) ↔ Free m sep s cs ∧ Free m sep (run m s cs) ds := by
  induction cs generalizing s with
  | nil => simp [Free]
  | cons c cs ih => simp [Free, ih, and_assoc]

theorem beforeSeparator_append {sep : α} {s : State α} {cs : List α} (h : Free m sep s cs)
    (ds : List α) :
    beforeSeparator m sep s (cs ++ ds) = cs ++ beforeSeparator m sep (run m s cs) ds := by
  induction cs generalizing s with
  | nil => rfl
  | cons c cs ih =>
    obtain ⟨hc, hcs⟩ := h
    have hrest := ih hcs
    rw [List.cons_append, beforeSeparator, hrest]
    split_ifs with htoggle hsep
    · rfl
    · obtain ⟨hsep, hquoted⟩ := hsep
      obtain hquoted' | htoggle' := hc hsep
      · exact absurd (hquoted'.symm.trans hquoted) (by decide)
      · exact absurd htoggle' htoggle
    · rfl

theorem segments_append {sep : α} {s : State α} {cs : List α} (h : Free m sep s cs)
    (ds : List α) :
    segments m sep s (cs ++ ds) = (segments m sep (run m s cs) ds).modifyHead (cs ++ ·) := by
  induction cs generalizing s with
  | nil => cases hds : segments m sep s ds <;> simp [hds]
  | cons c cs ih =>
    obtain ⟨hc, hcs⟩ := h
    have hgo : ¬ (¬ (c = m.quote ∧ s.previous ≠ some m.escape) ∧ c = sep ∧ s.quoted = false) := by
      rintro ⟨htoggle, hsep, hquoted⟩
      obtain hquoted' | htoggle' := hc hsep
      · exact absurd (hquoted'.symm.trans hquoted) (by decide)
      · exact htoggle htoggle'
    rw [List.cons_append, segments, if_neg hgo, ih hcs, List.modifyHead_modifyHead]
    rfl

/-- A text that a scan from outside quotation marks leaves as it was, with no separator seen. -/
def Closed (sep : α) (previous : Option α) (cs : List α) : Prop :=
  Free m sep ⟨false, previous⟩ cs ∧ (run m ⟨false, previous⟩ cs).quoted = false

theorem closed_of_plain {sep : α} {cs : List α} (hquote : m.quote ∉ cs) (hsep : sep ∉ cs)
    (previous : Option α) : Closed m sep previous cs := by
  induction cs generalizing previous with
  | nil => exact ⟨trivial, rfl⟩
  | cons c cs ih =>
    rw [List.mem_cons, not_or] at hquote hsep
    have hstep : step m ⟨false, previous⟩ c = ⟨false, some c⟩ := by
      simp [step, Ne.symm hquote.1]
    obtain ⟨hfree, hrun⟩ := ih hquote.2 hsep.2 (some c)
    refine ⟨⟨fun hc => absurd hc.symm hsep.1, ?_⟩, ?_⟩
    · rw [hstep]
      exact hfree
    · rw [run_cons, hstep]
      exact hrun

/-- What two closed texts make is closed. -/
theorem Closed.append {sep : α} {previous : Option α} {cs ds : List α}
    (hcs : Closed m sep previous cs)
    (hds : Closed m sep (run m ⟨false, previous⟩ cs).previous ds) :
    Closed m sep previous (cs ++ ds) := by
  obtain ⟨hfree, hquoted⟩ := hcs
  rcases hrun : run m ⟨false, previous⟩ cs with ⟨quoted, last⟩
  rw [hrun] at hquoted hds
  obtain rfl : quoted = false := hquoted
  refine ⟨(free_append m).mpr ⟨hfree, ?_⟩, ?_⟩
  · rw [hrun]
    exact hds.1
  · rw [run_append, hrun]
    exact hds.2

/-- What has been passed is the last of a text that is not empty. -/
theorem run_concat_previous (s : State α) (cs : List α) (c : α) :
    (run m s (cs ++ [c])).previous = some c := by
  rw [run_append]
  rfl

/-- The separators that part closed texts are where they are parted. -/
theorem segments_closed {sep : α} {previous : Option α} {t : List α} (hsep : sep ≠ m.quote)
    (h : Closed m sep previous t) (cs : List α) :
    segments m sep ⟨false, previous⟩ (t ++ sep :: cs) =
      t :: segments m sep ⟨false, some sep⟩ cs := by
  have hquoted := h.2
  have hgo : ¬ (sep = m.quote ∧ (run m ⟨false, previous⟩ t).previous ≠ some m.escape) ∧
      sep = sep ∧ (run m ⟨false, previous⟩ t).quoted = false :=
    ⟨fun hmark => hsep hmark.1, rfl, hquoted⟩
  have hstep : step m (run m ⟨false, previous⟩ t) sep = ⟨false, some sep⟩ := by
    simp [step, hsep, hquoted]
  rw [segments_append m h.1, segments, if_pos hgo, hstep]
  simp

theorem segments_closed_last {sep : α} {previous : Option α} {t : List α}
    (h : Closed m sep previous t) : segments m sep ⟨false, previous⟩ t = [t] := by
  have happend := segments_append m h.1 []
  rw [List.append_nil] at happend
  rw [happend, segments]
  simp

theorem beforeSeparator_closed {sep : α} {previous : Option α} {t : List α} (hsep : sep ≠ m.quote)
    (h : Closed m sep previous t) (cs : List α) :
    beforeSeparator m sep ⟨false, previous⟩ (t ++ sep :: cs) = t := by
  rw [beforeSeparator_append m h.1, beforeSeparator, if_neg fun hmark => hsep hmark.1,
    if_pos ⟨rfl, h.2⟩, List.append_nil]

theorem beforeSeparator_closed_last {sep : α} {previous : Option α} {t : List α}
    (h : Closed m sep previous t) : beforeSeparator m sep ⟨false, previous⟩ t = t := by
  have happend := beforeSeparator_append m h.1 []
  rwa [List.append_nil, beforeSeparator, List.append_nil] at happend

/-- Each mark after an escape. -/
def escape (cs : List α) : List α :=
  cs.flatMap fun c => if c = m.quote then [m.escape, m.quote] else [c]

/-- Within quotation marks an escaped text ends none and hides every separator. -/
theorem free_escape (sep : α) (cs : List α) (previous : Option α) :
    Free m sep ⟨true, previous⟩ (escape m cs) ∧
      run m ⟨true, previous⟩ (escape m cs) = ⟨true, cs.getLast?.or previous⟩ := by
  induction cs generalizing previous with
  | nil => exact ⟨trivial, rfl⟩
  | cons c cs ih =>
    obtain ⟨hfree, hrun⟩ := ih (some c)
    have hlast : ((c :: cs).getLast?).or previous = cs.getLast?.or (some c) := by
      cases cs with
      | nil => rfl
      | cons d ds => simp [List.getLast?_cons]
    have hescape : escape m (c :: cs) =
        (if c = m.quote then [m.escape, m.quote] else [c]) ++ escape m cs := rfl
    by_cases hc : c = m.quote
    · subst hc
      have hstep : run m ⟨true, previous⟩ [m.escape, m.quote] = ⟨true, some m.quote⟩ := by
        simp [step, m.escape_ne_quote]
      rw [hescape, if_pos rfl, free_append, run_append, hstep, hlast]
      exact ⟨⟨⟨fun _ => .inl rfl, fun _ => .inl (by simp [step, m.escape_ne_quote]), trivial⟩,
        hfree⟩, hrun⟩
    · have hstep : run m ⟨true, previous⟩ [c] = ⟨true, some c⟩ := by simp [step, hc]
      rw [hescape, if_neg hc, free_append, run_append, hstep, hlast]
      exact ⟨⟨⟨fun _ => .inl rfl, trivial⟩, hfree⟩, hrun⟩

/-- A quoted text is closed when what it quotes does not end with an escape. -/
theorem closed_quoted {sep : α} {cs : List α} {previous : Option α} (hsep : sep ≠ m.quote)
    (hprevious : previous ≠ some m.escape) (hcs : cs.getLast? ≠ some m.escape) :
    Closed m sep previous (m.quote :: (escape m cs ++ [m.quote])) := by
  have hopen : step m ⟨false, previous⟩ m.quote = ⟨true, some m.quote⟩ := by
    simp [step, hprevious]
  obtain ⟨hfree, hrun⟩ := free_escape m sep cs (some m.quote)
  have hbefore : cs.getLast?.or (some m.quote) ≠ some m.escape := by
    cases hlast : cs.getLast? with
    | none => simpa using Ne.symm m.escape_ne_quote
    | some c => simpa [hlast] using hcs
  refine ⟨⟨fun hquote => absurd hquote.symm hsep, ?_⟩, ?_⟩
  · rw [hopen, free_append, hrun]
    exact ⟨hfree, fun hquote => absurd hquote.symm hsep, trivial⟩
  · rw [run_cons, hopen, run_append, hrun, run_cons, run_nil, step, if_pos ⟨rfl, hbefore⟩]
    rfl

/-- Each mark that follows an escape takes its place. -/
def unescape : List α → List α
  | [] => []
  | [c] => [c]
  | c :: d :: cs =>
    if c = m.escape ∧ d = m.quote then m.quote :: unescape cs else c :: unescape (d :: cs)

/-- No escaped text begins with a mark. -/
theorem head?_escape (cs : List α) : (escape m cs).head? ≠ some m.quote := by
  cases cs with
  | nil => simp [escape]
  | cons c cs =>
    by_cases hc : c = m.quote
    · simp [escape, hc, m.escape_ne_quote]
    · simp [escape, hc]

theorem unescape_escape (cs : List α) : unescape m (escape m cs) = cs := by
  induction cs with
  | nil => rfl
  | cons c cs ih =>
    have hescape : escape m (c :: cs) =
        (if c = m.quote then [m.escape, m.quote] else [c]) ++ escape m cs := rfl
    by_cases hc : c = m.quote
    · rw [hescape, if_pos hc, List.cons_append, List.singleton_append, unescape, if_pos ⟨rfl, rfl⟩,
        ih, hc]
    · rw [hescape, if_neg hc, List.singleton_append]
      have hhead := head?_escape m cs
      cases hrest : escape m cs with
      | nil =>
        rw [hrest] at ih
        rw [unescape, ← ih, unescape]
      | cons d ds =>
        rw [hrest] at ih hhead
        have hd : d ≠ m.quote := by simpa using hhead
        rw [unescape, if_neg fun h => hd h.2, ih]

end Format.Quoted
