import Pivotal.Js.Split

/-! The path of a URL, as the URL parser makes it of what follows an origin, and the decoding of
the segments that a router hands on. A character that the parser escapes is unescaped by the
decoding, so neither is done here. -/
namespace Js

abbrev Segment := List Char

namespace Url

def isControlOrSpace (c : Char) : Bool := c.toNat ≤ 0x20

def isTabOrNewline (c : Char) : Bool := c = '\t' || c = '\n' || c = '\r'

/-- What ends a URL in control characters or blanks is dropped, and tabs and newlines anywhere. -/
def clean (cs : List Char) : List Char :=
  (cs.rdropWhile isControlOrSpace).filter fun c => !isTabOrNewline c

/-- The path is what stands before a query and a fragment. -/
def beforeQuery (cs : List Char) : List Char := cs.takeWhile fun c => c ≠ '?' && c ≠ '#'

/-- A backslash separates segments too. -/
def toSlashes (cs : List Char) : List Char := cs.map fun c => if c = '\\' then '/' else c

def lower (segment : Segment) : Segment := segment.map Char.toLower

def isSingleDot (segment : Segment) : Bool :=
  lower segment ∈ [".".toList, "%2e".toList]

def isDoubleDot (segment : Segment) : Bool :=
  lower segment ∈ ["..".toList, ".%2e".toList, "%2e.".toList, "%2e%2e".toList]

/-- The segment means a place and is not the name of one. -/
def isDot (segment : Segment) : Bool := isDoubleDot segment || isSingleDot segment

/-- One segment after the path so far; a dot that ends the path leaves an empty segment. -/
def appendSegment (path : List Segment) (segment : Segment) (last : Bool) : List Segment :=
  let trailing := if last then [[]] else []
  if isDoubleDot segment then path.dropLast ++ trailing
  else if isSingleDot segment then path ++ trailing
  else path ++ [segment]

def appendSegments (path : List Segment) : List Segment → List Segment
  | [] => path
  | segment :: rest => appendSegments (appendSegment path segment rest.isEmpty) rest

/-- The segments of a path that begins after a slash. -/
def pathSegments (path : List Char) : List Segment :=
  appendSegments [] (split '/' (toSlashes (beforeQuery (clean path))))

/-! A path that says what it is: nothing of it is dropped, no character stands for another, and no
segment is a dot. The others are told by how much of them is left. -/

structure Undisturbed (path : List Char) : Prop where
  ending : ∀ c ∈ path.getLast?, isControlOrSpace c = false
  chars : ∀ c ∈ path, isTabOrNewline c = false ∧ c ≠ '?' ∧ c ≠ '#' ∧ c ≠ '\\'
  dots : ∀ segment ∈ split '/' path, isDot segment = false

/-- How many characters of a path are in its segments. -/
def weight (path : List Char) : ℕ := path.countP (· ≠ '/')

def size (segments : List Segment) : ℕ := (segments.map List.length).sum

variable {path : List Char} {segments before : List Segment} {segment : Segment} {c : Char}

@[simp] theorem weight_nil : weight [] = 0 := rfl

@[simp] theorem weight_append (cs ds : List Char) : weight (cs ++ ds) = weight cs + weight ds :=
  List.countP_append

theorem weight_cons (c : Char) (cs : List Char) :
    weight (c :: cs) = weight cs + if c = '/' then 0 else 1 := by
  by_cases hc : c = '/' <;> simp [weight, hc]

@[simp] theorem size_nil : size [] = 0 := rfl

@[simp] theorem size_cons (segment : Segment) (rest : List Segment) :
    size (segment :: rest) = segment.length + size rest := by simp [size]

@[simp] theorem size_append (segments rest : List Segment) :
    size (segments ++ rest) = size segments + size rest := by simp [size]

theorem weight_le_length (cs : List Char) : weight cs ≤ cs.length := List.countP_le_length

theorem weight_eq_length_iff {cs : List Char} : weight cs = cs.length ↔ '/' ∉ cs := by
  rw [weight, List.countP_eq_length]
  constructor
  · intro h hmem
    simpa using h '/' hmem
  · intro h c hc
    simpa using fun heq : c = '/' => h (heq ▸ hc)

theorem size_split (cs : List Char) : size (split '/' cs) = weight cs := by
  induction cs with
  | nil => rfl
  | cons c cs ih =>
    by_cases hc : c = '/'
    · rw [hc, split_cons_sep, size_cons, ih, weight_cons]
      simp
    · rw [split_cons_ne hc, weight_cons, if_neg hc, ← ih]
      cases hsplit : split '/' cs with
      | nil => exact absurd hsplit (split_ne_nil '/' cs)
      | cons first rest =>
        simp
        omega

theorem weight_join (segments : List Segment) :
    weight (join '/' segments) = (segments.map weight).sum := by
  induction segments with
  | nil => rfl
  | cons segment rest ih =>
    by_cases hrest : rest = []
    · subst hrest
      simp [join]
    · rw [join_cons segment hrest, weight_append, weight_cons, ih]
      simp

/-! One step of the parser after the other: what is lost of the weight is what was changed. -/

theorem weight_lt_of_sublist {cs ds : List Char} (h : ds.Sublist cs) (hc : c ≠ '/') (hcs : c ∈ cs)
    (hds : c ∉ ds) : weight ds < weight cs := by
  induction h with
  | slnil => cases hcs
  | @cons ds cs d hsub ih =>
    rw [weight_cons]
    have hle : weight ds ≤ weight cs := hsub.countP_le
    by_cases hd : c = d
    · subst hd
      simp only [if_neg hc]
      omega
    · have hmem : c ∈ cs := (List.mem_cons.mp hcs).resolve_left hd
      have hlt := ih hmem hds
      omega
  | @cons_cons ds cs d hsub ih =>
    rw [weight_cons, weight_cons]
    have hd : c ≠ d := fun heq => hds (heq ▸ List.mem_cons_self)
    have hmem : c ∈ cs := (List.mem_cons.mp hcs).resolve_left hd
    have hlt := ih hmem fun hmem => hds (List.mem_cons_of_mem d hmem)
    omega

theorem clean_sublist (cs : List Char) : (clean cs).Sublist cs :=
  List.filter_sublist.trans (List.rdropWhile_prefix _ cs).sublist

theorem clean_eq (hending : ∀ c ∈ path.getLast?, isControlOrSpace c = false)
    (hchars : ∀ c ∈ path, isTabOrNewline c = false) : clean path = path := by
  have hdrop : path.rdropWhile isControlOrSpace = path := by
    rw [List.rdropWhile_eq_self_iff]
    intro hne
    rw [hending _ (List.getLast?_eq_some_getLast hne)]
    exact Bool.false_ne_true
  rw [clean, hdrop, List.filter_eq_self]
  intro c hc
  rw [hchars c hc]
  rfl

theorem clean_lossless (h : weight path ≤ weight (clean path)) :
    (∀ c ∈ path.getLast?, isControlOrSpace c = false) ∧ ∀ c ∈ path, isTabOrNewline c = false := by
  constructor
  · intro c hc
    by_contra hcontrol
    rw [Bool.not_eq_false] at hcontrol
    obtain ⟨front, rfl⟩ := List.getLast?_eq_some_iff.mp hc
    have hslash : c ≠ '/' := by
      rintro rfl
      exact absurd hcontrol (by decide)
    have hdrop : (front ++ [c]).rdropWhile isControlOrSpace = front.rdropWhile isControlOrSpace :=
      List.rdropWhile_concat_pos _ _ _ hcontrol
    have hsublist : (clean (front ++ [c])).Sublist front := by
      rw [clean, hdrop]
      exact clean_sublist front
    have hle : weight (clean (front ++ [c])) ≤ weight front := hsublist.countP_le
    rw [weight_append, weight_cons, if_neg hslash] at h
    omega
  · intro c hc
    by_contra htab
    rw [Bool.not_eq_false] at htab
    have hslash : c ≠ '/' := by
      rintro rfl
      exact absurd htab (by decide)
    have hmem : c ∉ clean path := by
      intro hmem
      have hkept := (List.mem_filter.mp hmem).2
      rw [htab] at hkept
      cases hkept
    exact absurd (weight_lt_of_sublist (clean_sublist path) hslash hc hmem) (by omega)

theorem beforeQuery_eq (h : ∀ c ∈ path, c ≠ '?' ∧ c ≠ '#') : beforeQuery path = path := by
  rw [beforeQuery, List.takeWhile_eq_self_iff]
  simpa using h

theorem beforeQuery_lossless (h : weight path ≤ weight (beforeQuery path)) :
    ∀ c ∈ path, c ≠ '?' ∧ c ≠ '#' := by
  have hsplit : beforeQuery path ++ path.dropWhile (fun c => c ≠ '?' && c ≠ '#') = path :=
    List.takeWhile_append_dropWhile
  cases hrest : path.dropWhile fun c => c ≠ '?' && c ≠ '#' with
  | nil =>
    rw [List.dropWhile_eq_nil_iff] at hrest
    simpa using hrest
  | cons c rest =>
    have hc : ¬ ((c ≠ '?' && c ≠ '#') = true) := by
      have hne : path.dropWhile (fun c => c ≠ '?' && c ≠ '#') ≠ [] := by
        rw [hrest]
        exact List.cons_ne_nil c rest
      have hhead := List.head_dropWhile_not (fun c => c ≠ '?' && c ≠ '#') hne
      simp only [hrest, List.head_cons] at hhead
      rw [hhead]
      exact Bool.false_ne_true
    have hslash : c ≠ '/' := by
      rintro rfl
      exact hc (by decide)
    rw [hrest] at hsplit
    have htotal := congrArg weight hsplit
    rw [weight_append, weight_cons, if_neg hslash] at htotal
    omega

theorem toSlashes_eq (h : ∀ c ∈ path, c ≠ '\\') : toSlashes path = path := by
  rw [toSlashes]
  conv_rhs => rw [← List.map_id path]
  apply List.map_congr_left
  intro c hc
  rw [if_neg (h c hc)]
  rfl

theorem weight_toSlashes (path : List Char) :
    weight (toSlashes path) + path.count '\\' = weight path := by
  induction path with
  | nil => rfl
  | cons c cs ih =>
    have hcons : toSlashes (c :: cs) = (if c = '\\' then '/' else c) :: toSlashes cs := rfl
    rw [hcons, weight_cons, weight_cons, List.count_cons]
    by_cases hc : c = '\\'
    · subst hc
      simp
      omega
    · simp [hc]
      omega

theorem toSlashes_lossless (h : weight path ≤ weight (toSlashes path)) : ∀ c ∈ path, c ≠ '\\' := by
  have htotal := weight_toSlashes path
  have hcount : path.count '\\' = 0 := by omega
  rintro c hc rfl
  exact List.count_eq_zero.mp hcount hc

theorem length_pos_of_isDot (h : isDot segment = true) : 0 < segment.length := by
  cases segment with
  | nil => exact absurd h (by decide)
  | cons c rest => simp

theorem size_dropLast_le (segments : List Segment) : size segments.dropLast ≤ size segments := by
  rcases List.eq_nil_or_concat segments with rfl | ⟨front, segment, rfl⟩
  · exact le_rfl
  · simp

theorem appendSegment_size (before : List Segment) (segment : Segment) (last : Bool) :
    size (appendSegment before segment last) + (if isDot segment then segment.length else 0) ≤
      size before + segment.length := by
  have htrailing : size (if last then [[]] else []) = 0 := by cases last <;> rfl
  have hdrop := size_dropLast_le before
  simp only [appendSegment]
  by_cases hdouble : isDoubleDot segment = true
  · rw [if_pos hdouble, isDot, hdouble, size_append, htrailing, Bool.true_or, if_pos rfl]
    omega
  · by_cases hsingle : isSingleDot segment = true
    · rw [if_neg hdouble, if_pos hsingle, isDot, hsingle, size_append, htrailing, Bool.or_true,
        if_pos rfl]
      omega
    · simp [isDot, hdouble, hsingle]

theorem appendSegments_size (segments before : List Segment) :
    size (appendSegments before segments) ≤ size before + size segments := by
  induction segments generalizing before with
  | nil => simp [appendSegments]
  | cons segment rest ih =>
    have hrest := ih (appendSegment before segment rest.isEmpty)
    have hfirst := appendSegment_size before segment rest.isEmpty
    rw [appendSegments, size_cons]
    omega

theorem appendSegments_lossless
    (h : size before + size segments ≤ size (appendSegments before segments)) :
    ∀ segment ∈ segments, isDot segment = false := by
  induction segments generalizing before with
  | nil =>
    intro segment hmem
    cases hmem
  | cons segment rest ih =>
    have hrest := appendSegments_size rest (appendSegment before segment rest.isEmpty)
    have hfirst := appendSegment_size before segment rest.isEmpty
    rw [appendSegments, size_cons] at h
    have hdot : isDot segment = false := by
      by_contra hdot
      rw [Bool.not_eq_false] at hdot
      have hpos := length_pos_of_isDot hdot
      rw [if_pos hdot] at hfirst
      omega
    rw [hdot] at hfirst
    intro other hmem
    rcases List.mem_cons.mp hmem with rfl | hmem
    · exact hdot
    · simp only [Bool.false_eq_true, if_false] at hfirst
      have hkept : size (appendSegment before segment rest.isEmpty) + size rest ≤
          size (appendSegments (appendSegment before segment rest.isEmpty) rest) := by
        omega
      exact ih hkept other hmem

theorem appendSegments_eq (h : ∀ segment ∈ segments, isDot segment = false) :
    appendSegments before segments = before ++ segments := by
  induction segments generalizing before with
  | nil => simp [appendSegments]
  | cons segment rest ih =>
    have hdot := h segment List.mem_cons_self
    rw [isDot, Bool.or_eq_false_iff] at hdot
    rw [appendSegments, ih fun other hmem => h other (List.mem_cons_of_mem segment hmem)]
    simp [appendSegment, hdot.1, hdot.2]

/-- A path that says what it is has the segments that are written in it. -/
theorem pathSegments_eq (h : Undisturbed path) : pathSegments path = split '/' path := by
  have hclean : clean path = path := clean_eq h.ending fun c hc => (h.chars c hc).1
  have hquery : beforeQuery path = path :=
    beforeQuery_eq fun c hc => ⟨(h.chars c hc).2.1, (h.chars c hc).2.2.1⟩
  have hslashes : toSlashes path = path := toSlashes_eq fun c hc => (h.chars c hc).2.2.2
  rw [pathSegments, hclean, hquery, hslashes, appendSegments_eq, List.nil_append]
  exact h.dots

/-- A path of which as much is in the segments as was written says what it is. -/
theorem undisturbed_of_size (h : weight path ≤ size (pathSegments path)) : Undisturbed path := by
  have hclean : weight (clean path) ≤ weight path := (clean_sublist path).countP_le
  have hquery : weight (beforeQuery (clean path)) ≤ weight (clean path) :=
    (List.takeWhile_prefix _).sublist.countP_le
  have hslashes := weight_toSlashes (beforeQuery (clean path))
  have hsize := appendSegments_size (split '/' (toSlashes (beforeQuery (clean path)))) []
  rw [size_split, size_nil] at hsize
  rw [pathSegments] at h
  obtain ⟨hending, htabs⟩ := clean_lossless (show weight path ≤ weight (clean path) by omega)
  have hclean : clean path = path := clean_eq hending htabs
  rw [hclean] at hquery hslashes hsize h
  have hqueries := beforeQuery_lossless (show weight path ≤ weight (beforeQuery path) by omega)
  have hquery : beforeQuery path = path := beforeQuery_eq hqueries
  rw [hquery] at hslashes hsize h
  have hbackslashes := toSlashes_lossless (show weight path ≤ weight (toSlashes path) by omega)
  rw [toSlashes_eq hbackslashes] at h
  have hkept : size [] + size (split '/' path) ≤ size (appendSegments [] (split '/' path)) := by
    rw [size_split, size_nil]
    omega
  exact
    { ending := hending
      chars := fun c hc => ⟨htabs c hc, (hqueries c hc).1, (hqueries c hc).2, hbackslashes c hc⟩
      dots := appendSegments_lossless hkept }

theorem eq_of_toLower {d : Char} (hd : d.isAlpha = false) (h : c.toLower = d) : c = d := by
  subst h
  unfold Char.toLower at hd ⊢
  split at hd
  · rename_i hupper
    rw [dif_pos hupper]
    have hlow : 65 ≤ c.toNat := UInt32.le_iff_toNat_le.mp hupper.1
    have hhigh : c.toNat ≤ 90 := UInt32.le_iff_toNat_le.mp hupper.2
    have hlower : (decide (97 ≤ c.val + 32) && decide (c.val + 32 ≤ 122)) = false :=
      (Bool.or_eq_false_iff.mp hd).2
    simp [UInt32.le_iff_toNat_le, UInt32.toNat_add] at hlower
    omega
  · rename_i hupper
    rw [dif_neg hupper]

theorem eq_of_lower {segment' : Segment} (halpha : ∀ d ∈ segment', d.isAlpha = false)
    (h : lower segment = segment') : segment = segment' := by
  subst h
  induction segment with
  | nil => rfl
  | cons c rest ih =>
    have hc := eq_of_toLower (halpha c.toLower List.mem_cons_self) rfl
    have hrest := ih fun d hd => halpha d (List.mem_cons_of_mem _ hd)
    exact congrArg₂ List.cons hc hrest

/-- Without escapes there are two dots. -/
theorem isDot_eq_false (hescape : '%' ∉ segment) (hsingle : segment ≠ ".".toList)
    (hdouble : segment ≠ "..".toList) : isDot segment = false := by
  have hlower : ∀ segment' : Segment, '%' ∈ segment' → lower segment ≠ segment' := by
    rintro _ hmem rfl
    obtain ⟨c, hc, hpercent⟩ := List.mem_map.mp hmem
    rw [eq_of_toLower (by decide) hpercent] at hc
    exact hescape hc
  have hone : lower segment ≠ ".".toList := fun h => hsingle (eq_of_lower (by simp) h)
  have htwo : lower segment ≠ "..".toList := fun h => hdouble (eq_of_lower (by simp) h)
  have hmixed := hlower ".%2e".toList (by decide)
  have hmixed' := hlower "%2e.".toList (by decide)
  have hdots := hlower "%2e%2e".toList (by decide)
  have hdot := hlower "%2e".toList (by decide)
  simp only [isDot, isDoubleDot, isSingleDot, List.mem_cons, List.not_mem_nil, or_false, hone, htwo,
    hmixed, hmixed', hdots, hdot, decide_false, Bool.or_false]

theorem size_pathSegments_le (path : List Char) : size (pathSegments path) ≤ weight path := by
  have hclean : weight (clean path) ≤ weight path := (clean_sublist path).countP_le
  have hquery : weight (beforeQuery (clean path)) ≤ weight (clean path) :=
    (List.takeWhile_prefix _).sublist.countP_le
  have hslashes := weight_toSlashes (beforeQuery (clean path))
  have hsize := appendSegments_size (split '/' (toSlashes (beforeQuery (clean path)))) []
  rw [size_split, size_nil] at hsize
  rw [pathSegments]
  omega

end Url

section Decoding

def hexDigit (c : Char) : Option ℕ :=
  let n := c.toNat
  if 48 ≤ n ∧ n ≤ 57 then some (n - 48)
  else if 65 ≤ n ∧ n ≤ 70 then some (n - 55)
  else if 97 ≤ n ∧ n ≤ 102 then some (n - 87)
  else none

/-- The characters of a text and the octets of its escapes. -/
def unescape : List Char → Option (List (Char ⊕ ℕ))
  | [] => some []
  | c :: rest =>
    if c = '%' then
      match rest with
      | high :: low :: rest => do
        let high ← hexDigit high
        let low ← hexDigit low
        let rest ← unescape rest
        return .inr (16 * high + low) :: rest
      | _ => none
    else do
      let rest ← unescape rest
      return .inl c :: rest

/-- How many octets a character has that begins with this one. -/
def sequenceLength (octet : ℕ) : Option ℕ :=
  if octet < 0x80 then some 1
  else if octet < 0xC0 then none
  else if octet < 0xE0 then some 2
  else if octet < 0xF0 then some 3
  else if octet < 0xF8 then some 4
  else none

/-- The character of the octets, of which all but the first continue one; the shortest form only. -/
def utf8Character (lead least : ℕ) (rest : List ℕ) : Option Char :=
  let n := rest.foldl (fun n octet => 64 * n + (octet - 0x80)) lead
  if (∀ octet ∈ rest, 0x80 ≤ octet ∧ octet < 0xC0) ∧ least ≤ n ∧ n.isValidChar
  then some (Char.ofNat n) else none

def decodeOctets : List (Char ⊕ ℕ) → Option (List Char)
  | [] => some []
  | .inl c :: rest => do
    let rest ← decodeOctets rest
    return c :: rest
  | .inr octet :: rest =>
    match sequenceLength octet, rest with
    | some 1, rest => do
      let c ← utf8Character octet 0 []
      let rest ← decodeOctets rest
      return c :: rest
    | some 2, .inr second :: rest => do
      let c ← utf8Character (octet - 0xC0) 0x80 [second]
      let rest ← decodeOctets rest
      return c :: rest
    | some 3, .inr second :: .inr third :: rest => do
      let c ← utf8Character (octet - 0xE0) 0x800 [second, third]
      let rest ← decodeOctets rest
      return c :: rest
    | some 4, .inr second :: .inr third :: .inr fourth :: rest => do
      let c ← utf8Character (octet - 0xF0) 0x10000 [second, third, fourth]
      let rest ← decodeOctets rest
      return c :: rest
    | _, _ => none

/-- `decodeURIComponent(text)`, which throws for escapes that are not of a text. -/
def decodeURIComponent (text : List Char) : Option (List Char) := do
  decodeOctets (← unescape text)


theorem unescape_cons_ne {c : Char} (hc : c ≠ '%') (cs : List Char) :
    unescape (c :: cs) = (unescape cs).map (.inl c :: ·) := by
  conv_lhs => unfold unescape
  rw [if_neg hc]
  cases unescape cs <;> rfl

theorem unescape_eq {cs : List Char} (h : '%' ∉ cs) : unescape cs = some (cs.map .inl) := by
  induction cs with
  | nil => rfl
  | cons c cs ih =>
    have hc : c ≠ '%' := fun heq => h (heq ▸ List.mem_cons_self)
    rw [unescape_cons_ne hc, ih fun hmem => h (List.mem_cons_of_mem c hmem)]
    rfl

theorem decodeOctets_map (cs : List Char) : decodeOctets (cs.map .inl) = some cs := by
  induction cs with
  | nil => rfl
  | cons c cs ih =>
    rw [List.map_cons, decodeOctets, ih]
    rfl

theorem decodeURIComponent_eq {cs : List Char} (h : '%' ∉ cs) : decodeURIComponent cs = some cs := by
  rw [decodeURIComponent, unescape_eq h]
  exact decodeOctets_map cs

theorem unescape_length {cs : List Char} {xs : List (Char ⊕ ℕ)} (h : unescape cs = some xs) :
    xs.length ≤ cs.length ∧ (xs.length = cs.length → '%' ∉ cs) := by
  induction cs using unescape.induct generalizing xs with
  | case1 =>
    cases h
    simp
  | case2 high low rest ih =>
    rw [unescape, if_pos rfl] at h
    simp only [Option.bind_eq_bind, Option.bind_eq_some_iff, Option.pure_def, Option.some.injEq] at h
    obtain ⟨_, -, _, -, ys, hrest, rfl⟩ := h
    have hlength := (ih hrest).1
    simp only [List.length_cons]
    constructor
    · omega
    · intro heq
      omega
  | case3 rest hrest =>
    rw [unescape, if_pos rfl] at h
    · cases h
    · exact hrest
  | case4 c rest hc ih =>
    rw [unescape_cons_ne hc, Option.map_eq_some_iff] at h
    obtain ⟨ys, hrest, rfl⟩ := h
    obtain ⟨hlength, hmem⟩ := ih hrest
    simp only [List.length_cons, List.mem_cons, not_or]
    constructor
    · omega
    · intro heq
      exact ⟨Ne.symm hc, hmem (by omega)⟩

theorem decodeOctets_length {xs : List (Char ⊕ ℕ)} {cs : List Char} (h : decodeOctets xs = some cs) :
    cs.length ≤ xs.length := by
  induction xs using decodeOctets.induct generalizing cs with
  | case1 =>
    cases h
    simp
  | case2 c rest ih =>
    simp only [decodeOctets, Option.bind_eq_bind, Option.bind_eq_some_iff, Option.pure_def,
      Option.some.injEq] at h
    obtain ⟨ds, hrest, rfl⟩ := h
    have hlength := ih hrest
    simp only [List.length_cons]
    omega
  | case3 octet rest hone ih | case4 octet htwo second rest ih | case5 octet hthree second third rest ih
    | case6 octet hfour second third fourth rest ih =>
    simp only [decodeOctets, *, Option.bind_eq_bind, Option.bind_eq_some_iff, Option.pure_def,
      Option.some.injEq] at h
    obtain ⟨c, -, ds, hrest, rfl⟩ := h
    have hlength := ih hrest
    simp only [List.length_cons]
    omega
  | case7 octet rest hone htwo hthree hfour =>
    have hnone : decodeOctets (.inr octet :: rest) = none := by
      simp only [decodeOctets]
    rw [hnone] at h
    cases h

/-- What is decoded to a text of its own length holds no escape. -/
theorem decodeURIComponent_length {cs ds : List Char} (h : decodeURIComponent cs = some ds) :
    ds.length ≤ cs.length ∧ (ds.length = cs.length → '%' ∉ cs) := by
  obtain ⟨xs, hxs, hds⟩ := Option.bind_eq_some_iff.mp h
  obtain ⟨hlength, hmem⟩ := unescape_length hxs
  have hle := decodeOctets_length hds
  constructor
  · omega
  · intro heq
    exact hmem (by omega)

end Decoding
end Js
