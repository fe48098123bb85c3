import Mathlib.Data.Int.Notation
import Mathlib.Data.List.Basic
import Mathlib.Data.List.DropRight
import Mathlib.Tactic.Common
import Mathlib.Tactic.IntervalCases

/-! Text operations of the JavaScript runtime, on the characters of a string. -/
namespace Js

/-- The code points that `String.prototype.trim` strips: white space and line ends. -/
def isWhiteSpace (c : Char) : Bool :=
  c = ' ' || (0x09 ≤ c.val && c.val ≤ 0x0D) || c.val = 0xA0 || c.val = 0x1680 ||
    (0x2000 ≤ c.val && c.val ≤ 0x200A) || c.val = 0x2028 || c.val = 0x2029 ||
    c.val = 0x202F || c.val = 0x205F || c.val = 0x3000 || c.val = 0xFEFF

def trimStart (cs : List Char) : List Char := cs.dropWhile isWhiteSpace

def trimEnd (cs : List Char) : List Char := cs.rdropWhile isWhiteSpace

def trimChars (cs : List Char) : List Char := trimEnd (trimStart cs)

def trim (s : String) : String := String.ofList (trimChars s.toList)

/-- `value?.trim()` is absent or empty. -/
def blank (value : Option String) : Bool :=
  match value with
  | none => true
  | some s => trim s = ""

/-- The names of the members of `Object.prototype`, that every object literal has. -/
def prototypeMembers : List String :=
  ["constructor", "__defineGetter__", "__defineSetter__", "hasOwnProperty", "__lookupGetter__",
    "__lookupSetter__", "isPrototypeOf", "propertyIsEnumerable", "toString", "valueOf",
    "__proto__", "toLocaleString"]

/-- A regular expression's `\d`. -/
def isDigit (c : Char) : Bool := '0' ≤ c && c ≤ '9'

def digitValue (c : Char) : ℕ := c.toNat - '0'.toNat

/-- `BigInt` of a non-empty run of decimal digits. -/
def digitsValue (cs : List Char) : ℕ := cs.foldl (fun n c => 10 * n + digitValue c) 0

/-- Lower-casing of the basic letters, all that the compared keys contain. -/
def toLowerCase (s : String) : String := String.ofList (s.toList.map Char.toLower)

def padStart (n : ℕ) (cs : List Char) : List Char := List.replicate (n - cs.length) '0' ++ cs

def padEnd (n : ℕ) (cs : List Char) : List Char := cs ++ List.replicate (n - cs.length) '0'

/-- `text.slice(prefix.length)` when `text.startsWith(prefix)`. -/
def stripPrefix : List Char → List Char → Option (List Char)
  | [], cs => some cs
  | _ :: _, [] => none
  | p :: ps, c :: cs => if p = c then stripPrefix ps cs else none

/-- `text.split(sep)` for a one-character separator. -/
def split (sep : Char) : List Char → List (List Char)
  | [] => [[]]
  | c :: cs =>
    match split sep cs with
    | [] => [[c]]
    | t :: ts => if c = sep then [] :: t :: ts else (c :: t) :: ts

/-- `tokens.join(sep)` for a one-character separator. -/
def join (sep : Char) : List (List Char) → List Char
  | [] => []
  | [t] => t
  | t :: ts => t ++ sep :: join sep ts

@[simp] theorem trim_blank_iff (s : String) : blank (some s) = true ↔ trim s = "" := by
  simp [blank]

theorem stripPrefix_append (ps cs : List Char) : stripPrefix ps (ps ++ cs) = some cs := by
  induction ps with
  | nil => cases cs <;> rfl
  | cons p ps ih => simp [stripPrefix, ih]

theorem stripPrefix_eq_some {ps cs rest : List Char} (h : stripPrefix ps cs = some rest) :
    cs = ps ++ rest := by
  induction ps generalizing cs with
  | nil =>
    cases cs <;> cases h <;> rfl
  | cons p ps ih =>
    cases cs with
    | nil => cases h
    | cons c cs =>
      rw [stripPrefix] at h
      split_ifs at h with hpc
      rw [hpc, ih h]
      rfl

theorem dropWhile_of_prefix {p : Char → Bool} {cs ds : List Char} (h : ds <+: cs)
    (hcs : cs.dropWhile p = cs) : ds.dropWhile p = ds := by
  cases ds with
  | nil => rfl
  | cons d ds =>
    obtain ⟨rest, rfl⟩ := h
    by_cases hd : p d = true
    · simp only [List.cons_append, List.dropWhile_cons, hd, if_true] at hcs
      have hlength := congrArg List.length hcs
      have hle := (List.dropWhile_suffix p (l := ds ++ rest)).length_le
      simp only [List.length_cons] at hlength
      omega
    · simp [List.dropWhile, hd]

@[simp] theorem trimChars_idem (cs : List Char) : trimChars (trimChars cs) = trimChars cs := by
  have hstart : trimStart (trimChars cs) = trimChars cs :=
    dropWhile_of_prefix (List.rdropWhile_prefix _ _) (List.dropWhile_idempotent _ _)
  have hend : trimEnd (trimChars cs) = trimChars cs := List.rdropWhile_idempotent _ _
  calc trimChars (trimChars cs) = trimEnd (trimStart (trimChars cs)) := rfl
    _ = trimChars cs := by rw [hstart, hend]

@[simp] theorem trim_trim (s : String) : trim (trim s) = trim s := by
  simp [trim]

theorem trim_ne_empty {s : String} {c : Char} (hmem : c ∈ s.toList)
    (hc : isWhiteSpace c = false) : trim s ≠ "" := by
  intro hempty
  have hend : trimEnd (trimStart s.toList) = [] := String.ofList_eq_empty_iff.mp hempty
  -- What starts with no white space and has nothing else is empty.
  have hstart : trimStart s.toList = [] := by
    rw [trimStart, ← List.dropWhile_idempotent]
    exact List.dropWhile_eq_nil_iff.mpr (List.rdropWhile_eq_nil_iff.mp hend)
  have hwhite := List.dropWhile_eq_nil_iff.mp hstart c hmem
  simp [hc] at hwhite

theorem dropWhile_of_solid {cs : List Char} (h : ∀ c ∈ cs, isWhiteSpace c = false) :
    cs.dropWhile isWhiteSpace = cs := by
  cases cs with
  | nil => rfl
  | cons c cs => simp [List.dropWhile, h c List.mem_cons_self]

theorem trimChars_of_solid {cs : List Char} (h : ∀ c ∈ cs, isWhiteSpace c = false) :
    trimChars cs = cs := by
  unfold trimChars trimStart trimEnd List.rdropWhile
  rw [dropWhile_of_solid h, dropWhile_of_solid fun c hc => h c (List.mem_reverse.mp hc),
    List.reverse_reverse]

/-- What is trimmed at the end ends with the last character that is no white space. -/
theorem trimEnd_append_cons {c : Char} (hc : isWhiteSpace c = false) (cs ds : List Char) :
    trimEnd (cs ++ c :: ds) = cs ++ c :: trimEnd ds := by
  unfold trimEnd List.rdropWhile
  rw [List.reverse_append, List.reverse_cons, List.append_assoc, List.singleton_append,
    List.dropWhile_append]
  split_ifs with hds
  · rw [List.isEmpty_iff.mp hds, List.dropWhile_cons_of_neg (by simp [hc])]
    simp
  · simp

theorem trimStart_cons {c : Char} (hc : isWhiteSpace c = false) (cs : List Char) :
    trimStart (c :: cs) = c :: cs :=
  List.dropWhile_cons_of_neg (by simp [hc])

theorem trimChars_concat_white {c : Char} (hc : isWhiteSpace c = true) (cs : List Char) :
    trimChars (cs ++ [c]) = trimChars cs := by
  unfold trimChars trimStart
  rw [List.dropWhile_append]
  split_ifs with hcs
  · rw [List.isEmpty_iff.mp hcs, List.dropWhile_cons_of_pos hc]
    rfl
  · exact List.rdropWhile_concat_pos _ _ _ hc

/-- A text whose end is trimmed already is trimmed as the text is. -/
theorem trimChars_trimEnd (cs : List Char) : trimChars (trimEnd cs) = trimChars cs := by
  induction cs using List.reverseRecOn with
  | nil => rfl
  | append_singleton cs c ih =>
    cases hc : isWhiteSpace c with
    | true =>
      have hend : trimEnd (cs ++ [c]) = trimEnd cs := List.rdropWhile_concat_pos _ _ _ hc
      rw [hend, ih, trimChars_concat_white hc]
    | false =>
      have hend : trimEnd (cs ++ [c]) = cs ++ [c] :=
        List.rdropWhile_concat_neg _ _ _ (by simp [hc])
      rw [hend]

/-- The value of a digit of a radix up to 16. -/
def radixDigit (radix : ℕ) (c : Char) : Option ℕ :=
  let value :=
    if isDigit c = true then some (digitValue c)
    else if 'a' ≤ c ∧ c ≤ 'f' then some (c.toNat - 'a'.toNat + 10)
    else if 'A' ≤ c ∧ c ≤ 'F' then some (c.toNat - 'A'.toNat + 10)
    else none
  value.filter (· < radix)

def parseRadix (radix : ℕ) (cs : List Char) : Option ℤ :=
  if cs = [] then none
  else (cs.mapM (radixDigit radix)).map fun ds => (ds.foldl (fun n d => radix * n + d) 0 : ℕ)

/-- `BigInt(text)`, with nothing where it throws. A sign goes with decimal digits only. -/
def parseBigInt (text : String) : Option ℤ :=
  match trimChars text.toList with
  | [] => some 0
  | '0' :: 'x' :: cs => parseRadix 16 cs
  | '0' :: 'X' :: cs => parseRadix 16 cs
  | '0' :: 'o' :: cs => parseRadix 8 cs
  | '0' :: 'O' :: cs => parseRadix 8 cs
  | '0' :: 'b' :: cs => parseRadix 2 cs
  | '0' :: 'B' :: cs => parseRadix 2 cs
  | '-' :: cs => (parseRadix 10 cs).map fun n => -n
  | '+' :: cs => parseRadix 10 cs
  | cs => parseRadix 10 cs

theorem digitChar_spec : ∀ n < 10, isDigit (Nat.digitChar n) = true ∧
    digitValue (Nat.digitChar n) = n ∧ Nat.digitChar n ≠ '+' ∧ Nat.digitChar n ≠ '-' := by
  decide

theorem digitsValue_snoc (cs : List Char) (c : Char) :
    digitsValue (cs ++ [c]) = 10 * digitsValue cs + digitValue c := by
  simp [digitsValue]

theorem isDigit_bounds {c : Char} (h : isDigit c = true) : 48 ≤ c.toNat ∧ c.toNat ≤ 57 := by
  simp only [isDigit, Bool.and_eq_true, decide_eq_true_eq, Char.le_def, UInt32.le_iff_toNat_le]
    at h
  exact h

theorem digitValue_lt {c : Char} (h : isDigit c = true) : digitValue c < 10 := by
  have hbounds := isDigit_bounds h
  show c.toNat - 48 < 10
  omega

theorem isWhiteSpace_digit {c : Char} (h : isDigit c = true) : isWhiteSpace c = false := by
  obtain ⟨hlow, hhigh⟩ := isDigit_bounds h
  have hdigit : c = Char.ofNat c.toNat := (Char.ofNat_toNat c).symm
  rw [hdigit]
  generalize c.toNat = n at hlow hhigh
  interval_cases n <;> rfl

theorem split_ne_nil (sep : Char) (cs : List Char) : split sep cs ≠ [] := by
  cases cs with
  | nil => simp [split]
  | cons c cs =>
    rw [split]
    split
    · simp
    · split_ifs <;> simp

theorem takeDigits_of_stop {digits rest : List Char} (hdigits : digits.all isDigit = true)
    (hrest : ∀ c ∈ rest.head?, isDigit c = false) :
    (digits ++ rest).takeWhile isDigit = digits ∧ (digits ++ rest).dropWhile isDigit = rest := by
  have hstop : rest.takeWhile isDigit = [] ∧ rest.dropWhile isDigit = rest := by
    cases rest with
    | nil => exact ⟨rfl, rfl⟩
    | cons c rest => simp [hrest c rfl]
  have hall : ∀ c ∈ digits, isDigit c = true := List.all_eq_true.mp hdigits
  rw [List.takeWhile_append_of_pos hall, List.dropWhile_append_of_pos hall, hstop.1, hstop.2]
  simp

theorem trimChars_of_digits {cs : List Char} (h : cs.all isDigit = true) : trimChars cs = cs :=
  trimChars_of_solid fun c hc => isWhiteSpace_digit (List.all_eq_true.mp h c hc)

theorem digits_spec (n : ℕ) : (Nat.toDigits 10 n).all isDigit = true ∧
    digitsValue (Nat.toDigits 10 n) = n ∧ Nat.toDigits 10 n ≠ [] := by
  induction n using Nat.strongRecOn with
  | _ n ih =>
    rw [Nat.toDigits_eq_if (by decide)]
    split
    · rename_i hsmall
      have hdigit := digitChar_spec n hsmall
      exact ⟨by simp [hdigit.1], by simp [digitsValue, hdigit.2.1], by simp⟩
    · rename_i hlarge
      obtain ⟨hall, hvalue, -⟩ := ih (n / 10) (by omega)
      have hdigit := digitChar_spec (n % 10) (by omega)
      refine ⟨by simp [hall, hdigit.1], ?_, by simp⟩
      rw [digitsValue_snoc, hvalue, hdigit.2.1]
      omega

theorem parseRadix_digits {cs : List Char} (h : cs.all isDigit = true) (hne : cs ≠ []) :
    parseRadix 10 cs = some (digitsValue cs : ℤ) := by
  have hmap : cs.mapM (radixDigit 10) = some (cs.map digitValue) := by
    clear hne
    induction cs with
    | nil => rfl
    | cons c cs ih =>
      rw [List.all_cons, Bool.and_eq_true] at h
      have hdigit : radixDigit 10 c = some (digitValue c) := by
        simp [radixDigit, h.1, Option.filter, digitValue_lt h.1]
      simp [List.mapM_cons, hdigit, ih h.2]
  unfold parseRadix
  rw [if_neg hne, hmap]
  simp [digitsValue, List.foldl_map]

theorem toString_toList (m : ℕ) : (toString (m : ℤ)).toList = Nat.toDigits 10 m := by
  show (Nat.repr m).toList = _
  simp [Nat.repr]

/-- An integer that is not negative is printed with digits only. -/
theorem isDigit_toString {n : ℤ} (h : 0 ≤ n) : (toString n).toList.all isDigit = true := by
  obtain ⟨m, rfl⟩ := Int.eq_ofNat_of_zero_le h
  rw [toString_toList]
  exact (digits_spec m).1

/-- Printing an integer that is not negative and reading it back. -/
theorem parseBigInt_toString {n : ℤ} (h : 0 ≤ n) : parseBigInt (toString n) = some n := by
  obtain ⟨m, rfl⟩ := Int.eq_ofNat_of_zero_le h
  obtain ⟨hall, hvalue, hne⟩ := digits_spec m
  have hradix := parseRadix_digits hall hne
  rw [hvalue] at hradix
  unfold parseBigInt
  rw [toString_toList, trimChars_of_digits hall]
  generalize Nat.toDigits 10 m = cs at *
  have hdigit : ∀ c ∈ cs, isDigit c = true := List.all_eq_true.mp hall
  -- The text has digits only, so it begins with no radix and no sign.
  split
  · exact absurd rfl hne
  · exact absurd (hdigit 'x' (by simp)) (by decide)
  · exact absurd (hdigit 'X' (by simp)) (by decide)
  · exact absurd (hdigit 'o' (by simp)) (by decide)
  · exact absurd (hdigit 'O' (by simp)) (by decide)
  · exact absurd (hdigit 'b' (by simp)) (by decide)
  · exact absurd (hdigit 'B' (by simp)) (by decide)
  · exact absurd (hdigit '-' (by simp)) (by decide)
  · exact absurd (hdigit '+' (by simp)) (by decide)
  · exact hradix

theorem getD_parseBigInt_toString (n : ℕ) : (parseBigInt (toString n)).getD 0 = n := by
  have htext : toString n = toString (n : ℤ) := rfl
  rw [htext, parseBigInt_toString (Int.natCast_nonneg n), Option.getD_some]

end Js
