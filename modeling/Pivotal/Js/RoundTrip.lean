import Pivotal.Js.Value

/-! Reading back what `JSON.stringify` wrote. -/
namespace Js

theorem toNat_ofNat {n : ℕ} (h : n.isValidChar) : (Char.ofNat n).toNat = n := by
  rw [Char.ofNat, dif_pos h]
  rfl

theorem unitsText_charUnits (c : Char) (s : Units) :
    unitsText (charUnits c ++ s) = c :: unitsText s := by
  have hvalid := c.valid
  have hc : c.toNat = c.val.toNat := rfl
  unfold UInt32.isValidChar Nat.isValidChar at hvalid
  rw [← hc] at hvalid
  unfold charUnits
  split_ifs with hsmall
  · have hnat : (UInt16.ofNat c.toNat).toNat = c.toNat := UInt16.toNat_ofNat_of_lt' hsmall
    have hunit : unitChar (UInt16.ofNat c.toNat) = c := by
      rw [unitChar, hnat, if_neg (by omega), Char.ofNat_toNat]
    cases s with
    | nil => simp [unitsText, hunit]
    | cons low s =>
      have hhigh : isHighSurrogate (UInt16.ofNat c.toNat) = false := by
        rw [isHighSurrogate, hnat, Bool.and_eq_false_iff, decide_eq_false_iff_not,
          decide_eq_false_iff_not]
        omega
      simp [unitsText, hhigh, hunit]
  · have hhigh : (UInt16.ofNat (0xD800 + (c.toNat - 0x10000) / 0x400)).toNat =
        0xD800 + (c.toNat - 0x10000) / 0x400 := UInt16.toNat_ofNat_of_lt' (by
          show _ < 65536
          omega)
    have hlow : (UInt16.ofNat (0xDC00 + (c.toNat - 0x10000) % 0x400)).toNat =
        0xDC00 + (c.toNat - 0x10000) % 0x400 := UInt16.toNat_ofNat_of_lt' (by
          show _ < 65536
          omega)
    have hpair : joinSurrogates (UInt16.ofNat (0xD800 + (c.toNat - 0x10000) / 0x400))
        (UInt16.ofNat (0xDC00 + (c.toNat - 0x10000) % 0x400)) = c := by
      unfold joinSurrogates
      rw [hhigh, hlow]
      have hsame : 0x10000 + (0xD800 + (c.toNat - 0x10000) / 0x400 - 0xD800) * 0x400 +
          (0xDC00 + (c.toNat - 0x10000) % 0x400 - 0xDC00) = c.toNat := by omega
      rw [hsame, Char.ofNat_toNat]
    have hhighs :
        isHighSurrogate (UInt16.ofNat (0xD800 + (c.toNat - 0x10000) / 0x400)) = true := by
      rw [isHighSurrogate, hhigh, Bool.and_eq_true, decide_eq_true_eq, decide_eq_true_eq]
      omega
    have hlows : isLowSurrogate (UInt16.ofNat (0xDC00 + (c.toNat - 0x10000) % 0x400)) = true := by
      rw [isLowSurrogate, hlow, Bool.and_eq_true, decide_eq_true_eq, decide_eq_true_eq]
      omega
    simp only [List.cons_append, List.nil_append, unitsText, hhighs, hlows, Bool.and_self, if_true,
      hpair]

theorem ofUnits_units (text : String) : ofUnits (units text) = text := by
  have hchars : ∀ cs : List Char, unitsText (cs.flatMap charUnits) = cs := by
    intro cs
    induction cs with
    | nil => rfl
    | cons c cs ih => rw [List.flatMap_cons, unitsText_charUnits, ih]
  rw [ofUnits, units, hchars, String.ofList_toList]

theorem units_injective : Function.Injective units := fun s t h => by
  rw [← ofUnits_units s, h, ofUnits_units]

namespace Value

theorem parseString_char {c : Char} (hc : 0x20 ≤ c.toNat) (hquote : c ≠ '"') (hslash : c ≠ '\\')
    (cs : List Char) :
    parseString (c :: cs) = (parseString cs).map fun (s, rest) => (charUnits c ++ s, rest) := by
  rw [parseString.eq_def]
  split
  · simp_all
  · simp_all
  · simp_all
  · rename_i heq
    simp only [List.cons.injEq] at heq
    obtain ⟨rfl, rfl⟩ := heq
    have : ¬ c.toNat < 0x20 := by omega
    simp [this, hslash]
  · simp_all

theorem hexUnit_digits (u : UInt16) :
    hexUnit (Nat.digitChar (u.toNat / 0x1000)) (Nat.digitChar (u.toNat / 0x100 % 0x10))
      (Nat.digitChar (u.toNat / 0x10 % 0x10)) (Nat.digitChar (u.toNat % 0x10)) = some u := by
  have hdigit : ∀ n, n < 16 → radixDigit 16 (Nat.digitChar n) = some n := by decide
  have hu := u.toNat_lt
  simp only [hexUnit, hdigit _ (show u.toNat / 0x1000 < 16 by omega),
    hdigit _ (show u.toNat / 0x100 % 0x10 < 16 by omega),
    hdigit _ (show u.toNat / 0x10 % 0x10 < 16 by omega),
    hdigit _ (show u.toNat % 0x10 < 16 by omega), Option.bind_eq_bind, Option.bind_some,
    Option.pure_def, Option.some.injEq]
  apply UInt16.toNat_inj.mp
  rw [UInt16.toNat_ofNat']
  omega

theorem parseString_escape (c : Char) (hc : c.toNat < 0x10000) (cs : List Char) :
    parseString (Json.escape c ++ cs) =
      (parseString cs).map fun (s, rest) => (UInt16.ofNat c.toNat :: s, rest) := by
  have hmap : ∀ u, ((some u : Option UInt16).bind fun u =>
      (parseString cs).bind fun (s, rest) => some (u :: s, rest)) =
        (parseString cs).map fun (s, rest) => (u :: s, rest) := by
    intro u
    cases parseString cs <;> rfl
  unfold Json.escape
  split_ifs with h1 h2 h3 h4 h5 h6 h7 h8
  · subst h1
    exact hmap 0x22
  · subst h2
    exact hmap 0x5C
  · rw [h3]
    exact hmap 0x08
  · rw [h4]
    exact hmap 0x09
  · rw [h5]
    exact hmap 0x0A
  · rw [h6]
    exact hmap 0x0C
  · rw [h7]
    exact hmap 0x0D
  · have hu : (UInt16.ofNat c.toNat).toNat = c.toNat := UInt16.toNat_ofNat_of_lt' hc
    have hhex := hexUnit_digits (UInt16.ofNat c.toNat)
    rw [hu, show c.toNat / 0x1000 = 0 by omega, show c.toNat / 0x100 % 0x10 = 0 by omega,
      show c.toNat / 0x10 % 0x10 = c.toNat / 16 by omega] at hhex
    simp only [List.cons_append, List.nil_append, parseString]
    rw [show hexUnit '0' '0' _ _ = _ from hhex]
    exact hmap _
  · rw [List.singleton_append, parseString_char (by omega) h1 h2]
    simp [charUnits, hc]

theorem parseString_unit (u : UInt16) (cs : List Char) :
    parseString (unitChars u ++ cs) = (parseString cs).map fun (s, rest) => (u :: s, rest) := by
  unfold unitChars
  split_ifs with hsurrogate
  · simp only [List.cons_append, List.nil_append, parseString, hexUnit_digits]
    cases parseString cs <;> rfl
  · have hu := u.toNat_lt
    have hvalid : u.toNat.isValidChar := by
      unfold Nat.isValidChar
      omega
    have hnat := toNat_ofNat hvalid
    rw [parseString_escape _ (by omega), hnat, UInt16.ofNat_toNat]

theorem toNat_joinSurrogates {high low : UInt16} (hhigh : isHighSurrogate high = true)
    (hlow : isLowSurrogate low = true) : (joinSurrogates high low).toNat =
      0x10000 + (high.toNat - 0xD800) * 0x400 + (low.toNat - 0xDC00) := by
  simp only [isHighSurrogate, isLowSurrogate, Bool.and_eq_true, decide_eq_true_eq] at hhigh hlow
  apply toNat_ofNat
  unfold Nat.isValidChar
  omega

theorem charUnits_joinSurrogates {high low : UInt16} (hhigh : isHighSurrogate high = true)
    (hlow : isLowSurrogate low = true) : charUnits (joinSurrogates high low) = [high, low] := by
  unfold charUnits
  rw [toNat_joinSurrogates hhigh hlow]
  simp only [isHighSurrogate, isLowSurrogate, Bool.and_eq_true, decide_eq_true_eq] at hhigh hlow
  have hunit : ∀ (u : UInt16) n, n = u.toNat → UInt16.ofNat n = u := by
    intro u n hn
    rw [hn, UInt16.ofNat_toNat]
  rw [if_neg (by omega), hunit high _ (by omega), hunit low _ (by omega)]

theorem parseString_stringChars (s : Units) (cs : List Char) :
    parseString (stringChars s ++ '"' :: cs) = some (s, cs) := by
  fun_induction stringChars s with
  | case1 => simp [parseString]
  | case2 u => simp [parseString_unit, parseString]
  | case3 high low s h ih =>
    rw [Bool.and_eq_true] at h
    have hnat := toNat_joinSurrogates h.1 h.2
    rw [List.cons_append, parseString_char, ih, charUnits_joinSurrogates h.1 h.2]
    · rfl
    · omega
    · intro heq
      rw [heq] at hnat
      exact absurd hnat (by rw [show '"'.toNat = 0x22 from rfl]; omega)
    · intro heq
      rw [heq] at hnat
      exact absurd hnat (by rw [show '\\'.toNat = 0x5C from rfl]; omega)
  | case4 high low s h ih => rw [List.append_assoc, parseString_unit, ih, Option.map_some]

section Reread

variable {ν : Type} (numbers : Numbers ν)

mutual

/-- What a written value is read back as: a number that is not written is null. -/
def reread : Value ν → Value ν
  | .null => .null
  | .bool b => .bool b
  | .number n =>
    match numbers.write n with
    | some cs => .number (numbers.read cs)
    | none => .null
  | .string s => .string s
  | .array items => .array (rereadItems items)
  | .object fields => .object (ofMembers (rereadFields fields))

def rereadItems : List (Value ν) → List (Value ν)
  | [] => []
  | item :: items => reread item :: rereadItems items

def rereadFields : List (Units × Value ν) → List (Units × Value ν)
  | [] => []
  | (key, value) :: fields => (key, reread value) :: rereadFields fields

end

/-- A number literal before the rest of a text has come to its end. -/
def Ends (rest : List Char) : Prop := ∀ c ∈ rest.head?, isNumberChar c = false

theorem literal_head {cs : List Char} (h : isLiteral cs = true) :
    ∃ c ds, cs = c :: ds ∧ (isDigit c = true ∨ c = '-') := by
  unfold isLiteral at h
  rw [Bool.and_eq_true] at h
  obtain ⟨-, h⟩ := h
  cases cs with
  | nil => simp [isUnsigned] at h
  | cons c ds =>
    refine ⟨c, ds, rfl, ?_⟩
    by_cases hminus : c = '-'
    · exact .inr hminus
    · left
      have hunsigned : isUnsigned (c :: ds) = true := by
        revert h
        split
        · simp_all
        · exact id
      by_contra hdigit
      simp [isUnsigned, hdigit] at hunsigned

theorem skip_cons {c : Char} (h : isSpace c = false) (cs : List Char) :
    skip (c :: cs) = c :: cs := by
  simp [skip, h]

theorem takeWhile_append_of_ends {cs rest : List Char} (h : cs.all isNumberChar = true)
    (hrest : Ends rest) :
    (cs ++ rest).takeWhile isNumberChar = cs ∧ (cs ++ rest).dropWhile isNumberChar = rest := by
  rw [List.all_eq_true] at h
  rw [List.takeWhile_append_of_pos h, List.dropWhile_append_of_pos h]
  cases rest with
  | nil => simp
  | cons c rest =>
    have hc := hrest c rfl
    simp [hc]

theorem parseValue_literal {cs rest : List Char} (h : isLiteral cs = true) (hrest : Ends rest)
    (n : ℕ) : parseValue numbers (n + 1) (cs ++ rest) = some (.number (numbers.read cs), rest) := by
  obtain ⟨c, ds, rfl, hc⟩ := literal_head h
  have hall : (c :: ds).all isNumberChar = true := by
    unfold isLiteral at h
    rw [Bool.and_eq_true] at h
    exact h.1
  obtain ⟨htake, hdrop⟩ := takeWhile_append_of_ends hall hrest
  have hne : ∀ d, isDigit d = false → d ≠ '-' → c ≠ d := by
    intro d hdigit hminus hcd
    subst hcd
    rcases hc with hc | hc
    · exact absurd hc (by rw [hdigit]; decide)
    · exact hminus hc
  have hspace : isSpace c = false := by
    simp [isSpace, hne ' ' rfl (by decide), hne '\t' rfl (by decide), hne '\n' rfl (by decide),
      hne '\r' rfl (by decide)]
  rw [parseValue, List.cons_append, skip_cons hspace]
  split <;> rename_i heq
  · exact absurd (List.cons.inj heq).1 (hne 'n' rfl (by decide))
  · exact absurd (List.cons.inj heq).1 (hne 't' rfl (by decide))
  · exact absurd (List.cons.inj heq).1 (hne 'f' rfl (by decide))
  · exact absurd (List.cons.inj heq).1 (hne '"' rfl (by decide))
  · exact absurd (List.cons.inj heq).1 (hne '[' rfl (by decide))
  · exact absurd (List.cons.inj heq).1 (hne '\x7b' rfl (by decide))
  · rw [← List.cons_append, htake, hdrop, if_pos h]

/-- A written value begins with a token, which closes no array. -/
theorem chars_head (v : Value ν) :
    ∃ c cs, v.chars numbers = c :: cs ∧ isSpace c = false ∧ c ≠ ']' := by
  cases v with
  | null => exact ⟨_, _, rfl, rfl, by decide⟩
  | bool b => cases b <;> exact ⟨_, _, rfl, rfl, by decide⟩
  | number n =>
    cases hn : numbers.write n with
    | none => exact ⟨_, _, by simp only [chars, hn]; rfl, rfl, by decide⟩
    | some cs =>
      obtain ⟨c, ds, rfl, hc⟩ := literal_head (numbers.isLiteral_write n cs hn)
      refine ⟨c, ds, by simp only [chars, hn]; rfl, ?_, ?_⟩
      · rcases hc with hc | rfl
        · obtain ⟨hlow, hhigh⟩ := isDigit_bounds hc
          have hspace : ∀ d : Char, d.toNat < 48 → c ≠ d := by
            rintro d hd rfl
            omega
          simp [isSpace, hspace ' ' (by decide), hspace '\t' (by decide),
            hspace '\n' (by decide), hspace '\r' (by decide)]
        · rfl
      · rintro rfl
        rcases hc with hc | hc <;> exact absurd hc (by decide)
  | string s => exact ⟨_, _, rfl, rfl, by decide⟩
  | array items =>
    cases items with
    | nil => exact ⟨_, _, rfl, rfl, by decide⟩
    | cons item items => exact ⟨_, _, rfl, rfl, by decide⟩
  | object fields =>
    cases fields with
    | nil => exact ⟨_, _, rfl, rfl, by decide⟩
    | cons field fields => exact ⟨_, _, rfl, rfl, by decide⟩

theorem itemsChars_ends (items : List (Value ν)) (rest : List Char) :
    Ends (itemsChars numbers items ++ rest) := by
  cases items <;> simp [itemsChars, Ends, isNumberChar, isDigit]

theorem fieldsChars_ends (fields : List (Units × Value ν)) (rest : List Char) :
    Ends (fieldsChars numbers fields ++ rest) := by
  cases fields with
  | nil => simp [fieldsChars, Ends, isNumberChar, isDigit]
  | cons field fields => simp [fieldsChars, Ends, isNumberChar, isDigit]

mutual

theorem parseValue_chars (v : Value ν) (n : ℕ) (rest : List Char)
    (hn : 2 * (v.chars numbers).length ≤ n) (hrest : Ends rest) :
    parseValue numbers n (v.chars numbers ++ rest) = some (v.reread numbers, rest) := by
  have hpos : n ≠ 0 := by
    obtain ⟨c, cs, hcs, -, -⟩ := chars_head numbers v
    simp only [hcs, List.length_cons] at hn
    omega
  match n, v with
  | 0, _ => exact absurd rfl hpos
  | n + 1, .null => rfl
  | n + 1, .bool true => rfl
  | n + 1, .bool false => rfl
  | n + 1, .number x =>
    cases hx : numbers.write x with
    | none =>
      simp only [chars, reread, hx]
      rfl
    | some cs =>
      simp only [chars, reread, hx, Option.getD_some]
      exact parseValue_literal numbers (numbers.isLiteral_write x cs hx) hrest n
  | n + 1, .string s =>
    rw [chars, quote, List.cons_append, List.cons_append, List.append_assoc, parseValue,
      skip_cons rfl]
    simp only [List.singleton_append, parseString_stringChars, Option.map_some]
    rfl
  | n + 1, .array [] => rfl
  | n + 1, .array (item :: items) =>
    simp only [chars, List.cons_append, List.append_assoc, List.length_cons, List.length_append]
      at hn ⊢
    have hitems := parseItems_chars item items n rest (by omega)
    obtain ⟨c, cs, hcs, hspace, hclose⟩ := chars_head numbers item
    rw [hcs, List.cons_append] at hitems ⊢
    rw [parseValue, skip_cons rfl]
    simp only [skip_cons hspace]
    split
    · rename_i heq
      exact absurd (List.cons.inj heq).1 hclose
    · rw [hitems]
      rfl
  | n + 1, .object [] => rfl
  | n + 1, .object ((key, value) :: fields) =>
    simp only [chars, List.cons_append, List.append_assoc, List.length_cons, List.length_append]
      at hn ⊢
    have hmembers := parseMembers_chars key value fields n rest (by omega)
    rw [quote, List.cons_append, List.cons_append] at hmembers ⊢
    rw [parseValue, skip_cons rfl]
    simp only [skip_cons (show isSpace '"' = false from rfl)]
    split
    · rename_i heq
      exact absurd (List.cons.inj heq).1 (by decide)
    · rw [hmembers]
      rfl

theorem parseItems_chars (item : Value ν) (items : List (Value ν)) (n : ℕ) (rest : List Char)
    (hn : 2 * ((item.chars numbers).length + (itemsChars numbers items).length) + 1 ≤ n) :
    parseItems numbers n (item.chars numbers ++ (itemsChars numbers items ++ rest)) =
      some (item.reread numbers :: rereadItems numbers items, rest) := by
  match n with
  | 0 => omega
  | n + 1 =>
    have hitem := parseValue_chars item n (itemsChars numbers items ++ rest) (by omega)
      (itemsChars_ends numbers items rest)
    rw [parseItems, hitem]
    match items with
    | [] => rfl
    | next :: items =>
      simp only [itemsChars, List.cons_append, List.append_assoc, List.length_cons,
        List.length_append] at hn ⊢
      have hitems := parseItems_chars next items n rest (by omega)
      simp only [Option.bind_eq_bind, Option.bind_some, skip_cons (show isSpace ',' = false from rfl),
        hitems]
      rfl

theorem parseMembers_chars (key : Units) (value : Value ν) (fields : List (Units × Value ν))
    (n : ℕ) (rest : List Char)
    (hn : 2 * ((value.chars numbers).length + (fieldsChars numbers fields).length) + 1 ≤ n) :
    parseMembers numbers n
        (quote key ++ (':' :: (value.chars numbers ++ (fieldsChars numbers fields ++ rest)))) =
      some ((key, value.reread numbers) :: rereadFields numbers fields, rest) := by
  match n with
  | 0 => omega
  | n + 1 =>
    have hvalue := parseValue_chars value n (fieldsChars numbers fields ++ rest) (by omega)
      (fieldsChars_ends numbers fields rest)
    rw [parseMembers, quote, List.cons_append, List.cons_append, List.append_assoc, skip_cons rfl]
    simp only [List.singleton_append, parseString_stringChars, Option.bind_eq_bind, Option.bind_some,
      skip_cons (show isSpace ':' = false from rfl), hvalue]
    match fields with
    | [] => rfl
    | (next, nextValue) :: fields =>
      simp only [fieldsChars, List.cons_append, List.append_assoc, List.length_cons,
        List.length_append] at hn ⊢
      have hfields := parseMembers_chars next nextValue fields n rest (by omega)
      simp only [skip_cons (show isSpace ',' = false from rfl), hfields]
      rfl

end

theorem parse_stringify (v : Value ν) :
    parse numbers (v.stringify numbers) = some (v.reread numbers) := by
  have hends : Ends [] := by simp [Ends]
  have hparse := parseValue_chars numbers v (2 * (v.chars numbers).length + 1) []
    (by omega) hends
  rw [List.append_nil] at hparse
  unfold parse stringify
  rw [String.length_ofList, String.toList_ofList, hparse]
  rfl

/-- Equal texts are read as equal values. -/
theorem reread_congr {v w : Value ν} (h : v.stringify numbers = w.stringify numbers) :
    v.reread numbers = w.reread numbers := by
  have hparse := parse_stringify numbers v
  rw [h, parse_stringify, Option.some.injEq] at hparse
  exact hparse.symm

theorem rereadFields_eq (fields : List (Units × Value ν)) :
    rereadFields numbers fields = fields.map (Prod.map id (reread numbers)) := by
  induction fields with
  | nil => rfl
  | cons field fields ih => exact congrArg _ ih

end Reread

section Members

variable {α β : Type}

instance : Std.Total (IndexLe (α := α)) := ⟨fun _ _ => Nat.le_total _ _⟩

instance : IsTrans (Units × α) IndexLe := ⟨fun _ _ _ => Nat.le_trans⟩

theorem setField_map (f : α → β) (fields : List (Units × α)) (key : Units) (value : α) :
    setField (fields.map (Prod.map id f)) key (f value) =
      (setField fields key value).map (Prod.map id f) := by
  unfold setField
  rw [List.any_map]
  split_ifs with h1 h2 h2
  · rw [List.map_map, List.map_map]
    apply List.map_congr_left
    intro field _
    by_cases hkey : field.1 = key <;> simp [hkey]
  · exact absurd h1 h2
  · exact absurd h2 h1
  · simp

theorem orderFields_map (f : α → β) (fields : List (Units × α)) :
    orderFields (fields.map (Prod.map id f)) = (orderFields fields).map (Prod.map id f) := by
  unfold orderFields
  rw [List.filter_map, List.filter_map, List.map_append]
  congr 1
  symm
  apply List.map_insertionSort
  intro a _ b _
  rfl

/-- The values of the members do not matter to their order. -/
theorem ofMembers_map (f : α → β) (members : List (Units × α)) :
    ofMembers (members.map (Prod.map id f)) = (ofMembers members).map (Prod.map id f) := by
  have hfold : ∀ fields : List (Units × α), (members.map (Prod.map id f)).foldl
      (fun fields member => setField fields member.1 member.2) (fields.map (Prod.map id f)) =
        (members.foldl (fun fields member => setField fields member.1 member.2) fields).map
          (Prod.map id f) := by
    induction members with
    | nil => intro fields; rfl
    | cons member members ih =>
      intro fields
      simp only [List.map_cons, List.foldl_cons, Prod.map_fst, Prod.map_snd, id_eq, setField_map]
      exact ih _
  unfold ofMembers
  rw [← orderFields_map]
  exact congrArg orderFields (hfold [])

theorem setField_keys (fields : List (Units × α)) (key : Units) (value : α)
    (h : (fields.map Prod.fst).Nodup) : ((setField fields key value).map Prod.fst).Nodup := by
  unfold setField
  split_ifs with hany
  · rw [List.map_map]
    have hkeys : fields.map (Prod.fst ∘ fun field =>
        if field.1 = key then (key, value) else field) = fields.map Prod.fst := by
      apply List.map_congr_left
      intro field _
      by_cases hkey : field.1 = key <;> simp [hkey]
    rwa [hkeys]
  · rw [List.map_append, List.nodup_append]
    refine ⟨h, by simp, ?_⟩
    intro k hk other hother
    obtain ⟨field, hfield, rfl⟩ := List.mem_map.mp hk
    simp only [List.any_eq_true, decide_eq_true_eq, not_exists, not_and] at hany
    rw [List.mem_map] at hother
    obtain ⟨last, hlast, rfl⟩ := hother
    rw [List.mem_singleton] at hlast
    rw [hlast]
    exact hany field hfield

theorem orderFields_perm (fields : List (Units × α)) : (orderFields fields).Perm fields := by
  have hsort := List.perm_insertionSort IndexLe
    (fields.filter fun field => (indexValue field.1).isSome)
  have hnone : (fun field : Units × α => (indexValue field.1).isNone) =
      fun field => !(indexValue field.1).isSome := by
    funext field
    cases indexValue field.1 <;> rfl
  unfold orderFields
  rw [hnone]
  exact (hsort.append_right _).trans (List.filter_append_perm _ fields)

theorem ofMembers_keys (members : List (Units × α)) :
    ((ofMembers members).map Prod.fst).Nodup := by
  have hfold : ∀ fields : List (Units × α), (fields.map Prod.fst).Nodup →
      ((members.foldl (fun fields member => setField fields member.1 member.2) fields).map
        Prod.fst).Nodup := by
    induction members with
    | nil => intro fields h; exact h
    | cons member members ih =>
      intro fields h
      exact ih _ (setField_keys fields member.1 member.2 h)
  exact ((orderFields_perm _).map _).nodup_iff.mpr (hfold [] List.nodup_nil)

theorem orderFields_orderFields (fields : List (Units × α)) :
    orderFields (orderFields fields) = orderFields fields := by
  have hsorted := (List.pairwise_insertionSort IndexLe
    (fields.filter fun field => (indexValue field.1).isSome)).insertionSort_eq
  set indices := (fields.filter fun field => (indexValue field.1).isSome).insertionSort IndexLe
    with hindices
  set others := fields.filter fun field => (indexValue field.1).isNone with hothers
  have hindex : ∀ field ∈ indices, (indexValue field.1).isSome = true := by
    intro field hfield
    exact (List.mem_filter.mp ((List.mem_insertionSort IndexLe).mp hfield)).2
  have hother : ∀ field ∈ others, (indexValue field.1).isNone = true := by
    intro field hfield
    exact (List.mem_filter.mp hfield).2
  have hfields : orderFields fields = indices ++ others := rfl
  rw [hfields, orderFields, List.filter_append, List.filter_append,
    List.filter_eq_self.mpr hindex, List.filter_eq_self.mpr hother,
    List.filter_eq_nil_iff.mpr (fun field hfield => by
      simp [Option.isNone_iff_eq_none.mp (hother field hfield)]),
    List.filter_eq_nil_iff.mpr (fun field hfield => by
      simp [Option.isSome_iff_ne_none.mp (hindex field hfield)]),
    List.append_nil, List.nil_append, hsorted]

theorem setField_ne_nil (fields : List (Units × α)) (key : Units) (value : α) :
    setField fields key value ≠ [] := by
  unfold setField
  split_ifs with hany
  · obtain ⟨field, hfield, -⟩ := List.any_eq_true.mp hany
    intro hnil
    rw [List.map_eq_nil_iff] at hnil
    rw [hnil] at hfield
    cases hfield
  · simp

theorem ofMembers_ne_nil {members : List (Units × α)} (h : members ≠ []) :
    ofMembers members ≠ [] := by
  intro hnil
  have hperm := orderFields_perm
    (members.foldl (fun fields member => setField fields member.1 member.2) [])
  rw [show orderFields _ = [] from hnil, List.nil_perm] at hperm
  rcases List.eq_nil_or_concat members with rfl | ⟨init, last, rfl⟩
  · exact h rfl
  · rw [List.concat_eq_append, List.foldl_append] at hperm
    exact setField_ne_nil _ _ _ hperm

/-- Members with keys of their own are set one after another. -/
theorem setFields_of_nodup (rest fields : List (Units × α))
    (h : ((fields ++ rest).map Prod.fst).Nodup) :
    rest.foldl (fun fields member => setField fields member.1 member.2) fields =
      fields ++ rest := by
  induction rest generalizing fields with
  | nil => simp
  | cons member rest ih =>
    have hset : setField fields member.1 member.2 = fields ++ [member] := by
      apply if_neg
      intro hany
      obtain ⟨field, hfield, hkey⟩ := List.any_eq_true.mp hany
      rw [List.map_append, List.nodup_append] at h
      exact h.2.2 field.1 (List.mem_map_of_mem hfield) member.1 (by simp) (of_decide_eq_true hkey)
    rw [List.foldl_cons, hset, ih _ (by simpa using h)]
    simp

/-- An object that is written is read with its members as they stand. -/
theorem ofMembers_ofMembers (members : List (Units × α)) :
    ofMembers (ofMembers members) = ofMembers members := by
  have hself := setFields_of_nodup (ofMembers members) [] (ofMembers_keys members)
  rw [List.nil_append] at hself
  calc ofMembers (ofMembers members) = orderFields (ofMembers members) := by
        rw [ofMembers, hself]
    _ = ofMembers members := orderFields_orderFields _

/-- The members of an object with names that differ and are no array indices, as they are. -/
theorem ofMembers_of_names {members : List (Units × α)} (hnodup : (members.map Prod.fst).Nodup)
    (hnames : ∀ member ∈ members, indexValue member.1 = none) : ofMembers members = members := by
  have hset := setFields_of_nodup members [] hnodup
  rw [List.nil_append] at hset
  have hindices : (members.filter fun member => (indexValue member.1).isSome) = [] := by
    apply List.filter_eq_nil_iff.mpr
    intro member hmember
    simp [hnames member hmember]
  have hrest : (members.filter fun member => (indexValue member.1).isNone) = members := by
    apply List.filter_eq_self.mpr
    intro member hmember
    simp [hnames member hmember]
  rw [ofMembers, hset, orderFields, hindices, hrest]
  rfl

/-- Members with distinct keys are found in an object as they stand in the text. -/
theorem find?_ofMembers {members : List (Units × α)} (h : (members.map Prod.fst).Nodup)
    (key : Units) :
    (ofMembers members).find? (fun member => member.1 = key) =
      members.find? fun member => member.1 = key := by
  have hperm : (ofMembers members).Perm members := by
    unfold ofMembers
    rw [setFields_of_nodup members [] h, List.nil_append]
    exact orderFields_perm members
  have hkeys := (hperm.map Prod.fst).nodup_iff.mpr h
  have hmem : ∀ {fields : List (Units × α)}, (fields.map Prod.fst).Nodup → ∀ field,
      fields.find? (fun member => member.1 = key) = some field ↔ field ∈ fields ∧ field.1 = key := by
    intro fields hnodup field
    constructor
    · intro hfind
      exact ⟨List.mem_of_find?_eq_some hfind, by simpa using List.find?_some hfind⟩
    · rintro ⟨hfield, rfl⟩
      cases hfind : fields.find? (fun member => member.1 = field.1) with
      | none => exact absurd (List.find?_eq_none.mp hfind field hfield) (by simp)
      | some other =>
        have hother := List.find?_some hfind
        rw [decide_eq_true_eq] at hother
        rw [List.inj_on_of_nodup_map hnodup (List.mem_of_find?_eq_some hfind) hfield hother]
  apply Option.ext
  intro field
  rw [hmem hkeys, hmem h, hperm.mem_iff]

end Members

section Normal

variable {ν : Type} (numbers : Numbers ν)

mutual

theorem reread_reread (v : Value ν) :
    (v.reread numbers).reread numbers = v.reread numbers := by
  match v with
  | .null => rfl
  | .bool b => rfl
  | .number n =>
    cases hn : numbers.write n with
    | none => simp [reread, hn]
    | some cs => simp [reread, hn, numbers.write_read n cs hn]
  | .string s => rfl
  | .array items => simp only [reread, rereadItems_rereadItems items]
  | .object fields =>
    simp only [reread, rereadFields_eq, ofMembers_map, ofMembers_ofMembers]
    rw [← ofMembers_map, ← ofMembers_map, ← rereadFields_eq, ← rereadFields_eq,
      rereadFields_rereadFields fields]

theorem rereadItems_rereadItems (items : List (Value ν)) :
    rereadItems numbers (rereadItems numbers items) = rereadItems numbers items := by
  match items with
  | [] => rfl
  | item :: items =>
    simp only [rereadItems, reread_reread item, rereadItems_rereadItems items]

theorem rereadFields_rereadFields (fields : List (Units × Value ν)) :
    rereadFields numbers (rereadFields numbers fields) = rereadFields numbers fields := by
  match fields with
  | [] => rfl
  | (key, value) :: fields =>
    simp only [rereadFields, reread_reread value, rereadFields_rereadFields fields]

end

mutual

/-- A value with each number written and read again, and all else as it is. -/
def renumber : Value ν → Value ν
  | .null => .null
  | .bool b => .bool b
  | .number n =>
    match numbers.write n with
    | some cs => .number (numbers.read cs)
    | none => .null
  | .string s => .string s
  | .array items => .array (renumberItems items)
  | .object fields => .object (renumberFields fields)

def renumberItems : List (Value ν) → List (Value ν)
  | [] => []
  | item :: items => renumber item :: renumberItems items

def renumberFields : List (Units × Value ν) → List (Units × Value ν)
  | [] => []
  | (key, value) :: fields => (key, renumber value) :: renumberFields fields

end

theorem renumberFields_eq (fields : List (Units × Value ν)) :
    renumberFields numbers fields = fields.map (Prod.map id (renumber numbers)) := by
  induction fields with
  | nil => rfl
  | cons field fields ih => exact congrArg _ ih

/-- A part of a value with no parts of its own. -/
def IsLeaf : Value ν → Prop
  | .array _ | .object _ => False
  | .null | .bool _ | .number _ | .string _ => True

/-- Induction over what is read from a text. -/
theorem parse_induct {P : Value ν → Prop} (hleaf : ∀ v : Value ν, v.IsLeaf → P v)
    (harray : ∀ items : List (Value ν), (∀ item ∈ items, P item) → P (.array items))
    (hobject : ∀ members : List (Units × Value ν), (∀ member ∈ members, P member.2) →
      P (.object (ofMembers members))) (n : ℕ) :
    (∀ cs v rest, parseValue numbers n cs = some (v, rest) → P v) ∧
    (∀ cs items rest, parseItems numbers n cs = some (items, rest) → ∀ item ∈ items, P item) ∧
    (∀ cs members rest, parseMembers numbers n cs = some (members, rest) →
      ∀ member ∈ members, P member.2) := by
  induction n with
  | zero =>
    refine ⟨?_, ?_, ?_⟩
    · intro cs v rest h
      cases h
    · intro cs items rest h
      cases h
    · intro cs members rest h
      cases h
  | succ n ih =>
    obtain ⟨hvalue, hitems, hmembers⟩ := ih
    refine ⟨?_, ?_, ?_⟩
    · intro cs v rest h
      rw [parseValue] at h
      split at h
      · cases h
        exact hleaf _ trivial
      · cases h
        exact hleaf _ trivial
      · cases h
        exact hleaf _ trivial
      · obtain ⟨s, -, heq⟩ := Option.map_eq_some_iff.mp h
        cases heq
        exact hleaf _ trivial
      · split at h
        · cases h
          exact harray [] (by simp)
        · obtain ⟨⟨items, tail⟩, hparse, heq⟩ := Option.map_eq_some_iff.mp h
          cases heq
          exact harray items (hitems _ _ _ hparse)
      · split at h
        · cases h
          exact hobject [] (by simp)
        · obtain ⟨⟨members, tail⟩, hparse, heq⟩ := Option.map_eq_some_iff.mp h
          cases heq
          exact hobject members (hmembers _ _ _ hparse)
      · dsimp only at h
        split_ifs at h
        cases h
        exact hleaf _ trivial
    · intro cs items rest h
      rw [parseItems, Option.bind_eq_bind, Option.bind_eq_some_iff] at h
      obtain ⟨⟨item, tail⟩, hitem, h⟩ := h
      dsimp only at h
      split at h
      · obtain ⟨⟨others, last⟩, hothers, heq⟩ := Option.bind_eq_some_iff.mp h
        cases heq
        exact List.forall_mem_cons.mpr ⟨hvalue _ _ _ hitem, hitems _ _ _ hothers⟩
      · cases h
        exact List.forall_mem_singleton.mpr (hvalue _ _ _ hitem)
      · cases h
    · intro cs members rest h
      rw [parseMembers] at h
      split at h
      · obtain ⟨⟨key, tail⟩, -, h⟩ := Option.bind_eq_some_iff.mp h
        dsimp only at h
        split at h
        · obtain ⟨⟨value, tail⟩, hfield, h⟩ := Option.bind_eq_some_iff.mp h
          dsimp only at h
          split at h
          · obtain ⟨⟨others, last⟩, hothers, heq⟩ := Option.bind_eq_some_iff.mp h
            cases heq
            exact List.forall_mem_cons.mpr ⟨hvalue _ _ _ hfield, hmembers _ _ _ hothers⟩
          · cases h
            exact List.forall_mem_singleton.mpr (hvalue _ _ _ hfield)
          · cases h
        · cases h
      · cases h

theorem of_parse {P : Value ν → Prop} (hleaf : ∀ v : Value ν, v.IsLeaf → P v)
    (harray : ∀ items : List (Value ν), (∀ item ∈ items, P item) → P (.array items))
    (hobject : ∀ members : List (Units × Value ν), (∀ member ∈ members, P member.2) →
      P (.object (ofMembers members))) {text : String} {v : Value ν}
    (h : parse numbers text = some v) : P v := by
  obtain ⟨⟨w, rest⟩, hparse, h⟩ := Option.bind_eq_some_iff.mp h
  dsimp only at h
  split_ifs at h
  cases h
  exact (parse_induct numbers hleaf harray hobject _).1 _ _ _ hparse

theorem rereadItems_eq (items : List (Value ν)) :
    rereadItems numbers items = items.map (reread numbers) := by
  induction items with
  | nil => rfl
  | cons item items ih => exact congrArg _ ih

theorem renumberItems_eq (items : List (Value ν)) :
    renumberItems numbers items = items.map (renumber numbers) := by
  induction items with
  | nil => rfl
  | cons item items ih => exact congrArg _ ih

/-- What is read from a text is read again as the same value, but for its numbers: the objects
of a value that was read have each key once, and in order. -/
theorem reread_parse {text : String} {v : Value ν} (h : parse numbers text = some v) :
    v.reread numbers = v.renumber numbers := by
  apply of_parse numbers ?_ ?_ ?_ h
  · intro v hv
    cases v with
    | null | bool b | number n | string s => rfl
    | array items | object fields => exact hv.elim
  · intro items ih
    simp only [reread, renumber, rereadItems_eq, renumberItems_eq]
    rw [List.map_congr_left ih]
  · intro members ih
    have hsame : members.map (Prod.map id (reread numbers)) =
        members.map (Prod.map id (renumber numbers)) :=
      List.map_congr_left fun member hmember => Prod.ext rfl (ih member hmember)
    simp only [reread, renumber, rereadFields_eq, renumberFields_eq]
    rw [ofMembers_map, ofMembers_ofMembers, ← ofMembers_map, hsame, ofMembers_map]

end Normal

end Value
end Js
