import Pivotal.Format.Quoted
import Pivotal.Js.Map
import Pivotal.Js.Split

/-! The client certificate that a terminating proxy describes in a header: entries parted by commas,
pairs of an entry parted by semicolons, values in quotation marks where they hold either. -/
namespace Fspiop
open Js Format

structure Xfcc where
  hash : String
  subject : Option String
  byIdentity : Option String
  deriving DecidableEq

namespace Xfcc

def marks : Quoted.Marks Char := ⟨'"', '\\', by decide⟩

/-- Outside quotation marks, before the first character. -/
def start : Quoted.State Char := ⟨false, none⟩

/-- `/^[0-9a-f]{64}$/i`. -/
def isFingerprint (hash : String) : Bool :=
  hash.length = 64 && hash.toList.all fun c =>
    isDigit c || ('a' ≤ c && c ≤ 'f') || ('A' ≤ c && c ≤ 'F')

def firstEntry (header : List Char) : List Char :=
  trimChars (Quoted.beforeSeparator marks ',' start header)

def unquote (value : List Char) : List Char :=
  if 2 ≤ value.length ∧ value.head? = some '"' ∧ value.getLast? = some '"' then
    Quoted.unescape marks value.tail.dropLast
  else value

/-- The first pair of a key with a value stays. -/
def take (pairs : Map String String) (segment : List Char) : Map String String :=
  match segment.idxOf? '=' with
  | none | some 0 => pairs
  | some separator =>
    let key := toLowerCase (String.ofList (trimChars (segment.take separator)))
    let value := String.ofList (unquote (trimChars (segment.drop (separator + 1))))
    if value ≠ "" ∧ pairs.get key = none then pairs.set key value else pairs

def splitPairs (entry : List Char) : Map String String :=
  (Quoted.segments marks ';' start entry).foldl take Map.empty

def parse (header : Option String) : Option Xfcc :=
  match header with
  | none => none
  | some header =>
    let entry := firstEntry header.toList
    if entry = [] then none
    else
      let pairs := splitPairs entry
      match pairs.get "hash" with
      | none => none
      | some hash =>
        if isFingerprint hash then
          some ⟨toLowerCase hash, pairs.get "subject", pairs.get "by"⟩
        else none

/-! What a proxy writes. -/

/-- What the proxy says of one certificate. -/
structure Entry where
  byIdentity : String
  hash : String
  subject : String
  uri : String

def Entry.fields (entry : Entry) : List (String × String) :=
  [("By", entry.byIdentity), ("Hash", entry.hash), ("Subject", entry.subject), ("URI", entry.uri)]

/-- Whether a value is written in quotation marks. -/
def isQuoted (value : String) : Bool := value.toList.any fun c => c ∈ [',', ';', '=', '"']

def renderValue (value : String) : List Char :=
  if isQuoted value then '"' :: (Quoted.escape marks value.toList ++ ['"']) else value.toList

def renderField (field : String × String) : List Char := field.1.toList ++ '=' :: renderValue field.2

def renderEntry (fields : List (String × String)) : List Char := join ';' (fields.map renderField)

def renderHeader (entries : List (List (String × String))) : String :=
  String.ofList (join ',' (entries.map renderEntry))

/-- A value as it is read: white space around one that is not quoted is no part of it. -/
def readValue (value : String) : String := if isQuoted value then value else trim value

/-- Nothing is read of an empty value. -/
def readOptional (value : String) : Option String :=
  if readValue value = "" then none else some (readValue value)

/-- The characters of a key: none that parts anything, and no white space. -/
def IsKey (key : List Char) : Prop :=
  key ≠ [] ∧ ∀ c ∈ key, c ∉ [',', ';', '=', '"'] ∧ isWhiteSpace c = false

theorem isKey_of_all {key : List Char} (hne : key ≠ [])
    (h : (key.all fun c => c ∉ [',', ';', '=', '"'] && !isWhiteSpace c) = true) : IsKey key := by
  refine ⟨hne, fun c hc => ?_⟩
  simpa using List.all_eq_true.mp h c hc

theorem isKey_fields {entry : Entry} {field : String × String} (h : field ∈ entry.fields) :
    IsKey field.1.toList := by
  have hkey : field.1 ∈ ["By", "Hash", "Subject", "URI"] := by
    have hmem := List.mem_map_of_mem (f := Prod.fst) h
    exact hmem
  simp only [List.mem_cons, List.not_mem_nil, or_false] at hkey
  obtain hkey | hkey | hkey | hkey := hkey <;> rw [hkey] <;>
    exact isKey_of_all (by decide) (by decide)

/-- No value that is quoted ends with the escape. -/
def Closes (value : String) : Prop := isQuoted value = true → value.toList.getLast? ≠ some '\\'

instance (value : String) : Decidable (Closes value) :=
  inferInstanceAs (Decidable (_ → _))

/-- A text after the `=` of a pair that is read as a value. -/
structure ReadsAs (text : List Char) (value : String) : Prop where
  closed : ∀ sep ∈ [',', ';'], Quoted.Closed marks sep (some '=') text
  read : String.ofList (unquote (trimChars text)) = value

theorem readsAs_quoted {value : String} (hquoted : isQuoted value = true) (h : Closes value) :
    ReadsAs (renderValue value) (readValue value) := by
  have hrender : renderValue value = '"' :: (Quoted.escape marks value.toList ++ ['"']) :=
    if_pos hquoted
  have htrim : trimChars (renderValue value) = renderValue value := by
    rw [hrender, trimChars, trimStart_cons (by decide), ← List.cons_append]
    exact trimEnd_append_cons (by decide) _ []
  refine ⟨?_, ?_⟩
  · intro sep hsep
    rw [hrender]
    refine Quoted.closed_quoted marks ?_ (by decide) (h hquoted)
    rintro rfl
    exact absurd hsep (by decide)
  · rw [htrim, readValue, if_pos hquoted, hrender, unquote, if_pos ?_]
    · rw [List.tail_cons, List.dropLast_concat, Quoted.unescape_escape, String.ofList_toList]
    · exact ⟨by simp, rfl, by rw [← List.cons_append, List.getLast?_concat]⟩

/-- White space at the end of a value that is not quoted does not tell. -/
theorem readsAs_plain {value : String} (hquoted : isQuoted value = false) {text : List Char}
    (htext : text <+: value.toList) (htrim : trimChars text = trimChars value.toList) :
    ReadsAs text (readValue value) := by
  have hplain : ∀ c ∈ text, c ∉ [',', ';', '=', '"'] := by
    intro c hc hmark
    have hany : isQuoted value = true :=
      List.any_eq_true.mpr ⟨c, htext.subset hc, decide_eq_true hmark⟩
    exact absurd (hany.symm.trans hquoted) (by decide)
  refine ⟨?_, ?_⟩
  · intro sep hsep
    refine Quoted.closed_of_plain marks (fun hquote => hplain _ hquote (by decide)) ?_ _
    intro hmem
    refine hplain sep hmem ?_
    simp only [List.mem_cons, List.not_mem_nil, or_false] at hsep
    obtain rfl | rfl := hsep <;> decide
  · have hunquote : unquote (trimChars text) = trimChars text := by
      refine if_neg ?_
      rintro ⟨-, hhead, -⟩
      have hmem := List.mem_of_head? hhead
      have hmem' : '"' ∈ trimStart text := (List.rdropWhile_prefix _ _).subset hmem
      exact hplain '"' ((List.dropWhile_suffix _).subset hmem') (by decide)
    rw [hunquote, htrim, readValue, hquoted]
    rfl

theorem readsAs_renderValue {value : String} (h : Closes value) :
    ReadsAs (renderValue value) (readValue value) ∧
      ReadsAs (trimEnd (renderValue value)) (readValue value) := by
  cases hquoted : isQuoted value with
  | true =>
    have hread := readsAs_quoted hquoted h
    have hend : trimEnd (renderValue value) = renderValue value := by
      rw [renderValue, if_pos hquoted, ← List.cons_append]
      exact trimEnd_append_cons (by decide) _ []
    exact ⟨hread, hend.symm ▸ hread⟩
  | false =>
    have hrender : renderValue value = value.toList := if_neg (by simp [hquoted])
    rw [hrender]
    exact ⟨readsAs_plain hquoted List.prefix_rfl rfl,
      readsAs_plain hquoted (List.rdropWhile_prefix _ _) (trimChars_trimEnd _)⟩

/-- A text that is read as a field: its key, and after the `=` what is read as its value. -/
def Written (text : List Char) (field : String × String) : Prop :=
  IsKey field.1.toList ∧ ∃ value, text = field.1.toList ++ '=' :: value ∧
    ReadsAs value (readValue field.2)

theorem Written.closed {text : List Char} {field : String × String} (h : Written text field)
    {sep : Char} (hsep : sep ∈ [',', ';']) (previous : Option Char) :
    Quoted.Closed marks sep previous text := by
  obtain ⟨⟨-, hkey⟩, value, rfl, hvalue⟩ := h
  have hplain : ∀ c ∈ [',', ';', '=', '"'], c ∉ field.1.toList := fun c hc hmem =>
    (hkey c hmem).1 hc
  have hsep' : sep ∈ [',', ';', '=', '"'] ∧ sep ≠ '=' := by
    simp only [List.mem_cons, List.not_mem_nil, or_false] at hsep
    obtain rfl | rfl := hsep <;> decide
  have hfront : Quoted.Closed marks sep previous (field.1.toList ++ ['=']) := by
    refine Quoted.closed_of_plain marks ?_ ?_ previous
    · rw [List.mem_append, not_or]
      exact ⟨hplain '"' (by decide), by decide⟩
    · rw [List.mem_append, not_or]
      exact ⟨hplain sep hsep'.1, by simpa using hsep'.2⟩
  rw [← List.singleton_append, ← List.append_assoc]
  refine hfront.append marks ?_
  rw [Quoted.run_concat_previous]
  exact hvalue.closed sep hsep

theorem Written.ne_nil {text : List Char} {field : String × String} (h : Written text field) :
    text ≠ [] := by
  obtain ⟨-, value, rfl, -⟩ := h
  simp

theorem join_ne_nil {texts : List (List Char)} {fields : List (String × String)}
    (h : List.Forall₂ Written texts fields) (hne : texts ≠ []) : join ';' texts ≠ [] := by
  cases h with
  | nil => exact absurd rfl hne
  | @cons text field texts fields htext htexts =>
    cases texts with
    | nil => exact htext.ne_nil
    | cons next texts =>
      rw [join_cons text (List.cons_ne_nil _ _)]
      simp

/-- The semicolons between the fields are where an entry is parted. -/
theorem segments_join {texts : List (List Char)} {fields : List (String × String)}
    (h : List.Forall₂ Written texts fields) (hne : texts ≠ []) (previous : Option Char) :
    Quoted.segments marks ';' ⟨false, previous⟩ (join ';' texts) = texts := by
  induction h generalizing previous with
  | nil => exact absurd rfl hne
  | @cons text field texts fields htext htexts ih =>
    have hclosed := htext.closed (by decide : ';' ∈ [',', ';']) previous
    cases texts with
    | nil => exact Quoted.segments_closed_last marks hclosed
    | cons next texts =>
      rw [join_cons text (List.cons_ne_nil _ _),
        Quoted.segments_closed marks (by decide) hclosed, ih (List.cons_ne_nil _ _)]

/-- No comma of an entry parts it from itself. -/
theorem closed_join {texts : List (List Char)} {fields : List (String × String)}
    (h : List.Forall₂ Written texts fields) (previous : Option Char) :
    Quoted.Closed marks ',' previous (join ';' texts) := by
  induction h generalizing previous with
  | nil => exact ⟨trivial, rfl⟩
  | @cons text field texts fields htext htexts ih =>
    have hclosed := htext.closed (by decide : ',' ∈ [',', ';']) previous
    cases texts with
    | nil => exact hclosed
    | cons next texts =>
      have hsemicolon : ∀ last, Quoted.Closed marks ',' last [';'] :=
        Quoted.closed_of_plain marks (by decide) (by decide)
      have hrest := (hclosed.append marks (hsemicolon _)).append marks (ih _)
      rw [List.append_assoc] at hrest
      exact hrest

/-- A pair is set under its key when it has a value and is the first of its key. -/
theorem take_written {text : List Char} {field : String × String} (h : Written text field)
    (pairs : Map String String) :
    take pairs text =
      if readValue field.2 ≠ "" ∧ pairs.get (toLowerCase field.1) = none then
        pairs.set (toLowerCase field.1) (readValue field.2)
      else pairs := by
  obtain ⟨⟨hne, hkey⟩, value, rfl, hvalue⟩ := h
  have hsep : '=' ∉ field.1.toList := fun hmem => (hkey '=' hmem).1 (by decide)
  have hindex : (field.1.toList ++ '=' :: value).idxOf? '=' = some field.1.toList.length := by
    have hnone : field.1.toList.findIdx? (· == '=') = none :=
      List.findIdx?_eq_none_iff.mpr fun c hc => beq_eq_false_iff_ne.mpr fun heq => hsep (heq ▸ hc)
    rw [List.idxOf?, List.findIdx?_append, hnone, List.findIdx?_cons]
    simp
  obtain ⟨n, hn⟩ : ∃ n, field.1.toList.length = n + 1 :=
    Nat.exists_eq_succ_of_ne_zero fun hzero => hne (List.length_eq_zero_iff.mp hzero)
  have htrim : trimChars field.1.toList = field.1.toList :=
    trimChars_of_solid fun c hc => (hkey c hc).2
  have hname : (field.1.toList ++ '=' :: value).take (n + 1) = field.1.toList := by
    rw [← hn, List.take_left]
  have hrest : (field.1.toList ++ '=' :: value).drop (n + 1 + 1) = value := by
    rw [← hn, ← List.drop_drop, List.drop_left]
    rfl
  rw [take, hindex, hn]
  simp only [hname, hrest, htrim, hvalue.read, String.ofList_toList]

/-- What is found under a key is the first value of it that is not empty. -/
theorem get_foldl_take {texts : List (List Char)} {fields : List (String × String)}
    (h : List.Forall₂ Written texts fields) (pairs : Map String String) (key : String) :
    (texts.foldl take pairs).get key = (pairs.get key).or
      ((fields.find? fun field => toLowerCase field.1 = key ∧ readValue field.2 ≠ "").map
        fun field => readValue field.2) := by
  induction h generalizing pairs with
  | nil => simp
  | @cons text field texts fields htext htexts ih =>
    rw [List.foldl_cons, ih, take_written htext, List.find?_cons]
    by_cases hkey : toLowerCase field.1 = key
    · subst hkey
      by_cases hvalue : readValue field.2 = ""
      · simp [hvalue]
      · cases hget : pairs.get (toLowerCase field.1) with
        | none => simp [hvalue]
        | some first => simp [hget]
    · have hget : ∀ value, (pairs.set (toLowerCase field.1) value).get key = pairs.get key := by
        intro value
        rw [Map.get_set, if_neg (Ne.symm hkey)]
      split_ifs
      · simp [hget, hkey]
      · simp [hkey]

/-- What an entry is trimmed to is still a text of its fields. -/
theorem exists_trimEnd {fields : List (String × String)} (hne : fields ≠ [])
    (hkeys : ∀ field ∈ fields, IsKey field.1.toList) (h : ∀ field ∈ fields, Closes field.2) :
    ∃ texts, List.Forall₂ Written texts fields ∧ texts ≠ [] ∧
      trimEnd (renderEntry fields) = join ';' texts := by
  induction fields with
  | nil => exact absurd rfl hne
  | cons field fields ih =>
    obtain ⟨hkey, hkeys⟩ := List.forall_mem_cons.mp hkeys
    obtain ⟨hcloses, hrest⟩ := List.forall_mem_cons.mp h
    obtain ⟨hwritten, htrimmed⟩ := readsAs_renderValue hcloses
    cases fields with
    | nil =>
      refine ⟨[field.1.toList ++ '=' :: trimEnd (renderValue field.2)],
        .cons ⟨hkey, _, rfl, htrimmed⟩ .nil, List.cons_ne_nil _ _, ?_⟩
      exact trimEnd_append_cons (by decide) _ _
    | cons next fields =>
      obtain ⟨texts, htexts, htextsNe, hjoin⟩ := ih (List.cons_ne_nil _ _) hkeys hrest
      refine ⟨renderField field :: texts, .cons ⟨hkey, _, rfl, hwritten⟩ htexts,
        List.cons_ne_nil _ _, ?_⟩
      rw [join_cons _ htextsNe, ← hjoin, ← trimEnd_append_cons (by decide)]
      rfl

/-- An entry as it is written, whatever stands after it in the header. -/
theorem firstEntry_renderHeader {fields : List (String × String)} (hne : fields ≠ [])
    (hkeys : ∀ field ∈ fields, IsKey field.1.toList) (h : ∀ field ∈ fields, Closes field.2)
    (rest : List (List (String × String))) :
    ∃ texts, List.Forall₂ Written texts fields ∧ texts ≠ [] ∧
      firstEntry (renderHeader (fields :: rest)).toList = join ';' texts := by
  obtain ⟨texts, htexts, htextsNe, hjoin⟩ := exists_trimEnd hne hkeys h
  refine ⟨texts, htexts, htextsNe, ?_⟩
  have hwritten : List.Forall₂ Written (fields.map renderField) fields := by
    rw [List.forall₂_map_left_iff, List.forall₂_same]
    exact fun field hfield => ⟨hkeys field hfield, _, rfl, (readsAs_renderValue (h field hfield)).1⟩
  have hclosed := closed_join hwritten none
  have hbefore : Quoted.beforeSeparator marks ',' start (renderHeader (fields :: rest)).toList =
      renderEntry fields := by
    rw [renderHeader, String.toList_ofList]
    cases rest with
    | nil => exact Quoted.beforeSeparator_closed_last marks hclosed
    | cons next rest =>
      rw [List.map_cons, join_cons _ (by simp)]
      exact Quoted.beforeSeparator_closed marks (by decide) hclosed _
  -- The entry begins with a character of a key.
  have hstart : trimStart (renderEntry fields) = renderEntry fields := by
    cases fields with
    | nil => exact absurd rfl hne
    | cons field fields =>
      obtain ⟨hkeyNe, hkey⟩ := hkeys field List.mem_cons_self
      obtain ⟨c, cs, hc⟩ := List.exists_cons_of_ne_nil hkeyNe
      obtain ⟨tail, htail⟩ : ∃ tail, renderEntry (field :: fields) = c :: tail := by
        unfold renderEntry renderField
        cases fields with
        | nil => exact ⟨cs ++ '=' :: renderValue field.2, by simp [join, hc]⟩
        | cons next fields =>
          rw [List.map_cons, join_cons _ (by simp), hc]
          exact ⟨_, rfl⟩
      rw [htail, trimStart_cons (hkey c (hc ▸ List.mem_cons_self)).2]
  rw [firstEntry, hbefore, trimChars, hstart, hjoin]

/-- No two fields of an entry have keys that read alike. -/
theorem find?_fields {entry : Entry} {fields : List (String × String)}
    (hfields : fields.Perm entry.fields) {field : String × String} (hmem : field ∈ entry.fields) :
    ((fields.find? fun other => toLowerCase other.1 = toLowerCase field.1 ∧
      readValue other.2 ≠ "").map fun other => readValue other.2) = readOptional field.2 := by
  have hnames : (entry.fields.map fun field => toLowerCase field.1).Nodup := by
    have hkeys : (["By", "Hash", "Subject", "URI"].map toLowerCase).Nodup := by decide
    exact hkeys
  have hsame : ∀ other ∈ fields, toLowerCase other.1 = toLowerCase field.1 → other = field :=
    fun other hother hname =>
      List.inj_on_of_nodup_map hnames (hfields.mem_iff.mp hother) hmem hname
  cases hfind : fields.find? fun other =>
    toLowerCase other.1 = toLowerCase field.1 ∧ readValue other.2 ≠ "" with
  | none =>
    have hempty := List.find?_eq_none.mp hfind field (hfields.mem_iff.mpr hmem)
    simp only [true_and, ne_eq, decide_not, Bool.not_eq_true', Bool.not_eq_false,
      decide_eq_true_eq] at hempty
    simp [readOptional, hempty]
  | some other =>
    have hother : toLowerCase other.1 = toLowerCase field.1 ∧ readValue other.2 ≠ "" := by
      simpa using List.find?_some hfind
    obtain rfl := hsame other (List.mem_of_find?_eq_some hfind) hother.1
    simp [readOptional, hother.2]

section Replicate
variable {c : Char} {n : ℕ}

theorem isQuoted_replicate (hc : c ∉ [',', ';', '=', '"']) :
    isQuoted (String.ofList (List.replicate n c)) = false := by
  simp only [isQuoted, String.toList_ofList, List.any_replicate, hc, decide_false]
  exact ite_self _

theorem renderValue_replicate (hc : c ∉ [',', ';', '=', '"']) :
    renderValue (String.ofList (List.replicate n c)) = List.replicate n c := by
  rw [renderValue, isQuoted_replicate hc, String.toList_ofList]
  rfl

theorem toLowerCase_replicate :
    toLowerCase (String.ofList (List.replicate n c)) =
      String.ofList (List.replicate n c.toLower) := by
  rw [toLowerCase, String.toList_ofList, List.map_replicate]

theorem isFingerprint_replicate (hc : '0' ≤ c ∧ c ≤ '9' ∨ 'a' ≤ c ∧ c ≤ 'f' ∨ 'A' ≤ c ∧ c ≤ 'F') :
    isFingerprint (String.ofList (List.replicate 64 c)) = true := by
  rw [isFingerprint, String.length_ofList, List.length_replicate, String.toList_ofList,
    List.all_replicate]
  simp [isDigit, hc, or_assoc]

theorem readValue_replicate (hc : c ∉ [',', ';', '=', '"']) (hwhite : isWhiteSpace c = false) :
    readValue (String.ofList (List.replicate n c)) = String.ofList (List.replicate n c) := by
  have htrim : trimChars (List.replicate n c) = List.replicate n c := by
    rw [trimChars, trimStart, List.dropWhile_replicate, hwhite, trimEnd, List.rdropWhile]
    simp [hwhite]
  rw [readValue, isQuoted_replicate hc, trim, String.toList_ofList, htrim]
  rfl

theorem closes_replicate (hc : c ∉ [',', ';', '=', '"']) :
    Closes (String.ofList (List.replicate n c)) := fun hquoted =>
  absurd ((isQuoted_replicate hc).symm.trans hquoted) (by decide)

end Replicate

/-- Whatever the other values of the first entry and all later entries hold, the hash, the subject
and the proxy of the first entry are read; with a hash that is no fingerprint there is no identity.
A quoted value that ends with the escape is left out, for the mark that ends it is then read as one
of the value. -/
theorem parse_renderHeader (entry : Entry) {fields : List (String × String)}
    (hfields : fields.Perm entry.fields) (hcloses : ∀ field ∈ fields, Closes field.2)
    (rest : List (List (String × String))) :
    parse (some (renderHeader (fields :: rest))) =
      if isFingerprint (readValue entry.hash) then
        some ⟨toLowerCase (readValue entry.hash), readOptional entry.subject,
          readOptional entry.byIdentity⟩
      else none := by
  have hne : fields ≠ [] := by
    rintro rfl
    have hlength := hfields.length_eq
    simp [Entry.fields] at hlength
  have hkeys : ∀ field ∈ fields, IsKey field.1.toList := fun field hfield =>
    isKey_fields (hfields.mem_iff.mp hfield)
  obtain ⟨texts, htexts, htextsNe, hentry⟩ := firstEntry_renderHeader hne hkeys hcloses rest
  have hentryNe : join ';' texts ≠ [] := join_ne_nil htexts htextsNe
  have hget : ∀ field ∈ entry.fields, (splitPairs (join ';' texts)).get (toLowerCase field.1) =
      readOptional field.2 := by
    intro field hfield
    rw [splitPairs, start, segments_join htexts htextsNe, get_foldl_take htexts,
      find?_fields hfields hfield]
    rfl
  have hhash := hget ("Hash", entry.hash) (by simp [Entry.fields])
  have hsubject := hget ("Subject", entry.subject) (by simp [Entry.fields])
  have hby := hget ("By", entry.byIdentity) (by simp [Entry.fields])
  have hnames : toLowerCase "Hash" = "hash" ∧ toLowerCase "Subject" = "subject" ∧
      toLowerCase "By" = "by" := by decide
  simp only [hnames] at hhash hsubject hby
  unfold parse
  simp only [hentry, if_neg hentryNe, hhash, hsubject, hby]
  by_cases hempty : readValue entry.hash = ""
  · simp [readOptional, hempty, isFingerprint]
  · simp [readOptional, hempty]

def sampleHash : String := String.ofList (List.replicate 64 'a')

def sampleEntry : Entry := ⟨"spiffe://gateway", sampleHash, "CN=\\\"a\\,\";Hash=b", " x; "⟩

theorem parse_renderHeader_sample :
    parse (some (renderHeader [sampleEntry.fields.reverse, [("Hash", "c\"")]])) =
      some ⟨sampleHash, some "CN=\\\"a\\,\";Hash=b", some "spiffe://gateway"⟩ := by
  have hcloses : ∀ field ∈ sampleEntry.fields.reverse, Closes field.2 := by
    simp only [sampleEntry, Entry.fields, List.mem_reverse, List.forall_mem_cons]
    exact ⟨by decide, closes_replicate (by decide), by decide, by decide, List.forall_mem_nil _⟩
  have hhash : readValue sampleEntry.hash = sampleHash := readValue_replicate (by decide) (by decide)
  have hfingerprint : isFingerprint sampleHash = true := isFingerprint_replicate (by decide)
  have hlower : toLowerCase sampleHash = sampleHash := toLowerCase_replicate
  refine (parse_renderHeader sampleEntry sampleEntry.fields.reverse_perm hcloses
    [[("Hash", "c\"")]]).trans ?_
  rw [hhash, if_pos hfingerprint, hlower]
  exact congrArg some (congrArg₂ (Xfcc.mk sampleHash) (by decide) (by decide))

/-- What an entry says, to the letter. -/
def Entry.exactly (entry : Entry) : Xfcc :=
  ⟨entry.hash, some entry.subject, some entry.byIdentity⟩

def upperEntry : Entry := ⟨"a", String.ofList (List.replicate 64 'A'), "b", "c"⟩

theorem of_parse {header : String} {xfcc : Xfcc} (h : parse (some header) = some xfcc) :
    (∃ hash, (splitPairs (firstEntry header.toList)).get "hash" = some hash ∧
      xfcc.hash = toLowerCase hash) ∧
    (splitPairs (firstEntry header.toList)).get "subject" = xfcc.subject ∧
    (splitPairs (firstEntry header.toList)).get "by" = xfcc.byIdentity := by
  unfold parse at h
  dsimp only at h
  split at h
  · cases h
  · split at h
    · cases h
    · next hash hhash =>
      split at h
      · obtain rfl := Option.some.inj h
        dsimp only
        exact ⟨⟨hash, hhash, rfl⟩, rfl, rfl⟩
      · cases h

theorem toLower_ne_upper (c : Char) : c.toLower ≠ 'A' := by
  intro h
  unfold Char.toLower at h
  split at h
  · next hupper =>
    have hlow : 65 ≤ c.toNat := UInt32.le_iff_toNat_le.mp hupper.1
    have hhigh : c.toNat ≤ 90 := UInt32.le_iff_toNat_le.mp hupper.2
    have hval : (c.val + 32).toNat = 65 := congrArg Char.toNat h
    have hsum : (c.val + 32).toNat = (c.toNat + 32) % 2 ^ 32 := UInt32.toNat_add ..
    omega
  · next hupper =>
    subst h
    exact hupper (by decide)

theorem toList_renderHeader (byIdentity subject : String) :
    (renderHeader [Entry.fields ⟨byIdentity, sampleHash, subject, "c"⟩]).toList =
      join ',' [join ';' ["By".toList ++ '=' :: renderValue byIdentity,
        "Hash".toList ++ '=' :: List.replicate 64 'a',
        "Subject".toList ++ '=' :: renderValue subject, "URI".toList ++ '=' :: renderValue "c"]] := by
  have hhash : renderValue sampleHash = List.replicate 64 'a' := renderValue_replicate (by decide)
  rw [renderHeader, String.toList_ofList, ← hhash]
  rfl

/-- A hash that is no fingerprint, one in upper case, an empty value, white space around one, and an
escape that ends a quoted one: none of them is read as it is written. -/
theorem parse_renderHeader_inexact :
    parse (some (renderHeader [Entry.fields ⟨"a", "x", "b", "c"⟩])) = none ∧
    parse (some (renderHeader [upperEntry.fields])) ≠ some upperEntry.exactly ∧
    parse (some (renderHeader [Entry.fields ⟨"a", sampleHash, "", "c"⟩])) ≠
      some (Entry.exactly ⟨"a", sampleHash, "", "c"⟩) ∧
    parse (some (renderHeader [Entry.fields ⟨" a", sampleHash, "b", "c"⟩])) ≠
      some (Entry.exactly ⟨" a", sampleHash, "b", "c"⟩) ∧
    parse (some (renderHeader [Entry.fields ⟨",\\", sampleHash, "b", "c"⟩])) = none := by
  refine ⟨by decide +kernel, fun h => ?upper, fun h => ?empty, fun h => ?padded, ?escaped⟩
  case upper =>
    obtain ⟨⟨hash, -, hlower⟩, -⟩ := of_parse h
    have hletter : 'A' ∈ (toLowerCase hash).toList := by
      rw [← hlower, upperEntry, Entry.exactly, String.toList_ofList]
      exact List.mem_replicate.mpr ⟨by decide, rfl⟩
    rw [toLowerCase, String.toList_ofList] at hletter
    obtain ⟨c, -, hc⟩ := List.mem_map.mp hletter
    exact toLower_ne_upper c hc
  case empty =>
    have hsubject := (of_parse h).2.1
    rw [toList_renderHeader] at hsubject
    exact absurd hsubject (by decide +kernel)
  case padded =>
    have hby := (of_parse h).2.2
    rw [toList_renderHeader] at hby
    exact absurd hby (by decide +kernel)
  case escaped =>
    rw [Option.eq_none_iff_forall_ne_some]
    intro xfcc h
    obtain ⟨hash, hhash, -⟩ := (of_parse h).1
    rw [toList_renderHeader] at hhash
    exact Option.some_ne_none hash (hhash.symm.trans (by decide +kernel))

end Xfcc
end Fspiop
