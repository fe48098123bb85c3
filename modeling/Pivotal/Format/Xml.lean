import Pivotal.Js.CodePoints
import Pivotal.Js.RoundTrip

/-! Character data of XML 1.0: the characters it may have, and the five entities that stand for the
characters of its markup. -/
namespace Format.Xml
open Js

/-- The production `Char`. -/
def IsChar (n : ℕ) : Prop :=
  n = 0x9 ∨ n = 0xA ∨ n = 0xD ∨ (0x20 ≤ n ∧ n ≤ 0xD7FF) ∨ (0xE000 ≤ n ∧ n ≤ 0xFFFD) ∨
    (0x10000 ≤ n ∧ n ≤ 0x10FFFF)

theorem IsChar.isScalar {n : ℕ} (h : IsChar n) : IsScalar n := by
  unfold IsChar at h
  unfold IsScalar
  omega

/-- The characters that have an entity, and its name. -/
def entities : List (UInt16 × Units) :=
  [(38, units "amp"), (60, units "lt"), (62, units "gt"), (34, units "quot"), (39, units "apos")]

def reference (name : Units) : Units := 38 :: name ++ [59]

def escapeUnit (u : UInt16) : Units :=
  match entities.lookup u with
  | some name => reference name
  | none => [u]

/-- No character of the text has an entity. -/
def escape (s : Units) : Units := s.flatMap escapeUnit

/-- The text that is read: `name` is what has been read of a reference. -/
def unescape (name : Option Units) : Units → Option Units
  | [] => if name.isNone then some [] else none
  | u :: s =>
    match name with
    | none => if u = 38 then unescape (some []) s else (unescape none s).map (u :: ·)
    | some name =>
      if u = 59 then do
        let (v, _) ← entities.find? fun entity => entity.2 = name
        (unescape none s).map (v :: ·)
      else unescape (some (name ++ [u])) s

theorem unescape_name {rest : Units} (hname : 59 ∉ rest) (before s : Units) :
    unescape (some before) (rest ++ 59 :: s) =
      (entities.find? fun entity => entity.2 = before ++ rest).bind fun entity =>
        (unescape none s).map (entity.1 :: ·) := by
  induction rest generalizing before with
  | nil =>
    rw [List.append_nil]
    rfl
  | cons u rest ih =>
    simp only [List.mem_cons, not_or] at hname
    rw [List.cons_append, unescape]
    simp only [if_neg (Ne.symm hname.1)]
    rw [ih hname.2, List.append_assoc]
    rfl

/-- The name of an entity does not end early, and is that of one character. -/
theorem entities_spec : ∀ entity ∈ entities, 59 ∉ entity.2 ∧
    entities.find? (fun other => other.2 = entity.2) = some entity := by
  decide

theorem escapeUnit_cases (u : UInt16) : (escapeUnit u = [u] ∧ ∀ entity ∈ entities, entity.1 ≠ u) ∨
    ∃ name, (u, name) ∈ entities ∧ escapeUnit u = reference name := by
  unfold escapeUnit
  cases hname : entities.lookup u with
  | none =>
    left
    refine ⟨rfl, ?_⟩
    rintro ⟨v, name⟩ hmem rfl
    rw [List.lookup_eq_none_iff] at hname
    exact absurd (hname _ hmem) (by simp)
  | some name =>
    right
    obtain ⟨before, after, heq, -⟩ := List.lookup_eq_some_iff.mp hname
    refine ⟨name, ?_, rfl⟩
    rw [heq]
    simp

theorem unescape_escapeUnit (u : UInt16) (s : Units) :
    unescape none (escapeUnit u ++ s) = (unescape none s).map (u :: ·) := by
  rcases escapeUnit_cases u with ⟨hescape, hnone⟩ | ⟨name, hmem, hescape⟩
  · have hne : u ≠ 38 := Ne.symm (hnone (38, units "amp") (by simp [entities]))
    rw [hescape, List.singleton_append, unescape]
    simp only [if_neg hne]
  · obtain ⟨hend, hfind⟩ := entities_spec _ hmem
    have hread := unescape_name hend [] s
    rw [List.nil_append, hfind] at hread
    rw [hescape, reference]
    simp only [List.cons_append, List.append_assoc, List.nil_append, unescape, if_pos]
    exact hread

/-- What is escaped is read again. -/
theorem unescape_escape (s : Units) : unescape none (escape s) = some s := by
  induction s with
  | nil => rfl
  | cons u s ih => rw [escape, List.flatMap_cons, unescape_escapeUnit, ← escape, ih, Option.map_some]

/-- What is decided of the units of all references, one by one. -/
theorem of_all_references {p : UInt16 → Prop} [DecidablePred p]
    (h : (entities.all fun entity => (reference entity.2).all fun u => p u) = true) :
    ∀ entity ∈ entities, ∀ u ∈ reference entity.2, p u := by
  intro entity hentity u hu
  have hall := List.all_eq_true.mp h entity hentity
  exact of_decide_eq_true (List.all_eq_true.mp hall u hu)

/-- No character of the markup is left, but for the beginnings of references. -/
theorem escape_no_markup {s : Units} {u : UInt16} (hu : u ∈ escape s) :
    u ≠ 60 ∧ u ≠ 62 ∧ u ≠ 34 ∧ u ≠ 39 := by
  obtain ⟨v, -, hu⟩ := List.mem_flatMap.mp hu
  have hreference : ∀ entity ∈ entities, ∀ u ∈ reference entity.2,
      u ≠ 60 ∧ u ≠ 62 ∧ u ≠ 34 ∧ u ≠ 39 := of_all_references rfl
  rcases escapeUnit_cases v with ⟨hescape, hnone⟩ | ⟨name, hmem, hescape⟩
  · rw [hescape, List.mem_singleton] at hu
    subst hu
    have hne : ∀ n name, (n, name) ∈ entities → u ≠ n := fun n name h => Ne.symm (hnone _ h)
    refine ⟨hne 60 (units "lt") ?_, hne 62 (units "gt") ?_, hne 34 (units "quot") ?_,
      hne 39 (units "apos") ?_⟩ <;> simp [entities]
  · rw [hescape] at hu
    exact hreference _ hmem u hu

/-- A character is escaped as characters. -/
theorem exists_escape_fromCodePoint {n : ℕ} (h : IsChar n) :
    ∃ ms : List ℕ, escape (fromCodePoint n) = ms.flatMap fromCodePoint ∧ ∀ m ∈ ms, IsChar m := by
  have hreference : ∀ entity ∈ entities, ∀ u ∈ reference entity.2, 0x20 ≤ u.toNat ∧ u.toNat ≤ 0x7F :=
    of_all_references rfl
  have hentity : ∀ entity ∈ entities, entity.1.toNat < 0xD800 := by decide
  have hsingle : ∀ u : UInt16, escape [u] = escapeUnit u := by
    intro u
    rw [escape, List.flatMap_cons, List.flatMap_nil, List.append_nil]
  by_cases hsmall : n < 0x10000
  · have hfrom : fromCodePoint n = [UInt16.ofNat n] := if_pos hsmall
    rw [hfrom, hsingle]
    rcases escapeUnit_cases (UInt16.ofNat n) with ⟨hescape, -⟩ | ⟨name, hmem, hescape⟩
    · refine ⟨[n], ?_, by simpa using h⟩
      rw [hescape, List.flatMap_cons, List.flatMap_nil, List.append_nil, hfrom]
    · refine ⟨(reference name).map UInt16.toNat, ?_, ?_⟩
      · rw [hescape, List.flatMap_map]
        simp [fromCodePoint_toNat]
      · intro m hm
        obtain ⟨u, hu, rfl⟩ := List.mem_map.mp hm
        have hascii := hreference _ hmem u hu
        unfold IsChar
        omega
  · have hkept : ∀ k, 0xD800 ≤ k → k < 0x10000 → escapeUnit (UInt16.ofNat k) = [UInt16.ofNat k] := by
      intro k hlow hhigh
      rcases escapeUnit_cases (UInt16.ofNat k) with ⟨hescape, -⟩ | ⟨name, hmem, -⟩
      · exact hescape
      · have hsmall := hentity _ hmem
        rw [UInt16.toNat_ofNat', Nat.mod_eq_of_lt hhigh] at hsmall
        omega
    have hbound : n ≤ 0x10FFFF := by
      unfold IsChar at h
      omega
    refine ⟨[n], ?_, by simpa using h⟩
    have hfrom : fromCodePoint n = [UInt16.ofNat (0xD800 + (n - 0x10000) / 0x400),
      UInt16.ofNat (0xDC00 + (n - 0x10000) % 0x400)] := if_neg hsmall
    rw [hfrom, List.flatMap_cons, List.flatMap_nil, List.append_nil, hfrom, escape,
      List.flatMap_cons, List.flatMap_cons, List.flatMap_nil, hkept, hkept]
    · rfl
    all_goals omega

/-- What is escaped has only characters of XML, if what it stands for has. -/
theorem isChar_escape {s : Units} (h : ∀ n ∈ codePoints s, IsChar n) :
    ∀ n ∈ codePoints (escape s), IsChar n := by
  have hescape : ∀ {ns : List ℕ}, (∀ n ∈ ns, IsChar n) →
      ∃ ms : List ℕ, escape (ns.flatMap fromCodePoint) = ms.flatMap fromCodePoint ∧ ∀ m ∈ ms, IsChar m := by
    intro ns hns
    induction ns with
    | nil => exact ⟨[], rfl, by simp⟩
    | cons n ns ih =>
      obtain ⟨first, hfirst, hfirstChar⟩ := exists_escape_fromCodePoint (hns n List.mem_cons_self)
      obtain ⟨rest, hrest, hrestChar⟩ := ih fun m hm => hns m (List.mem_cons_of_mem n hm)
      refine ⟨first ++ rest, ?_, ?_⟩
      · rw [List.flatMap_cons, List.flatMap_append, ← hfirst, ← hrest]
        exact List.flatMap_append
      · intro m hm
        exact (List.mem_append.mp hm).elim (hfirstChar m) (hrestChar m)
  obtain ⟨ms, hms, hchar⟩ := hescape h
  rw [flatMap_codePoints] at hms
  rw [hms, codePoints_flatMap fun m hm => (hchar m hm).isScalar]
  exact hchar

end Format.Xml
