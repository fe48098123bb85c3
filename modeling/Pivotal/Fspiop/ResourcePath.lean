import Pivotal.Fspiop.Signing
import Pivotal.Js.Split

/-! Which part of a URL is signed: the path of its resource, behind any base. -/
namespace Fspiop.FspiopUri
open Js

/-- A segment ends with its path or with a slash. -/
def EndsSegment (rest : List Char) : Prop := rest = [] ∨ ∃ tail, rest = '/' :: tail

/-- A path of which the first segment is a resource, with neither a query nor a fragment. -/
structure IsResourcePath (path : List Char) : Prop where
  begins : ∃ resource ∈ resources, ∃ rest, path = '/' :: (resource.toList ++ rest) ∧ EndsSegment rest
  query : '?' ∉ path
  fragment : '#' ∉ path

/-- An absolute URL that requests are sent to, no segment of which is a resource. -/
structure AbsoluteBase where
  scheme : List Char
  authority : List Char
  path : List Char
  scheme_plain : ∀ c ∈ scheme, c ≠ ':' ∧ c ≠ '?' ∧ c ≠ '#'
  authority_ne_nil : authority ≠ []
  authority_plain : ∀ c ∈ authority, c ≠ '/' ∧ c ≠ '?' ∧ c ≠ '#'
  path_absolute : EndsSegment path
  path_plain : ∀ c ∈ path, c ≠ '?' ∧ c ≠ '#'
  path_segments : ∀ resource ∈ resources, resource.toList ∉ split '/' path

def AbsoluteBase.chars (base : AbsoluteBase) : List Char :=
  base.scheme ++ ':' :: '/' :: '/' :: (base.authority ++ base.path)

/-- A query or a fragment with its mark, where there is one. -/
def marked (mark : Char) : Option (List Char) → List Char
  | none => []
  | some cs => mark :: cs

/-- What tells an absolute URL from a path. -/
def schemeSeparator : List Char := "://".toList

theorem slash_notMem {resource : String} (h : resource ∈ resources) : '/' ∉ resource.toList := by
  have hall : resources.all (fun resource => !resource.toList.contains '/') = true := by decide
  have hresource := List.all_eq_true.mp hall resource h
  simpa using hresource

theorem endsSegment_iff (rest : List Char) : rest.head?.all (· = '/') = true ↔ EndsSegment rest := by
  cases rest with
  | nil => simp [EndsSegment]
  | cons c tail => simp [EndsSegment]

theorem startsWithResource_iff (path : List Char) : startsWithResource path = true ↔
    ∃ resource ∈ resources, ∃ rest, path = '/' :: (resource.toList ++ rest) ∧ EndsSegment rest := by
  rw [startsWithResource, List.any_eq_true]
  refine exists_congr fun resource => and_congr_right fun _ => ?_
  constructor
  · intro h
    split at h
    · rename_i rest hrest
      exact ⟨rest, stripPrefix_eq_some hrest, (endsSegment_iff rest).mp h⟩
    · cases h
  · rintro ⟨rest, rfl, hrest⟩
    have hstrip := stripPrefix_append ('/' :: resource.toList) rest
    rw [List.cons_append] at hstrip
    rw [hstrip]
    exact (endsSegment_iff rest).mpr hrest

/-- What follows a slash up to the next one is a segment. -/
theorem mem_split_of_endsSegment {resource : String} (h : resource ∈ resources)
    (front : List Char) {rest : List Char} (hrest : EndsSegment rest) :
    resource.toList ∈ split '/' (front ++ '/' :: (resource.toList ++ rest)) := by
  rw [split_append_sep, List.mem_append]
  right
  rcases hrest with rfl | ⟨tail, rfl⟩
  · rw [List.append_nil, split_of_notMem (slash_notMem h)]
    exact List.mem_singleton_self _
  · rw [split_append_sep, split_of_notMem (slash_notMem h)]
    exact List.mem_append_left _ (List.mem_singleton_self _)

section Resource

variable {r : List Char} (hr : IsResourcePath r)
include hr

theorem IsResourcePath.eq_cons : ∃ tail, r = '/' :: tail := by
  obtain ⟨resource, -, rest, h, -⟩ := hr.begins
  exact ⟨_, h⟩

theorem IsResourcePath.fromResource : fromResource r = some r := by
  obtain ⟨tail, rfl⟩ := hr.eq_cons
  rw [FspiopUri.fromResource, if_pos ((startsWithResource_iff _).mpr hr.begins)]

/-- A match that begins before the path of the resource would be a segment of what precedes it. -/
theorem resource_mem_of_startsWith {c : Char} {p : List Char} (front : List Char)
    (h : startsWithResource (c :: p ++ r) = true) :
    ∃ resource ∈ resources, resource.toList ∈ split '/' (front ++ c :: p) := by
  obtain ⟨resource, hresource, rest, heq, hrest⟩ := (startsWithResource_iff _).mp h
  obtain ⟨tail, htail⟩ := hr.eq_cons
  rw [List.cons_append, List.cons.injEq] at heq
  obtain ⟨rfl, heq⟩ := heq
  refine ⟨resource, hresource, ?_⟩
  rcases List.append_eq_append_iff.mp heq with ⟨s, hs, hr'⟩ | ⟨s, hs, hrest'⟩
  · -- The name would reach into the path, which begins with a slash.
    cases s with
    | nil =>
      rw [List.append_nil] at hs
      rw [← hs]
      simpa using mem_split_of_endsSegment hresource front (.inl rfl)
    | cons d s =>
      rw [htail, List.cons_append, List.cons.injEq] at hr'
      have hslash : '/' ∈ resource.toList := by
        rw [hs, hr'.1]
        exact List.mem_append_right _ List.mem_cons_self
      exact absurd hslash (slash_notMem hresource)
  · rw [hs]
    refine mem_split_of_endsSegment hresource front ?_
    cases s with
    | nil => exact .inl rfl
    | cons d s =>
      rcases hrest with rfl | ⟨tail', htail'⟩
      · cases hrest'
      · rw [htail', List.cons_append, List.cons.injEq] at hrest'
        exact .inr ⟨s, by rw [hrest'.1]⟩

theorem fromResource_append {path : List Char} (front : List Char)
    (h : ∀ resource ∈ resources, resource.toList ∉ split '/' (front ++ path)) :
    FspiopUri.fromResource (path ++ r) = some r := by
  induction path generalizing front with
  | nil => exact hr.fromResource
  | cons c path ih =>
    have hnone : ¬ startsWithResource (c :: (path ++ r)) = true := by
      intro hstart
      obtain ⟨resource, hresource, hmem⟩ := resource_mem_of_startsWith hr front hstart
      exact h resource hresource hmem
    rw [List.cons_append, FspiopUri.fromResource, if_neg hnone]
    refine ih (front ++ [c]) fun resource hresource => ?_
    rw [List.append_assoc]
    exact h resource hresource

end Resource

theorem afterScheme_cons {c : Char} (hc : c ≠ ':') (cs : List Char) :
    afterScheme (c :: cs) = afterScheme cs := by
  rw [afterScheme]
  rintro rest h -
  exact hc h

theorem afterScheme_append {scheme : List Char} (h : ':' ∉ scheme) (rest : List Char) :
    afterScheme (scheme ++ ':' :: '/' :: '/' :: rest) = some rest := by
  induction scheme with
  | nil => rfl
  | cons c scheme ih =>
    rw [List.mem_cons, not_or] at h
    rw [List.cons_append, afterScheme_cons (Ne.symm h.1), ih h.2]

theorem afterScheme_eq_none_iff (cs : List Char) :
    afterScheme cs = none ↔ ¬ schemeSeparator <:+: cs := by
  fun_induction afterScheme cs with
  | case1 rest => exact iff_of_false (by simp) (not_not.mpr ⟨[], rest, rfl⟩)
  | case2 c rest hnot ih =>
    rw [ih, List.infix_cons_iff, not_or]
    refine (and_iff_right ?_).symm
    rintro ⟨tail, htail⟩
    obtain ⟨rfl, hrest⟩ := List.cons.inj htail
    exact hnot tail rfl hrest.symm
  | case3 => exact iff_of_true rfl (by simp [schemeSeparator])

theorem length_afterScheme {cs rest : List Char} (h : afterScheme cs = some rest) :
    rest.length + 3 ≤ cs.length := by
  fun_induction afterScheme cs with
  | case1 tail =>
    cases h
    simp
  | case2 c tail hnot ih =>
    have hle := ih h
    rw [List.length_cons]
    omega
  | case3 => cases h

theorem length_fromResource {path rest : List Char} (h : fromResource path = some rest) :
    rest.length ≤ path.length := by
  fun_induction fromResource path with
  | case1 => cases h
  | case2 c path hstart =>
    cases h
    exact le_rfl
  | case3 c path hstart ih =>
    rw [List.length_cons]
    exact (ih h).trans (Nat.le_succ _)

theorem takeWhile_marked {mark : Char} {cs : List Char} (h : mark ∉ cs) (o : Option (List Char)) :
    (cs ++ marked mark o).takeWhile (· ≠ mark) = cs := by
  have hcs : ∀ c ∈ cs, decide (c ≠ mark) = true := by
    intro c hc
    exact decide_eq_true fun heq => h (heq ▸ hc)
  rw [List.takeWhile_append_of_pos hcs]
  cases o with
  | none => simp [marked]
  | some ds => simp [marked]

theorem takeWhile_of_notMem {mark : Char} {cs : List Char} (h : mark ∉ cs) :
    cs.takeWhile (· ≠ mark) = cs := by
  have hmarked := takeWhile_marked h none
  rwa [marked, List.append_nil] at hmarked

section Extract

variable {r : List Char} (base : AbsoluteBase) (hr : IsResourcePath r)
include hr

theorem trim_ne_empty_of_resource (front back : List Char) :
    trim (String.ofList (front ++ r ++ back)) ≠ "" := by
  obtain ⟨tail, htail⟩ := hr.eq_cons
  refine trim_ne_empty (c := '/') ?_ (by decide)
  rw [String.toList_ofList, htail]
  simp

theorem extract_of_toPath (front back : List Char) {path : List Char} (hpath : toPath (front ++ r ++ back) = path)
    (h : FspiopUri.fromResource path = some r) :
    extract (String.ofList (front ++ r ++ back)) = .ok (String.ofList r) := by
  rw [extract, if_neg (trim_ne_empty_of_resource hr front back), String.toList_ofList, hpath, h]
  rfl

/-- Scheme, authority, query and fragment are stripped. -/
theorem toPath_absolute {query : Option (List Char)} (hquery : ∀ q ∈ query, '#' ∉ q)
    (fragment : Option (List Char)) :
    toPath (base.chars ++ r ++ (marked '?' query ++ marked '#' fragment)) = base.path ++ r := by
  have hfragment : '#' ∉ base.chars ++ r ++ marked '?' query := by
    have hmark : '#' ∉ marked '?' query := by
      cases query with
      | none => simp [marked]
      | some q => simpa [marked] using hquery q rfl
    simp only [AbsoluteBase.chars, List.mem_append, List.mem_cons, not_or]
    refine ⟨⟨⟨fun h => (base.scheme_plain _ h).2.2 rfl, by decide, by decide, by decide,
      fun h => (base.authority_plain _ h).2.2 rfl, fun h => (base.path_plain _ h).2 rfl⟩,
      hr.fragment⟩, hmark⟩
  have hmark : '?' ∉ base.chars ++ r := by
    simp only [AbsoluteBase.chars, List.mem_append, List.mem_cons, not_or]
    exact ⟨⟨fun h => (base.scheme_plain _ h).2.1 rfl, by decide, by decide, by decide,
      fun h => (base.authority_plain _ h).2.1 rfl, fun h => (base.path_plain _ h).1 rfl⟩, hr.query⟩
  have hscheme : afterScheme (base.chars ++ r) = some (base.authority ++ base.path ++ r) := by
    have hcolon : ':' ∉ base.scheme := fun h => (base.scheme_plain _ h).1 rfl
    have happend := afterScheme_append hcolon (base.authority ++ base.path ++ r)
    rwa [AbsoluteBase.chars, List.append_assoc, List.cons_append, List.cons_append, List.cons_append]
  obtain ⟨tail, htail⟩ : ∃ tail, base.path ++ r = '/' :: tail := by
    rcases base.path_absolute with hpath | ⟨tail, hpath⟩
    · rw [hpath]
      exact hr.eq_cons
    · exact ⟨tail ++ r, by rw [hpath, List.cons_append]⟩
  have hauthority : (base.authority ++ base.path ++ r).dropWhile (· ≠ '/') = '/' :: tail := by
    rw [List.append_assoc, htail, List.dropWhile_append_of_pos]
    · simp
    · intro c hc
      exact decide_eq_true (base.authority_plain c hc).1
  rw [toPath, ← List.append_assoc]
  simp only [takeWhile_marked hfragment, takeWhile_marked hmark, hscheme, hauthority, htail]

/-- Behind any base, the path of the resource is found whatever its identifiers look like. -/
theorem extract_absolute {query : Option (List Char)} (hquery : ∀ q ∈ query, '#' ∉ q)
    (fragment : Option (List Char)) :
    extract (String.ofList (base.chars ++ r ++ (marked '?' query ++ marked '#' fragment))) =
      .ok (String.ofList r) :=
  extract_of_toPath hr _ _ (toPath_absolute base hr hquery fragment)
    (fromResource_append hr [] base.path_segments)

/-- A path is its own, unless it would be read as an absolute URL. -/
theorem extract_resource_iff :
    extract (String.ofList r) = .ok (String.ofList r) ↔ ¬ schemeSeparator <:+: r := by
  have hfragment := takeWhile_of_notMem hr.fragment
  have hquery := takeWhile_of_notMem hr.query
  obtain ⟨tail, htail⟩ := hr.eq_cons
  rw [← afterScheme_eq_none_iff]
  have hresource := extract_of_toPath hr [] [] rfl
  rw [List.nil_append, List.append_nil] at hresource
  cases hscheme : afterScheme r with
  | none =>
    have hpath : toPath r = r := by
      simp only [toPath, hfragment, hquery, hscheme]
      rw [htail]
      rfl
    rw [hpath] at hresource
    exact iff_of_true (hresource hr.fromResource) rfl
  | some authority =>
    refine iff_of_false (fun h => ?_) (Option.some_ne_none _)
    have hlength := length_afterScheme hscheme
    have hpath : (toPath r).length < r.length := by
      have hdrop := (authority.dropWhile_suffix (· ≠ '/')).length_le
      simp only [toPath, hfragment, hquery, hscheme]
      split
      · rw [List.length_singleton]
        omega
      · omega
    have htrim := trim_ne_empty_of_resource hr [] []
    rw [List.nil_append, List.append_nil] at htrim
    rw [extract, if_neg htrim, String.toList_ofList] at h
    cases hfrom : FspiopUri.fromResource (toPath r) with
    | none =>
      rw [hfrom] at h
      cases h
    | some rest =>
      rw [hfrom] at h
      have hrest : rest = r := String.ofList_injective (Except.ok.inj h)
      have hle := length_fromResource hfrom
      rw [hrest] at hle
      omega

end Extract

section Signer

theorem AbsoluteBase.exists_dropLast (base : AbsoluteBase) (h : base.chars.getLast? = some '/') :
    ∃ base' : AbsoluteBase, base'.chars = base.chars.dropLast := by
  have hne : base.authority ++ base.path ≠ [] :=
    fun hnil => base.authority_ne_nil (List.append_eq_nil_iff.mp hnil).1
  have hchars : base.chars =
      (base.scheme ++ [':', '/', '/']) ++ (base.authority ++ base.path) := by
    rw [AbsoluteBase.chars, List.append_assoc]
    rfl
  rw [hchars, List.getLast?_append_of_ne_nil _ hne] at h
  have hpath : base.path ≠ [] := by
    intro hnil
    rw [hnil, List.append_nil] at h
    exact (base.authority_plain _ (List.mem_of_getLast? h)).1 rfl
  rw [List.getLast?_append_of_ne_nil _ hpath] at h
  obtain ⟨front, hfront⟩ := List.getLast?_eq_some_iff.mp h
  have habsolute : EndsSegment front := by
    cases front with
    | nil => exact .inl rfl
    | cons c front =>
      rcases base.path_absolute with hnil | ⟨tail, htail⟩
      · exact absurd hnil hpath
      · rw [hfront, List.cons_append, List.cons.injEq] at htail
        exact .inr ⟨front, by rw [htail.1]⟩
  have hplain : ∀ c ∈ front, c ≠ '?' ∧ c ≠ '#' := by
    intro c hc
    exact base.path_plain c (by rw [hfront]; exact List.mem_append_left _ hc)
  have hsegments : ∀ resource ∈ resources, resource.toList ∉ split '/' front := by
    intro resource hresource hmem
    refine base.path_segments resource hresource ?_
    rw [hfront, split_append_sep]
    exact List.mem_append_left _ hmem
  refine ⟨⟨base.scheme, base.authority, front, base.scheme_plain, base.authority_ne_nil,
    base.authority_plain, habsolute, hplain, hsegments⟩, ?_⟩
  rw [hchars, List.dropLast_append_of_ne_nil hne, List.dropLast_append_of_ne_nil hpath, hfront,
    List.dropLast_concat, AbsoluteBase.chars, List.append_assoc]
  rfl

variable {ν : Type} {r : List Char} {base : AbsoluteBase} {config : InternalAxiosRequestConfig ν}

/-- The interceptor puts a path behind its base. -/
theorem resolveUrl_of_base (hr : IsResourcePath r) (hpath : ¬ schemeSeparator <:+: r)
    (hbase : config.baseURL = some (String.ofList base.chars))
    (hurl : config.url = some (String.ofList r)) :
    ∃ base' : AbsoluteBase,
      FspiopSigningInterceptor.resolveUrl config = String.ofList (base'.chars ++ r) := by
  obtain ⟨tail, htail⟩ := hr.eq_cons
  have hnonempty : String.ofList r ≠ "" := by
    rw [htail]
    exact fun h => List.cons_ne_nil _ _ (String.ofList_eq_empty_iff.mp h)
  have hscheme : (afterScheme r).isSome = false := by
    rw [(afterScheme_eq_none_iff r).mpr hpath]
    rfl
  have hhead : r.head? = some '/' := by rw [htail, List.head?_cons]
  simp only [FspiopSigningInterceptor.resolveUrl, hurl, hbase, Option.getD_some, if_neg hnonempty,
    String.toList_ofList, hscheme, Bool.false_eq_true, if_false, hhead, if_true]
  split
  · rename_i hslash
    obtain ⟨base', hchars⟩ := base.exists_dropLast hslash
    exact ⟨base', by rw [hchars]⟩
  · exact ⟨base, rfl⟩

/-- The path of a resource is found behind every base, with every query and fragment. It is found
again in itself, and the interceptor finds it behind its base, exactly when it could not be taken
for an absolute URL. -/
theorem signed_path_iff (base : AbsoluteBase) (hr : IsResourcePath r)
    {query : Option (List Char)} (hquery : ∀ q ∈ query, '#' ∉ q) (fragment : Option (List Char))
    (hbase : config.baseURL = some (String.ofList base.chars))
    (hurl : config.url = some (String.ofList r)) :
    (extract (String.ofList (base.chars ++ r ++ (marked '?' query ++ marked '#' fragment))) =
        .ok (String.ofList r) ∧
      extract (String.ofList r) = .ok (String.ofList r) ∧
      extract (FspiopSigningInterceptor.resolveUrl config) = .ok (String.ofList r)) ↔
      ¬ schemeSeparator <:+: r := by
  constructor
  · rintro ⟨-, hself, -⟩
    exact (extract_resource_iff hr).mp hself
  · intro hpath
    refine ⟨extract_absolute base hr hquery fragment, (extract_resource_iff hr).mpr hpath, ?_⟩
    obtain ⟨base', hresolved⟩ := resolveUrl_of_base hr hpath hbase hurl
    have hnone : ∀ q ∈ (none : Option (List Char)), '#' ∉ q := by simp
    have hbehind := extract_absolute base' hr hnone none
    rw [marked, marked, List.append_nil, List.append_nil] at hbehind
    rw [hresolved, hbehind]

end Signer

/-- `https://hub.example.com/fspiop` -/
def sampleBase : AbsoluteBase where
  scheme := "https".toList
  authority := "hub.example.com".toList
  path := "/fspiop".toList
  scheme_plain := by
    have hall : "https".toList.all (fun c => c ≠ ':' ∧ c ≠ '?' ∧ c ≠ '#') = true := by decide
    exact fun c hc => of_decide_eq_true (List.all_eq_true.mp hall c hc)
  authority_ne_nil := by decide
  authority_plain := by
    have hall : "hub.example.com".toList.all (fun c => c ≠ '/' ∧ c ≠ '?' ∧ c ≠ '#') = true := by
      decide
    exact fun c hc => of_decide_eq_true (List.all_eq_true.mp hall c hc)
  path_absolute := .inr ⟨"fspiop".toList, rfl⟩
  path_plain := by
    have hall : "/fspiop".toList.all (fun c => c ≠ '?' ∧ c ≠ '#') = true := by decide
    exact fun c hc => of_decide_eq_true (List.all_eq_true.mp hall c hc)
  path_segments := by
    have hall : resources.all (fun resource =>
        !(split '/' "/fspiop".toList).contains resource.toList) = true := by decide
    simpa using List.all_eq_true.mp hall

theorem isResourcePath_sample : IsResourcePath "/quotes/1".toList where
  begins := ⟨"quotes", by decide, "/1".toList, rfl, .inr ⟨['1'], rfl⟩⟩
  query := by decide
  fragment := by decide

/-- A request for a quote, behind that base. -/
def sampleConfig : InternalAxiosRequestConfig ℕ :=
  ⟨none, some (String.ofList "/quotes/1".toList), some (String.ofList sampleBase.chars),
    fun _ => none, none⟩

theorem signed_path_sample :
    extract (FspiopSigningInterceptor.resolveUrl sampleConfig) = .ok "/quotes/1" := by
  have hbase : sampleConfig.baseURL = some (String.ofList sampleBase.chars) := rfl
  have hurl : sampleConfig.url = some (String.ofList "/quotes/1".toList) := rfl
  have hnone : ∀ q ∈ (none : Option (List Char)), '#' ∉ q := by simp
  have hpath : ¬ schemeSeparator <:+: "/quotes/1".toList := by
    rw [← afterScheme_eq_none_iff]
    rfl
  have hiff := signed_path_iff sampleBase isResourcePath_sample hnone none hbase hurl
  exact (hiff.mpr hpath).2.2

/-- An identifier that is a URL itself: the path of its lookup is signed as that of another. -/
theorem not_signed_path :
    let r := "/parties/ALIAS/http://example.com/quotes/1"
    (startsWithResource r.toList = true ∧ '?' ∉ r.toList ∧ '#' ∉ r.toList) ∧
      (extract ("https://hub.example.com/fspiop" ++ r)).toOption = some r ∧
      (extract r).toOption = some "/quotes/1" ∧
      (extract (FspiopSigningInterceptor.resolveUrl (ν := ℕ)
        ⟨none, some r, some "https://hub.example.com/fspiop", fun _ => none, none⟩)).toOption =
          some "/quotes/1" := by
  decide +kernel

end Fspiop.FspiopUri
