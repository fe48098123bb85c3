import Pivotal.Connector.Handlers
import Pivotal.Js.Url

/-! Requests for parties, from the URL that the client builds to the handler that the router picks.
The base URL is an origin, so that the path begins after it. -/
namespace Inbound
open Fspiop Js
open Connector.FspiopAxios (partiesUrl)

inductive Method where
  | get | put
  deriving DecidableEq

/-- The operations on parties, of the client and of the controller. -/
inductive PartiesOperation where
  | getParties | putParties | putPartiesError
  deriving DecidableEq

/-- The parameters of a route. -/
structure PartyParams where
  partyIdType : Segment
  id : Segment
  subId : Option Segment
  deriving DecidableEq

namespace FspiopAxios

def method : PartiesOperation → Method
  | .getParties => .get
  | .putParties => .put
  | .putPartiesError => .put

/-- What follows the base URL. -/
def path (operation : PartiesOperation) (partyIdType : PartyIdType) (id : String)
    (subId : Option String) : String :=
  match operation with
  | .getParties => partiesUrl "" partyIdType id subId
  | .putParties => partiesUrl "" partyIdType id subId
  | .putPartiesError => partiesUrl "" partyIdType id subId ++ "/error"

end FspiopAxios

namespace PartiesController

/-- `parties/:type/:id{/:subId}`: its words stand in any case, and no parameter is empty. -/
def matchParties : List Segment → Option PartyParams
  | [resource, partyIdType, id] =>
    if Url.lower resource = "parties".toList ∧ partyIdType ≠ [] ∧ id ≠ []
    then some ⟨partyIdType, id, none⟩ else none
  | [resource, partyIdType, id, subId] =>
    if Url.lower resource = "parties".toList ∧ partyIdType ≠ [] ∧ id ≠ [] ∧ subId ≠ []
    then some ⟨partyIdType, id, some subId⟩ else none
  | _ => none

/-- `parties/:type/:id{/:subId}/error` -/
def matchPartiesError (segments : List Segment) : Option PartyParams :=
  if segments.getLast?.map Url.lower = some "error".toList then matchParties segments.dropLast
  else none

/-- One slash may follow a path. -/
def withoutTrailingSlash (segments : List Segment) : List Segment :=
  if segments.getLast? = some [] then segments.dropLast else segments

/-- A parameter that cannot be decoded fails the request. -/
def decodeParams (params : PartyParams) : Option PartyParams := do
  let partyIdType ← decodeURIComponent params.partyIdType
  let id ← decodeURIComponent params.id
  match params.subId with
  | none => return ⟨partyIdType, id, none⟩
  | some subId => return ⟨partyIdType, id, some (← decodeURIComponent subId)⟩

/-- The handler of a request and its parameters: the first route that matches, in the order in which
the controller declares them. -/
def route (method : Method) (url : String) : Option (PartiesOperation × PartyParams) :=
  let segments := withoutTrailingSlash (Url.pathSegments (url.toList.drop 1))
  match method with
  | .get => (matchParties segments).bind fun params =>
    (decodeParams params).map fun params => (.getParties, params)
  | .put =>
    match matchPartiesError segments with
    | some params => (decodeParams params).map fun params => (.putPartiesError, params)
    | none => (matchParties segments).bind fun params =>
      (decodeParams params).map fun params => (.putParties, params)

end PartiesController

/-- The text stands for itself in a path. -/
def Literal (text : String) : Prop :=
  text ≠ "" ∧ text ≠ "." ∧ text ≠ ".." ∧
    ∀ c ∈ text.toList, c ∉ ['/', '\\', '?', '#', '%', '\t', '\n', '\r']

instance (text : String) : Decidable (Literal text) :=
  haveI : Decidable (∀ c ∈ text.toList, c ∉ ['/', '\\', '?', '#', '%', '\t', '\n', '\r']) :=
    List.decidableBAll _ _
  inferInstanceAs (Decidable (_ ∧ _ ∧ _ ∧ _))

/-- The condition of the result: texts that stand for themselves, one that ends a path not ending
in a control character or a blank, and no callback whose sub-id is the word of the other route. -/
structure Addressable (operation : PartiesOperation) (id : String) (subId : Option String) : Prop where
  literal : Literal id
  literal_subId : ∀ s ∈ subId, Literal s
  ending : operation ≠ .putPartiesError →
    ∀ c ∈ (subId.getD id).toList.getLast?, Url.isControlOrSpace c = false
  word : operation = .putParties → ∀ s ∈ subId, Url.lower s.toList ≠ "error".toList

namespace PartyParams

def size (params : PartyParams) : ℕ :=
  params.partyIdType.length + params.id.length + (params.subId.getD []).length

/-- No parameter is empty. -/
structure Nonempty (params : PartyParams) : Prop where
  partyIdType : params.partyIdType ≠ []
  id : params.id ≠ []
  subId : params.subId ≠ some []

end PartyParams

namespace PartiesController

variable {segments : List Segment} {params decoded : PartyParams} {operation : PartiesOperation}

theorem lower_length (segment : Segment) : (Url.lower segment).length = segment.length :=
  List.length_map ..

theorem matchParties_spec (h : matchParties segments = some params) :
    Url.size segments = 7 + params.size ∧ params.Nonempty := by
  unfold matchParties at h
  split at h
  · rename_i resource partyIdType id
    split_ifs at h with hmatch
    cases h
    obtain ⟨hresource, htype, hid⟩ := hmatch
    have hlength : resource.length = 7 := by
      rw [← lower_length, hresource]
      rfl
    constructor
    · simp [PartyParams.size, hlength]
    · exact ⟨htype, hid, by simp⟩
  · rename_i resource partyIdType id subId
    split_ifs at h with hmatch
    cases h
    obtain ⟨hresource, htype, hid, hsub⟩ := hmatch
    have hlength : resource.length = 7 := by
      rw [← lower_length, hresource]
      rfl
    constructor
    · simp [PartyParams.size, hlength]
      omega
    · exact ⟨htype, hid, fun heq => hsub (Option.some.inj heq)⟩
  · cases h

theorem matchPartiesError_spec (h : matchPartiesError segments = some params) :
    Url.size segments = 12 + params.size ∧ params.Nonempty := by
  unfold matchPartiesError at h
  split_ifs at h with hlast
  obtain ⟨last, hlast, hlower⟩ := Option.map_eq_some_iff.mp hlast
  obtain ⟨front, rfl⟩ := List.getLast?_eq_some_iff.mp hlast
  rw [List.dropLast_concat] at h
  obtain ⟨hsize, hnonempty⟩ := matchParties_spec h
  have hlength : last.length = 5 := by
    rw [← lower_length, hlower]
    rfl
  constructor
  · simp [hsize, hlength]
    omega
  · exact hnonempty

theorem size_withoutTrailingSlash (segments : List Segment) :
    Url.size (withoutTrailingSlash segments) = Url.size segments := by
  unfold withoutTrailingSlash
  split_ifs with hlast
  · obtain ⟨front, rfl⟩ := List.getLast?_eq_some_iff.mp hlast
    simp
  · rfl

theorem decode_of_length {cs ds : List Char} (h : decodeURIComponent cs = some ds)
    (hlength : ds.length = cs.length) : ds = cs ∧ '%' ∉ cs := by
  have hescape := (decodeURIComponent_length h).2 hlength
  rw [decodeURIComponent_eq hescape] at h
  exact ⟨(Option.some.inj h).symm, hescape⟩

/-- Decoding shortens what it changes. -/
theorem decodeParams_spec (h : decodeParams params = some decoded) :
    decoded.size ≤ params.size ∧ (decoded.size = params.size → decoded = params ∧
      ∀ segment ∈ params.partyIdType :: params.id :: params.subId.toList, '%' ∉ segment) := by
  obtain ⟨partyIdType, id, subId⟩ := params
  simp only [decodeParams, Option.bind_eq_bind, Option.bind_eq_some_iff] at h
  obtain ⟨partyIdType', htype, id', hid, h⟩ := h
  have htypeLength := (decodeURIComponent_length htype).1
  have hidLength := (decodeURIComponent_length hid).1
  cases subId with
  | none =>
    cases h
    simp only [PartyParams.size, Option.getD_none, List.length_nil]
    constructor
    · omega
    · intro hsize
      obtain ⟨rfl, htypeEscape⟩ := decode_of_length htype (by omega)
      obtain ⟨rfl, hidEscape⟩ := decode_of_length hid (by omega)
      simp [htypeEscape, hidEscape]
  | some subId =>
    obtain ⟨subId', hsub, h⟩ := Option.bind_eq_some_iff.mp h
    cases h
    have hsubLength := (decodeURIComponent_length hsub).1
    simp only [PartyParams.size, Option.getD_some]
    constructor
    · omega
    · intro hsize
      obtain ⟨rfl, htypeEscape⟩ := decode_of_length htype (by omega)
      obtain ⟨rfl, hidEscape⟩ := decode_of_length hid (by omega)
      obtain ⟨rfl, hsubEscape⟩ := decode_of_length hsub (by omega)
      simp [htypeEscape, hidEscape, hsubEscape]

theorem decodeParams_eq
    (h : ∀ segment ∈ params.partyIdType :: params.id :: params.subId.toList, '%' ∉ segment) :
    decodeParams params = some params := by
  obtain ⟨partyIdType, id, subId⟩ := params
  have htype := decodeURIComponent_eq (h partyIdType (by simp))
  have hid := decodeURIComponent_eq (h id (by simp))
  cases subId with
  | none => simp [decodeParams, htype, hid]
  | some subId =>
    have hsub := decodeURIComponent_eq (h subId (by simp))
    simp [decodeParams, htype, hid, hsub]

/-- How many characters of the route itself are in a path. -/
def words : PartiesOperation → ℕ
  | .getParties => 7
  | .putParties => 7
  | .putPartiesError => 12

/-- What a routed path holds: the words of the route, and the parameters before their decoding. -/
theorem route_spec {method : Method} {url : String}
    (h : route method url = some (operation, decoded)) :
    ∃ params, decodeParams params = some decoded ∧ params.Nonempty ∧
      Url.size (Url.pathSegments (url.toList.drop 1)) = words operation + params.size := by
  rw [← size_withoutTrailingSlash]
  unfold route at h
  cases method with
  | get =>
    obtain ⟨params, hmatch, h⟩ := Option.bind_eq_some_iff.mp h
    obtain ⟨_, hdecode, heq⟩ := Option.map_eq_some_iff.mp h
    cases heq
    obtain ⟨hsize, hnonempty⟩ := matchParties_spec hmatch
    exact ⟨params, hdecode, hnonempty, hsize⟩
  | put =>
    simp only at h
    split at h
    · rename_i params hmatch
      obtain ⟨_, hdecode, heq⟩ := Option.map_eq_some_iff.mp h
      cases heq
      obtain ⟨hsize, hnonempty⟩ := matchPartiesError_spec hmatch
      exact ⟨params, hdecode, hnonempty, hsize⟩
    · obtain ⟨params, hmatch, h⟩ := Option.bind_eq_some_iff.mp h
      obtain ⟨_, hdecode, heq⟩ := Option.map_eq_some_iff.mp h
      cases heq
      obtain ⟨hsize, hnonempty⟩ := matchParties_spec hmatch
      exact ⟨params, hdecode, hnonempty, hsize⟩

end PartiesController

section Written

variable {operation : PartiesOperation} {partyIdType : PartyIdType} {id : String}
  {subId : Option String}

/-- An empty sub-id is left out. -/
def subSegments : Option String → List Segment
  | none => []
  | some s => if s = "" then [] else [s.toList]

/-- The segments of a path, as the client writes them. -/
def written (operation : PartiesOperation) (partyIdType : PartyIdType) (id : String)
    (subId : Option String) : List Segment :=
  "parties".toList :: partyIdType.text.toList :: id.toList ::
    subSegments subId ++ if operation = .putPartiesError then ["error".toList] else []

theorem path_eq (operation : PartiesOperation) (partyIdType : PartyIdType) (id : String)
    (subId : Option String) :
    (FspiopAxios.path operation partyIdType id subId).toList.drop 1 =
      join '/' (written operation partyIdType id subId) := by
  have hurl : (partiesUrl "" partyIdType id subId).toList =
      '/' :: join '/' (written .getParties partyIdType id subId) := by
    cases subId with
    | none => simp [partiesUrl, written, subSegments, join]
    | some s => by_cases hs : s = "" <;> simp [partiesUrl, written, subSegments, join, hs]
  have herror : join '/' (written .putPartiesError partyIdType id subId) =
      join '/' (written .getParties partyIdType id subId) ++ "/error".toList := by
    cases subId with
    | none => simp [written, subSegments, join]
    | some s => by_cases hs : s = "" <;> simp [written, subSegments, join, hs]
  cases operation with
  | getParties => simp [FspiopAxios.path, hurl]
  | putParties =>
    simp only [FspiopAxios.path, hurl, List.drop_succ_cons, List.drop_zero]
    rfl
  | putPartiesError => simp [FspiopAxios.path, hurl, herror]

theorem text_plain (partyIdType : PartyIdType) : Literal partyIdType.text ∧
    Url.isDot partyIdType.text.toList = false ∧ partyIdType.text.toList ≠ [] := by
  cases partyIdType <;> decide

theorem mem_subSegments {segment : Segment} :
    segment ∈ subSegments subId ↔ ∃ s ∈ subId, s ≠ "" ∧ segment = s.toList := by
  cases subId with
  | none => simp [subSegments]
  | some s => by_cases hs : s = "" <;> simp [subSegments, hs]

/-- The parameters as they were written. -/
def asWritten (partyIdType : PartyIdType) (id : String) (subId : Option String) : PartyParams :=
  ⟨partyIdType.text.toList, id.toList, subId.map String.toList⟩

theorem weight_written (operation : PartiesOperation) (partyIdType : PartyIdType) (id : String)
    (subId : Option String) :
    Url.weight (join '/' (written operation partyIdType id subId)) =
      PartiesController.words operation + partyIdType.text.toList.length + Url.weight id.toList +
        Url.weight (subId.getD "").toList := by
  have htype : Url.weight partyIdType.text.toList = partyIdType.text.toList.length := by
    cases partyIdType <;> rfl
  have hresource : Url.weight "parties".toList = 7 := by rfl
  have hword : Url.weight "error".toList = 5 := by rfl
  have hsub : ((subSegments subId).map Url.weight).sum = Url.weight (subId.getD "").toList := by
    cases subId with
    | none => rfl
    | some s => by_cases hs : s = "" <;> simp [subSegments, hs]
  rw [Url.weight_join, written]
  simp only [List.map_append, List.map_cons, List.sum_append, List.sum_cons, hsub, hresource, htype]
  cases operation with
  | getParties | putParties =>
    simp only [PartiesController.words, reduceCtorEq, if_false, List.map_nil, List.sum_nil]
    omega
  | putPartiesError =>
    simp only [PartiesController.words, if_true, List.map_cons, List.map_nil, List.sum_cons,
      List.sum_nil, hword]
    omega

theorem size_asWritten (partyIdType : PartyIdType) (id : String) (subId : Option String) :
    (asWritten partyIdType id subId).size = partyIdType.text.toList.length + id.toList.length +
      (subId.getD "").toList.length := by
  cases subId <;> rfl

/-- Texts without slashes are segments of their own. -/
theorem split_written (hid : '/' ∉ id.toList) (hsub : ∀ s ∈ subId, '/' ∉ s.toList) :
    split '/' (join '/' (written operation partyIdType id subId)) =
      written operation partyIdType id subId := by
  have hne : written operation partyIdType id subId ≠ [] := by
    simp [written]
  rw [split_join '/' hne, flatMap_split]
  intro segment hsegment
  simp only [written, List.mem_cons, List.mem_append, mem_subSegments] at hsegment
  rcases hsegment with (rfl | rfl | rfl | ⟨s, hs, -, rfl⟩) | hsegment
  · decide
  · cases partyIdType <;> decide
  · exact hid
  · exact hsub s hs
  · split_ifs at hsegment
    · rw [List.mem_singleton] at hsegment
      rw [hsegment]
      decide
    · cases hsegment

/-- What a path ends in. -/
theorem getLast?_written (hid : id ≠ "") (hop : operation ≠ .putPartiesError)
    (hsub : subId ≠ some "") :
    (join '/' (written operation partyIdType id subId)).getLast? =
      (subId.getD id).toList.getLast? := by
  rw [written, if_neg hop, List.append_nil]
  cases subId with
  | none => exact getLast?_join '/' ["parties".toList, partyIdType.text.toList] (by simpa using hid)
  | some s =>
    have hs : s ≠ "" := fun heq => hsub (congrArg some heq)
    simp only [subSegments, if_neg hs]
    exact getLast?_join '/' ["parties".toList, partyIdType.text.toList, id.toList] (by simpa using hs)

/-- A text that is one segment, and is not decoded to another. -/
def Plain (text : String) : Prop := text ≠ "" ∧ '/' ∉ text.toList ∧ '%' ∉ text.toList

/-- What a request that is routed to its handler as it was written says of its texts. -/
theorem addressable_of_route
    (h : PartiesController.route (FspiopAxios.method operation)
      (FspiopAxios.path operation partyIdType id subId) =
        some (operation, asWritten partyIdType id subId)) :
    Url.Undisturbed (join '/' (written operation partyIdType id subId)) ∧
      Plain id ∧ ∀ s ∈ subId, Plain s := by
  obtain ⟨params, hdecode, hnonempty, hsize⟩ := PartiesController.route_spec h
  obtain ⟨hle, hdecoded⟩ := PartiesController.decodeParams_spec hdecode
  rw [path_eq] at hsize
  have hpath := Url.size_pathSegments_le (join '/' (written operation partyIdType id subId))
  have hweight := weight_written operation partyIdType id subId
  have hid := Url.weight_le_length id.toList
  have hsub := Url.weight_le_length (subId.getD "").toList
  rw [size_asWritten] at hle hdecoded
  obtain ⟨rfl, hescapes⟩ := hdecoded (by omega)
  have hslash : '/' ∉ id.toList := Url.weight_eq_length_iff.mp (by omega)
  have hsubSlash : '/' ∉ (subId.getD "").toList := Url.weight_eq_length_iff.mp (by omega)
  have hne := hnonempty.id
  simp only [asWritten, ne_eq, String.toList_eq_nil_iff] at hne
  refine ⟨Url.undisturbed_of_size (by omega), ⟨hne, hslash, hescapes _ (by simp [asWritten])⟩, ?_⟩
  rintro s rfl
  have hsne := hnonempty.subId
  simp only [asWritten, Option.map_some, ne_eq, Option.some.injEq, String.toList_eq_nil_iff] at hsne
  exact ⟨hsne, hsubSlash, hescapes _ (by simp [asWritten])⟩

section Matching

variable (hid : Plain id) (hsub : ∀ s ∈ subId, Plain s)
include hid hsub

theorem matchParties_written (hop : operation ≠ .putPartiesError) :
    PartiesController.matchParties (written operation partyIdType id subId) =
      some (asWritten partyIdType id subId) := by
  have hresource : Url.lower "parties".toList = "parties".toList := by decide
  have htype := (text_plain partyIdType).2.2
  have hidne : id.toList ≠ [] := by simpa using hid.1
  rw [written, if_neg hop, List.append_nil]
  cases subId with
  | none => simp only [subSegments, PartiesController.matchParties, hresource, htype, hidne, ne_eq,
      not_false_eq_true, and_self, if_true, asWritten, Option.map_none]
  | some s =>
    have hs : s ≠ "" := (hsub s rfl).1
    have hsne : s.toList ≠ [] := by simpa using hs
    simp only [subSegments, if_neg hs, PartiesController.matchParties, hresource, htype, hidne, hsne,
      ne_eq, not_false_eq_true, and_self, if_true, asWritten, Option.map_some]

theorem decode_asWritten :
    PartiesController.decodeParams (asWritten partyIdType id subId) =
      some (asWritten partyIdType id subId) := by
  apply PartiesController.decodeParams_eq
  intro segment hsegment
  simp only [asWritten, List.mem_cons, Option.mem_toList] at hsegment
  rcases hsegment with rfl | rfl | hsegment
  · cases partyIdType <;> decide
  · exact hid.2.2
  · obtain ⟨s, hs, rfl⟩ := Option.map_eq_some_iff.mp hsegment
    exact (hsub s hs).2.2

theorem withoutTrailingSlash_written :
    PartiesController.withoutTrailingSlash (written operation partyIdType id subId) =
      written operation partyIdType id subId := by
  rw [PartiesController.withoutTrailingSlash, if_neg]
  intro hlast
  have hmem : [] ∈ written operation partyIdType id subId := List.mem_of_getLast? hlast
  simp only [written, List.mem_cons, List.mem_append, mem_subSegments] at hmem
  rcases hmem with (h | h | h | ⟨s, hs, -, h⟩) | h
  · exact absurd h (by decide)
  · exact (text_plain partyIdType).2.2 h.symm
  · exact hid.1 (by simpa using h.symm)
  · exact (hsub s hs).1 (by simpa using h.symm)
  · split_ifs at h
    · exact absurd (List.mem_singleton.mp h) (by decide)
    · cases h

theorem matchPartiesError_written :
    PartiesController.matchPartiesError (written .putPartiesError partyIdType id subId) =
      some (asWritten partyIdType id subId) := by
  have hwritten : written .putPartiesError partyIdType id subId =
      written .putParties partyIdType id subId ++ ["error".toList] := by
    simp [written]
  have hlower : Url.lower "error".toList = "error".toList := by decide
  rw [PartiesController.matchPartiesError, hwritten, List.getLast?_concat, Option.map_some, hlower,
    if_pos rfl, List.dropLast_concat, matchParties_written hid hsub (by decide)]

/-- A callback is taken for an error exactly if its sub-id is the word. -/
theorem matchPartiesError_putParties :
    PartiesController.matchPartiesError (written .putParties partyIdType id subId) =
      if subId.any (fun s => Url.lower s.toList = "error".toList) then
        some (asWritten partyIdType id none)
      else none := by
  have hwritten : written .putParties partyIdType id subId =
      "parties".toList :: partyIdType.text.toList :: id.toList :: subSegments subId := by
    simp [written]
  rw [PartiesController.matchPartiesError, hwritten]
  cases subId with
  | none =>
    rw [Option.any_none, if_neg Bool.false_ne_true]
    split_ifs
    · rfl
    · rfl
  | some s =>
    have hs : s ≠ "" := (hsub s rfl).1
    have hlast : ("parties".toList :: partyIdType.text.toList :: id.toList ::
        subSegments (some s)).getLast? = some s.toList := by
      simp [subSegments, hs]
    have hdrop : ("parties".toList :: partyIdType.text.toList :: id.toList ::
        subSegments (some s)).dropLast = written .putParties partyIdType id none := by
      simp [subSegments, hs, written]
    rw [hlast, hdrop, Option.map_some, Option.any_some]
    simp only [Option.some.injEq, decide_eq_true_eq]
    rw [matchParties_written hid (by simp) (by decide)]

/-- Where the request for an undisturbed path goes. -/
theorem route_of_undisturbed
    (h : Url.Undisturbed (join '/' (written operation partyIdType id subId))) :
    PartiesController.route (FspiopAxios.method operation)
      (FspiopAxios.path operation partyIdType id subId) =
    if operation = .putParties ∧ subId.any (fun s => Url.lower s.toList = "error".toList) then
      some (.putPartiesError, asWritten partyIdType id none)
    else some (operation, asWritten partyIdType id subId) := by
  have hsegments : PartiesController.withoutTrailingSlash (Url.pathSegments
      ((FspiopAxios.path operation partyIdType id subId).toList.drop 1)) =
        written operation partyIdType id subId := by
    rw [path_eq, Url.pathSegments_eq h, split_written hid.2.1 fun s hs => (hsub s hs).2.1,
      withoutTrailingSlash_written hid hsub]
  have hdecode : PartiesController.decodeParams (asWritten partyIdType id subId) =
      some (asWritten partyIdType id subId) := decode_asWritten hid hsub
  simp only [PartiesController.route, hsegments]
  cases operation with
  | getParties =>
    simp [FspiopAxios.method, matchParties_written hid hsub, hdecode]
  | putParties =>
    simp only [FspiopAxios.method, matchPartiesError_putParties hid hsub, true_and]
    by_cases hword : (subId.any fun s => Url.lower s.toList = "error".toList) = true
    · have hnone : PartiesController.decodeParams (asWritten partyIdType id none) =
          some (asWritten partyIdType id none) := decode_asWritten hid (by simp)
      simp only [hword, if_true, hnone, Option.map_some]
    · have hmatch : PartiesController.matchParties (written .putParties partyIdType id subId) =
          some (asWritten partyIdType id subId) := matchParties_written hid hsub (by decide)
      simp only [if_neg hword, hmatch, hdecode, Option.bind_some, Option.map_some]
  | putPartiesError =>
    simp [FspiopAxios.method, matchPartiesError_written hid hsub, hdecode]

end Matching

theorem reserved_iff {c : Char} : c ∉ ['/', '\\', '?', '#', '%', '\t', '\n', '\r'] ↔
    c ≠ '/' ∧ c ≠ '%' ∧ Url.isTabOrNewline c = false ∧ c ≠ '?' ∧ c ≠ '#' ∧ c ≠ '\\' := by
  simp only [List.mem_cons, List.not_mem_nil, or_false, not_or, Url.isTabOrNewline,
    Bool.or_eq_false_iff, decide_eq_false_iff_not]
  tauto

theorem Literal.plain {text : String} (h : Literal text) : Plain text := by
  refine ⟨h.1, ?_, ?_⟩
  · intro hmem
    exact (reserved_iff.mp (h.2.2.2 '/' hmem)).1 rfl
  · intro hmem
    exact (reserved_iff.mp (h.2.2.2 '%' hmem)).2.1 rfl

theorem Literal.isDot_eq_false {text : String} (h : Literal text) :
    Url.isDot text.toList = false := by
  apply Url.isDot_eq_false h.plain.2.2
  · exact fun heq => h.2.1 (String.toList_inj.mp heq)
  · exact fun heq => h.2.2.1 (String.toList_inj.mp heq)

theorem undisturbed_of_addressable (h : Addressable operation id subId) :
    Url.Undisturbed (join '/' (written operation partyIdType id subId)) := by
  have hmem : ∀ segment ∈ written operation partyIdType id subId,
      ∃ text, Literal text ∧ segment = text.toList := by
    intro segment hsegment
    simp only [written, List.mem_cons, List.mem_append, mem_subSegments] at hsegment
    rcases hsegment with (rfl | rfl | rfl | ⟨s, hs, -, rfl⟩) | hsegment
    · exact ⟨"parties", by decide, rfl⟩
    · exact ⟨_, (text_plain partyIdType).1, rfl⟩
    · exact ⟨id, h.literal, rfl⟩
    · exact ⟨s, h.literal_subId s hs, rfl⟩
    · split_ifs at hsegment
      · exact ⟨"error", by decide, List.mem_singleton.mp hsegment⟩
      · cases hsegment
  have hsub : subId ≠ some "" := by
    rintro rfl
    exact (h.literal_subId "" rfl).1 rfl
  constructor
  · by_cases hop : operation = .putPartiesError
    · have hwritten : written operation partyIdType id subId =
          written .getParties partyIdType id subId ++ ["error".toList] := by
        rw [hop]
        simp [written]
      rw [hwritten, getLast?_join '/' _ (by decide)]
      intro c hc
      obtain rfl : 'r' = c := by simpa using hc
      decide
    · rw [getLast?_written h.literal.1 hop hsub]
      exact h.ending hop
  · intro c hc
    rcases of_mem_join hc with rfl | ⟨segment, hsegment, hc⟩
    · decide
    · obtain ⟨text, htext, rfl⟩ := hmem segment hsegment
      exact (reserved_iff.mp (htext.2.2.2 c hc)).2.2
  · rw [split_written h.literal.plain.2.1 fun s hs => (h.literal_subId s hs).plain.2.1]
    intro segment hsegment
    obtain ⟨text, htext, rfl⟩ := hmem segment hsegment
    exact htext.isDot_eq_false

/-- A request for a party reaches the handler of its operation with the party it names, exactly if
the texts of the party can be written in a path. -/
theorem route_iff (operation : PartiesOperation) (partyIdType : PartyIdType) (id : String)
    (subId : Option String) :
    PartiesController.route (FspiopAxios.method operation)
        (FspiopAxios.path operation partyIdType id subId) =
      some (operation, asWritten partyIdType id subId) ↔
    Addressable operation id subId := by
  constructor
  · intro hroute
    obtain ⟨hund, hid, hsub⟩ := addressable_of_route hroute
    have hsplit : split '/' (join '/' (written operation partyIdType id subId)) =
        written operation partyIdType id subId := split_written hid.2.1 fun s hs => (hsub s hs).2.1
    have hliteral : ∀ text, Plain text →
        text.toList ∈ written operation partyIdType id subId → Literal text := by
      intro text hplain hmem
      rw [← hsplit] at hmem
      have hdot := hund.dots text.toList hmem
      rw [hsplit] at hmem
      refine ⟨hplain.1, ?_, ?_, ?_⟩
      · rintro rfl
        exact absurd hdot (by decide)
      · rintro rfl
        exact absurd hdot (by decide)
      · intro c hc
        rw [reserved_iff]
        refine ⟨?_, ?_, hund.chars c (mem_join hmem hc)⟩
        · rintro rfl
          exact hplain.2.1 hc
        · rintro rfl
          exact hplain.2.2 hc
    have hsubne : subId ≠ some "" := by
      rintro rfl
      exact (hsub "" rfl).1 rfl
    constructor
    · exact hliteral id hid (by simp [written])
    · intro s hs
      apply hliteral s (hsub s hs)
      simp only [written, List.mem_cons, List.mem_append, mem_subSegments]
      exact .inl (.inr (.inr (.inr ⟨s, hs, (hsub s hs).1, rfl⟩)))
    · intro hop
      rw [← getLast?_written hid.1 hop hsubne]
      exact hund.ending
    · rintro rfl s rfl hword
      rw [route_of_undisturbed hid hsub hund, if_pos ⟨rfl, by simpa using hword⟩] at hroute
      cases hroute
  · intro h
    have hplain : ∀ s ∈ subId, Plain s := fun s hs => (h.literal_subId s hs).plain
    rw [route_of_undisturbed h.literal.plain hplain (undisturbed_of_addressable h), if_neg]
    rintro ⟨rfl, hword⟩
    cases subId with
    | none => cases hword
    | some s => exact h.word rfl s rfl (by simpa using hword)

example : PartiesController.route .get "/parties/PERSONAL_ID/1/2" =
    some (.getParties, ⟨"PERSONAL_ID".toList, "1".toList, some "2".toList⟩) := by decide +kernel

/-- A slash in an identifier: the lookup of `1/2` asks for the sub-id `2` of `1`. -/
theorem not_route :
    ¬ ∀ (operation : PartiesOperation) (partyIdType : PartyIdType) (id : String)
      (subId : Option String),
      PartiesController.route (FspiopAxios.method operation)
          (FspiopAxios.path operation partyIdType id subId) =
        some (operation, asWritten partyIdType id subId) := by
  intro h
  have hslash : '/' ∉ "1/2".toList :=
    (addressable_of_route (h .getParties .personalId "1/2" none)).2.1.2.1
  exact hslash (by decide)

end Written
end Inbound
