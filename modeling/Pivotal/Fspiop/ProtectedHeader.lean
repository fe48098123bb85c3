import Pivotal.Fspiop.Errors
import Pivotal.Js.Except
import Pivotal.Js.Value

/-! The protected header of a signature: the metadata of a request, to be signed with its body. -/
namespace Fspiop
open Js

namespace FspiopUri

def resources : List String :=
  ["participants", "parties", "quotes", "transfers", "transactionRequests", "authorizations",
    "bulkQuotes", "bulkTransfers", "fxQuotes", "fxTransfers", "services", "transactions"]

/-- Whether the pattern matches at the start of a path: a resource between slashes, or last. -/
def startsWithResource (path : List Char) : Bool :=
  resources.any fun resource =>
    match stripPrefix ('/' :: resource.toList) path with
    | some rest => rest.head?.all (· = '/')
    | none => false

/-- The path from the first match of the pattern on. -/
def fromResource : List Char → Option (List Char)
  | [] => none
  | c :: path => if startsWithResource (c :: path) then some (c :: path) else fromResource path

/-- What follows the first `://`. -/
def afterScheme : List Char → Option (List Char)
  | ':' :: '/' :: '/' :: rest => some rest
  | _ :: rest => afterScheme rest
  | [] => none

def toPath (requestUrl : List Char) : List Char :=
  let withoutFragment := requestUrl.takeWhile (· ≠ '#')
  let withoutQuery := withoutFragment.takeWhile (· ≠ '?')
  match afterScheme withoutQuery with
  | none => if withoutQuery.head? = some '/' then withoutQuery else '/' :: withoutQuery
  | some authority =>
    match authority.dropWhile (· ≠ '/') with
    | [] => ['/']
    | path => path

def extract (requestUrl : String) : Except JsError String := do
  if trim requestUrl = "" then
    throw (JsError.ofMessage "Cannot derive FSPIOP-URI: the request URL is empty.")
  match fromResource (toPath requestUrl.toList) with
  | some path => return String.ofList path
  | none => throw (JsError.ofMessage ("Cannot derive FSPIOP-URI from '" ++ requestUrl ++
      "': the path contains no known FSPIOP resource name. Known resources: " ++
      ", ".intercalate resources ++
      ". Add the resource to FspiopUri.RESOURCES if this path is legitimate."))

example : (extract "https://hub.example.com/fspiop/quotes/abc?x=1").toOption =
    some "/quotes/abc" := by
  decide +kernel

end FspiopUri

/-- Upper-casing of the basic letters, all that a method contains. -/
def toUpperCase (s : String) : String := String.ofList (s.toList.map Char.toUpper)

namespace FspiopProtectedHeader

/-- The metadata of a request that is signed. -/
structure Input where
  method : String
  uri : String
  source : String
  destination : Option String
  date : Option String
  alg : Option String
  deriving DecidableEq

def defaultAlgorithm : String := "RS256"

/-- An entry that is left out when it is blank. -/
def whenPresent (name : String) (value : Option String) : List (String × String) :=
  match value with
  | some v => if trim v = "" then [] else [(name, v)]
  | none => []

/-- The entries in the order in which they are written. -/
def build (input : Input) : Except JsError (List (String × String)) := do
  if trim input.source = "" then
    throw (JsError.ofMessage
      "Cannot build the FSPIOP protected header: fspiop-source is required.")
  if trim input.method = "" then
    throw (JsError.ofMessage
      "Cannot build the FSPIOP protected header: the HTTP method is required.")
  let uri ← FspiopUri.extract input.uri
  return [("alg", input.alg.getD defaultAlgorithm), ("FSPIOP-URI", uri),
    ("FSPIOP-HTTP-Method", toUpperCase input.method), ("FSPIOP-Source", input.source)] ++
    whenPresent "FSPIOP-Destination" input.destination ++ whenPresent "Date" input.date

theorem whenPresent_names (name : String) (value : Option String) :
    ((whenPresent name value).map Prod.fst).Sublist [name] := by
  unfold whenPresent
  split
  · split
    · exact List.nil_sublist _
    · exact List.Sublist.refl _
  · exact List.nil_sublist _

theorem build_ok {input : Input} {entries : List (String × String)}
    (h : build input = .ok entries) :
    (entries.map Prod.fst).Nodup ∧ ∃ uri, FspiopUri.extract input.uri = .ok uri ∧
      entries = [("alg", input.alg.getD defaultAlgorithm), ("FSPIOP-URI", uri),
        ("FSPIOP-HTTP-Method", toUpperCase input.method), ("FSPIOP-Source", input.source)] ++
        whenPresent "FSPIOP-Destination" input.destination ++ whenPresent "Date" input.date := by
  unfold build at h
  simp only [unless_ok_iff] at h
  obtain ⟨-, -, h⟩ := h
  obtain ⟨uri, huri, h⟩ := bind_ok_iff.mp h
  rw [pure_ok_iff] at h
  subst h
  constructor
  · have hnames : ["alg", "FSPIOP-URI", "FSPIOP-HTTP-Method", "FSPIOP-Source",
        "FSPIOP-Destination", "Date"].Nodup := by decide
    rw [List.map_append, List.map_append]
    apply List.Nodup.sublist _ hnames
    exact ((List.Sublist.refl _).append (whenPresent_names _ _)).append (whenPresent_names _ _)
  · exact ⟨uri, huri, rfl⟩

end FspiopProtectedHeader
end Fspiop
