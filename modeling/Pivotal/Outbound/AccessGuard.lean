import Pivotal.Async.Program
import Pivotal.Fspiop.InboundGuard
import Pivotal.Js.HttpDate

/-! The guard before the endpoints for DFSPs, which verifies the token of a request with the
access key of its source: over the body of the request, or, where there is none, over its
method, its path, its date and a nonce. -/
namespace Outbound
open Js Fspiop Fspiop.FspiopHeaders
open Async.Program (perform lift)

namespace Jwt

/-- The parts of a compact token. -/
structure Token where
  header : String
  body : String
  signature : String
  deriving DecidableEq

def Token.full (token : Token) : String :=
  token.header ++ "." ++ token.body ++ "." ++ token.signature

/-- The text that the signature of a token is of. -/
def Token.signingInput (token : Token) : String := token.header ++ "." ++ token.body

def decode (base64Url : String) : String := (Buffer.fromBase64Url base64Url).toUtf8

def encode (json : String) : String := (Buffer.fromUtf8 json).toBase64Url

end Jwt

/-- The calls of the guard. -/
inductive AccessOp where
  | now
  | reserve (key : String) (ttlMs : ℤ)
  deriving DecidableEq

@[reducible] def AccessAnswer : AccessOp → Type
  | .now => Js.Date
  | .reserve _ _ => Except JsError Bool

abbrev AccessProgram := Async.Program AccessOp AccessAnswer JsError

/-- How an endpoint is marked. -/
structure Access where
  isPublic : Bool
  isSignedGet : Bool
  deriving DecidableEq

/-- The access keys that are registered, by participant. -/
abbrev AccessKeys (κ : Type) := String → Option κ

/-- `jwtVerify now key token` is what `jsonwebtoken` returns for a token, or nothing where it
throws, and `localeLe` is the order of `localeCompare`. -/
structure AccessGuard (ν κ : Type) where
  numbers : Numbers ν
  localeLe : Units → Units → Bool
  jwtVerify : Js.Date → κ → String → Option (Value ν)
  policyEnabled : Bool

/-! Tokens as they stand in a header. -/

namespace Jwt

theorem decode_encode (json : String) : decode (encode json) = json := by
  unfold decode encode
  rw [Buffer.fromBase64Url_toBase64Url, Buffer.toUtf8_fromUtf8]

theorem encode_ne_empty {json : String} (h : json ≠ "") : encode json ≠ "" := by
  intro hempty
  have hdecode := decode_encode json
  rw [hempty] at hdecode
  have hnone : decode "" = "" := rfl
  exact h (hdecode.symm.trans hnone)

/-- A character that neither ends a part of a token nor is trimmed away. -/
def isPartChar (c : Char) : Bool := c ≠ '.' && !isWhiteSpace c

theorem isPartChar_sextetChar : ∀ n < 64, isPartChar (Buffer.sextetChar n) = true := by
  decide +kernel

theorem isPartChar_encode (json : String) : (encode json).toList.all isPartChar = true := by
  unfold encode Buffer.toBase64Url
  rw [String.toList_ofList, List.all_eq_true]
  intro c hc
  obtain ⟨n, hn, rfl⟩ := List.mem_map.mp hc
  exact isPartChar_sextetChar n (Buffer.toSextets_lt hn)

theorem split_part {cs : List Char} (h : cs.all isPartChar = true) : split '.' cs = [cs] := by
  induction cs with
  | nil => rfl
  | cons c cs ih =>
    rw [List.all_cons, Bool.and_eq_true] at h
    have hc : c ≠ '.' := by
      rintro rfl
      exact absurd h.1 (by decide)
    rw [split, ih h.2]
    dsimp only
    rw [if_neg hc]

theorem split_cons {cs : List Char} (h : cs.all isPartChar = true) (rest : List Char) :
    split '.' (cs ++ '.' :: rest) = cs :: split '.' rest := by
  induction cs with
  | nil =>
    rw [List.nil_append, split]
    split
    · rename_i hnil
      exact absurd hnil (split_ne_nil '.' rest)
    · rename_i hrest
      rw [if_pos rfl, hrest]
  | cons c cs ih =>
    rw [List.all_cons, Bool.and_eq_true] at h
    have hc : c ≠ '.' := by
      rintro rfl
      exact absurd h.1 (by decide)
    rw [List.cons_append, split, ih h.2]
    dsimp only
    rw [if_neg hc]

/-- Every part but the signature is there, and every part is of such characters. -/
structure Token.Compact (token : Token) : Prop where
  header_ne : token.header ≠ ""
  body_ne : token.body ≠ ""
  header : token.header.toList.all isPartChar = true
  body : token.body.toList.all isPartChar = true
  signature : token.signature.toList.all isPartChar = true

theorem Token.full_toList (token : Token) : token.full.toList =
    token.header.toList ++ '.' :: (token.body.toList ++ '.' :: token.signature.toList) := by
  simp [Token.full]

theorem Token.Compact.solid {token : Token} (h : token.Compact) :
    ∀ c ∈ token.full.toList, isWhiteSpace c = false := by
  have hpart : ∀ {cs : List Char}, cs.all isPartChar = true → ∀ c ∈ cs, isWhiteSpace c = false := by
    intro cs hcs c hc
    have hchar := List.all_eq_true.mp hcs c hc
    rw [isPartChar, Bool.and_eq_true, Bool.not_eq_true'] at hchar
    exact hchar.2
  intro c hc
  rw [Token.full_toList, List.mem_append, List.mem_cons, List.mem_append, List.mem_cons] at hc
  rcases hc with hc | rfl | hc | rfl | hc
  · exact hpart h.header c hc
  · rfl
  · exact hpart h.body c hc
  · rfl
  · exact hpart h.signature c hc

end Jwt

namespace AccessGuard

variable {ν κ : Type} (guard : AccessGuard ν κ)

def authorizationHeaderName : String := "authorization"

def signedLookupFreshnessMs : ℤ := 5 * 60 * 1000

def nonceKeyPrefix : String := "nonce:"

def nonceTtlMs : ℤ := 10 * 60 * 1000

def invalidSignature (message : String) : JsError := reject FspiopErrors.invalidSignature message

/-- The trimmed value of a header. -/
def requireHeader (request : Request ν) (name : String) : Except JsError String := do
  let some raw := request.headers name
    | throw (reject FspiopErrors.missingMandatoryElement
        ("Missing mandatory header: " ++ name ++ "."))
  let value := trim raw
  if value = "" then
    throw (reject FspiopErrors.missingMandatoryElement
      ("Header " ++ name ++ " must not be empty."))
  return value

/-- `authorization.replace(/^Bearer[ \t]+/i, '')` -/
def removeBearer (cs : List Char) : List Char :=
  let isBlank (c : Char) : Bool := c = ' ' || c = '\t'
  if (cs.take 6).map Char.toLower = "bearer".toList ∧ ((cs.drop 6).head?.any isBlank) = true then
    (cs.drop 6).dropWhile isBlank
  else cs

def requireAuthorization (request : Request ν) : Except JsError String := do
  let authorization ← requireHeader request authorizationHeaderName
  return trim (String.ofList (removeBearer authorization.toList))

def toToken (authorization : String) : Except JsError Jwt.Token :=
  let malformed := reject FspiopErrors.malformedSyntax
    "Header authorization must be a valid compact JWS token."
  match split '.' authorization.toList with
  | [header, body, signature] =>
    if header = [] ∨ body = [] then .error malformed
    else .ok ⟨String.ofList header, String.ofList body, String.ofList signature⟩
  | _ => .error malformed

/-- The token of a request. -/
def carriedToken (request : Request ν) : Except JsError Jwt.Token := do
  toToken (← requireAuthorization request)

def resolveSourceAndKey (keys : AccessKeys κ) (request : Request ν) :
    Except JsError (String × κ) := do
  let source ← requireHeader request Names.fspiopSource
  let some publicKey := keys source
    | throw (invalidSignature
        ("No trusted access public key registered for fspiop-source: '" ++ source ++ "'."))
  return (source, publicKey)

/-- `Jwt.verify`: the token is verified, and its content is an object. -/
def verifyToken (now : Js.Date) (publicKey : κ) (token : Jwt.Token) : Bool :=
  match guard.jwtVerify now publicKey token.full with
  | some (.object _) => true
  | _ => false

/-- The object that a part of a token is the text of. -/
def decodeTokenObject (encodedValue errorMessage : String) :
    Except JsError (List (Units × Value ν)) :=
  match Value.parse guard.numbers (Jwt.decode encodedValue) with
  | some (.object fields) => .ok fields
  | _ => .error (reject FspiopErrors.malformedSyntax errorMessage)

def decodePayload (token : Jwt.Token) : Except JsError (List (Units × Value ν)) :=
  guard.decodeTokenObject token.body "Header authorization payload must be a valid JSON object."

/-- The body of the request, or the value of its date header. -/
def resolvePayload (request : Request ν) : List (Units × Value ν) :=
  match request.body with
  | some (.object (field :: fields)) => field :: fields
  | _ => [(units Names.date, .string (units ((request.headers Names.date).getD "")))]

section Canonical

/-- Texts with a comma between each and the next. -/
def commaJoin : List (List Char) → List Char
  | [] => []
  | [cs] => cs
  | cs :: rest => cs ++ ',' :: commaJoin rest

def sortByKey {α : Type} (entries : List (Units × α)) : List (Units × α) :=
  entries.insertionSort fun left right => guard.localeLe left.1 right.1 = true

def objectChars (entries : List (Units × List Char)) : List Char :=
  '\x7b' :: commaJoin ((guard.sortByKey entries).map fun (key, cs) => Value.quote key ++ ':' :: cs) ++
    ['\x7d']

mutual

def canonicalChars : Value ν → List Char
  | .array items => '[' :: commaJoin (canonicalItems items) ++ [']']
  | .object fields => guard.objectChars (canonicalFields fields)
  | .null => Value.chars guard.numbers .null
  | .bool b => Value.chars guard.numbers (.bool b)
  | .number n => Value.chars guard.numbers (.number n)
  | .string s => Value.chars guard.numbers (.string s)

def canonicalItems : List (Value ν) → List (List Char)
  | [] => []
  | item :: items => canonicalChars item :: canonicalItems items

def canonicalFields : List (Units × Value ν) → List (Units × List Char)
  | [] => []
  | (key, value) :: fields => (key, canonicalChars value) :: canonicalFields fields

end

/-- `toCanonicalJson` of an object. -/
def toCanonicalJson (fields : List (Units × Value ν)) : List Char :=
  guard.canonicalChars (.object fields)

end Canonical

def verifyPayloadSignature (keys : AccessKeys κ) (now : Js.Date) (request : Request ν) :
    Except JsError Unit := do
  let (_, publicKey) ← resolveSourceAndKey keys request
  let authorization ← requireAuthorization request
  let token ← toToken authorization
  if ¬ guard.verifyToken now publicKey token then
    throw (invalidSignature "Authorization signature verification failed.")
  let tokenPayload ← guard.decodePayload token
  if guard.toCanonicalJson (resolvePayload request) ≠ guard.toCanonicalJson tokenPayload then
    throw (invalidSignature "Authorization payload does not match request body.")

def validateFreshDate (now : Js.Date) (date : String) : Except JsError Unit := do
  let invalid := invalidSignature "Header date must be a valid RFC 7231 HTTP-date."
  let some timestamp := parseUtcString date | throw invalid
  if toUTCString timestamp ≠ date then
    throw invalid
  if |now - timestamp| > signedLookupFreshnessMs then
    throw (invalidSignature "Header date is outside the allowed clock window.")

def toRequiredProtectedString (value : Option (Value ν)) (name : String) :
    Except JsError Units :=
  let malformed := reject FspiopErrors.malformedSyntax ("Authorization protected header " ++ name ++
    " must be a non-empty string of at most 128 characters.")
  match value with
  | some (.string s) =>
    if trim (ofUnits s) = "" ∨ s.length > 128 then .error malformed else .ok s
  | _ => .error malformed

/-- The key under which a nonce is reserved. -/
def nonceKey (source : String) (nonce : Units) : String :=
  nonceKeyPrefix ++ source ++ ":" ++ ofUnits nonce

/-- What `verifySignedGet` does before it reserves the nonce: the key of the reservation. -/
def checkSignedGet (keys : AccessKeys κ) (now : Js.Date) (request : Request ν) :
    Except JsError String := do
  let (source, publicKey) ← resolveSourceAndKey keys request
  let date ← requireHeader request Names.date
  let authorization ← requireAuthorization request
  let token ← toToken authorization
  let protectedHeader ← guard.decodeTokenObject token.header
    "Header authorization protected header must be a valid JSON object."
  let payload ← guard.decodePayload token
  let signed (name text : String) :=
    FspiopSignature.isText (FspiopSignature.field protectedHeader name) text
  if ¬ signed "alg" "RS256" then
    throw (invalidSignature "Authorization algorithm must be RS256.")
  if ¬ signed "typ" "JWT" then
    throw (invalidSignature "Authorization typ must be JWT.")
  if ¬ guard.verifyToken now publicKey token then
    throw (invalidSignature "Authorization signature verification failed.")
  if token.body ≠ "e30" ∨ payload ≠ [] then
    throw (invalidSignature "Authorization payload must be the empty JSON object.")
  if ¬ signed "uri" request.url then
    throw (invalidSignature "Authorization uri does not match the request path.")
  if ¬ signed "method" request.method then
    throw (invalidSignature "Authorization method does not match the request method.")
  if ¬ signed "date" date then
    throw (invalidSignature "Authorization date does not match the date header.")
  validateFreshDate now date
  let nonce ← toRequiredProtectedString (FspiopSignature.field protectedHeader "nonce") "nonce"
  return nonceKey source nonce

def verifySignedGet (keys : AccessKeys κ) (request : Request ν) : AccessProgram Unit := do
  let now ← perform .now
  let key ← lift (guard.checkSignedGet keys now request)
  let reserved : Bool ← lift (← perform (.reserve key nonceTtlMs))
  if ¬ reserved then
    throw (invalidSignature "Authorization nonce has already been used.")

def canActivate (keys : AccessKeys κ) (access : Access) (request : Request ν) :
    AccessProgram Bool := do
  if access.isPublic then
    return true
  if access.isSignedGet then
    guard.verifySignedGet keys request
    return true
  if ¬ guard.policyEnabled then
    return true
  let now ← perform .now
  lift (guard.verifyPayloadSignature keys now request)
  return true

/-! What the guard lets through. -/

/-- The token of the request was verified with the key of its source, and its payload and that
of the request are written alike. -/
structure PayloadSigned (keys : AccessKeys κ) (now : Js.Date) (request : Request ν)
    (source : String) (publicKey : κ) (token : Jwt.Token) : Prop where
  sourced : requireHeader request Names.fspiopSource = .ok source
  keyed : keys source = some publicKey
  carried : carriedToken request = .ok token
  verified : guard.verifyToken now publicKey token = true
  matched : ∃ payload, guard.decodePayload token = .ok payload ∧
    guard.toCanonicalJson (resolvePayload request) = guard.toCanonicalJson payload

/-- The token of the request was verified with the key of its source, and its header names the
request, a date of about now and a nonce. -/
structure GetSigned (keys : AccessKeys κ) (now : Js.Date) (request : Request ν)
    (source : String) (token : Jwt.Token) (nonce : Units) (timestamp : Js.Date) : Prop where
  sourced : requireHeader request Names.fspiopSource = .ok source
  carried : carriedToken request = .ok token
  verified : ∃ publicKey, keys source = some publicKey ∧
    guard.verifyToken now publicKey token = true
  empty : token.body = "e30" ∧ guard.decodePayload token = .ok []
  named : ∃ fields, guard.decodeTokenObject token.header
      "Header authorization protected header must be a valid JSON object." = .ok fields ∧
    FspiopSignature.isText (FspiopSignature.field fields "alg") "RS256" = true ∧
    FspiopSignature.isText (FspiopSignature.field fields "typ") "JWT" = true ∧
    FspiopSignature.isText (FspiopSignature.field fields "uri") request.url = true ∧
    FspiopSignature.isText (FspiopSignature.field fields "method") request.method = true ∧
    FspiopSignature.isText (FspiopSignature.field fields "date") (toUTCString timestamp) = true ∧
    toRequiredProtectedString (FspiopSignature.field fields "nonce") "nonce" = .ok nonce
  dated : requireHeader request Names.date = .ok (toUTCString timestamp) ∧
    parseUtcString (toUTCString timestamp) = some timestamp
  fresh : |now - timestamp| ≤ signedLookupFreshnessMs

variable {guard} {keys : AccessKeys κ} {now : Js.Date} {request : Request ν}

theorem resolveSourceAndKey_ok_iff {source : String} {publicKey : κ} :
    resolveSourceAndKey keys request = .ok (source, publicKey) ↔
      requireHeader request Names.fspiopSource = .ok source ∧ keys source = some publicKey := by
  unfold resolveSourceAndKey
  rw [bind_ok_iff]
  constructor
  · rintro ⟨source', hsource, h⟩
    split at h
    · rename_i publicKey' hkey
      cases h
      exact ⟨hsource, hkey⟩
    · cases h
  · rintro ⟨hsource, hkey⟩
    exact ⟨source, hsource, by simp [hkey, pure_ok_iff]⟩

theorem validateFreshDate_ok_iff {date : String} :
    validateFreshDate now date = .ok () ↔ ∃ timestamp, parseUtcString date = some timestamp ∧
      toUTCString timestamp = date ∧ |now - timestamp| ≤ signedLookupFreshnessMs := by
  unfold validateFreshDate
  dsimp only
  split
  · rename_i timestamp hparse
    rw [unless_ok_iff, not_not]
    constructor
    · rintro ⟨htext, h⟩
      refine ⟨timestamp, hparse, htext, ?_⟩
      by_contra hlate
      rw [if_pos (not_le.mp hlate)] at h
      cases h
    · rintro ⟨timestamp', hparse', htext, hfresh⟩
      obtain rfl : timestamp = timestamp' := Option.some.inj (hparse.symm.trans hparse')
      exact ⟨htext, if_neg (not_lt.mpr hfresh)⟩
  · rename_i hnone
    constructor
    · intro h
      cases h
    · rintro ⟨timestamp, hparse, -⟩
      exact absurd hparse (hnone timestamp)

theorem verifyPayloadSignature_ok_iff :
    guard.verifyPayloadSignature keys now request = .ok () ↔
      ∃ source publicKey token, guard.PayloadSigned keys now request source publicKey token := by
  unfold verifyPayloadSignature
  constructor
  · intro h
    obtain ⟨⟨source, publicKey⟩, hkey, h⟩ := bind_ok_iff.mp h
    obtain ⟨authorization, hauthorization, h⟩ := bind_ok_iff.mp h
    obtain ⟨token, htoken, h⟩ := bind_ok_iff.mp h
    obtain ⟨hsource, hkey⟩ := resolveSourceAndKey_ok_iff.mp hkey
    rw [unless_ok_iff, not_not] at h
    obtain ⟨payload, hpayload, h⟩ := bind_ok_iff.mp h.2
    refine ⟨source, publicKey, token, hsource, hkey, ?_, ‹_ ∧ _›.1, payload, hpayload, ?_⟩
    · exact bind_ok_iff.mpr ⟨authorization, hauthorization, htoken⟩
    · by_contra hdiffer
      rw [if_pos hdiffer] at h
      cases h
  · rintro ⟨source, publicKey, token, hsource, hkey, hcarried, hverified, payload, hpayload, hsame⟩
    obtain ⟨authorization, hauthorization, htoken⟩ := bind_ok_iff.mp hcarried
    refine bind_ok_iff.mpr ⟨_, resolveSourceAndKey_ok_iff.mpr ⟨hsource, hkey⟩, ?_⟩
    refine bind_ok_iff.mpr ⟨_, hauthorization, bind_ok_iff.mpr ⟨_, htoken, ?_⟩⟩
    rw [unless_ok_iff, not_not]
    exact ⟨hverified, bind_ok_iff.mpr ⟨_, hpayload, if_neg (not_not.mpr hsame)⟩⟩

theorem checkSignedGet_ok_iff {key : String} :
    guard.checkSignedGet keys now request = .ok key ↔ ∃ source token nonce timestamp,
      guard.GetSigned keys now request source token nonce timestamp ∧
        key = nonceKey source nonce := by
  unfold checkSignedGet
  constructor
  · intro h
    obtain ⟨⟨source, publicKey⟩, hkey, h⟩ := bind_ok_iff.mp h
    obtain ⟨date, hdate, h⟩ := bind_ok_iff.mp h
    obtain ⟨authorization, hauthorization, h⟩ := bind_ok_iff.mp h
    obtain ⟨token, htoken, h⟩ := bind_ok_iff.mp h
    obtain ⟨fields, hfields, h⟩ := bind_ok_iff.mp h
    obtain ⟨payload, hpayload, h⟩ := bind_ok_iff.mp h
    obtain ⟨hsource, hkey⟩ := resolveSourceAndKey_ok_iff.mp hkey
    simp only [unless_ok_iff, not_not, not_or] at h
    obtain ⟨halg, htyp, hverified, ⟨hbody, rfl⟩, huri, hmethod, hsigned, h⟩ := h
    obtain ⟨⟨⟩, hfresh, h⟩ := bind_ok_iff.mp h
    obtain ⟨nonce, hnonce, hreturn⟩ := bind_ok_iff.mp h
    obtain ⟨timestamp, hparse, rfl, hclose⟩ := validateFreshDate_ok_iff.mp hfresh
    refine ⟨source, token, nonce, timestamp, ?_, (pure_ok_iff.mp hreturn).symm⟩
    exact ⟨hsource, bind_ok_iff.mpr ⟨_, hauthorization, htoken⟩, ⟨publicKey, hkey, hverified⟩,
      ⟨hbody, hpayload⟩, ⟨fields, hfields, halg, htyp, huri, hmethod, hsigned, hnonce⟩,
      ⟨hdate, hparse⟩, hclose⟩
  · rintro ⟨source, token, nonce, timestamp, h, rfl⟩
    obtain ⟨publicKey, hkey, hverified⟩ := h.verified
    obtain ⟨authorization, hauthorization, htoken⟩ := bind_ok_iff.mp h.carried
    obtain ⟨fields, hfields, halg, htyp, huri, hmethod, hsigned, hnonce⟩ := h.named
    have hfresh := validateFreshDate_ok_iff.mpr ⟨timestamp, h.dated.2, rfl, h.fresh⟩
    refine bind_ok_iff.mpr ⟨_, resolveSourceAndKey_ok_iff.mpr ⟨h.sourced, hkey⟩, ?_⟩
    refine bind_ok_iff.mpr ⟨_, h.dated.1, bind_ok_iff.mpr ⟨_, hauthorization, ?_⟩⟩
    refine bind_ok_iff.mpr ⟨_, htoken, bind_ok_iff.mpr ⟨_, hfields, ?_⟩⟩
    refine bind_ok_iff.mpr ⟨_, h.empty.2, ?_⟩
    simp only [unless_ok_iff, not_not, not_or]
    exact ⟨halg, htyp, hverified, ⟨h.empty.1, trivial⟩, huri, hmethod, hsigned,
      bind_ok_iff.mpr ⟨_, hfresh, bind_ok_iff.mpr ⟨_, hnonce, rfl⟩⟩⟩

/-- The header of a token fixes its date and its nonce. -/
theorem GetSigned.unique {keys' : AccessKeys κ} {now' : Js.Date} {request' : Request ν}
    {source source' : String} {token : Jwt.Token} {nonce nonce' : Units}
    {timestamp timestamp' : Js.Date}
    (h : guard.GetSigned keys now request source token nonce timestamp)
    (h' : guard.GetSigned keys' now' request' source' token nonce' timestamp') :
    timestamp = timestamp' ∧ nonce = nonce' := by
  obtain ⟨fields, hfields, -, -, -, -, hsigned, hnonce⟩ := h.named
  obtain ⟨fields', hfields', -, -, -, -, hsigned', hnonce'⟩ := h'.named
  obtain rfl : fields = fields' := Except.ok.inj (hfields.symm.trans hfields')
  have htext : toUTCString timestamp = toUTCString timestamp' :=
    FspiopSignature.text_unique hsigned hsigned'
  constructor
  · have hparse := h.dated.2
    rw [htext, h'.dated.2] at hparse
    exact (Option.some.inj hparse).symm
  · exact Except.ok.inj (hnonce.symm.trans hnonce')

/-- A compact token is what its header carries. -/
theorem carriedToken_full {token : Jwt.Token} (hcompact : token.Compact)
    (h : request.headers authorizationHeaderName = some token.full) :
    carriedToken request = .ok token := by
  have hsolid := hcompact.solid
  have htrim : trim token.full = token.full := by
    rw [trim, trimChars_of_solid hsolid, String.ofList_toList]
  have hne : token.full ≠ "" := by
    intro hempty
    have hchars := congrArg String.toList hempty
    rw [Jwt.Token.full_toList] at hchars
    simp at hchars
  have hbearer : removeBearer token.full.toList = token.full.toList := by
    unfold removeBearer
    apply if_neg
    rintro ⟨-, hblank⟩
    obtain ⟨c, hc, hspace⟩ := (Option.any_eq_true _ _).mp hblank
    have hmem : c ∈ token.full.toList := List.mem_of_mem_drop (List.mem_of_mem_head? hc)
    have hwhite := hsolid c hmem
    simp only [Bool.or_eq_true, decide_eq_true_eq] at hspace
    rcases hspace with rfl | rfl
    · exact absurd hwhite (by decide)
    · exact absurd hwhite (by decide)
  have hrequire : requireHeader request authorizationHeaderName = .ok token.full := by
    unfold requireHeader
    rw [h]
    simp only [htrim, if_neg hne]
    rfl
  have hauthorization : requireAuthorization request = .ok token.full := by
    refine bind_ok_iff.mpr ⟨_, hrequire, ?_⟩
    rw [hbearer, String.ofList_toList, htrim]
    rfl
  refine bind_ok_iff.mpr ⟨_, hauthorization, ?_⟩
  unfold toToken
  rw [Jwt.Token.full_toList, Jwt.split_cons hcompact.header, Jwt.split_cons hcompact.body,
    Jwt.split_part hcompact.signature]
  have hparts : ¬ (token.header.toList = [] ∨ token.body.toList = []) := by
    simp [hcompact.header_ne, hcompact.body_ne]
  simp only [if_neg hparts, String.ofList_toList]

theorem verifyToken_of_object {publicKey : κ} {token : Jwt.Token}
    {fields : List (Units × Value ν)}
    (h : guard.jwtVerify now publicKey token.full = some (.object fields)) :
    guard.verifyToken now publicKey token = true := by
  unfold verifyToken
  rw [h]

/-- What an object is written and encoded as is decoded to it. -/
theorem decodeTokenObject_encode (value : Value ν) {fields : List (Units × Value ν)}
    (h : value.reread guard.numbers = .object fields) (errorMessage : String) :
    guard.decodeTokenObject (Jwt.encode (value.stringify guard.numbers)) errorMessage =
      .ok fields := by
  unfold decodeTokenObject
  rw [Jwt.decode_encode, Value.parse_stringify, h]

theorem PayloadSigned.unique {source source' : String} {publicKey publicKey' : κ}
    {token token' : Jwt.Token} (h : guard.PayloadSigned keys now request source publicKey token)
    (h' : guard.PayloadSigned keys now request source' publicKey' token') :
    source = source' ∧ publicKey = publicKey' ∧ token = token' := by
  obtain rfl : source = source' := Except.ok.inj (h.sourced.symm.trans h'.sourced)
  exact ⟨rfl, Option.some.inj (h.keyed.symm.trans h'.keyed),
    Except.ok.inj (h.carried.symm.trans h'.carried)⟩

end AccessGuard

/-! Sample data for concrete runs. -/

/-- Tokens are signed with the name of their key. -/
def sampleJwtVerify (_ : Js.Date) (publicKey full : String) : Option (Value (List Char)) :=
  match split '.' full.toList with
  | [_, body, signature] =>
    if signature = publicKey.toList then
      Value.parse literals (Jwt.decode (String.ofList body))
    else none
  | _ => none

/-- The access key of each participant is its name. -/
def sampleAccessGuard : AccessGuard (List Char) String :=
  ⟨literals, fun _ _ => true, sampleJwtVerify, true⟩

theorem sampleJwtVerify_full {token : Jwt.Token} (h : token.Compact) (now : Js.Date) :
    sampleJwtVerify now token.signature token.full = Value.parse literals (Jwt.decode token.body) := by
  unfold sampleJwtVerify
  rw [Jwt.Token.full_toList, Jwt.split_cons h.header, Jwt.split_cons h.body,
    Jwt.split_part h.signature]
  simp only [if_true, String.ofList_toList]

/-- A token of an object, signed by a participant. -/
theorem sampleAccessGuard_verifyToken {token : Jwt.Token} (h : token.Compact) (now : Js.Date)
    {value : Value (List Char)} {fields : List (Units × Value (List Char))}
    (hbody : token.body = Jwt.encode (value.stringify literals))
    (hfields : value.reread literals = .object fields) :
    sampleAccessGuard.verifyToken now token.signature token = true := by
  apply AccessGuard.verifyToken_of_object
  rw [← hfields, ← Value.parse_stringify, ← Jwt.decode_encode (value.stringify literals), ← hbody]
  exact sampleJwtVerify_full h now

end Outbound
