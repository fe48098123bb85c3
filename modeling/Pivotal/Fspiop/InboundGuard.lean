import Pivotal.Fspiop.Signature
import Pivotal.Js.Map

/-! The guard before every inbound endpoint, which verifies the signature of a request. -/
namespace Fspiop
open Js

inductive FspiopVerifyMode where
  | off | verifyIfPresent | require
  deriving DecidableEq

/-- A request as the framework hands it over, its body parsed. -/
structure Request (ν : Type) where
  method : String
  url : String
  headers : String → Option String
  body : Option (Value ν)

namespace FspiopHeaders.Names

def fspiopSource : String := "fspiop-source"
def fspiopDestination : String := "fspiop-destination"
def fspiopSignature : String := "fspiop-signature"
def fspiopUri : String := "fspiop-uri"
def date : String := "date"

end FspiopHeaders.Names

/-- Requests accepted unsigned, by source. -/
abbrev UnsignedAccepted := Js.Map String ℕ

structure FspInboundGuard (ν π κ : Type) where
  engine : Engine ν
  rsa : Rsa π κ
  publicKeyStore : String → Option κ
  useJws : Bool
  verifyMode : String → FspiopVerifyMode

namespace FspInboundGuard

open FspiopHeaders

variable {ν π κ : Type} (guard : FspInboundGuard ν π κ)

/-- `Object.keys(value).length` -/
def keyCount : Value ν → ℕ
  | .object fields => fields.length
  | .array items => items.length
  | .string s => s.length
  | _ => 0

def resolveBody (request : Request ν) : Option String :=
  match request.body with
  | none => none
  | some .null => none
  | some body => if keyCount body = 0 then none else some (body.stringify guard.engine.numbers)

/-- Whether a value counts as true. -/
def truthy : Value ν → Bool
  | .null => false
  | .bool b => b
  | .number n => guard.engine.numbers.write n ≠ some ['0']
  | .string s => s ≠ []
  | .array _ => true
  | .object _ => true

/-- A member of the value of the signature header, which must be there and count as true. -/
def member (value : Value ν) (name : String) : Option (Value ν) :=
  match value with
  | .object fields => (FspiopSignature.field fields name).filter guard.truthy
  | _ => none

def missingFields : JsError := reject FspiopErrors.missingMandatoryElement
  "Header fspiop-signature is missing required fields: \"signature\" and/or \"protectedHeader\"."

/-- The signature and the protected header of a signature header. -/
def parseSignature (rawSignature : String) : Except JsError (Value ν × Value ν) :=
  match Value.parse guard.engine.numbers rawSignature with
  | none => .error (reject FspiopErrors.malformedSyntax
      "Header fspiop-signature must be a valid JSON object.")
  | some .null => .error JsError.typeError
  | some value =>
    match guard.member value "signature", guard.member value "protectedHeader" with
    | some signature, some protectedHeader => .ok (signature, protectedHeader)
    | _, _ => .error missingFields

def countUnsignedAccepted (counts : UnsignedAccepted) (source : String) : UnsignedAccepted :=
  counts.set source ((counts.get source).getD 0 + 1)

def mismatch (field subject : String) : JsError :=
  reject FspiopErrors.invalidSignature ("Signed " ++ field ++ " does not match the " ++ subject ++
    ".")

def assertHeaderMatchesRequest (protectedHeader : Value ν) (request : Request ν)
    (source : String) : Except JsError Unit := do
  let some fields := FspiopSignature.decodeProtectedHeader guard.engine protectedHeader
    | throw (reject FspiopErrors.malformedSyntax
        "Header fspiop-signature carries a protectedHeader that is not valid JSON.")
  let signed (name text : String) := FspiopSignature.isText (FspiopSignature.field fields name) text
  if ¬ signed "FSPIOP-Source" source then
    throw (mismatch "FSPIOP-Source" "fspiop-source header")
  if ¬ signed "FSPIOP-HTTP-Method" (toUpperCase request.method) then
    throw (mismatch "FSPIOP-HTTP-Method" "request method")
  let some uri := request.headers Names.fspiopUri
    | throw (reject FspiopErrors.missingMandatoryElement "Missing mandatory header: fspiop-uri.")
  if ¬ signed "FSPIOP-URI" uri then
    throw (mismatch "FSPIOP-URI" "fspiop-uri header")
  match request.headers Names.fspiopDestination with
  | some destination =>
    if ¬ signed "FSPIOP-Destination" destination then
      throw (mismatch "FSPIOP-Destination" "fspiop-destination header")
  | none => pure ()

/-- The part of the guard that is for requests with a signature. -/
def verifySigned (request : Request ν) (source rawSignature : String) : Except JsError Unit := do
  let some publicKey := guard.publicKeyStore source
    | throw (reject FspiopErrors.invalidSignature
        ("No trusted public key registered for fspiop-source: '" ++ source ++ "'."))
  let (signature, protectedHeader) ← guard.parseSignature rawSignature
  let some body := guard.resolveBody request
    | throw (reject FspiopErrors.invalidSignature
        "A bodyless request cannot carry a verifiable JWS signature.")
  if ¬ FspiopSignature.verify guard.engine guard.rsa publicKey signature protectedHeader body then
    throw (reject FspiopErrors.invalidSignature "JWS signature verification failed.")
  guard.assertHeaderMatchesRequest protectedHeader request source

/-- The answer of the guard, with the counts after the request. -/
def canActivate (counts : UnsignedAccepted) (request : Request ν) :
    Except JsError (Bool × UnsignedAccepted) := do
  if guard.useJws = false then return (true, counts)
  let missingSource := reject FspiopErrors.missingMandatoryElement
    "Missing mandatory header: fspiop-source."
  let some source := request.headers Names.fspiopSource | throw missingSource
  if source = "" then throw missingSource
  let mode := guard.verifyMode source
  if mode = .off then return (true, counts)
  let rawSignature := request.headers Names.fspiopSignature
  let body := guard.resolveBody request
  if rawSignature = none ∧ body = none then return (true, counts)
  -- A header that is there but empty counts as no signature.
  if rawSignature.getD "" = "" ∧ mode = .verifyIfPresent then
    return (true, countUnsignedAccepted counts source)
  if rawSignature.getD "" = "" then
    throw (reject FspiopErrors.missingMandatoryElement
      "Missing mandatory header: fspiop-signature.")
  guard.verifySigned request source (rawSignature.getD "")
  return (true, counts)

/-- The signature of the request was verified with the key of its source, over its body. -/
structure Verified (request : Request ν) (source : String) (publicKey : κ)
    (signature protectedHeader : Value ν) (body : String) : Prop where
  sourced : request.headers Names.fspiopSource = some source
  keyed : guard.publicKeyStore source = some publicKey
  parsed : ∃ raw, request.headers Names.fspiopSignature = some raw ∧
    guard.parseSignature raw = .ok (signature, protectedHeader)
  resolved : guard.resolveBody request = some body
  verifies : FspiopSignature.verify guard.engine guard.rsa publicKey signature protectedHeader
    body = true
  matched : guard.assertHeaderMatchesRequest protectedHeader request source = .ok ()

/-- How a request comes to be let through. -/
inductive Admits (request : Request ν) : Prop where
  | disabled (h : guard.useJws = false)
  | off (source : String) (h : request.headers Names.fspiopSource = some source)
    (hmode : guard.verifyMode source = .off)
  | bodyless (h : request.headers Names.fspiopSignature = none)
    (hbody : guard.resolveBody request = none)
  | unsigned (source : String) (h : request.headers Names.fspiopSource = some source)
    (hmode : guard.verifyMode source = .verifyIfPresent)
    (hsignature : (request.headers Names.fspiopSignature).getD "" = "")
  | signed (source : String) (publicKey : κ) (signature protectedHeader : Value ν) (body : String)
    (h : guard.Verified request source publicKey signature protectedHeader body)

variable {guard}

theorem resolveBody_congr {request request' : Request ν} (h : request.body = request'.body) :
    guard.resolveBody request = guard.resolveBody request' := by
  unfold resolveBody
  rw [h]

theorem verifySigned_ok {request : Request ν} {source raw : String}
    (hsource : request.headers Names.fspiopSource = some source)
    (hraw : request.headers Names.fspiopSignature = some raw)
    (h : guard.verifySigned request source raw = .ok ()) :
    ∃ publicKey signature protectedHeader body,
      guard.Verified request source publicKey signature protectedHeader body := by
  unfold verifySigned at h
  split at h
  · rename_i publicKey hkey
    obtain ⟨⟨signature, protectedHeader⟩, hparse, h⟩ := bind_ok_iff.mp h
    dsimp only at h
    split at h
    · rename_i body hbody
      rw [unless_ok_iff, not_not] at h
      exact ⟨publicKey, signature, protectedHeader, body,
        hsource, hkey, ⟨raw, hraw, hparse⟩, hbody, h.1, h.2⟩
    · cases h
  · cases h

theorem admits_of_canActivate {counts counts' : UnsignedAccepted} {request : Request ν} {b : Bool}
    (h : guard.canActivate counts request = .ok (b, counts')) :
    b = true ∧ guard.Admits request := by
  unfold canActivate at h
  dsimp only at h
  by_cases hjws : guard.useJws = false
  · rw [if_pos hjws] at h
    cases h
    exact ⟨rfl, .disabled hjws⟩
  rw [if_neg hjws] at h
  cases hsource : request.headers Names.fspiopSource with
  | none =>
    rw [hsource] at h
    cases h
  | some source =>
    rw [hsource] at h
    simp only [unless_ok_iff] at h
    obtain ⟨-, h⟩ := h
    by_cases hoff : guard.verifyMode source = .off
    · rw [if_pos hoff] at h
      cases h
      exact ⟨rfl, .off source hsource hoff⟩
    rw [if_neg hoff] at h
    by_cases hbodyless : request.headers Names.fspiopSignature = none ∧
        guard.resolveBody request = none
    · rw [if_pos hbodyless] at h
      cases h
      exact ⟨rfl, .bodyless hbodyless.1 hbodyless.2⟩
    rw [if_neg hbodyless] at h
    by_cases hunsigned : (request.headers Names.fspiopSignature).getD "" = "" ∧
        guard.verifyMode source = .verifyIfPresent
    · rw [if_pos hunsigned] at h
      cases h
      exact ⟨rfl, .unsigned source hsource hunsigned.2 hunsigned.1⟩
    rw [if_neg hunsigned, unless_ok_iff] at h
    obtain ⟨hsigned, h⟩ := h
    obtain ⟨⟨⟩, hverify, h⟩ := bind_ok_iff.mp h
    cases h
    cases hraw : request.headers Names.fspiopSignature with
    | none => exact absurd (by rw [hraw]; rfl) hsigned
    | some raw =>
      rw [hraw] at hverify
      obtain ⟨publicKey, signature, protectedHeader, body, hverified⟩ :=
        verifySigned_ok hsource hraw hverify
      exact ⟨rfl, .signed source publicKey signature protectedHeader body hverified⟩

/-- A request with the headers that were signed is one that its protected header describes. -/
theorem matches_of_sign {privateKey : π} {input : FspiopProtectedHeader.Input} {payload uri : String}
    {header : FspiopSignature.Header} {request : Request ν}
    (hsign : FspiopSignature.sign guard.engine guard.rsa privateKey input payload = .ok header)
    (huri : FspiopUri.extract input.uri = .ok uri)
    (hrequest : request.headers Names.fspiopUri = some uri)
    (hmethod : toUpperCase request.method = toUpperCase input.method)
    (hdestination : ∀ destination, request.headers Names.fspiopDestination = some destination →
      input.destination = some destination ∧ trim destination ≠ "") :
    guard.assertHeaderMatchesRequest (.string (units header.protectedHeader)) request
      input.source = .ok () := by
  obtain ⟨entries, canonical, hbuild, -, -, hheader, -⟩ := FspiopSignature.sign_ok hsign
  obtain ⟨hnodup, uri', huri', hentries⟩ := FspiopProtectedHeader.build_ok hbuild
  obtain rfl : uri = uri' := Except.ok.inj (huri.symm.trans huri')
  have hfield : ∀ {name text}, (name, text) ∈ entries →
      FspiopSignature.isText (FspiopSignature.field
        (FspiopSignature.fieldsOf entries : List (Units × Value ν)) name) text = true := by
    intro name text hmem
    exact FspiopSignature.isText_fieldsOf hnodup hmem
  unfold assertHeaderMatchesRequest
  rw [hheader, FspiopSignature.decodeProtectedHeader_encode]
  dsimp only
  have hsource : ("FSPIOP-Source", input.source) ∈ entries := by simp [hentries]
  have hhttp : ("FSPIOP-HTTP-Method", toUpperCase request.method) ∈ entries := by
    simp [hentries, hmethod]
  have hresource : ("FSPIOP-URI", uri) ∈ entries := by simp [hentries]
  simp only [hfield hsource, hfield hhttp, hrequest, hfield hresource, not_true_eq_false, if_false]
  cases hpresent : request.headers Names.fspiopDestination with
  | none => rfl
  | some destination =>
    obtain ⟨hinput, htrim⟩ := hdestination destination hpresent
    have hmem : ("FSPIOP-Destination", destination) ∈ entries := by
      simp [hentries, FspiopProtectedHeader.whenPresent, hinput, htrim]
    simp only [hfield hmem, not_true_eq_false, if_false]
    rfl

theorem Verified.canActivate {request : Request ν} {source : String} {publicKey : κ}
    {signature protectedHeader : Value ν} {body : String}
    (h : guard.Verified request source publicKey signature protectedHeader body)
    (hsource : source ≠ "") (counts : UnsignedAccepted) :
    guard.canActivate counts request = .ok (true, counts) := by
  obtain ⟨raw, hraw, hparse⟩ := h.parsed
  have hne : raw ≠ "" := by
    rintro rfl
    have hempty : ∃ e, guard.parseSignature "" = .error e := ⟨_, rfl⟩
    obtain ⟨e, he⟩ := hempty
    rw [he] at hparse
    cases hparse
  have hverify : guard.verifySigned request source raw = .ok () := by
    unfold verifySigned
    simp only [h.keyed, hparse, h.resolved]
    exact bind_ok_iff.mpr ⟨_, rfl, by simp [h.verifies, h.matched]⟩
  unfold FspInboundGuard.canActivate
  dsimp only
  by_cases hjws : guard.useJws = false
  · rw [if_pos hjws]
    rfl
  rw [if_neg hjws, h.sourced]
  dsimp only
  rw [if_neg hsource]
  by_cases hoff : guard.verifyMode source = .off
  · rw [if_pos hoff]
    rfl
  rw [if_neg hoff, hraw, if_neg (by simp), if_neg (by simp [hne]), if_neg (by simp [hne]),
    Option.getD_some, hverify]
  rfl

end FspInboundGuard

/-- Numbers that are kept as their literals. -/
def literals : Numbers (List Char) where
  read cs := cs
  write cs := if isLiteral cs then some cs else none
  isLiteral_write n cs h := by
    split_ifs at h with hliteral
    cases h
    exact hliteral
  write_read n cs h := by
    split_ifs at h with hliteral
    cases h
    exact if_pos hliteral

def sampleEngine : Engine (List Char) := ⟨literals, fun _ => none, fun _ => none⟩

/-- Signatures that name their key and repeat what is signed. -/
def sampleRsa : Rsa String String where
  sign key bytes := 0 :: Buffer.fromUtf8 key ++ bytes
  verify key bytes signature := signature = 0 :: Buffer.fromUtf8 key ++ bytes

/-- A guard with the strictest policy, where the key of each participant is its name. -/
def sampleGuard : FspInboundGuard (List Char) String String :=
  ⟨sampleEngine, sampleRsa, some, true, fun _ => .require⟩

end Fspiop
