import Pivotal.Fspiop.Signing

/-! Whether a signature is good for one request only. The guard compares the protected header with
the headers of the request, of which one names the resource and one may be missing. -/
namespace Fspiop
open Js

namespace FspInboundGuard

open FspiopHeaders

variable {ν π κ : Type} (guard : FspInboundGuard ν π κ)

/-- The protected header that came with the request. -/
def carriedHeader (request : Request ν) : Option (Value ν) := do
  let raw ← request.headers Names.fspiopSignature
  let (_, protectedHeader) ← (guard.parseSignature raw).toOption
  return protectedHeader

/-- The fields of the protected header that came with the request. -/
def signedFields (request : Request ν) : Option (List (Units × Value ν)) :=
  (guard.carriedHeader request).bind (FspiopSignature.decodeProtectedHeader guard.engine)

/-- The fields are about this request: its method, source and destination, and the resource
that is served. -/
structure Describes (fields : List (Units × Value ν)) (request : Request ν) (source : String) :
    Prop where
  method : FspiopSignature.isText (FspiopSignature.field fields "FSPIOP-HTTP-Method")
    (toUpperCase request.method) = true
  source : FspiopSignature.isText (FspiopSignature.field fields "FSPIOP-Source") source = true
  destination : ∀ destination, request.headers Names.fspiopDestination = some destination →
    FspiopSignature.isText (FspiopSignature.field fields "FSPIOP-Destination") destination = true
  undirected : request.headers Names.fspiopDestination = none →
    FspiopSignature.field fields "FSPIOP-Destination" = none
  uri : ∃ path, FspiopUri.extract request.url = .ok path ∧
    FspiopSignature.isText (FspiopSignature.field fields "FSPIOP-URI") path = true

/-- The holder of the key of the source has signed the body of the request, for this request. -/
def Authorised (Signed : κ → Buffer → Prop) (request : Request ν) : Prop :=
  ∃ source publicKey protectedHeader bytes text fields body canonical,
    request.headers Names.fspiopSource = some source ∧
    guard.publicKeyStore source = some publicKey ∧
    guard.carriedHeader request = some protectedHeader ∧
    FspiopSignature.headerBytes guard.engine protectedHeader = some (bytes, text) ∧
    FspiopSignature.decodeProtectedHeader guard.engine protectedHeader = some fields ∧
    guard.resolveBody request = some body ∧
    FspiopSignature.canonicalize guard.engine body = .ok canonical ∧
    Signed publicKey (Buffer.fromUtf8 (FspiopSignature.signedText text canonical)) ∧
    Describes fields request source

/-- The headers name what is served: the resource of the URL, and a destination if the protected
header has one. -/
def NamesWhatIsServed (request : Request ν) : Prop :=
  (∃ path, FspiopUri.extract request.url = .ok path ∧
    request.headers Names.fspiopUri = some path) ∧
  (request.headers Names.fspiopDestination = none → ∀ fields,
    guard.signedFields request = some fields →
    FspiopSignature.field fields "FSPIOP-Destination" = none)

variable {guard}

theorem isText_unique {value : Option (Value ν)} {s t : String}
    (hs : FspiopSignature.isText value s = true) (ht : FspiopSignature.isText value t = true) :
    s = t := by
  unfold FspiopSignature.isText at hs ht
  split at hs
  · rw [decide_eq_true_eq] at hs ht
    exact units_injective (hs.symm.trans ht)
  · cases hs

/-- Fields describe one resource, one destination and one source. -/
theorem Describes.same {fields : List (Units × Value ν)} {request request' : Request ν}
    {source source' : String} (h : Describes fields request source)
    (h' : Describes fields request' source') :
    source = source' ∧ toUpperCase request.method = toUpperCase request'.method ∧
      FspiopUri.extract request.url = FspiopUri.extract request'.url ∧
      request.headers Names.fspiopDestination = request'.headers Names.fspiopDestination := by
  obtain ⟨path, hpath, htext⟩ := h.uri
  obtain ⟨path', hpath', htext'⟩ := h'.uri
  refine ⟨isText_unique h.source h'.source, isText_unique h.method h'.method, ?_, ?_⟩
  · rw [hpath, hpath', isText_unique htext htext']
  · cases hto : request.headers Names.fspiopDestination with
    | none =>
      have hnone := h.undirected hto
      cases hto' : request'.headers Names.fspiopDestination with
      | none => rfl
      | some destination =>
        have hdirected := h'.destination destination hto'
        rw [hnone] at hdirected
        cases hdirected
    | some destination =>
      have hdirected := h.destination destination hto
      cases hto' : request'.headers Names.fspiopDestination with
      | none =>
        rw [h'.undirected hto'] at hdirected
        cases hdirected
      | some destination' => rw [isText_unique hdirected (h'.destination destination' hto')]

theorem matched_cases {protectedHeader : Value ν} {request : Request ν} {source : String}
    (h : guard.assertHeaderMatchesRequest protectedHeader request source = .ok ()) :
    ∃ fields uri, FspiopSignature.decodeProtectedHeader guard.engine protectedHeader =
        some fields ∧
      FspiopSignature.isText (FspiopSignature.field fields "FSPIOP-Source") source = true ∧
      FspiopSignature.isText (FspiopSignature.field fields "FSPIOP-HTTP-Method")
        (toUpperCase request.method) = true ∧
      request.headers Names.fspiopUri = some uri ∧
      FspiopSignature.isText (FspiopSignature.field fields "FSPIOP-URI") uri = true ∧
      ∀ destination, request.headers Names.fspiopDestination = some destination →
        FspiopSignature.isText (FspiopSignature.field fields "FSPIOP-Destination") destination =
          true := by
  unfold assertHeaderMatchesRequest at h
  split at h
  · rename_i fields hfields
    simp only [unless_ok_iff, not_not] at h
    obtain ⟨hsource, hmethod, h⟩ := h
    split at h
    · rename_i uri huri
      simp only [unless_ok_iff, not_not] at h
      obtain ⟨hresource, h⟩ := h
      refine ⟨fields, uri, hfields, hsource, hmethod, huri, hresource, ?_⟩
      intro destination hdestination
      rw [hdestination] at h
      dsimp only at h
      by_contra hne
      rw [if_pos hne] at h
      cases h
    · cases h
  · cases h

theorem Verified.carried {request : Request ν} {source : String} {publicKey : κ}
    {signature protectedHeader : Value ν} {body : String}
    (h : guard.Verified request source publicKey signature protectedHeader body) :
    guard.carriedHeader request = some protectedHeader := by
  obtain ⟨raw, hraw, hparse⟩ := h.parsed
  simp [carriedHeader, hraw, hparse, Except.toOption]

/-- A request that is authorised is served under the resource that its headers name. -/
theorem Authorised.uri {Signed : κ → Buffer → Prop} {request : Request ν} {source : String}
    {publicKey : κ} {signature protectedHeader : Value ν} {body : String}
    (hverified : guard.Verified request source publicKey signature protectedHeader body)
    (h : guard.Authorised Signed request) :
    ∃ path, FspiopUri.extract request.url = .ok path ∧
      request.headers Names.fspiopUri = some path := by
  obtain ⟨_, _, carried, _, _, fields, _, _, -, -, hcarried, -, hfields, -, -, -, hdescribes⟩ := h
  obtain rfl := Option.some.inj (hverified.carried.symm.trans hcarried)
  obtain ⟨fields', uri, hfields', -, -, huri, hresource, -⟩ := matched_cases hverified.matched
  obtain rfl := Option.some.inj (hfields.symm.trans hfields')
  obtain ⟨path, hpath, htext⟩ := hdescribes.uri
  obtain rfl := isText_unique hresource htext
  exact ⟨uri, hpath, huri⟩

/-- A request that is let through with a signature was signed for what is served exactly when its
headers name what is served. -/
theorem signature_is_for_request (guard : FspInboundGuard ν π κ) {Signed : κ → Buffer → Prop}
    (hunforgeable : ∀ publicKey bytes signature,
      guard.rsa.verify publicKey bytes signature = true → Signed publicKey bytes)
    {counts counts' : UnsignedAccepted} {request : Request ν} {b : Bool}
    (hjws : guard.useJws = true)
    (hmode : ∀ source, request.headers Names.fspiopSource = some source →
      guard.verifyMode source ≠ .off)
    (hsigned : (request.headers Names.fspiopSignature).getD "" ≠ "")
    (h : guard.canActivate counts request = .ok (b, counts')) :
    guard.Authorised Signed request ↔ guard.NamesWhatIsServed request := by
  obtain ⟨-, hadmits⟩ := admits_of_canActivate h
  cases hadmits with
  | disabled h => exact absurd h (by simp [hjws])
  | off source hsource h => exact absurd h (hmode source hsource)
  | bodyless h _ => exact absurd (by rw [h]; rfl) hsigned
  | unsigned source _ _ h => exact absurd h hsigned
  | signed source publicKey signature protectedHeader body hverified =>
    constructor
    · intro hauthorised
      constructor
      · exact Authorised.uri hverified hauthorised
      · intro hnone fields hfields
        obtain ⟨_, _, carried, _, _, fields', _, _, -, -, hcarried, -, hfields', -, -, -,
          hdescribes⟩ := hauthorised
        rw [signedFields, hcarried, Option.bind_some, hfields', Option.some.injEq] at hfields
        rw [← hfields]
        exact hdescribes.undirected hnone
    · rintro ⟨⟨path, hpath, huri⟩, hundirected⟩
      obtain ⟨fields, bytes, text, canonical, s, hfields, hbytes, hcanonical, rfl, hverify⟩ :=
        FspiopSignature.verify_cases hverified.verifies
      obtain ⟨fields', uri, hfields', hsource, hmethod, huri', hresource, hdestination⟩ :=
        matched_cases hverified.matched
      obtain rfl := Option.some.inj (hfields.symm.trans hfields')
      obtain rfl := Option.some.inj (huri.symm.trans huri')
      refine ⟨source, publicKey, protectedHeader, bytes, text, fields, body, canonical,
        hverified.sourced, hverified.keyed, hverified.carried, hbytes, hfields,
        hverified.resolved, hcanonical, hunforgeable _ _ _ hverify, ?_⟩
      constructor
      · exact hmethod
      · exact hsource
      · exact hdestination
      · intro hnone
        apply hundirected hnone
        rw [signedFields, hverified.carried, Option.bind_some, hfields]
      · exact ⟨path, hpath, hresource⟩

end FspInboundGuard

/-- A request of `dfsp2` to `dfsp1` about the first quote, received under some URL. -/
def sampleReplay (url : String) (header : FspiopSignature.Header) : Request (List Char) where
  method := "PUT"
  url := url
  headers name :=
    if name = "fspiop-source" then some "dfsp2"
    else if name = "fspiop-destination" then some "dfsp1"
    else if name = "fspiop-uri" then some "/quotes/1"
    else if name = "fspiop-signature" then some (sampleInterceptor.headerText header)
    else none
  body := some (.object [(units "a", .string (units "b"))])

def directedInput : FspiopProtectedHeader.Input :=
  ⟨"PUT", "/quotes/1", "dfsp2", some "dfsp1", none, none⟩

/-- The guard lets the request through under every URL. -/
theorem sampleReplay_accepted : ∃ header, FspiopSignature.sign sampleEngine sampleRsa "dfsp2"
    directedInput "\x7b\"a\":\"b\"\x7d" = .ok header ∧
      (∀ url, ∃ signature protectedHeader body, sampleGuard.Verified (sampleReplay url header)
        "dfsp2" "dfsp2" signature protectedHeader body) ∧
      ∀ url, sampleGuard.canActivate .empty (sampleReplay url header) = .ok (true, .empty) := by
  have hsign : (FspiopSignature.sign sampleEngine sampleRsa "dfsp2" directedInput
      "\x7b\"a\":\"b\"\x7d").toOption.isSome = true := by
    decide +kernel
  obtain ⟨header, hsign⟩ := exists_ok hsign
  have hbody : sampleGuard.resolveBody
      ⟨"", "", fun _ => none, some (.object [(units "a", .string (units "b"))])⟩ =
        some "\x7b\"a\":\"b\"\x7d" := by
    decide +kernel
  have huri : FspiopUri.extract directedInput.uri = .ok "/quotes/1" := by decide +kernel
  have hverified : ∀ url, sampleGuard.Verified (sampleReplay url header) "dfsp2" "dfsp2"
      (.string (units header.signature)) (.string (units header.protectedHeader))
      "\x7b\"a\":\"b\"\x7d" := by
    intro url
    apply sampleGuard.verified_of_sign sampleInterceptor rfl (sampleRsa_exact "dfsp2") hsign
      huri rfl rfl rfl rfl rfl
    · intro destination h
      cases h
      exact ⟨rfl, by decide +kernel⟩
    · rw [← hbody]
      exact FspInboundGuard.resolveBody_congr rfl
    · rfl
  refine ⟨header, hsign, fun url => ⟨_, _, _, hverified url⟩, ?_⟩
  intro url
  exact (hverified url).canActivate (by decide) .empty

/-- Served under the URL that it was signed for, it is authorised. -/
theorem signature_is_for_request_sample : ∃ header, sampleGuard.Authorised
    (fun publicKey bytes => ∃ signature, sampleRsa.verify publicKey bytes signature = true)
    (sampleReplay "/quotes/1" header) := by
  obtain ⟨header, -, -, haccepted⟩ := sampleReplay_accepted
  have hsigned : ((sampleReplay "/quotes/1" header).headers
      FspiopHeaders.Names.fspiopSignature).getD "" ≠ "" := by
    intro hempty
    cases String.ofList_eq_empty_iff.mp hempty
  refine ⟨header, ?_⟩
  apply (sampleGuard.signature_is_for_request (fun publicKey bytes signature h => ⟨signature, h⟩)
    rfl (fun source h => by nofun) hsigned (haccepted "/quotes/1")).mpr
  constructor
  · refine ⟨"/quotes/1", ?_, rfl⟩
    show FspiopUri.extract "/quotes/1" = _
    decide +kernel
  · intro hnone
    cases hnone

/-- Served under the URL of another quote, it is let through as well, though it was not signed
for that. -/
theorem not_signature_is_for_request : ∃ header,
    sampleGuard.canActivate .empty (sampleReplay "/quotes/2" header) = .ok (true, .empty) ∧
      ∀ Signed, ¬ sampleGuard.Authorised Signed (sampleReplay "/quotes/2" header) := by
  obtain ⟨header, -, hverified, haccepted⟩ := sampleReplay_accepted
  obtain ⟨signature, protectedHeader, body, hverified⟩ := hverified "/quotes/2"
  refine ⟨header, haccepted "/quotes/2", ?_⟩
  intro Signed hauthorised
  obtain ⟨path, hpath, huri⟩ := FspInboundGuard.Authorised.uri hverified hauthorised
  obtain rfl : "/quotes/1" = path := Option.some.inj huri
  have hother : FspiopUri.extract "/quotes/2" = .ok "/quotes/2" := by decide +kernel
  have hsame : (.ok "/quotes/2" : Except JsError String) = .ok "/quotes/1" := hother.symm.trans hpath
  revert hsame
  decide

end Fspiop
