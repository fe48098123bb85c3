import Pivotal.Fspiop.InboundGuard

/-! Whether the body that is signed is the body that is served. The interceptor signs the text
of what is sent; the guard verifies the text of what the framework has read from it. -/
namespace Fspiop
open Js

/-- The body of a request before it is sent: a text, or what is to be written as one. -/
inductive RequestData (ν : Type) where
  | text (s : String)
  | data (data : Data ν)

structure InternalAxiosRequestConfig (ν : Type) where
  method : Option String
  url : Option String
  baseURL : Option String
  headers : String → Option String
  data : Option (RequestData ν)

/-- The headers that the interceptor sets. -/
structure SignedHeaders where
  fspiopUri : String
  fspiopHttpMethod : String
  fspiopSignature : String
  deriving DecidableEq

structure FspiopSigningInterceptor (ν π κ : Type) where
  engine : Engine ν
  rsa : Rsa π κ
  privateKeyStore : String → Option π

namespace FspiopSigningInterceptor

open FspiopHeaders

variable {ν π κ : Type} (interceptor : FspiopSigningInterceptor ν π κ)

def resolveUrl (config : InternalAxiosRequestConfig ν) : String :=
  let url := config.url.getD ""
  if url = "" then config.baseURL.getD ""
  else
    match config.baseURL with
    | none => url
    | some baseURL =>
      if (FspiopUri.afterScheme url.toList).isSome then url
      else
        let base := if baseURL.toList.getLast? = some '/' then baseURL.toList.dropLast
          else baseURL.toList
        let path := if url.toList.head? = some '/' then url.toList else '/' :: url.toList
        String.ofList (base ++ path)

/-- The text of the body. Nothing is sent for what is undefined. -/
def resolveBody (config : InternalAxiosRequestConfig ν) : Option String :=
  match config.data with
  | none => none
  | some (.text s) => some s
  | some (.data data) =>
    match data with
    | .null => none
    | data => data.serialize.map (Value.stringify interceptor.engine.numbers)

/-- The text of the header of a signature. -/
def headerText (header : FspiopSignature.Header) : String :=
  Value.stringify interceptor.engine.numbers (FspiopSignature.ofEntries
    [("signature", header.signature), ("protectedHeader", header.protectedHeader)])

/-- The headers of a request that is signed; other requests are sent as they are. -/
def build (config : InternalAxiosRequestConfig ν) : Except JsError (Option SignedHeaders) := do
  let source := (config.headers Names.fspiopSource).getD ""
  if source = "" then return none
  match interceptor.resolveBody config with
  | none => return none
  | some body =>
    let uri ← FspiopUri.extract (resolveUrl config)
    let method := toUpperCase (config.method.getD "get")
    match interceptor.privateKeyStore source with
    | none => return none
    | some privateKey =>
      let header ← FspiopSignature.sign interceptor.engine interceptor.rsa privateKey
        ⟨method, uri, source, config.headers Names.fspiopDestination, config.headers Names.date,
          none⟩ body
      return some ⟨uri, method, interceptor.headerText header⟩

variable {interceptor}

theorem build_signs {config : InternalAxiosRequestConfig ν} {signed : SignedHeaders}
    (h : interceptor.build config = .ok (some signed)) :
    ∃ source body privateKey input header, config.headers Names.fspiopSource = some source ∧
      interceptor.resolveBody config = some body ∧
      interceptor.privateKeyStore source = some privateKey ∧
      FspiopSignature.sign interceptor.engine interceptor.rsa privateKey input body = .ok header ∧
      signed.fspiopSignature = interceptor.headerText header := by
  unfold build at h
  dsimp only at h
  split at h
  · cases h
  rename_i hsource
  split at h
  · cases h
  rename_i body hbody
  obtain ⟨uri, -, h⟩ := bind_ok_iff.mp h
  split at h
  · cases h
  rename_i privateKey hkey
  obtain ⟨header, hsign, h⟩ := bind_ok_iff.mp h
  cases h
  cases hheader : config.headers Names.fspiopSource with
  | none => exact absurd (by rw [hheader]; rfl) hsource
  | some source =>
    rw [hheader] at hkey
    exact ⟨source, body, privateKey, _, header, rfl, hbody, hkey, hsign, rfl⟩

end FspiopSigningInterceptor

/-- Signatures made with the private key are verified over exactly the bytes they were made
over. A signature is never empty. -/
structure Rsa.Exact {π κ : Type} (rsa : Rsa π κ) (privateKey : π) (publicKey : κ) : Prop where
  verify : ∀ bytes bytes', rsa.verify publicKey bytes (rsa.sign privateKey bytes') = true ↔
    bytes = bytes'
  sign : ∀ bytes, rsa.sign privateKey bytes ≠ []

namespace FspInboundGuard

open FspiopHeaders

variable {ν π κ : Type} {guard : FspInboundGuard ν π κ}

/-- The header that the interceptor sets is read as it was written. -/
theorem parseSignature_headerText {interceptor : FspiopSigningInterceptor ν π κ}
    (hengine : interceptor.engine = guard.engine) {header : FspiopSignature.Header}
    (hsignature : header.signature ≠ "") (hprotected : header.protectedHeader ≠ "") :
    guard.parseSignature (interceptor.headerText header) =
      .ok (.string (units header.signature), .string (units header.protectedHeader)) := by
  have hmember : ∀ name text, text ≠ "" →
      (([("signature", header.signature), ("protectedHeader", header.protectedHeader)].find?
        fun entry => entry.1 = name).map fun entry => entry.2) = some text →
      guard.member (.object (FspiopSignature.fieldsOf
        [("signature", header.signature), ("protectedHeader", header.protectedHeader)])) name =
        some (.string (units text)) := by
    intro name text htext hfind
    have hunits : units text ≠ [] := by
      intro hempty
      apply htext
      rw [← ofUnits_units text, hempty]
      rfl
    obtain ⟨entry, hentry, rfl⟩ := Option.map_eq_some_iff.mp hfind
    have hnodup : ([("signature", header.signature),
        ("protectedHeader", header.protectedHeader)].map Prod.fst).Nodup := by
      show ["signature", "protectedHeader"].Nodup
      decide
    rw [member, FspiopSignature.field_fieldsOf hnodup, hentry]
    simp [truthy, hunits]
  unfold parseSignature FspiopSigningInterceptor.headerText
  rw [hengine, Value.parse_stringify, FspiopSignature.reread_ofEntries]
  dsimp only
  rw [hmember "signature" header.signature hsignature rfl,
    hmember "protectedHeader" header.protectedHeader hprotected rfl]

variable (guard)

/-- A request that is received as it was signed is verified, whatever its URL is. -/
theorem verified_of_sign (interceptor : FspiopSigningInterceptor ν π κ)
    (hengine : interceptor.engine = guard.engine) {privateKey : π} {publicKey : κ}
    (hrsa : guard.rsa.Exact privateKey publicKey) {input : FspiopProtectedHeader.Input}
    {header : FspiopSignature.Header} {payload body uri : String} {request : Request ν}
    (hsign : FspiopSignature.sign guard.engine guard.rsa privateKey input payload = .ok header)
    (huri : FspiopUri.extract input.uri = .ok uri)
    (hkey : guard.publicKeyStore input.source = some publicKey)
    (hsource : request.headers Names.fspiopSource = some input.source)
    (hrequest : request.headers Names.fspiopUri = some uri)
    (hsignature : request.headers Names.fspiopSignature = some (interceptor.headerText header))
    (hmethod : toUpperCase request.method = toUpperCase input.method)
    (hdestination : ∀ destination, request.headers Names.fspiopDestination = some destination →
      input.destination = some destination ∧ trim destination ≠ "")
    (hbody : guard.resolveBody request = some body)
    (hsame : FspiopSignature.canonicalize guard.engine body =
      FspiopSignature.canonicalize guard.engine payload) :
    guard.Verified request input.source publicKey (.string (units header.signature))
      (.string (units header.protectedHeader)) body := by
  obtain ⟨hfirst, hsecond⟩ := FspiopSignature.sign_ne_empty hrsa.sign hsign
  constructor
  · exact hsource
  · exact hkey
  · exact ⟨_, hsignature, parseSignature_headerText hengine hfirst hsecond⟩
  · exact hbody
  · exact FspiopSignature.verify_sign (fun bytes => (hrsa.verify bytes bytes).mpr rfl) hsign hsame
  · exact matches_of_sign hsign huri hrequest hmethod hdestination

/-- The request was signed over a payload: its signature is the one over the signing input. -/
def SignedOver (privateKey : π) (payload : String) (signature : Value ν) : Prop :=
  ∃ input signing s, FspiopSignature.signingInput guard.engine input payload = .ok signing ∧
    signature = .string s ∧
    Buffer.fromBase64Url (ofUnits s) = guard.rsa.sign privateKey (Buffer.fromUtf8 signing.bytes)

/-- A body with a member that the interceptor has signed is verified as it is received; and what
is served under a signature is the value that was signed, with its numbers as they are written. -/
theorem signed_payload_is_served (interceptor : FspiopSigningInterceptor ν π κ)
    (hengine : interceptor.engine = guard.engine) (hrsa : interceptor.rsa = guard.rsa)
    (hkeys : ∀ source privateKey publicKey, interceptor.privateKeyStore source = some privateKey →
      guard.publicKeyStore source = some publicKey → guard.rsa.Exact privateKey publicKey) :
    (∀ (config : InternalAxiosRequestConfig ν) data fields signed source publicKey
        (request : Request ν),
      config.data = some (.data data) → data.serialize = some (.object fields) → fields ≠ [] →
      config.headers Names.fspiopSource = some source →
      guard.publicKeyStore source = some publicKey →
      interceptor.build config = .ok (some signed) →
      (∃ wire, interceptor.resolveBody config = some wire ∧
        Value.parse guard.engine.numbers wire = request.body) →
      ∃ signature protectedHeader payload,
        guard.parseSignature signed.fspiopSignature = .ok (signature, protectedHeader) ∧
        guard.resolveBody request = some payload ∧
        FspiopSignature.verify guard.engine guard.rsa publicKey signature protectedHeader
          payload = true) ∧
    ∀ (request : Request ν) source privateKey publicKey signature protectedHeader body wire
        payload served,
      interceptor.privateKeyStore source = some privateKey →
      guard.Verified request source publicKey signature protectedHeader body →
      Value.parse guard.engine.numbers wire = some served → request.body = some served →
      guard.SignedOver privateKey payload signature →
      ∃ value, Value.parse guard.engine.numbers payload = some value ∧
        served.renumber guard.engine.numbers = value.renumber guard.engine.numbers := by
  constructor
  · intro config data fields signed source publicKey request hdata hfields hne hsource hkey hbuild
      ⟨wire, hwire, hbody⟩
    obtain ⟨source', body, privateKey, input, header, hsource', hresolve, hprivate, hsign,
      hheader⟩ := FspiopSigningInterceptor.build_signs hbuild
    obtain rfl : source = source' := Option.some.inj (hsource.symm.trans hsource')
    obtain ⟨hverify, hnonempty⟩ := hkeys source privateKey publicKey hprivate hkey
    have htext : body = (Value.object fields).stringify guard.engine.numbers := by
      unfold FspiopSigningInterceptor.resolveBody at hresolve
      rw [hdata] at hresolve
      dsimp only at hresolve
      split at hresolve
      · cases hresolve
      · rw [hfields, Option.map_some, Option.some.injEq, hengine] at hresolve
        exact hresolve.symm
    rw [hengine, hrsa, htext] at hsign
    rw [hresolve, Option.some.injEq] at hwire
    rw [← hwire, htext, Value.parse_stringify, Value.reread] at hbody
    have hmembers : (Value.ofMembers (Value.rereadFields guard.engine.numbers fields)).length ≠
        0 := by
      rw [Ne, List.length_eq_zero_iff]
      apply Value.ofMembers_ne_nil
      rw [Value.rereadFields_eq, Ne, List.map_eq_nil_iff]
      exact hne
    obtain ⟨hsignature, hprotected⟩ := FspiopSignature.sign_ne_empty hnonempty hsign
    refine ⟨_, _, ((Value.object fields).reread guard.engine.numbers).stringify
      guard.engine.numbers, ?_, ?_, FspiopSignature.verify_sign
        (fun bytes => (hverify bytes bytes).mpr rfl) hsign
        (FspiopSignature.canonicalize_reread fields)⟩
    · rw [hheader]
      exact parseSignature_headerText hengine hsignature hprotected
    · unfold resolveBody
      rw [← hbody]
      exact if_neg hmembers
  · intro request source privateKey publicKey signature protectedHeader body wire payload served
      hprivate hverified hwire hbody hsigned
    obtain ⟨input, signing, s, hsigning, rfl, hbytes⟩ := hsigned
    obtain ⟨hverify, -⟩ := hkeys source privateKey publicKey hprivate hverified.keyed
    obtain ⟨fields, bytes, text, canonical, s', -, -, hcanonical, hs, hvalid⟩ :=
      FspiopSignature.verify_cases hverified.verifies
    cases hs
    rw [hbytes, hverify] at hvalid
    obtain ⟨entries, -, hsigning⟩ := bind_ok_iff.mp hsigning
    obtain ⟨canonical', hcanonical', hsigning⟩ := bind_ok_iff.mp hsigning
    rw [pure_ok_iff] at hsigning
    subst hsigning
    have hsame : canonical = canonical' :=
      FspiopSignature.signedText_injective (Buffer.fromUtf8_injective hvalid)
    subst hsame
    obtain ⟨members, hparse, htext⟩ := FspiopSignature.canonicalize_ok hcanonical'
    refine ⟨.object members, hparse, ?_⟩
    have hserved : body = served.stringify guard.engine.numbers := by
      have hresolved := hverified.resolved
      unfold resolveBody at hresolved
      rw [hbody] at hresolved
      split at hresolved
      · cases hresolved
      · cases hresolved
      · rename_i value _ heq
        cases heq
        split_ifs at hresolved
        exact (Option.some.inj hresolved).symm
    obtain ⟨read, hread, hcanon⟩ := FspiopSignature.canonicalize_ok hcanonical
    rw [hserved, Value.parse_stringify, Option.some.injEq] at hread
    have hreread := Value.reread_congr guard.engine.numbers (htext.symm.trans hcanon)
    rw [← hread, Value.reread_reread, Value.reread_parse guard.engine.numbers hparse,
      Value.reread_parse guard.engine.numbers hwire] at hreread
    exact hreread.symm

end FspInboundGuard

def sampleInterceptor : FspiopSigningInterceptor (List Char) String String :=
  ⟨sampleEngine, sampleRsa, some⟩

theorem sampleRsa_exact (key : String) : sampleRsa.Exact key key where
  verify bytes bytes' := by
    simp only [sampleRsa, decide_eq_true_eq, List.cons_append, List.cons.injEq,
      List.append_cancel_left_eq, true_and]
    exact eq_comm
  sign bytes := by simp [sampleRsa]

def sampleConfig (fields : List (Units × Data (List Char))) :
    InternalAxiosRequestConfig (List Char) where
  method := some "put"
  url := some "/quotes/1"
  baseURL := some "https://hub.example.com/fspiop/"
  headers name := if name = "fspiop-source" then some "dfsp2" else none
  data := some (.data (.object fields))

/-- The request as it is received, served under some URL. -/
def sampleReceived {ν : Type} (url : String) (signed : SignedHeaders) (body : Option (Value ν)) :
    Request ν where
  method := signed.fspiopHttpMethod
  url := url
  headers name :=
    if name = "fspiop-source" then some "dfsp2"
    else if name = "fspiop-uri" then some signed.fspiopUri
    else if name = "fspiop-signature" then some signed.fspiopSignature
    else none
  body := body

/-- A body with a member is verified after the request. -/
theorem signed_payload_is_served_sample : ∃ signed signature protectedHeader payload,
    sampleInterceptor.build (sampleConfig [(units "a", .string (units "b"))]) =
        .ok (some signed) ∧
      FspiopSignature.verify sampleEngine sampleRsa "dfsp2" signature protectedHeader payload =
        true := by
  have hbuild : ((sampleInterceptor.build
      (sampleConfig [(units "a", .string (units "b"))])).toOption.bind id).isSome = true := by
    decide +kernel
  obtain ⟨signed, hbuild⟩ := exists_ok_some hbuild
  obtain ⟨hserved, -⟩ := FspInboundGuard.signed_payload_is_served sampleGuard sampleInterceptor rfl
    rfl (fun source privateKey publicKey hprivate hpublic => by
      cases hprivate
      cases hpublic
      exact sampleRsa_exact source)
  obtain ⟨signature, protectedHeader, payload, -, -, hverify⟩ := hserved _ _ _ signed "dfsp2"
    "dfsp2" (sampleReceived "/quotes/1" signed _) rfl rfl (List.cons_ne_nil _ _) rfl rfl hbuild
    ⟨_, rfl, rfl⟩
  exact ⟨signed, signature, protectedHeader, payload, hbuild, hverify⟩

/-- Numbers up to the first one whose successor is rounded to it. -/
def roundedNumbers : Numbers (Fin (2 ^ 53 + 1)) where
  read cs := ⟨min (digitsValue cs) (2 ^ 53), by omega⟩
  write n := if isLiteral (Nat.toDigits 10 n) then some (Nat.toDigits 10 n) else none
  isLiteral_write n cs h := by
    split_ifs at h with hliteral
    cases h
    exact hliteral
  write_read n cs h := by
    split_ifs at h with hliteral
    cases h
    have hvalue : min (digitsValue (Nat.toDigits 10 n)) (2 ^ 53) = n := by
      rw [(digits_spec n).2.1]
      omega
    simp only [hvalue, hliteral, if_true]

def roundingEngine : Engine (Fin (2 ^ 53 + 1)) := ⟨roundedNumbers, fun _ => none, fun _ => none⟩

def roundingGuard : FspInboundGuard (Fin (2 ^ 53 + 1)) String String :=
  ⟨roundingEngine, sampleRsa, some, true, fun _ => .require⟩

def roundingInterceptor : FspiopSigningInterceptor (Fin (2 ^ 53 + 1)) String String :=
  ⟨roundingEngine, sampleRsa, some⟩

def sampleInput : FspiopProtectedHeader.Input :=
  ⟨"PUT", "/quotes/1", "dfsp2", none, none, none⟩

/-- An empty object is signed and then rejected; and a body is served that is another number than
the one that was signed. -/
theorem not_signed_payload_is_served :
    (∃ signed e, sampleInterceptor.build (sampleConfig []) = .ok (some signed) ∧
      sampleGuard.canActivate .empty
        (sampleReceived "/quotes/1" signed (some (.object []))) = .error e) ∧
    ∃ header, FspiopSignature.sign roundingEngine sampleRsa "dfsp2" sampleInput
        "\x7b\"a\":9007199254740992\x7d" = .ok header ∧
      (∃ signature protectedHeader body, roundingGuard.Verified
        (sampleReceived "/quotes/1" ⟨"/quotes/1", "PUT", roundingInterceptor.headerText header⟩
          (Value.parse roundedNumbers "\x7b\"a\":9007199254740993\x7d"))
        "dfsp2" "dfsp2" signature protectedHeader body) ∧
      Value.parse literals "\x7b\"a\":9007199254740993\x7d" ≠
        Value.parse literals "\x7b\"a\":9007199254740992\x7d" := by
  constructor
  · have hbuild : ((sampleInterceptor.build (sampleConfig [])).toOption.bind id).isSome = true := by
      decide +kernel
    obtain ⟨signed, hbuild⟩ := exists_ok_some hbuild
    refine ⟨signed, ?_⟩
    cases hguard : sampleGuard.canActivate .empty
        (sampleReceived "/quotes/1" signed (some (.object []))) with
    | error e => exact ⟨e, hbuild, rfl⟩
    | ok result =>
      obtain ⟨-, hadmits⟩ := FspInboundGuard.admits_of_canActivate hguard
      cases hadmits with
      | disabled h => cases h
      | off source _ h => cases h
      | bodyless h _ => cases h
      | unsigned source _ h _ => cases h
      | signed source publicKey signature protectedHeader body h => cases h.resolved
  · have hsign : (FspiopSignature.sign roundingEngine sampleRsa "dfsp2" sampleInput
        "\x7b\"a\":9007199254740992\x7d").toOption.isSome = true := by
      decide +kernel
    obtain ⟨header, hsign⟩ := exists_ok hsign
    have hserved : roundingGuard.resolveBody ⟨"", "", fun _ => none,
        Value.parse roundedNumbers "\x7b\"a\":9007199254740993\x7d"⟩ =
          some "\x7b\"a\":9007199254740992\x7d" := by
      decide +kernel
    have hbody : ∀ request : Request (Fin (2 ^ 53 + 1)),
        request.body = Value.parse roundedNumbers "\x7b\"a\":9007199254740993\x7d" →
        roundingGuard.resolveBody request = some "\x7b\"a\":9007199254740992\x7d" := by
      intro request h
      rw [← hserved]
      exact FspInboundGuard.resolveBody_congr h
    have huri : FspiopUri.extract sampleInput.uri = .ok "/quotes/1" := by decide +kernel
    have hverified : roundingGuard.Verified
        (sampleReceived "/quotes/1" ⟨"/quotes/1", "PUT", roundingInterceptor.headerText header⟩
          (Value.parse roundedNumbers "\x7b\"a\":9007199254740993\x7d"))
        "dfsp2" "dfsp2" (.string (units header.signature)) (.string (units header.protectedHeader))
        "\x7b\"a\":9007199254740992\x7d" := by
      apply roundingGuard.verified_of_sign roundingInterceptor rfl (sampleRsa_exact "dfsp2") hsign
        huri rfl rfl rfl rfl rfl
      · intro destination h
        cases h
      · exact hbody _ rfl
      · rfl
    refine ⟨header, hsign, ⟨_, _, _, hverified⟩, ?_⟩
    intro h
    have htext := congrArg (Option.map (Value.stringify literals)) h
    revert htext
    decide +kernel

end Fspiop
