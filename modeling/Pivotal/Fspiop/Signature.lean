import Pivotal.Fspiop.ProtectedHeader
import Pivotal.Js.Buffer
import Pivotal.Js.Except
import Pivotal.Js.RoundTrip

/-! The detached signature of a request: made over the text of its protected header and its body,
which is parsed and written again on both sides. -/
namespace Fspiop
open Js

/-- RSA signatures over SHA-256, with keys of type `κ`. -/
structure Rsa (π κ : Type) where
  sign : π → Buffer → Buffer
  verify : κ → Buffer → Buffer → Bool

/-- What the code uses of the JavaScript engine. -/
structure Engine (ν : Type) where
  numbers : Numbers ν
  /-- `Buffer.from(value, 'base64url')` of an array or an object, and the text that stands for
  it, unless one of them throws. -/
  bytesAndText : Value ν → Option (Buffer × String)
  /-- The text of an array or an object that is used as a key. -/
  keyText : Value ν → Option String

namespace FspiopSignature

def invalidJsonPayloadError : JsError :=
  JsError.ofMessage "FSPIOP signature payload must be a valid JSON object."

/-- The `fspiop-signature` header that is sent. -/
structure Header where
  signature : String
  protectedHeader : String
  deriving DecidableEq

structure SigningInput where
  alg : String
  protectedHeader : String
  bytes : String
  deriving DecidableEq

def encode (value : String) : String := (Buffer.fromUtf8 value).toBase64Url

section

variable {ν π κ : Type} (engine : Engine ν) (rsa : Rsa π κ)

/-- The JSON object of named texts. -/
def ofEntries (entries : List (String × String)) : Value ν :=
  .object (entries.map fun entry => (units entry.1, .string (units entry.2)))

def canonicalize (payload : String) : Except JsError String :=
  match Value.parse engine.numbers payload with
  | some (.object fields) => .ok (Value.stringify engine.numbers (.object fields))
  | _ => .error invalidJsonPayloadError

/-- The bytes that a signature covers, as a text. -/
def signedText (protectedHeader canonical : String) : String :=
  protectedHeader ++ "." ++ encode canonical

def signingInput (input : FspiopProtectedHeader.Input) (payload : String) :
    Except JsError SigningInput := do
  let fields ← FspiopProtectedHeader.build input
  let protectedHeader := encode (Value.stringify engine.numbers (ofEntries fields))
  let canonical ← canonicalize engine payload
  return ⟨input.alg.getD FspiopProtectedHeader.defaultAlgorithm, protectedHeader,
    signedText protectedHeader canonical⟩

def unsupportedAlgorithm (alg : String) : JsError :=
  JsError.ofMessage ("Unsupported FSPIOP signing algorithm '" ++ alg ++ "'. Supported: RS256.")

def sign (privateKey : π) (input : FspiopProtectedHeader.Input) (payload : String) :
    Except JsError Header := do
  let signing ← signingInput engine input payload
  -- A name that every object inherits is refused too, by the runtime and with its own text.
  if signing.alg ≠ "RS256" then throw (unsupportedAlgorithm signing.alg)
  let signature := rsa.sign privateKey (Buffer.fromUtf8 signing.bytes)
  return ⟨signature.toBase64Url, signing.protectedHeader⟩

/-- The bytes and the text of the received protected header. -/
def headerBytes (protectedHeader : Value ν) : Option (Buffer × String) :=
  match protectedHeader with
  | .string s => some (Buffer.fromBase64Url (ofUnits s), ofUnits s)
  | .array _ => engine.bytesAndText protectedHeader
  | .object _ => engine.bytesAndText protectedHeader
  | _ => none

/-- The fields of a protected header, unless it throws. -/
def decodeProtectedHeader (protectedHeader : Value ν) : Option (List (Units × Value ν)) := do
  let (bytes, _) ← headerBytes engine protectedHeader
  match Value.parse engine.numbers bytes.toUtf8 with
  | some (.object fields) => some fields
  | _ => none

/-- The value of a field of an object. -/
def field (fields : List (Units × Value ν)) (name : String) : Option (Value ν) :=
  (fields.find? fun field => field.1 = units name).map Prod.snd

/-- Whether a value is this text. -/
def isText (value : Option (Value ν)) (text : String) : Bool :=
  match value with
  | some (.string s) => s = units text
  | _ => false

/-- Whether the algorithm is the one that is supported: its value is used as a key. -/
def isSupported (alg : Option (Value ν)) : Bool :=
  match alg with
  | some (.string s) => s = units "RS256"
  | some (.array items) => engine.keyText (.array items) = some "RS256"
  | some (.object fields) => engine.keyText (.object fields) = some "RS256"
  | _ => false

/-- The verification of a signature and a protected header as they were received. What throws
is not verified. -/
def verify (publicKey : κ) (signature protectedHeader : Value ν) (payload : String) : Bool :=
  match decodeProtectedHeader engine protectedHeader, headerBytes engine protectedHeader,
      canonicalize engine payload, signature with
  | some fields, some (_, text), .ok canonical, .string s =>
    isSupported engine (field fields "alg") &&
      rsa.verify publicKey (Buffer.fromUtf8 (signedText text canonical))
        (Buffer.fromBase64Url (ofUnits s))
  | _, _, _, _ => false

end

section Laws

variable {ν π κ : Type} {engine : Engine ν} {rsa : Rsa π κ}

/-- The fields of an object of named texts that has been written and read. -/
def fieldsOf (entries : List (String × String)) : List (Units × Value ν) :=
  Value.ofMembers (entries.map fun entry => (units entry.1, .string (units entry.2)))

theorem reread_ofEntries (entries : List (String × String)) :
    (ofEntries entries : Value ν).reread engine.numbers = .object (fieldsOf entries) := by
  have hsame : Value.rereadFields engine.numbers
      (entries.map fun entry => (units entry.1, .string (units entry.2))) =
        entries.map fun entry => (units entry.1, .string (units entry.2)) := by
    rw [Value.rereadFields_eq, List.map_map]
    rfl
  rw [ofEntries, Value.reread, hsame, fieldsOf]

theorem field_fieldsOf {entries : List (String × String)} (h : (entries.map Prod.fst).Nodup)
    (name : String) : field (fieldsOf entries : List (Units × Value ν)) name =
      (entries.find? fun entry => entry.1 = name).map fun entry => .string (units entry.2) := by
  have hnodup : ((entries.map fun entry =>
      (units entry.1, (Value.string (units entry.2) : Value ν))).map Prod.fst).Nodup := by
    rw [List.map_map]
    have hmap := h.map units_injective
    rwa [List.map_map] at hmap
  unfold field fieldsOf
  rw [Value.find?_ofMembers hnodup, List.find?_map, Option.map_map]
  have hkey : (fun member : Units × Value ν => decide (member.1 = units name)) ∘
      (fun entry : String × String => (units entry.1, .string (units entry.2))) =
        fun entry => decide (entry.1 = name) := by
    funext entry
    simp [units_injective.eq_iff]
  rw [hkey]
  rfl

theorem isText_fieldsOf {entries : List (String × String)} (h : (entries.map Prod.fst).Nodup)
    {name text : String} (hmem : (name, text) ∈ entries) :
    isText (field (fieldsOf entries : List (Units × Value ν)) name) text = true := by
  have hfind : entries.find? (fun entry => entry.1 = name) = some (name, text) := by
    cases hfind : entries.find? fun entry => entry.1 = name with
    | none => exact absurd (List.find?_eq_none.mp hfind _ hmem) (by simp)
    | some entry =>
      have hname := List.find?_some hfind
      rw [decide_eq_true_eq] at hname
      rw [List.inj_on_of_nodup_map h (List.mem_of_find?_eq_some hfind) hmem hname]
  rw [field_fieldsOf h, hfind]
  simp [isText]

theorem text_unique {value : Option (Value ν)} {s t : String} (hs : isText value s = true)
    (ht : isText value t = true) : s = t := by
  unfold isText at hs ht
  split at hs
  · simp only [decide_eq_true_eq] at hs ht
    exact units_injective (hs.symm.trans ht)
  · cases hs

theorem decodeProtectedHeader_encode (entries : List (String × String)) :
    decodeProtectedHeader engine
        (.string (units (encode (Value.stringify engine.numbers (ofEntries entries))))) =
      some (fieldsOf entries) := by
  simp only [decodeProtectedHeader, headerBytes, ofUnits_units, encode,
    Buffer.fromBase64Url_toBase64Url, Buffer.toUtf8_fromUtf8, Option.bind_eq_bind,
    Option.bind_some, Value.parse_stringify, reread_ofEntries]

theorem canonicalize_stringify (fields : List (Units × Value ν)) :
    canonicalize engine ((Value.object fields).stringify engine.numbers) =
      .ok (((Value.object fields).reread engine.numbers).stringify engine.numbers) := by
  simp only [canonicalize, Value.parse_stringify, Value.reread]

theorem canonicalize_ok {payload canonical : String}
    (h : canonicalize engine payload = .ok canonical) :
    ∃ fields, Value.parse engine.numbers payload = some (.object fields) ∧
      canonical = (Value.object fields).stringify engine.numbers := by
  unfold canonicalize at h
  split at h
  · rename_i fields hparse
    cases h
    exact ⟨fields, hparse, rfl⟩
  · cases h

/-- The text of a body does not change any more once it has been read and written. -/
theorem canonicalize_reread (fields : List (Units × Value ν)) :
    canonicalize engine (((Value.object fields).reread engine.numbers).stringify engine.numbers) =
      canonicalize engine ((Value.object fields).stringify engine.numbers) := by
  have hreread := Value.reread_reread engine.numbers (.object fields)
  simp only [Value.reread] at hreread ⊢
  rw [canonicalize_stringify, canonicalize_stringify]
  simp only [Value.reread]
  rw [hreread]

theorem encode_injective : Function.Injective encode := fun _ _ h =>
  Buffer.fromUtf8_injective (Buffer.toBase64Url_injective h)

theorem dot_not_mem_encode (value : String) : '.' ∉ (encode value).toList := by
  have hchar : ∀ n < 64, Buffer.sextetChar n ≠ '.' := by decide +kernel
  intro hdot
  rw [encode, Buffer.toBase64Url, String.toList_ofList, List.mem_map] at hdot
  obtain ⟨n, hn, heq⟩ := hdot
  exact hchar n (Buffer.toSextets_lt hn) heq

/-- The last dot of a signed text stands before the body. -/
theorem signedText_injective {text text' canonical canonical' : String}
    (h : signedText text canonical = signedText text' canonical') : canonical = canonical' := by
  have hlast : ∀ text canonical,
      (signedText text canonical).toList.rtakeWhile (· ≠ '.') = (encode canonical).toList := by
    intro text canonical
    have hall : ∀ c ∈ (encode canonical).toList.reverse, decide (c ≠ '.') = true := by
      intro c hc
      rw [decide_eq_true_eq]
      rintro rfl
      exact dot_not_mem_encode canonical (List.mem_reverse.mp hc)
    rw [signedText, String.toList_append, String.toList_append, List.rtakeWhile,
      List.reverse_append, List.takeWhile_append_of_pos hall]
    simp
  apply encode_injective
  apply String.toList_injective
  rw [← hlast text canonical, h, hlast]

theorem sign_ok {privateKey : π} {input : FspiopProtectedHeader.Input} {payload : String}
    {header : Header} (h : sign engine rsa privateKey input payload = .ok header) :
    ∃ entries canonical, FspiopProtectedHeader.build input = .ok entries ∧
      canonicalize engine payload = .ok canonical ∧
      input.alg.getD FspiopProtectedHeader.defaultAlgorithm = "RS256" ∧
      header.protectedHeader = encode (Value.stringify engine.numbers (ofEntries entries)) ∧
      header.signature = (rsa.sign privateKey
        (Buffer.fromUtf8 (signedText header.protectedHeader canonical))).toBase64Url := by
  obtain ⟨signing, hsigning, h⟩ := bind_ok_iff.mp h
  simp only [unless_ok_iff, not_not] at h
  obtain ⟨halg, h⟩ := h
  rw [pure_ok_iff] at h
  obtain ⟨entries, hbuild, hsigning⟩ := bind_ok_iff.mp hsigning
  obtain ⟨canonical, hcanonical, hsigning⟩ := bind_ok_iff.mp hsigning
  rw [pure_ok_iff] at hsigning
  subst hsigning h
  exact ⟨entries, canonical, hbuild, hcanonical, halg, rfl, rfl⟩

/-- What was signed is verified, as long as the bodies have the same text. -/
theorem verify_sign {privateKey : π} {publicKey : κ} {input : FspiopProtectedHeader.Input}
    {payload body : String} {header : Header}
    (hrsa : ∀ bytes, rsa.verify publicKey bytes (rsa.sign privateKey bytes) = true)
    (hsign : sign engine rsa privateKey input payload = .ok header)
    (hbody : canonicalize engine body = canonicalize engine payload) :
    verify engine rsa publicKey (.string (units header.signature))
      (.string (units header.protectedHeader)) body = true := by
  obtain ⟨entries, canonical, hbuild, hcanonical, halg, hheader, hsignature⟩ := sign_ok hsign
  obtain ⟨hnodup, uri, -, hentries⟩ := FspiopProtectedHeader.build_ok hbuild
  have hfield : field (fieldsOf entries : List (Units × Value ν)) "alg" =
      some (.string (units "RS256")) := by
    rw [field_fieldsOf hnodup, hentries, halg]
    rfl
  have hdecode : decodeProtectedHeader engine (.string (units header.protectedHeader)) =
      some (fieldsOf entries) := by
    rw [hheader, decodeProtectedHeader_encode]
  unfold verify
  rw [hdecode, hbody, hcanonical]
  simp only [headerBytes, ofUnits_units, hfield, isSupported, decide_true, Bool.true_and,
    hsignature, Buffer.fromBase64Url_toBase64Url, hrsa]

theorem encode_ne_empty {value : String} (h : value ≠ "") : encode value ≠ "" := by
  intro hempty
  apply h
  apply encode_injective
  rw [hempty]
  rfl

/-- Neither part of a header is empty when no signature is. -/
theorem sign_ne_empty {privateKey : π} {input : FspiopProtectedHeader.Input} {payload : String}
    {header : Header} (hrsa : ∀ bytes, rsa.sign privateKey bytes ≠ [])
    (h : sign engine rsa privateKey input payload = .ok header) :
    header.signature ≠ "" ∧ header.protectedHeader ≠ "" := by
  obtain ⟨entries, canonical, -, -, -, hheader, hsignature⟩ := sign_ok h
  constructor
  · intro hempty
    apply hrsa (Buffer.fromUtf8 (signedText header.protectedHeader canonical))
    apply Buffer.toBase64Url_injective
    rw [← hsignature, hempty]
    rfl
  · rw [hheader]
    apply encode_ne_empty
    intro hempty
    obtain ⟨c, cs, hchars, -, -⟩ := Value.chars_head engine.numbers (ofEntries entries)
    rw [Value.stringify, hchars, String.ofList_eq_empty_iff] at hempty
    cases hempty

/-- What a signature that is verified was verified over. -/
theorem verify_cases {publicKey : κ} {signature protectedHeader : Value ν} {payload : String}
    (h : verify engine rsa publicKey signature protectedHeader payload = true) :
    ∃ fields bytes text canonical s, decodeProtectedHeader engine protectedHeader = some fields ∧
      headerBytes engine protectedHeader = some (bytes, text) ∧
      canonicalize engine payload = .ok canonical ∧ signature = .string s ∧
      rsa.verify publicKey (Buffer.fromUtf8 (signedText text canonical))
        (Buffer.fromBase64Url (ofUnits s)) = true := by
  unfold verify at h
  split at h
  · rename_i fields bytes text canonical s hfields hbytes hcanonical
    rw [Bool.and_eq_true] at h
    exact ⟨fields, bytes, text, canonical, s, hfields, hbytes, hcanonical, rfl, h.2⟩
  · cases h

end Laws
end FspiopSignature
end Fspiop
