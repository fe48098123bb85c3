import Pivotal.Fspiop.Subscriber
import Pivotal.Js.Split

/-! Which lookups of parties share a subject. The parts of a subject are joined by a character that
an identifier may hold, so what counts is the written form, cut at that character. -/
namespace Fspiop.FspiopPubSubSubjects
open Js

/-- What a lookup is for. The payee may be unknown. -/
structure PartyLookup where
  payer : String
  payee : Option String
  partyIdType : PartyIdType
  partyId : String
  subId : Option String
  deriving DecidableEq

namespace PartyLookup

variable (t t' : PartyLookup)

/-- The parts of the subjects after the resource. An empty sub-id is left out. -/
def fields : List (List Char) :=
  t.payer.toList :: (t.payee.getD Parties.anyPayee).toList :: (PartyIdType.token t.partyIdType).toList ::
    t.partyId.toList :: match t.subId with
      | some s => if s = "" then [] else [s.toList]
      | none => []

/-- The written form, cut at its colons. -/
def tokens : List (List Char) := t.fields.flatMap (split ':')

/-- The same without the second token. -/
def masked : List (List Char) := t.tokens.set 1 Parties.anyPayee.toList

def forSuccess : String :=
  Parties.forSuccess t.payer t.payee t.partyIdType t.partyId t.subId

def forError : String := Parties.forError t.payer t.payee t.partyIdType t.partyId t.subId

/-- The subjects of a lookup, as they are and addressed to any payee. -/
def subjects : List String :=
  let direct := [t.forSuccess, t.forError]
  direct ++ direct.filterMap Parties.toAnyPayeeSubject

/-- They differ in more than the payee. -/
def Differ : Prop :=
  t.payer ≠ t'.payer ∨ t.partyIdType ≠ t'.partyIdType ∨ t.partyId ≠ t'.partyId ∨ t.subId ≠ t'.subId

instance : Decidable (t.Differ t') := inferInstanceAs (Decidable (_ ∨ _))

end PartyLookup

namespace Parties

variable {resource : List Char}

theorem forResource_toList (resource : String) (t : PartyLookup) :
    (forResource resource t.payer t.payee t.partyIdType t.partyId t.subId).toList =
      (pubSubPrefix ++ resource ++ ":").toList ++ join ':' t.fields := by
  cases hsub : t.subId with
  | none => simp [forResource, PartyLookup.fields, hsub, join]
  | some s =>
    by_cases hs : s = ""
    · simp [forResource, PartyLookup.fields, hsub, hs, join]
    · simp [forResource, PartyLookup.fields, hsub, hs, join]

theorem fields_ne_nil (t : PartyLookup) : t.fields ≠ [] := List.cons_ne_nil _ _

theorem split_fields (t : PartyLookup) : split ':' (join ':' t.fields) = t.tokens :=
  split_join ':' (fields_ne_nil t)

theorem join_tokens (t : PartyLookup) : join ':' t.tokens = join ':' t.fields := by
  rw [← split_fields, join_split]

theorem four_le_length_tokens (t : PartyLookup) : 4 ≤ t.tokens.length := by
  have hpos : ∀ cs : List Char, 1 ≤ (split ':' cs).length := fun cs =>
    List.length_pos_iff.mpr (split_ne_nil ':' cs)
  have h₁ := hpos t.payer.toList
  have h₂ := hpos (t.payee.getD anyPayee).toList
  have h₃ := hpos (PartyIdType.token t.partyIdType).toList
  have h₄ := hpos t.partyId.toList
  simp only [PartyLookup.tokens, PartyLookup.fields, List.flatMap_cons, List.length_append]
  omega

theorem colon_notMem_tokens {t : PartyLookup} {token : List Char} (h : token ∈ t.tokens) :
    ':' ∉ token := by
  obtain ⟨field, -, hfield⟩ := List.mem_flatMap.mp h
  exact notMem_of_mem_split hfield

theorem colon_notMem_masked {t : PartyLookup} {token : List Char} (h : token ∈ t.masked) :
    ':' ∉ token := by
  rcases List.mem_or_eq_of_mem_set h with h | rfl
  · exact colon_notMem_tokens h
  · decide

theorem rewriteTokens_fields (ps : List Char) (t : PartyLookup) :
    rewriteTokens ps (join ':' t.fields) = some (String.ofList (ps ++ join ':' t.masked)) := by
  have hlength := four_le_length_tokens t
  rw [rewriteTokens, split_fields, if_neg (by omega)]
  rfl

theorem forSuccess_toList (t : PartyLookup) :
    t.forSuccess.toList = successPrefix ++ join ':' t.fields :=
  forResource_toList "parties" t

theorem forError_toList (t : PartyLookup) :
    t.forError.toList = errorPrefix ++ join ':' t.fields :=
  forResource_toList "parties-error" t

theorem toAnyPayeeSubject_forSuccess (t : PartyLookup) :
    toAnyPayeeSubject t.forSuccess =
      some (String.ofList (successPrefix ++ join ':' t.masked)) := by
  rw [toAnyPayeeSubject, forSuccess_toList, stripPrefix_append]
  exact rewriteTokens_fields successPrefix t

/-- The prefixes of the two kinds of subjects part. -/
theorem successPrefix_append_ne (cs ds : List Char) : successPrefix ++ cs ≠ errorPrefix ++ ds := by
  have hsuccess : successPrefix = (pubSubPrefix ++ "parties").toList ++ [':'] := by decide
  have herror : errorPrefix = (pubSubPrefix ++ "parties").toList ++ "-error:".toList := by decide
  rw [hsuccess, herror, List.append_assoc, List.append_assoc]
  intro h
  have hrest := List.append_cancel_left h
  have hchar : (':' : Char) = '-' := (List.cons.inj hrest).1
  exact absurd hchar (by decide)

theorem toAnyPayeeSubject_forError (t : PartyLookup) :
    toAnyPayeeSubject t.forError = some (String.ofList (errorPrefix ++ join ':' t.masked)) := by
  have hnone : stripPrefix successPrefix (errorPrefix ++ join ':' t.fields) = none := by
    cases h : stripPrefix successPrefix (errorPrefix ++ join ':' t.fields) with
    | none => rfl
    | some rest => exact absurd (stripPrefix_eq_some h).symm (successPrefix_append_ne _ _)
  rw [toAnyPayeeSubject, forError_toList, hnone, stripPrefix_append]
  exact rewriteTokens_fields errorPrefix t

end Parties

namespace PartyLookup
open Parties

variable {t t' : PartyLookup} {subject : String}

theorem mem_subjects_iff : subject ∈ t.subjects ↔
    ∃ ps ∈ [successPrefix, errorPrefix], ∃ ts ∈ [t.tokens, t.masked],
      subject.toList = ps ++ join ':' ts := by
  have hsubjects : t.subjects = [t.forSuccess, t.forError,
      String.ofList (successPrefix ++ join ':' t.masked),
      String.ofList (errorPrefix ++ join ':' t.masked)] := by
    simp only [subjects, List.filterMap_cons, toAnyPayeeSubject_forSuccess,
      toAnyPayeeSubject_forError, List.filterMap_nil, List.cons_append, List.nil_append]
  rw [hsubjects]
  simp only [List.mem_cons, List.not_mem_nil, or_false, exists_eq_or_imp, exists_eq_left,
    join_tokens]
  simp only [← String.toList_inj, forSuccess_toList, forError_toList, String.toList_ofList]
  generalize successPrefix ++ join ':' t.fields = a
  generalize errorPrefix ++ join ':' t.fields = b
  generalize successPrefix ++ join ':' t.masked = c
  generalize errorPrefix ++ join ':' t.masked = d
  tauto

theorem prefix_ext {ps ps' cs ds : List Char} (hps : ps ∈ [successPrefix, errorPrefix])
    (hps' : ps' ∈ [successPrefix, errorPrefix]) (h : ps ++ cs = ps' ++ ds) : cs = ds := by
  simp only [List.mem_cons, List.not_mem_nil, or_false] at hps hps'
  rcases hps with rfl | rfl
  · rcases hps' with rfl | rfl
    · exact List.append_cancel_left h
    · exact absurd h (successPrefix_append_ne cs ds)
  · rcases hps' with rfl | rfl
    · exact absurd h.symm (successPrefix_append_ne ds cs)
    · exact List.append_cancel_left h

/-- Either form is made of tokens without colons, and is the masked one without its second. -/
theorem form_spec {ts : List (List Char)} (h : ts ∈ [t.tokens, t.masked]) :
    split ':' (join ':' ts) = ts ∧ ts.set 1 anyPayee.toList = t.masked := by
  have hne : t.tokens ≠ [] := by
    have hlength := four_le_length_tokens t
    intro h
    rw [h] at hlength
    simp at hlength
  simp only [List.mem_cons, List.not_mem_nil, or_false] at h
  rcases h with rfl | rfl
  · constructor
    · rw [split_join ':' hne, flatMap_split fun token => colon_notMem_tokens]
    · rfl
  · constructor
    · have hmasked : t.masked ≠ [] := by
        simpa [masked] using hne
      rw [split_join ':' hmasked, flatMap_split fun token => colon_notMem_masked]
    · rw [masked, List.set_set]

/-- Two lookups share no subject, direct or of any payee, exactly if their written forms differ in
a token that is not the second. -/
theorem subjects_apart_iff (t t' : PartyLookup) :
    (∀ subject ∈ t.subjects, subject ∉ t'.subjects) ↔ t.masked ≠ t'.masked := by
  constructor
  · intro hapart hmasked
    have hmem : ∀ u : PartyLookup, u.masked = t.masked →
        String.ofList (successPrefix ++ join ':' t.masked) ∈ u.subjects := by
      intro u hu
      rw [mem_subjects_iff]
      exact ⟨successPrefix, by simp, u.masked, by simp, by rw [String.toList_ofList, hu]⟩
    exact hapart _ (hmem t rfl) (hmem t' hmasked.symm)
  · intro hmasked subject ht ht'
    obtain ⟨ps, hps, ts, hts, htext⟩ := mem_subjects_iff.mp ht
    obtain ⟨ps', hps', ts', hts', htext'⟩ := mem_subjects_iff.mp ht'
    obtain ⟨hsplit, hset⟩ := form_spec hts
    obtain ⟨hsplit', hset'⟩ := form_spec hts'
    apply hmasked
    have hjoin : join ':' ts = join ':' ts' := prefix_ext hps hps' (htext.symm.trans htext')
    rw [← hset, ← hset', ← hsplit, ← hsplit', hjoin]

/-- An identifier that holds the separator: the lookup of `1:2` has the subjects of that of `1`
with the sub-id `2`. -/
theorem not_subjects_apart :
    ¬ ∀ t t' : PartyLookup,
      (∀ u ∈ [t, t'], ∀ text ∈ u.payer :: u.partyId :: (u.payee.toList ++ u.subId.toList),
        trim text ≠ "") →
      t.Differ t' → ∀ subject ∈ t.subjects, subject ∉ t'.subjects := by
  intro h
  have hapart := h ⟨"a", some "b", .accountId, "1", some "2"⟩ ⟨"a", some "b", .accountId, "1:2", none⟩
    (by decide) (by decide)
  have hmasked := (subjects_apart_iff _ _).mp hapart
  exact hmasked (by decide)

/-- Participants without colons keep their places, and the payee is what is replaced. -/
theorem masked_eq_tokens (hpayer : ':' ∉ t.payer.toList)
    (hpayee : ':' ∉ (t.payee.getD anyPayee).toList) :
    t.masked = { t with payee := none }.tokens := by
  have hany : ':' ∉ anyPayee.toList := by decide
  simp only [masked, tokens, fields, List.flatMap_cons, split_of_notMem hpayer,
    split_of_notMem hpayee, Option.getD_none, split_of_notMem hany]
  rfl

theorem toAnyPayeeSubject_eq (hpayer : ':' ∉ t.payer.toList)
    (hpayee : ':' ∉ (t.payee.getD anyPayee).toList) :
    toAnyPayeeSubject t.forSuccess = some { t with payee := none }.forSuccess ∧
      toAnyPayeeSubject t.forError = some { t with payee := none }.forError := by
  constructor
  · rw [toAnyPayeeSubject_forSuccess, masked_eq_tokens hpayer hpayee, join_tokens,
      ← forSuccess_toList, String.ofList_toList]
  · rw [toAnyPayeeSubject_forError, masked_eq_tokens hpayer hpayee, join_tokens,
      ← forError_toList, String.ofList_toList]

/-- A callback is looked up under subjects of its own tuple. -/
theorem matchedSubject_mem {ι Body : Type} (s : FspiopResponseSubscriber ι Body) (t : PartyLookup) :
    s.matchedSubject t.forSuccess ∈ t.subjects ∧ s.matchedSubject t.forError ∈ t.subjects := by
  have hmatched : ∀ subject ∈ [t.forSuccess, t.forError], s.matchedSubject subject ∈ t.subjects := by
    intro subject hsubject
    unfold FspiopResponseSubscriber.matchedSubject subjects
    rw [List.mem_append]
    split
    · exact .inl hsubject
    · cases hany : toAnyPayeeSubject subject with
      | none => exact .inl hsubject
      | some any => exact .inr (List.mem_filterMap.mpr ⟨subject, hsubject, hany⟩)
  exact ⟨hmatched _ (by simp), hmatched _ (by simp)⟩

end PartyLookup
end Fspiop.FspiopPubSubSubjects
