import Pivotal.Fspiop.PartySubjects

/-! The commands that hand the callbacks of a party lookup to whoever waits for them. -/
namespace Inbound
open Fspiop FspiopPubSubSubjects

/-- The input of both commands; they differ in what the callback holds. -/
structure PartiesCallbackInput (Content : Type) where
  correlationId : Option String
  payerFsp : String
  payeeFsp : String
  partyIdType : PartyIdType
  partyId : String
  subId : Option String
  content : Option Content

abbrev HandlePutPartiesInput := PartiesCallbackInput PartiesTypeIDPutResponse

abbrev HandlePutPartiesErrorInput := PartiesCallbackInput ErrorInformationObject

/-- The lookup that the callback answers. -/
def PartiesCallbackInput.lookup {Content : Type} (input : PartiesCallbackInput Content) :
    PartyLookup :=
  ⟨input.payerFsp, some input.payeeFsp, input.partyIdType, input.partyId, input.subId⟩

namespace HandlePutPartiesHandler

/-- What is published, and its subject; nothing for a callback without a body. -/
def execute (input : HandlePutPartiesInput) : Option (String × PartiesTypeIDPutResponse) :=
  input.content.map fun response =>
    (Parties.forSuccess input.payerFsp (some input.payeeFsp) input.partyIdType input.partyId
      input.subId, response)

theorem map_snd_execute (input : HandlePutPartiesInput) :
    (execute input).map Prod.snd = input.content := by
  simp [execute, Function.comp_def]

end HandlePutPartiesHandler

namespace HandlePutPartiesErrorHandler

def execute (input : HandlePutPartiesErrorInput) : Option (String × ErrorInformationObject) :=
  input.content.map fun error =>
    (Parties.forError input.payerFsp (some input.payeeFsp) input.partyIdType input.partyId
      input.subId, error)

theorem map_snd_execute (input : HandlePutPartiesErrorInput) :
    (execute input).map Prod.snd = input.content := by
  simp [execute, Function.comp_def]

end HandlePutPartiesErrorHandler
end Inbound
