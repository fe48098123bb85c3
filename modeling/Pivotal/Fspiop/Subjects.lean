import Pivotal.Fspiop.Dto

/-! The subjects that correlate a callback with the request it answers. -/
namespace Fspiop.FspiopPubSubSubjects

def pubSubPrefix : String := "pivotal.fspiop.response."

/-- The values of the enumeration of party identifier types. -/
def PartyIdType.token : PartyIdType → String
  | .msisdn => "MSISDN"
  | .email => "EMAIL"
  | .personalId => "PERSONAL_ID"
  | .business => "BUSINESS"
  | .device => "DEVICE"
  | .accountId => "ACCOUNT_ID"
  | .iban => "IBAN"
  | .alias => "ALIAS"

namespace Parties

def anyPayee : String := "_any_"

/-- Both subjects of a party lookup, which differ in the resource token only. -/
def forResource (resource payer : String) (payee : Option String) (partyIdType : PartyIdType)
    (partyId : String) (subId : Option String) : String :=
  let base := pubSubPrefix ++ resource ++ ":" ++ payer ++ ":" ++ payee.getD anyPayee ++ ":" ++
    PartyIdType.token partyIdType ++ ":" ++ partyId
  match subId with
  | some s => if s = "" then base else base ++ ":" ++ s
  | none => base

def forSuccess (payer : String) (payee : Option String) (partyIdType : PartyIdType)
    (partyId : String) (subId : Option String) : String :=
  forResource "parties" payer payee partyIdType partyId subId

def forError (payer : String) (payeeOrHub : Option String) (partyIdType : PartyIdType)
    (partyId : String) (subId : Option String) : String :=
  forResource "parties-error" payer payeeOrHub partyIdType partyId subId

def successPrefix : List Char := (pubSubPrefix ++ "parties:").toList

def errorPrefix : List Char := (pubSubPrefix ++ "parties-error:").toList

/-- The subject with its second token replaced, when at least four tokens follow the prefix. -/
def rewriteTokens (subjectPrefix rest : List Char) : Option String :=
  let tokens := Js.split ':' rest
  if tokens.length < 4 then none
  else some (String.ofList
    (subjectPrefix ++ Js.join ':' (tokens.set 1 anyPayee.toList)))

def toAnyPayeeSubject (subject : String) : Option String :=
  match Js.stripPrefix successPrefix subject.toList with
  | some rest => rewriteTokens successPrefix rest
  | none =>
    match Js.stripPrefix errorPrefix subject.toList with
    | some rest => rewriteTokens errorPrefix rest
    | none => none

end Parties

namespace Quotes

def forSuccess (payer quoteId : String) : String := pubSubPrefix ++ "quotes:" ++ payer ++ ":" ++ quoteId

def forError (payer quoteId : String) : String :=
  pubSubPrefix ++ "quotes-error:" ++ payer ++ ":" ++ quoteId

end Quotes

namespace Transfers

def forSuccess (payer transferId : String) : String :=
  pubSubPrefix ++ "transfers:" ++ payer ++ ":" ++ transferId

def forError (payer transferId : String) : String :=
  pubSubPrefix ++ "transfers-error:" ++ payer ++ ":" ++ transferId

end Transfers
end Fspiop.FspiopPubSubSubjects
