import Pivotal.Fspiop.Dto
import Pivotal.Js.Json

/-! The agreement of a quote, which travels as JSON text inside its packet. -/
namespace Fspiop
open Js

def PartyIdType.text : PartyIdType → String
  | .msisdn => "MSISDN"
  | .email => "EMAIL"
  | .personalId => "PERSONAL_ID"
  | .business => "BUSINESS"
  | .device => "DEVICE"
  | .accountId => "ACCOUNT_ID"
  | .iban => "IBAN"
  | .alias => "ALIAS"

def PartyIdType.toJson (partyIdType : PartyIdType) : Json := .string partyIdType.text

def AmountType.toJson : AmountType → Json
  | .send => .string "SEND"
  | .receive => .string "RECEIVE"

def TransactionScenario.toJson : TransactionScenario → Json
  | .deposit => .string "DEPOSIT"
  | .withdrawal => .string "WITHDRAWAL"
  | .transfer => .string "TRANSFER"
  | .payment => .string "PAYMENT"
  | .refund => .string "REFUND"

def Money.toJson (money : Money) : Json :=
  .object [("currency", .string money.currency), ("amount", .string money.amount)]

def Extension.toJson (e : Extension) : Json :=
  .object (Json.optional "key" e.key .string ++ Json.optional "value" e.value .string)

def ExtensionList.toJson (e : ExtensionList) : Json :=
  .object (Json.optional "extension" e.extension fun items => .array (items.map Extension.toJson))

def PartyIdInfo.toJson (info : PartyIdInfo) : Json :=
  .object (Json.optional "partyIdType" info.partyIdType PartyIdType.toJson ++
    [("partyIdentifier", .string info.partyIdentifier)] ++
    Json.optional "partySubIdOrType" info.partySubIdOrType .string ++
    Json.optional "fspId" info.fspId .string ++
    Json.optional "extensionList" info.extensionList ExtensionList.toJson)

structure FspiopAgreement where
  quoteId : String
  payer : PartyIdInfo
  payee : PartyIdInfo
  amountType : AmountType
  scenario : TransactionScenario
  subScenario : Option String
  originalAmount : Option Money
  payeeFspFee : Money
  payeeFspCommission : Money
  payeeReceiveAmount : Money
  transferAmount : Money
  expireAt : ℤ
  deriving DecidableEq

def FspiopAgreement.toJson (a : FspiopAgreement) : Json :=
  .object ([("quoteId", .string a.quoteId), ("payer", a.payer.toJson), ("payee", a.payee.toJson),
      ("amountType", a.amountType.toJson), ("scenario", a.scenario.toJson)] ++
    Json.optional "subScenario" a.subScenario .string ++
    Json.optional "originalAmount" a.originalAmount Money.toJson ++
    [("payeeFspFee", a.payeeFspFee.toJson), ("payeeFspCommission", a.payeeFspCommission.toJson),
      ("payeeReceiveAmount", a.payeeReceiveAmount.toJson),
      ("transferAmount", a.transferAmount.toJson), ("expireAt", .number a.expireAt)])

end Fspiop
