import Pivotal.Fspiop.Money

/-! The FSPIOP messages, with the fields that the modelled code reads or sets.
A field that the code tests for absence is optional. -/
namespace Fspiop

inductive PartyIdType where
  | msisdn | email | personalId | business | device | accountId | iban | alias
  deriving DecidableEq

inductive AmountType where
  | send | receive
  deriving DecidableEq

inductive TransactionScenario where
  | deposit | withdrawal | transfer | payment | refund
  deriving DecidableEq

inductive TransactionInitiator where
  | payer | payee
  deriving DecidableEq

inductive TransactionInitiatorType where
  | consumer | agent | business | device
  deriving DecidableEq

inductive TransferState where
  | received | reserved | committed | aborted
  deriving DecidableEq

structure PartyIdInfo where
  partyIdType : Option PartyIdType
  partyIdentifier : String
  partySubIdOrType : Option String
  fspId : Option String
  extensionList : Option ExtensionList
  deriving DecidableEq

structure PartyComplexName where
  firstName : Option String
  middleName : Option String
  lastName : Option String
  deriving DecidableEq

structure PartyPersonalInfo where
  complexName : Option PartyComplexName
  dateOfBirth : Option String
  deriving DecidableEq

structure Party where
  partyIdInfo : Option PartyIdInfo
  merchantClassificationCode : Option String
  name : Option String
  personalInfo : Option PartyPersonalInfo := none
  supportedCurrencies : Option (List Currency)
  deriving DecidableEq

structure TransactionType where
  scenario : Option TransactionScenario
  subScenario : Option String
  initiator : TransactionInitiator
  initiatorType : TransactionInitiatorType
  deriving DecidableEq

structure QuotesPostRequest where
  quoteId : String
  transactionId : Option String
  transactionRequestId : Option String
  payee : Option Party
  payer : Option Party
  amountType : AmountType
  amount : Option Money
  fees : Option Money
  transactionType : Option TransactionType
  note : Option String
  expiration : Option String
  extensionList : Option ExtensionList
  deriving DecidableEq

structure QuotesIDPutResponse where
  transferAmount : Option Money
  payeeReceiveAmount : Option Money
  payeeFspFee : Option Money
  payeeFspCommission : Option Money
  expiration : String
  ilpPacket : String
  condition : String
  extensionList : Option ExtensionList
  deriving DecidableEq

structure TransfersPostRequest where
  transferId : Option String
  payeeFsp : Option String
  payerFsp : Option String
  amount : Option Money
  ilpPacket : Option String
  condition : Option String
  expiration : Option String
  extensionList : Option ExtensionList
  deriving DecidableEq

structure TransfersIDPutResponse where
  fulfilment : Option String
  completedTimestamp : Option String
  transferState : TransferState
  extensionList : Option ExtensionList
  deriving DecidableEq

structure TransfersIDPatchResponse where
  completedTimestamp : String
  transferState : TransferState
  extensionList : Option ExtensionList
  deriving DecidableEq

structure PartiesTypeIDPutResponse where
  party : Party
  deriving DecidableEq

end Fspiop
