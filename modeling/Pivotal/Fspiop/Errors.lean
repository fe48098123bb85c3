import Pivotal.Js.Except
import Pivotal.Js.Text

/-! FSPIOP errors: the catalogue, the exceptions built from it and the conversion of
anything thrown into one of them. -/
namespace Fspiop

structure Extension where
  key : Option String
  value : Option String
  deriving DecidableEq

structure ExtensionList where
  extension : Option (List Extension)
  deriving DecidableEq

/-- An error code. The API has numbers of four digits, and what is received is any text; a name that
objects inherit is none, as an object literal would answer for it. -/
structure ErrorCode where
  text : String
  own : text ∉ Js.prototypeMembers
  deriving DecidableEq

/-- The code where none was received. -/
def ErrorCode.empty : ErrorCode := ⟨"", by decide⟩

structure FspiopErrorType where
  code : ErrorCode
  deriving DecidableEq

structure ErrorDefinition where
  errorType : FspiopErrorType
  description : String
  deriving DecidableEq

structure ErrorInformation where
  errorCode : Option ErrorCode
  errorDescription : Option String
  extensionList : Option ExtensionList
  deriving DecidableEq

/-- The body of an error callback and of an error response. -/
structure ErrorInformationObject where
  errorInformation : Option ErrorInformation
  deriving DecidableEq

def ErrorDefinition.toErrorObject (d : ErrorDefinition) (extensionList : Option ExtensionList) :
    ErrorInformationObject :=
  ⟨some ⟨some d.errorType.code, some d.description, extensionList⟩⟩

namespace FspiopErrors

def communicationError : ErrorDefinition := ⟨⟨⟨"1000", by decide⟩⟩, "Generic communication error."⟩
def destinationCommunicationError : ErrorDefinition :=
  ⟨⟨⟨"1001", by decide⟩⟩, "Destination of the request failed to be reached. This usually indicates that a " ++
    "Peer FSP failed to respond from an intermediate entity."⟩
def genericServerError : ErrorDefinition := ⟨⟨⟨"2000", by decide⟩⟩, "Used to avoid disclosing private details."⟩
def internalServerError : ErrorDefinition := ⟨⟨⟨"2001", by decide⟩⟩, "Unexpected exception or bug."⟩
def notImplemented : ErrorDefinition := ⟨⟨⟨"2002", by decide⟩⟩, "Service not supported by server."⟩
def serviceCurrentlyUnavailable : ErrorDefinition :=
  ⟨⟨⟨"2003", by decide⟩⟩, "Service temporarily unavailable (e.g. maintenance)."⟩
def serverTimedOut : ErrorDefinition := ⟨⟨⟨"2004", by decide⟩⟩, "Callback not received within timeout period."⟩
def serverBusy : ErrorDefinition := ⟨⟨⟨"2005", by decide⟩⟩, "Server rejecting requests due to overload."⟩
def genericClientError : ErrorDefinition :=
  ⟨⟨⟨"3000", by decide⟩⟩, "Used to avoid disclosing private client errors."⟩
def unacceptableVersionRequested : ErrorDefinition :=
  ⟨⟨⟨"3001", by decide⟩⟩, "Client requested unsupported API version."⟩
def unknownUri : ErrorDefinition := ⟨⟨⟨"3002", by decide⟩⟩, "Provided URI not recognized by server."⟩
def addPartyInformationError : ErrorDefinition :=
  ⟨⟨⟨"3003", by decide⟩⟩, "Error occurred while adding/updating party info."⟩
def genericValidationError : ErrorDefinition := ⟨⟨⟨"3100", by decide⟩⟩, "Generic format error."⟩
def malformedSyntax : ErrorDefinition :=
  ⟨⟨⟨"3101", by decide⟩⟩, "Invalid parameter format (e.g. amount '5.ABC')."⟩
def missingMandatoryElement : ErrorDefinition :=
  ⟨⟨⟨"3102", by decide⟩⟩, "Required element in data model is missing."⟩
def tooManyElements : ErrorDefinition := ⟨⟨⟨"3103", by decide⟩⟩, "Array exceeds allowed maximum."⟩
def tooLargePayload : ErrorDefinition := ⟨⟨⟨"3104", by decide⟩⟩, "Request payload exceeds allowed size."⟩
def invalidSignature : ErrorDefinition := ⟨⟨⟨"3105", by decide⟩⟩, "Payload signature invalid or modified."⟩
def modifiedRequest : ErrorDefinition :=
  ⟨⟨⟨"3106", by decide⟩⟩, "Parameters differ from a previously processed request."⟩
def missingExtensionParameter : ErrorDefinition :=
  ⟨⟨⟨"3107", by decide⟩⟩, "Required extension parameter not provided."⟩
def genericIdNotFound : ErrorDefinition := ⟨⟨⟨"3200", by decide⟩⟩, "Generic identifier error."⟩
def destinationFspError : ErrorDefinition :=
  ⟨⟨⟨"3201", by decide⟩⟩, "Destination FSP cannot be found or doesn't exist."⟩
def payerFspIdNotFound : ErrorDefinition := ⟨⟨⟨"3202", by decide⟩⟩, "Payer FSP ID not recognized."⟩
def payeeFspIdNotFound : ErrorDefinition := ⟨⟨⟨"3203", by decide⟩⟩, "Payee FSP ID not recognized."⟩
def partyNotFound : ErrorDefinition := ⟨⟨⟨"3204", by decide⟩⟩, "Provided party identifier not found."⟩
def quoteIdNotFound : ErrorDefinition := ⟨⟨⟨"3205", by decide⟩⟩, "Quote ID not found on server."⟩
def transactionRequestIdNotFound : ErrorDefinition :=
  ⟨⟨⟨"3206", by decide⟩⟩, "ID not found for transaction request."⟩
def transactionIdNotFound : ErrorDefinition := ⟨⟨⟨"3207", by decide⟩⟩, "Transaction ID not found."⟩
def transferIdNotFound : ErrorDefinition := ⟨⟨⟨"3208", by decide⟩⟩, "Transfer ID not found."⟩
def bulkQuoteIdNotFound : ErrorDefinition := ⟨⟨⟨"3209", by decide⟩⟩, "Bulk quote ID not found."⟩
def bulkTransferIdNotFound : ErrorDefinition := ⟨⟨⟨"3210", by decide⟩⟩, "Bulk transfer ID not found."⟩
def genericExpiredError : ErrorDefinition :=
  ⟨⟨⟨"3300", by decide⟩⟩, "Generic expired object error (non-specific)."⟩
def transactionRequestExpired : ErrorDefinition :=
  ⟨⟨⟨"3301", by decide⟩⟩, "Transaction request has already expired."⟩
def quoteExpired : ErrorDefinition := ⟨⟨⟨"3302", by decide⟩⟩, "The quote is no longer valid."⟩
def transferExpired : ErrorDefinition := ⟨⟨⟨"3303", by decide⟩⟩, "The transfer has already expired."⟩
def genericPayerError : ErrorDefinition := ⟨⟨⟨"4000", by decide⟩⟩, "Used for private payer-related errors."⟩
def payerFspInsufficientLiquidity : ErrorDefinition := ⟨⟨⟨"4001", by decide⟩⟩, "Payer-s FSP lacks funds."⟩
def genericPayerRejection : ErrorDefinition :=
  ⟨⟨⟨"4100", by decide⟩⟩, "Payer or payer FSP rejected the request."⟩
def payerRejectedTransactionRequest : ErrorDefinition :=
  ⟨⟨⟨"4101", by decide⟩⟩, "Payer rejected the transaction request."⟩
def payerFspUnsupportedTransactionType : ErrorDefinition :=
  ⟨⟨⟨"4102", by decide⟩⟩, "Transaction type not supported by Payer FSP."⟩
def payerUnsupportedCurrency : ErrorDefinition :=
  ⟨⟨⟨"4103", by decide⟩⟩, "Payer does not support requested currency."⟩
def payerLimitError : ErrorDefinition := ⟨⟨⟨"4200", by decide⟩⟩, "Payment amount/frequency exceeds limits."⟩
def suspiciousTransactionPattern : ErrorDefinition :=
  ⟨⟨⟨"4240", by decide⟩⟩, "Repetitive transaction pattern blocked."⟩
def payerPermissionError : ErrorDefinition :=
  ⟨⟨⟨"4300", by decide⟩⟩, "Payer lacks permission to perform operation."⟩
def genericPayerBlockedError : ErrorDefinition :=
  ⟨⟨⟨"4400", by decide⟩⟩, "Payer is blocked or failed regulatory screening."⟩
def genericPayeeError : ErrorDefinition :=
  ⟨⟨⟨"5000", by decide⟩⟩, "Generic error related to payee or payee FSP."⟩
def payeeFspInsufficientLiquidity : ErrorDefinition :=
  ⟨⟨⟨"5001", by decide⟩⟩, "Payee FSP lacks sufficient liquidity."⟩
def genericPayeeRejection : ErrorDefinition := ⟨⟨⟨"5100", by decide⟩⟩, "Payee or payee FSP rejected request."⟩
def payeeRejectedQuote : ErrorDefinition := ⟨⟨⟨"5101", by decide⟩⟩, "Payee unwilling to proceed after quote."⟩
def payeeFspUnsupportedTransactionType : ErrorDefinition :=
  ⟨⟨⟨"5102", by decide⟩⟩, "Payee FSP rejects unsupported transaction type."⟩
def payeeFspRejectedQuote : ErrorDefinition :=
  ⟨⟨⟨"5103", by decide⟩⟩, "Payee FSP unwilling to continue after quote."⟩
def payeeRejectedTransaction : ErrorDefinition := ⟨⟨⟨"5104", by decide⟩⟩, "Payee rejected the transaction."⟩
def payeeFspRejectedTransaction : ErrorDefinition :=
  ⟨⟨⟨"5105", by decide⟩⟩, "Payee FSP rejected the transaction."⟩
def payeeUnsupportedCurrency : ErrorDefinition :=
  ⟨⟨⟨"5106", by decide⟩⟩, "Payee does not support requested currency."⟩
def payeeLimitError : ErrorDefinition :=
  ⟨⟨⟨"5200", by decide⟩⟩, "Receiving amount/frequency exceeds allowed limits."⟩
def payeePermissionError : ErrorDefinition :=
  ⟨⟨⟨"5300", by decide⟩⟩, "Payee lacks permission to perform operation."⟩
def genericPayeeBlockedError : ErrorDefinition :=
  ⟨⟨⟨"5400", by decide⟩⟩, "Payee is blocked or failed regulatory screening."⟩
def roundingValueError : ErrorDefinition :=
  ⟨⟨⟨"5241", by decide⟩⟩, "Amount is invalid. Please enter the format specified by the service provider."⟩
def inactiveAccount : ErrorDefinition := ⟨⟨⟨"3242", by decide⟩⟩, "Account is not active."⟩
def phoneNumberMismatch : ErrorDefinition :=
  ⟨⟨⟨"3241", by decide⟩⟩, "There was an error with your account number and phone number combination. " ++
    "Please contact your DFSP to verify the numbers."⟩
def duplicateReferenceId : ErrorDefinition := ⟨⟨⟨"3041", by decide⟩⟩, "Duplicate reference ID."⟩

/-- The object literal that `find` indexes. -/
def errorMap : List ErrorDefinition :=
  [communicationError, destinationCommunicationError, genericServerError, internalServerError,
    notImplemented, serviceCurrentlyUnavailable, serverTimedOut, serverBusy, genericClientError,
    unacceptableVersionRequested, unknownUri, addPartyInformationError, genericValidationError,
    malformedSyntax, missingMandatoryElement, tooManyElements, tooLargePayload, invalidSignature,
    modifiedRequest, missingExtensionParameter, genericIdNotFound, destinationFspError,
    payerFspIdNotFound, payeeFspIdNotFound, partyNotFound, quoteIdNotFound,
    transactionRequestIdNotFound, transactionIdNotFound, transferIdNotFound, bulkQuoteIdNotFound,
    bulkTransferIdNotFound, genericExpiredError, transactionRequestExpired, quoteExpired,
    transferExpired, genericPayerError, payerFspInsufficientLiquidity, genericPayerRejection,
    payerRejectedTransactionRequest, payerFspUnsupportedTransactionType,
    payerUnsupportedCurrency, payerLimitError, suspiciousTransactionPattern,
    payerPermissionError, genericPayerBlockedError, genericPayeeError, payeeFspInsufficientLiquidity, genericPayeeRejection, payeeRejectedQuote,
    payeeFspUnsupportedTransactionType, payeeFspRejectedQuote, payeeRejectedTransaction,
    payeeFspRejectedTransaction, payeeUnsupportedCurrency, payeeLimitError, payeePermissionError,
    genericPayeeBlockedError, roundingValueError, inactiveAccount, phoneNumberMismatch,
    duplicateReferenceId]

def find (code : ErrorCode) : Option ErrorDefinition :=
  errorMap.find? fun d => d.errorType.code = code

end FspiopErrors

structure FspiopException where
  errorDefinition : ErrorDefinition
  message : String
  extensionList : Option ExtensionList
  deriving DecidableEq

structure FspiopAxiosError where
  status : ℕ
  errorInformationResponse : ErrorInformationObject
  deriving DecidableEq

/-- What the client of the wallet throws; its message is its description. -/
structure FspClientException where
  code : String
  description : String
  deriving DecidableEq

/-- An object of class `Error` that is none of the classes above, with the optional
fields that callers probe for. -/
structure PlainError where
  name : String
  message : String
  code : Option String
  description : Option String
  deriving DecidableEq

/-- What JavaScript code can throw, as far as any handler here looks at it. -/
inductive JsError where
  | fspiop (e : FspiopException)
  | axios (e : FspiopAxiosError)
  | fspClient (e : FspClientException)
  | plain (e : PlainError)
  | other
  deriving DecidableEq

/-- `new Error(message)`. -/
def JsError.ofMessage (message : String) : JsError := .plain ⟨"Error", message, none, none⟩

/-- The `TypeError` of reading a property of `null` or `undefined`. -/
def JsError.typeError : JsError :=
  .plain ⟨"TypeError", "Cannot read properties of undefined", none, none⟩

def FspiopAxiosError.message (e : FspiopAxiosError) : String :=
  let info := e.errorInformationResponse.errorInformation
  "FSPIOP error [" ++ toString e.status ++ "] " ++
    (((info.bind (·.errorCode)).map (·.text)).getD "0000") ++ ": " ++
    ((info.bind (·.errorDescription)).getD "unknown")

namespace FspiopException

def firstNonBlank (value : Option String) (fallback : String) : String :=
  match value with
  | some v => if Js.trim v = "" then fallback else v
  | none => fallback

/-- `new FspiopException(definition, message, extensionList)`. -/
def ofMessage (definition : ErrorDefinition) (message : String)
    (extensionList : Option ExtensionList := none) : FspiopException :=
  let text := firstNonBlank (some message) definition.description
  ⟨⟨definition.errorType, text⟩, text, extensionList⟩

/-- `new FspiopException(definition, extensionList)`. -/
def ofExtensions (definition : ErrorDefinition)
    (extensionList : Option ExtensionList := none) : FspiopException :=
  ⟨definition, definition.description, extensionList⟩

def toErrorObject (e : FspiopException) : ErrorInformationObject :=
  e.errorDefinition.toErrorObject e.extensionList

def normalize : JsError → FspiopException
  | .fspiop e => e
  | .axios e => ofMessage FspiopErrors.internalServerError
      (firstNonBlank (some e.message) FspiopErrors.internalServerError.description)
  | .fspClient e => ofMessage FspiopErrors.internalServerError
      (firstNonBlank (some e.description) FspiopErrors.internalServerError.description)
  | .plain e => ofMessage FspiopErrors.internalServerError
      (firstNonBlank (some e.message) FspiopErrors.internalServerError.description)
  | .other => ofMessage FspiopErrors.internalServerError
      (firstNonBlank none FspiopErrors.internalServerError.description)

end FspiopException

/-- `throw new FspiopException(definition, message)`. -/
def reject (definition : ErrorDefinition) (message : String) : JsError :=
  .fspiop (FspiopException.ofMessage definition message)

namespace FspiopErrorTranslator

/-- Overwrite the first extension whose key matches, or append one. -/
def upsertExtension (targetKey targetValue : String) : List Extension → List Extension
  | [] => [⟨some targetKey, some targetValue⟩]
  | x :: xs =>
    if Js.toLowerCase (Js.trim (x.key.getD "")) = targetKey
    then { x with value := some targetValue } :: xs
    else x :: upsertExtension targetKey targetValue xs

/-- `none` when the extension list is handed back untouched. -/
def withTransactionId (extensionList : Option ExtensionList) (transactionId : Option String)
    (message : String) : Option ExtensionList :=
  if Js.blank transactionId then none
  else
    let extensions := ((extensionList.bind (·.extension)).getD [])
    some ⟨some (if Js.trim message = "" then extensions
      else upsertExtension "" (Js.trim message) extensions)⟩

def toFspiopException (exception : JsError) (transactionId : Option String := none) :
    FspiopException :=
  let normalized := FspiopException.normalize exception
  match withTransactionId normalized.extensionList transactionId
      normalized.errorDefinition.description with
  | none =>
    let errorDef := (FspiopErrors.find normalized.errorDefinition.errorType.code).getD
      FspiopErrors.genericValidationError
    FspiopException.ofExtensions errorDef
      (some ⟨some [⟨some "", some normalized.errorDefinition.description⟩]⟩)
  | some extensionList =>
    FspiopException.ofExtensions normalized.errorDefinition (some extensionList)

end FspiopErrorTranslator
end Fspiop
