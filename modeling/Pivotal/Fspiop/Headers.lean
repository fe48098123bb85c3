import Pivotal.Js.Date
import Pivotal.Js.Text

/-! The header maps of FSPIOP requests and callbacks. -/
namespace Fspiop

/-- The entries that `createHeaders` sets. `date` is the instant that is printed in UTC. -/
structure FspiopHeadersMap where
  accept : Option String
  traceparent : Option String
  contentType : String
  date : Js.Date
  fspiopSource : String
  fspiopDestination : Option String
  deriving DecidableEq

namespace FspiopHeaders

def createHeaders (traceparent accept : Option String) (contentType source : String)
    (destination : Option String) (date : Js.Date) : FspiopHeadersMap :=
  ⟨accept, traceparent, contentType, date, source, destination⟩

namespace Parties

def contentType : String := "application/vnd.interoperability.parties+json;version=2.0"

def forRequest (traceparent : Option String) (payer : String) (payee : Option String)
    (date : Js.Date) : FspiopHeadersMap :=
  createHeaders traceparent (some contentType) contentType payer payee date

def forResult (traceparent : Option String) (payer payee : String) (date : Js.Date) :
    FspiopHeadersMap :=
  createHeaders traceparent (some contentType) contentType payee (some payer) date

end Parties

namespace Quotes

def contentType : String := "application/vnd.interoperability.quotes+json;version=2.0"

def forRequest (traceparent : Option String) (payer payee : String) (date : Js.Date) :
    FspiopHeadersMap :=
  createHeaders traceparent (some contentType) contentType payer (some payee) date

def forResult (traceparent : Option String) (payer payee : String) (date : Js.Date) :
    FspiopHeadersMap :=
  createHeaders traceparent none contentType payee (some payer) date

end Quotes

namespace Transfers

def contentType : String := "application/vnd.interoperability.transfers+json;version=2.0"

def forRequest (traceparent : Option String) (payer payee : String) (date : Js.Date) :
    FspiopHeadersMap :=
  createHeaders traceparent (some contentType) contentType payer (some payee) date

def forResult (traceparent : Option String) (payer payee : String) (date : Js.Date) :
    FspiopHeadersMap :=
  createHeaders traceparent none contentType payee (some payer) date

end Transfers
end FspiopHeaders
end Fspiop
