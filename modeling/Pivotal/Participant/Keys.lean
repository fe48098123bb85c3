import Pivotal.Fspiop.InboundGuard
import Pivotal.Js.Date
import Pivotal.Js.Text

/-! The rows of `participant_key`, and what is read off their columns. -/
namespace Fspiop.FspiopVerifyMode

def value : FspiopVerifyMode → String
  | .off => "off"
  | .verifyIfPresent => "verify-if-present"
  | .require => "require"

/-- `FspiopVerifyMode.parse`: what is not recognised is the fallback. -/
def parse (value : Option String) (fallback : FspiopVerifyMode) : FspiopVerifyMode :=
  match value with
  | none => fallback
  | some value =>
    match Js.toLowerCase (Js.trim value) with
    | "off" => .off
    | "verify-if-present" => .verifyIfPresent
    | "require" => .require
    | _ => fallback

end Fspiop.FspiopVerifyMode

namespace Participant
open Fspiop (FspiopVerifyMode)

inductive ParticipantKeyRole where
  | self | peer
  deriving DecidableEq

/-- A row of `participant_key`. -/
structure ParticipantKey where
  id : ℕ
  fspId : String
  role : ParticipantKeyRole
  jwsPublicKey : Option String
  jwsPrivateKey : Option String
  jwsSignEnabled : Bool
  jwsSignActivatedAt : Option Js.Date
  jwsVerifyMode : String
  deriving DecidableEq

def ParticipantKey.withId (id : ℕ) (key : ParticipantKey) : ParticipantKey := { key with id := id }

/-- The columns of `participant` that are read here. -/
structure ParticipantRow where
  name : String
  accessPublicKey : Option String
  deriving DecidableEq

/-- `replace(/\\n/g, '\n')`: a backslash before an `n` is an escape that was never read. -/
def unescapeNewlines : List Char → List Char
  | '\\' :: 'n' :: cs => '\n' :: unescapeNewlines cs
  | c :: cs => c :: unescapeNewlines cs
  | [] => []

def normalizePem (pem : Option String) : Option String :=
  if Js.blank pem then none else pem.map fun pem => String.ofList (unescapeNewlines pem.toList)

end Participant
