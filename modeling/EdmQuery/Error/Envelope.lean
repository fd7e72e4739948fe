import EdmQuery.Error.Basic
import EdmQuery.Json.Basic

set_option autoImplicit false

namespace EdmQuery

/-- One further remark in an envelope, under the published spelling of the code. -/
structure ErrorDetail where
  code : String
  message : String
deriving DecidableEq, Repr

/-- The body of the object in which an error is sent to a client. -/
structure ErrorEnvelope where
  code : String
  message : String
  target : Option String
  details : List ErrorDetail
deriving DecidableEq, Repr

namespace ErrorEnvelope

def detailToJson (detail : ErrorDetail) : Json :=
  .object [("code", .string detail.code), ("message", .string detail.message)]

/-- The object that a client gets; members without content are left out. -/
def toJson (envelope : ErrorEnvelope) : Json :=
  let target := (envelope.target.map fun text => ("target", Json.string text)).toList
  let details :=
    if envelope.details.isEmpty then []
    else [("details", Json.array (envelope.details.map detailToJson))]
  .object [("error", .object ([("code", Json.string envelope.code),
    ("message", Json.string envelope.message)] ++ target ++ details))]

end ErrorEnvelope

namespace Error

def target (error : Error) : Option String :=
  match error.origin with
  | .parse expression _ => some expression
  | .request target => target
  | _ => none

def details (error : Error) : List ErrorDetail :=
  match error.origin with
  | .parse _ (some location) => [⟨error.code.render, "at " ++ location.render⟩]
  | .system (some context) => [⟨error.code.render, context⟩]
  | _ => []

def envelope (error : Error) : ErrorEnvelope :=
  ⟨error.code.slug, error.message, error.target, error.details⟩

end Error

end EdmQuery
