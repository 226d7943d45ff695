import ServiceKit.Record.FromText

namespace ServiceKit
open Validation

structure Envelope where
  message : String
  code : String
  status : Nat
  traceId : String
  data : Option Json
deriving DecidableEq, Repr, Inhabited

namespace Code
def serverError : String := "SERVER_ERROR"
def validationError : String := "VALIDATION_ERROR"
def routeNotFound : String := "ROUTE_NOT_FOUND"
def methodNotAllowed : String := "METHOD_NOT_ALLOWED"
def parsingQuery : String := "ERROR_PARSING_QUERY_PARAMS"
def parsingHeader : String := "ERROR_PARSING_HEADER"
def parsingBody : String := "ERROR_PARSING_BODY"
def invalidContentType : String := "ERR_INVALID_CONTENT_TYPE"
def retrieveFile : String := "ERROR_RETRIEVE_FILE"
def payloadTooLarge : String := "ERROR_PAYLOAD_TOO_LARGE"
end Code

def validStatus (n : Nat) : Bool := decide (100 ≤ n) && decide (n ≤ 999)

namespace Envelope

def make (status : Nat) (message code : String) : Envelope := ⟨message,code,status,"",none⟩

def statusOf (name : String) : Nat :=
  match name with
  | "bad_request" => 400
  | "unauthorized" => 401
  | "forbidden" => 403
  | "not_found" => 404
  | "method_not_allowed" => 405
  | "unprocessable" => 422
  | "too_many_requests" => 429
  | _ => 500

def badRequest (message code : String) : Envelope := make 400 message code

def internal (message : String) : Envelope := make 500 message Code.serverError

def withData (e : Envelope) (data : Json) : Envelope := { e with data := some data }

def withTrace (e : Envelope) (traceId : String) : Envelope := { e with traceId := traceId }

def ofErrors (errors : List FieldError) : Envelope :=
  (make 422 "validation error" Code.validationError).withData (errorsJson errors)

-- The status of the response; one that no response can carry counts as an internal error.
def statusCode (e : Envelope) : Nat := if validStatus e.status then e.status else 500

def isServerError (e : Envelope) : Bool := decide (500 ≤ e.statusCode) && decide (e.statusCode < 600)

def members (e : Envelope) : Members :=
  [("message",.string e.message),("code",.string e.code),("status",.nat e.status),
   ("trace_id",.string e.traceId)] ++
    match e.data with
    | some data => [("data",data)]
    | none => []

def toJson (e : Envelope) : Json := .object e.members

def fieldType (label : String) (shape : Shape) (defaulted : Bool) : FieldType :=
  ⟨.plain label [],shape,defaulted⟩

def recordType : RecordType :=
  ⟨"HttpError",.named,
   [fieldType "message" .text false,fieldType "code" .text false,fieldType "status" (.int .u16) false,
    fieldType "trace_id" .text true,fieldType "data" (.optional .any) true]⟩

def ofDatum : Datum → Option Envelope
  | .record _ [(_,.text message),(_,.text code),(_,.int status),(_,.text traceId),(_,.optional data)] =>
    some ⟨message,code,status.toNat,traceId,data.bind fun
      | .any j => some j
      | _ => none⟩
  | _ => none

def ofBytes (bs : Text.Bytes) : Except Json.ReadError Envelope := do
  let d ← Record.ofBytes [recordType] (.record "HttpError") bs
  match ofDatum d with
  | some e => .ok e
  | none => .error ⟨.expectedValue,none⟩

def ofText (s : String) : Except Json.ReadError Envelope := ofBytes (Text.utf8 s)

end Envelope

namespace Validation

def FieldError.recordType : RecordType :=
  ⟨"FieldError",.named,
   [Envelope.fieldType "field" .text false,Envelope.fieldType "tag" .text false,
    Envelope.fieldType "value" .any false]⟩

def FieldError.ofDatum : Datum → Option FieldError
  | .record _ [(_,.text field),(_,.text tag),(_,.any value)] => some ⟨field,tag,value⟩
  | _ => none

def errorsOfText (s : String) : Except Json.ReadError (List FieldError) := do
  match ← Record.ofText [FieldError.recordType] (.list (.record "FieldError")) s with
  | .list items => .ok (items.filterMap FieldError.ofDatum)
  | _ => .error ⟨.expectedValue,none⟩

end Validation

inductive Failure where
  | envelope (e : Envelope)
  | bare (message : String)
deriving DecidableEq, Repr

def Failure.toEnvelope : Failure → Envelope
  | .envelope e => e
  | .bare message => Envelope.internal message

def Failure.message : Failure → String
  | .envelope e => e.message
  | .bare message => message

structure Reply where
  message : String
  data : Json
deriving DecidableEq, Repr

def Reply.ok (message : String) : Reply := ⟨message,.null⟩

def Reply.body (r : Reply) : Json :=
  .object [("message",.string r.message),("data",r.data),("error",.null)]

end ServiceKit
