import ServiceKit.Http.Uri
import ServiceKit.Http.Params
import ServiceKit.Form.Multipart
import ServiceKit.Record.Schema

namespace ServiceKit
open Text (Bytes)
open Validation

inductive DecodeError where
  | query (message : String)
  | header (message : String)
  | body (message : String)
  | contentType (message : String)
  | tooLarge (limit actual : Nat)
  | multipart (message : String)
  | fileNotFound (name : String)
  | validation (errors : List FieldError)
deriving DecidableEq, Repr

namespace DecodeError

def message : DecodeError → String
  | .query m => "invalid query parameters: " ++ m
  | .header m => "invalid headers: " ++ m
  | .body m => "invalid request body: " ++ m
  | .contentType m => "unsupported content type: " ++ m
  | .tooLarge limit actual => s!"payload too large: limit {limit} bytes, got {actual} bytes"
  | .multipart m => "invalid multipart payload: " ++ m
  | .fileNotFound name => s!"file `{name}` not found in request"
  | .validation errors => "validation failed: " ++ describe errors

def kind : DecodeError → String
  | .query _ => "Query"
  | .header _ => "Header"
  | .body _ => "Body"
  | .contentType _ => "ContentType"
  | .tooLarge .. => "PayloadTooLarge"
  | .multipart _ => "Multipart"
  | .fileNotFound _ => "FileNotFound"
  | .validation _ => "Validation"

def toEnvelope (e : DecodeError) : Envelope :=
  match e with
  | .query _ => .badRequest e.message Code.parsingQuery
  | .header _ => .badRequest e.message Code.parsingHeader
  | .body _ | .multipart _ | .tooLarge .. => .badRequest e.message Code.parsingBody
  | .contentType _ => .badRequest e.message Code.invalidContentType
  | .fileNotFound _ => .badRequest e.message Code.retrieveFile
  | .validation errors => .ofErrors errors

end DecodeError

structure Request where
  method : String
  uri : Http.Uri
  headers : Headers
  body : Bytes
  params : Http.Params
  remote : Option String
  limits : Form.Limits
  stampedId : Option String := none
deriving Repr

namespace Request

def header? (r : Request) (name : String) : Option String := r.headers.text? (Text.lowered name)

def host? (r : Request) : Option String := (r.header? "host").or r.uri.host?

def mode (r : Request) : Mode := if r.method == "PATCH" then .update else .create

def validated (r : Request) (t : Schema α) (v : α) : Except DecodeError α :=
  match t.errors r.mode v with
  | [] => .ok v
  | errors => .error (.validation errors)

def decodeQuery (r : Request) (t : Schema α) : Except DecodeError α := do
  r.validated t (← (t.ofForm (Text.utf8 (r.uri.query.getD ""))).mapError .query)

def headerPairs (r : Request) : List (String × String) :=
  r.headers.names.filterMap fun name => (r.headers.text? name).map fun v => (name,v)

def decodeHeaders (r : Request) (t : Schema α) : Except DecodeError α := do
  r.validated t (← (t.ofForm (Form.encode r.headerPairs)).mapError .header)

def multipart (r : Request) : Except DecodeError Form.Multipart :=
  match r.headers.get? Response.contentType with
  | none => .error (.contentType "missing multipart content type")
  | some value =>
    match Headers.readable value with
    | none => .error (.contentType "invalid UTF-8 in Content-Type header")
    | some text =>
      match Form.Multipart.boundaryOf text with
      | none => .error (.contentType "missing or invalid boundary in multipart Content-Type")
      | some boundary =>
        if r.body.length > r.limits.maxBodySize then .error (.tooLarge r.limits.maxBodySize r.body.length)
        else match Form.Multipart.readBody (Text.utf8 boundary) r.limits.maxFields r.body with
          | .ok m => .ok m
          | .error e => .error (.multipart e.message)

def file (r : Request) (name : String) : Except DecodeError Form.Upload := do
  match (← r.multipart).file? name with
  | some f => .ok f
  | none => .error (.fileNotFound name)

def readsQuery (r : Request) : Bool := r.method == "GET" || (r.method == "DELETE" && r.body.isEmpty)

def mediaType (r : Request) : Except DecodeError Http.MediaType :=
  match r.header? Response.contentType with
  | none => .error (.contentType "missing Content-Type header")
  | some text =>
    match Http.MediaType.parse text with
    | none => .error (.contentType text)
    | some m => .ok m

def readAs (r : Request) (t : Schema α) : String → Except DecodeError α
  | "application/json" => (t.ofJson r.body).mapError .body
  | "application/x-www-form-urlencoded" => (t.ofForm r.body).mapError .body
  | "multipart/form-data" => do (t.ofForm (Form.encode (← r.multipart).fields)).mapError .body
  | other => .error (.contentType other)

-- A plain text decodes as an empty form, which is not validated.
def decodeBody (r : Request) (t : Schema α) : Except DecodeError α :=
  if r.readsQuery then r.decodeQuery t
  else do
    let m ← r.mediaType
    if m.essence = "text/plain" then (t.ofForm []).mapError .body
    else r.validated t (← r.readAs t m.essence)

inductive Part where
  | query
  | headers
  | body
deriving DecidableEq, Repr

def decode (r : Request) (t : Schema α) : Part → Except DecodeError α
  | .query => r.decodeQuery t
  | .headers => r.decodeHeaders t
  | .body => r.decodeBody t

def ofQuery (c : Catalog) (r : Request) (s : Shape) : Except DecodeError Datum := r.decode (s.schema c) .query
def ofHeaders (c : Catalog) (r : Request) (s : Shape) : Except DecodeError Datum := r.decode (s.schema c) .headers
def ofBody (c : Catalog) (r : Request) (s : Shape) : Except DecodeError Datum := r.decode (s.schema c) .body

end Request
end ServiceKit
