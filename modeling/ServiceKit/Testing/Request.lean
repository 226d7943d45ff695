import ServiceKit.Http.Request

namespace ServiceKit.Testing
open Text (Bytes)

inductive TestError where
  | requestBuild (message : String)
  | invalidHeader (message : String)
  | bodyRead (message : String)
  | json (message : String)
deriving DecidableEq, Repr

namespace TestError

def message : TestError → String
  | .requestBuild m => "request build error: " ++ m
  | .invalidHeader m => "invalid header: " ++ m
  | .bodyRead m => "body read error: " ++ m
  | .json m => "JSON error: " ++ m

def kind : TestError → String
  | .requestBuild _ => "RequestBuild"
  | .invalidHeader _ => "InvalidHeader"
  | .bodyRead _ => "BodyRead"
  | .json _ => "Json"

end TestError

structure Builder where
  method : String
  uri : String
  headers : Headers
  body : Option Bytes
  parts : List Form.Multipart.Item
  remote : Option String
  error : Option TestError
deriving Repr

def boundary : String := "trellis-test-boundary"

inductive BuildCall where
  | header (name value : String)
  | contentType (value : String)
  | bearer (token : String)
  | remote (address : String)
  | body (bs : Bytes)
  | json (value : Json)
  | unencodable (message : String)
  | form (value : Json)
  | part (item : Form.Multipart.Item)
deriving DecidableEq, Repr

namespace Builder

def new (method uri : String) : Builder := ⟨method,uri,[],none,[],none,none⟩

-- Only the first error is kept.
def fail (b : Builder) (e : TestError) : Builder := { b with error := b.error.or (some e) }

def header (b : Builder) (name value : String) : Builder :=
  match Http.headerName? name with
  | none => b.fail (.invalidHeader (name ++ ": invalid HTTP header name"))
  | some name =>
    match Http.headerValue? (Text.utf8 value) with
    | none => b.fail (.invalidHeader (name ++ ": failed to parse header value"))
    | some value => { b with headers := b.headers.set name value }

def contentType (b : Builder) (value : String) : Builder := b.header Response.contentType value

def form (b : Builder) (value : Json) : Builder :=
  match Form.encodeJson value with
  | .ok bs => { b with body := some bs }
  | .error e => b.fail (.requestBuild ("form encoding failed: " ++ e.message))

def call (b : Builder) : BuildCall → Builder
  | .header name value => b.header name value
  | .contentType value => b.contentType value
  | .bearer token => b.header "authorization" ("Bearer " ++ token)
  | .remote address => { b with remote := some address }
  | .body bs => { b with body := some bs }
  | .json value => { b with body := some value.bytes }.contentType "application/json"
  | .unencodable message => (b.fail (.json message)).contentType "application/json"
  | .form value => (b.form value).contentType "application/x-www-form-urlencoded"
  | .part item => { b with parts := b.parts ++ [item] }

def withParts (b : Builder) : Builder :=
  if b.parts.isEmpty then b
  else
    { b.contentType ("multipart/form-data; boundary=" ++ boundary) with
      body := some (Form.Multipart.encode boundary b.parts) }

def build (b : Builder) : Except TestError Request :=
  let b := b.withParts
  match b.error with
  | some e => .error e
  | none =>
    match Http.Uri.parse b.uri with
    | .error e => .error (.requestBuild ("invalid URI " ++ b.uri ++ ": " ++ e.message))
    | .ok uri => .ok ⟨b.method,uri,b.headers,b.body.getD [],[],b.remote,{},none⟩

end Builder

structure Client where
  defaults : List (String × String)
deriving Repr

namespace Client

def request (c : Client) (method uri : String) : Builder :=
  c.defaults.foldl (fun b h => b.header h.1 h.2) (.new method uri)

end Client
end ServiceKit.Testing
