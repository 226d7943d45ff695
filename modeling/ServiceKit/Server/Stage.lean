import ServiceKit.Http.Token
import ServiceKit.Server.Pipeline
import ServiceKit.Text.Quoted

namespace ServiceKit.Server

abbrev After := Context → Answered → Run (Context × Answered)

inductive Entered where
  | answers (c : Context) (a : Answered)
  | proceeds (c : Context) (r : Request) (after : After)

-- A stage is told how many stages come after it.
structure Stage where
  name : String
  enter : Nat → Context → Request → Run Entered

abbrev Endpoint := Context → Request → Run (Context × Answered)

-- The stages around an endpoint, which gives its answer in `Run`, or in a monad above it if it may fail to give one.
def chain {n : Type → Type} [Monad n] [MonadLiftT Run n] (endpoint : Context → Request → n (Context × Answered)) :
    List Stage → Context → Request → n (Context × Answered)
  | [],c,r => endpoint c r
  | s :: rest,c,r => do
    match ← s.enter rest.length c r with
    | .answers c a => return (c,a)
    | .proceeds c r after => do
      let (c,a) ← chain endpoint rest c r
      after c a

def describeChain (stages : List Stage) : String :=
  "Next \x7b chain: [" ++ String.intercalate ", " (stages.map fun s => Text.quote s.name) ++ "], .. \x7d"

namespace Stage

def requestIdHeader : String := "x-request-id"
def xssProtection : String := "x-xss-protection"
def contentTypeOptions : String := "x-content-type-options"

-- An incoming id counts if it reads as a text, is not blank and has at most 128 bytes once trimmed.
def incomingId (r : Request) : Option String := do
  let id := Text.trim (← r.headers.text? requestIdHeader)
  if id.isEmpty || id.utf8ByteSize > 128 then none else some id

def put (name : String) (value : Text.Bytes) (a : Answered) : Answered :=
  { a with response := { a.response with headers := a.response.headers.set name value } }

def stamp (name value : String) (a : Answered) : Answered :=
  match Http.headerValue? (Headers.ofText value) with
  | some value => put name value a
  | none => a

-- Gives the request its id and the response the same id, whatever else happens to either.
def requestId : Stage where
  name := "request_id"
  enter _ c r := do
    let id ← match incomingId r with
      | some id => pure id
      | none => Run.world World.freshRequestId
    let c := { c with requestId := some id }
    Run.record c "request_id" id
    return .proceeds c { r with stampedId := some id } fun c a => return (c,stamp requestIdHeader id a)

def secureHeaders : Stage where
  name := "secure_headers"
  enter _ c r := return .proceeds c r fun c a =>
    return (c,put contentTypeOptions (Headers.ofText "nosniff") (put xssProtection (Headers.ofText "1; mode=block") a))

end Stage
end ServiceKit.Server
