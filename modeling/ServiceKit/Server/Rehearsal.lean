import ServiceKit.Server.App
import ServiceKit.Net.Address
import ServiceKit.Import.Workbook
import ServiceKit.Rehearsal.Document

namespace ServiceKit.Server
open Import (Job)
open Text (Bytes)

inductive Part where
  | watch
  | refuse (e : Envelope)
  | refuseText
  | claims (value : Json)
  | requestId (value : String)
  | traceId (value : String)
  | cancel
  | redirect (uri : Http.Uri)
  | setHeader (name : String) (value : Bytes)
  | needHeader (name : String)
  | replace
  | addHeader (name : String) (value : Bytes)
deriving Repr

namespace Part

def refusal? (r : Request) : Part → Option Response
  | .refuse e => some (.ofEnvelope e)
  | .refuseText => some (.ofText 403 "stopped")
  | .needHeader name =>
    if (r.header? name).isSome then none else some (.ofEnvelope (.make 401 "missing header" "UNAUTHORIZED"))
  | _ => none

def onContext (c : Context) : Part → Run Context
  | .claims value => return { c with claims := some value }
  | .requestId value => return { c with requestId := some value }
  | .traceId value => return { c with traceId := value }
  | .cancel => do
    modify fun m => { m with world := m.world.cancel c.token }
    return c
  | _ => return c

def onRequest (r : Request) : Part → Request
  | .redirect uri => { r with uri := uri }
  | .setHeader name value => { r with headers := r.headers.set name value }
  | _ => r

def onAnswer (a : Answered) : Part → Answered
  | .replace => .plain (.ofReply (.ok "replaced"))
  | .addHeader name value => { a with response := { a.response with headers := a.response.headers.add name value } }
  | _ => a

end Part

def Stage.scripted (id : String) (part : Part) : Stage where
  name := "stage"
  enter left c r := do
    Run.say s!"{id}:before {left}"
    match part.refusal? r with
    | some response => return .answers c (.plain response)
    | none =>
      let c ← part.onContext c
      return .proceeds c (part.onRequest r) fun c a => do
        Run.say s!"{id}:after {a.response.status}"
        return (c,part.onAnswer a)

def teapot : Endpoint := fun c r => do
  Run.say s!"endpoint {r.uri.text} {r.stampedId == c.requestId}"
  return (c,.plain (.ofText 418 "short and stout"))

-- What a handler's script may ask for; all from `reply` on end the handler, but for a decoding that
-- only ends it.
inductive Action where
  | sleep (ms : Nat)
  | awaitDone
  | notify (n : Notification)
  | cacheSet (key value : String)
  | cacheGet (key : String)
  | reply (r : Reply)
  | echo (showRemaining showId : Bool)
  | refuse (f : Failure)
  | panic (p : Payload)
  | body (s : Shape)
  | query (s : Shape)
  | headers (s : Shape)
  | file (name : String)
  | importFile (name : String) (job : Job) (shape : Shape) (rules : Import.Script)

def uploadJson (f : Form.Upload) : Json :=
  .object [("content_type",.ofOption (f.contentType.map .string)),("data",Json.ofBytes f.data),
    ("extension",.ofOption (f.extension.map .string)),("field_name",.string f.fieldName),
    ("file_name",.ofOption (f.fileName.map .string)),("size",.nat f.size)]

def echoJson (r : Request) (m : Moment) (showRemaining showId : Bool) : Json :=
  let text (x : Option String) : Json := .ofOption (x.map .string)
  .object [("body",Json.ofBytes r.body),("cache",.bool m.context.cache.isSome),("claims",.ofOption m.context.claims),
    ("host",text r.host?),("is_done",.bool m.done),("method",.string r.method),
    ("notifier",.bool m.context.notifier.isSome),
    ("params",.array (r.params.map fun p => .array [.string p.1,.string p.2])),("path",.string r.uri.path),
    ("remaining_ms",.ofOption (if showRemaining then m.remaining.map .nat else none)),
    ("remote_addr",text (r.remote.bind fun a => (Net.Address.ofText? a).map fun a => a.host.text)),
    ("request_id",text (if showId then m.context.requestId else none)),("uri",.string r.uri.text),
    ("x-echo",text (r.header? "x-echo"))]

namespace Handler

def leave (r : Except Failure Reply) : Handler := .act (.say "handler:returned") fun _ => .finish r

def answer (name : String) (data : Json) : Handler := leave (.ok ⟨name,data⟩)

def decoded (name : String) (f : α → Json) : Except DecodeError α → Handler
  | .ok a => answer name (f a)
  | .error e => leave (.error (.envelope e.toEnvelope))

def follow (c : Catalog) (r : Request) : List Action → Handler
  | [] => leave (.ok (.ok "end"))
  | .sleep ms :: rest => .act (.sleep ms) fun _ => follow c r rest
  | .awaitDone :: rest => .act .awaitDone fun _ => .act (.say "handler:done") fun _ => follow c r rest
  | .notify n :: rest => .act (.notify n) fun started => .act (.say s!"notify {started}") fun _ => follow c r rest
  | .cacheSet key value :: rest => .act (.cacheSet key value) fun _ => follow c r rest
  | .cacheGet key :: _ => .act (.cacheGet key) fun
    | none => answer "cache" (.string "no cache")
    | some value => answer "cache" (.ofOption (value.map .string))
  | .reply reply :: _ => leave (.ok reply)
  | .echo showRemaining showId :: _ => .act .moment fun m => answer "echo" (echoJson r m showRemaining showId)
  | .refuse f :: _ => leave (.error f)
  | .panic p :: _ => .panic p
  | .body s :: _ => decoded "body" Validation.Datum.toJson (r.ofBody c s)
  | .query s :: _ => decoded "query" Validation.Datum.toJson (r.ofQuery c s)
  | .headers s :: _ => decoded "headers" Validation.Datum.toJson (r.ofHeaders c s)
  | .file name :: _ => decoded "file" uploadJson (r.file name)
  | .importFile name job shape rules :: _ =>
    match r.file name with
    | .error e => leave (.error (.envelope e.toEnvelope))
    | .ok f => .act (.importFile Import.Workbook.plain { job with file := some f } shape rules) fun
      | .ok s => answer "imported" s.overview
      | .error e => leave (.error e.toFailure)

def scripted (c : Catalog) (script : List Action) (r : Request) : Handler :=
  .act (.say "handler") fun _ => follow c r script

end Handler

-- Answers a request and then lets what it left behind go on for a while: the response, when it came,
-- and what had been said by then.
structure Attended where
  answered : Answered
  after : Nat
  trail : List String
  late : List String

def App.attend (a : App) (quiet : Nat) (r : Request) : OptionT Run Attended := do
  let before ← get
  let answered ← a.handle? r
  let m ← get
  a.pipeline.settle quiet
  return ⟨answered,m.world.now - before.world.now,m.said.drop before.said.length,
    (← get).said.drop m.said.length⟩

end ServiceKit.Server
