import ServiceKit.Rehearsal.Document
import ServiceKit.Record.Samples
import ServiceKit.Config.Loader
import ServiceKit.Server.Rehearsal

namespace ServiceKit.Rehearsal
open Server

def uploadOf (j : Json) : Form.Upload :=
  ⟨(j.str? "field_name").getD "file",j.str? "file_name",j.str? "content_type",(j.get "data").asBytes⟩

def verdictOf (j : Json) : Import.Verdict :=
  match j.str "then" with
  | "ok" => .ok
  | "reject" => .refuse (.envelope (envelopeOf j))
  | "bare" => .refuse (.bare (j.str "message"))
  | "panic" => .panic (j.str "message")
  | "panic_str" => .panic "static boom"
  | _ => .panic (Payload.message .other)

def importScript (j : Json) : Import.Script :=
  let numbers (k : String) : List Nat := ((j.get "tx").arr k).map Json.asNat
  ⟨(j.arr "rules").map fun r => ⟨r.str? "field",r.str "equals",verdictOf r⟩,
    numbers "panic_begin",numbers "fail_begin",numbers "fail_commit",numbers "fail_rollback"⟩

-- A file, a second one given by its bytes, the environment, a file of assignments and variables; at
-- the root directory something stands that cannot be read.
def loaderOf (j : Json) : Except Config.ConfigError Config.Loader := do
  let file (path : String) (f : Config.Found) (l : Config.Loader) :=
    if j.flag "optional" then l.withOptionalFile path f else l.withFile path f
  let l ← match j.str? "file" with
    | some p => file p (if p == "/" then .unreadable else .missing) .start
    | none => pure .start
  let l ← match j.member? "toml" with
    | some t => file "" (.content t.asBytes) l
    | none => pure l
  let l := l.withEnvironment (j.pairs "env")
  let l ← match j.member? "dotenv" with
    | some t => l.withDotEnv "" t.asBytes
    | none => pure l
  return if j.has "vars" then l.withVariables (j.pairs "vars") else l

def configOf (j : Json) : Except Config.ConfigError Config := do
  let l ← loaderOf j
  if j.flag "unvalidated" then l.loadUnvalidated else l.load

def configuredJob (j : Json) : Import.Job :=
  match (j.member? "config").map configOf with
  | some (.ok c) => .ofConfig c
  | _ => .new

def jobOf (j : Json) (workers : Option Nat) : Except Import.ImportError Import.Job := do
  let job := configuredJob j
  let kind ← (j.str? "kind").mapM Import.FileKind.ofText
  let job := { job with
    file := (j.member? "file").map uploadOf
    kind := kind
    sheet := j.str? "sheet"
    workers := workers.getD job.workers
    process := (j.str? "process").getD job.process
    service := ((j.member? "service").map serviceOf).getD job.service
    notify := match j.str "notify" with
      | "on_failure" => .onFailure
      | "never" => .never
      | _ => .always }
  return (j.pairs "destinations").foldl (fun job d => job.destination d.1 d.2) job

def partOf (j : Json) : Part :=
  let name := Text.lowered (j.str "name")
  match j.str "kind" with
  | "stop" => .refuse (envelopeOf j)
  | "stop_text" => .refuseText
  | "claims" => .claims (j.get "claims")
  | "request_id" => .requestId (j.str "value")
  | "trace_id" => .traceId (j.str "value")
  | "cancel" => .cancel
  | "set_header" => .setHeader name (j.get "value").asBytes
  | "require_header" => .needHeader name
  | "replace" => .replace
  | "add_header" => .addHeader name (j.get "value").asBytes
  | _ =>
    match (j.str? "uri").map Http.Uri.parse with
    | some (.ok u) => .redirect u
    | _ => .watch

def stageOf (j : Json) : Stage :=
  match j.str "kind" with
  | "builtin_request_id" => .requestId
  | "builtin_secure_headers" => .secureHeaders
  | _ => .scripted (j.str "id") (partOf j)

def stagesOf (j : Json) : List Stage :=
  (j.arr "middleware").map stageOf ++ ((j.member? "own").map stageOf).toList

def actionOf (j : Json) : Action :=
  let shape := Samples.shape (j.str "type")
  match j.str "do" with
  | "sleep" => .sleep (j.natAt "ms")
  | "done" => .awaitDone
  | "notify" => .notify (noteOf j)
  | "cache_set" => .cacheSet (j.str "key") (j.str "value")
  | "cache_get" => .cacheGet (j.str "key")
  | "ok" => .reply ⟨j.str "message",j.get "data"⟩
  | "echo" => .echo (j.flag "show_remaining") (j.flag "show_id")
  | "error" => .refuse (.envelope (envelopeOf j))
  | "bare" => .refuse (.bare (j.str "message"))
  | "panic" => .panic (.text (j.str "message"))
  | "panic_str" => .panic (.text "static boom")
  | "panic_other" => .panic .other
  | "body" => .body shape
  | "query" => .query shape
  | "headers" => .headers shape
  | "file" => .file (j.str "key")
  | _ =>
    match jobOf j (some 1) with
    | .ok job => .importFile (j.str "key") job shape (importScript j)
    | .error e => .refuse e.toFailure

def routeOf (j : Json) : Route :=
  ⟨j.str "method",j.str "path",(j.nat? "version").getD 1,
    Handler.scripted Samples.catalog ((j.arr "handler").map actionOf),stagesOf j⟩

def controllerOf (j : Json) : Controller := ⟨j.str "path",(j.arr "routes").map routeOf,stagesOf j⟩

def appOf (j : Json) : AppSettings :=
  let usual := AppSettings.default
  { controllers := (j.arr "controllers").map controllerOf ++ (j.arr "routes").map fun r => .ofRoute (routeOf r)
    stages := (j.arr "middleware").map stageOf
    timeout := (j.nat? "api_timeout_ms").getD usual.timeout
    secureHeaders := if j.has "secure_headers" then j.flag "secure_headers" else usual.secureHeaders
    notifies := j.has "sinks"
    caches := j.flag "cache"
    service := ((j.member? "service").map serviceOf).getD usual.service
    keyHeader := (j.str? "panic_key_header").map Text.lowered
    limits := if j.has "multipart_max" then { maxBodySize := j.natAt "multipart_max" } else usual.limits }

def machineOf (j : Json) : Machine :=
  .start Samples.catalog ((j.member? "sinks").map fun x => ⟨x.items.map fun b => .memory (b == .bool true)⟩)

end ServiceKit.Rehearsal
