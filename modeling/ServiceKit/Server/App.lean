import ServiceKit.Server.Stage
import ServiceKit.Server.Route
import ServiceKit.Config.Setting

namespace ServiceKit.Server

structure Route where
  method : String
  suffix : String
  version : Nat
  handler : Request → Handler
  stages : List Stage

structure Controller where
  path : String
  routes : List Route
  stages : List Stage

structure Target where
  stages : List Stage
  handler : Request → Handler

namespace Route

def fullPath (r : Route) (controller : String) : String := Server.fullPath r.version controller r.suffix

def describe (r : Route) : String :=
  "Route \x7b method: " ++ r.method ++ ", suffix: " ++ Text.quote r.suffix ++ ", version: " ++ toString r.version ++
    ", middleware: " ++ toString r.stages.length ++ ", .. \x7d"

end Route

namespace Controller

def entries (c : Controller) : List (Entry Target) :=
  c.routes.map fun r => ⟨r.method,r.fullPath c.path,⟨c.stages ++ r.stages,r.handler⟩⟩

def describe (c : Controller) : String :=
  "Controller \x7b path: " ++ Text.quote c.path ++ ", routes: [" ++ String.intercalate ", " (c.routes.map Route.describe) ++
    "], middleware: [" ++ String.intercalate ", " (c.stages.map fun s => Text.quote s.name) ++ "] \x7d"

end Controller

structure App where
  table : List (Entry Target)
  stages : List Stage
  pipeline : Pipeline
  notifies : Bool
  caches : Bool
  root : Token

structure AppSettings where
  controllers : List Controller
  stages : List Stage
  timeout : Nat
  secureHeaders : Bool
  notifies : Bool
  caches : Bool
  service : Service
  keyHeader : Option String
  limits : Form.Limits

def Controller.ofRoute (r : Route) : Controller := ⟨"",[r],[]⟩

namespace AppSettings

def default : AppSettings := ⟨[],[],3000,true,false,false,⟨"","","",""⟩,none,{}⟩

def ofConfig (c : Config) : AppSettings :=
  { default with timeout := c .apiTimeout * 1000,secureHeaders := c .secureHeaders,service := c.service }

end AppSettings

namespace App

def registered (e : Entry Target) : LogEvent :=
  ⟨.debug,"route registered",[("method",.string e.method),("path",.string e.path)],none⟩

def duplicate (e : Entry Target) : LogEvent :=
  ⟨.warn,"duplicate route registration",[("method",.string e.method),("path",.string e.path)],none⟩

def register (table : List (Entry Target)) : List (Entry Target) → List (Entry Target) × List LogEvent
  | [] => (table,[])
  | e :: rest =>
    let logs := registered e :: (if table.any fun f => f.sameRoute e then [duplicate e] else [])
    let (table,more) := register (table ++ [e]) rest
    (table,logs ++ more)

def build (s : AppSettings) : Run App := do
  let (table,logs) := register [] (s.controllers.flatMap Controller.entries)
  modify fun m => { m with logs := m.logs ++ logs }
  let root ← Run.world World.freshToken
  return ⟨table,Stage.requestId :: ((if s.secureHeaders then [Stage.secureHeaders] else []) ++ s.stages),
    ⟨s.timeout,s.service,s.keyHeader,s.limits⟩,s.notifies,s.caches,root⟩

def describe (a : App) : String :=
  let s := a.pipeline.service
  "App \x7b routes: " ++ toString a.table.length ++ ", api_timeout: " ++ toString (a.pipeline.timeout / 1000) ++
    "s, service: ServiceInfo \x7b app_name: " ++ Text.quote s.name ++ ", env: " ++ Text.quote s.env ++ ", container: " ++
    Text.quote s.container ++ ", version: " ++ Text.quote s.version ++ " \x7d, .. \x7d"

def pong : Response := .ofJson 200 (.object [("message",.string "pong")])

def notAllowed (allowed : List String) : Response :=
  let r := Response.ofEnvelope (.make 405 "method not allowed" Code.methodNotAllowed)
  { r with headers := r.headers.set "allow" (Headers.ofText (String.intercalate ", " allowed)) }

def notFound : Response := .ofEnvelope (.make 404 "route not found" Code.routeNotFound)

def routeBy {n : Type → Type} [Monad n] [MonadLiftT Run n] (a : App)
    (execute : (Request → Handler) → Context → Request → n (Context × Answered)) (c : Context) (r : Request) :
    n (Context × Answered) :=
  if r.method = "GET" ∧ r.uri.path = "/ping" then return (c,.plain pong)
  else match Lookup.of r.method r.uri.path a.table with
    | .found e params => chain (execute e.target.handler) e.target.stages c { r with params := params }
    | .methodNotAllowed allowed => return (c,.plain (notAllowed allowed))
    | .notFound => return (c,.plain notFound)

def route (a : App) : Endpoint := a.routeBy a.pipeline.execute

def route? (a : App) (c : Context) (r : Request) : OptionT Run (Context × Answered) := a.routeBy a.pipeline.execute? c r

def context (a : App) : Run Context := do
  let c ← Run.world Context.new
  let c ← Run.world fun w => c.withParent w a.root
  return { c with notifier := if a.notifies then some 0 else none,cache := if a.caches then some 0 else none }

def openSpan (c : Context) (r : Request) : Run Context := do
  let m ← get
  let span : Span := ⟨"request",[("http.method",.string r.method),("http.path",.string r.uri.path)]⟩
  set { m with spans := m.spans ++ [span] }
  return { c with span := some m.spans.length }

def opens (a : App) (r : Request) : Run Context := do openSpan (← a.context) r

def handle (a : App) (r : Request) : Run Answered := do
  let c ← a.opens r
  return (← chain a.route a.stages c r).2

-- Handles any request; a panic of the pipeline is not caught on the way back.
def handle? (a : App) (r : Request) : OptionT Run Answered := do
  let c ← a.opens r
  return (← chain a.route? a.stages c r).2

def cancelAll (a : App) : Run Unit := modify fun m => { m with world := m.world.cancel a.root }

def rootDone (a : App) : Run Bool := return (← get).world.tokens.isCancelled a.root

end App
end ServiceKit.Server
