import ServiceKit.Observe.Filter
import ServiceKit.Observe.Metrics
import ServiceKit.Net.Address

namespace ServiceKit.Observe

inductive TelemetryError where
  | metrics (message : String)
  | logging (message : String)
  | address (message : String)
deriving DecidableEq, Repr

namespace TelemetryError

def message : TelemetryError → String
  | .metrics m => "Failed to initialize metrics: " ++ m
  | .logging m => "Failed to initialize logging: " ++ m
  | .address m => "Invalid address: " ++ m

def kind : TelemetryError → String
  | .metrics _ => "MetricsInit"
  | .logging _ => "LoggingInit"
  | .address _ => "InvalidAddress"

end TelemetryError

inductive LogFormat where
  | json
  | pretty
deriving DecidableEq, Repr, Inhabited

namespace LogFormat

def name : LogFormat → String
  | .json => "json"
  | .pretty => "pretty"

def ofText (s : String) : Except TelemetryError LogFormat :=
  let word := Text.lowered (Text.trim s)
  if word = "json" then .ok .json
  else if word = "pretty" ∨ word = "text" then .ok .pretty
  else .error (.logging ("unknown log format `" ++ word ++ "`, expected `json` or `pretty`"))

end LogFormat

structure LogSettings where
  enabled : Bool
  level : String
  format : LogFormat
  fileLine : Bool
  target : Bool
deriving DecidableEq, Repr

namespace LogSettings

def development : LogSettings := ⟨true,"debug",.pretty,true,true⟩
def production : LogSettings := ⟨true,"info",.json,false,true⟩

def toJson (s : LogSettings) : Json :=
  .object [("enabled",.bool s.enabled),("level",.string s.level),("format",.string s.format.name),
    ("file_line_info",.bool s.fileLine),("include_target",.bool s.target)]

end LogSettings

def filterOf (s : String) : Except TelemetryError Filter :=
  match Filter.ofText? s with
  | some f => .ok f
  | none => .error (.logging "Invalid log level: invalid filter directive")

def addressOf (s : String) : Except TelemetryError Net.Address :=
  match Net.Address.ofText? s with
  | some a => .ok a
  | none => .error (.address (s ++ ": invalid socket address syntax"))

structure Telemetry where
  logger : Option (LogSettings × Filter)
  printed : List LogEvent
  recorder : Option Metrics
deriving DecidableEq, Repr

namespace Telemetry

def start : Telemetry := ⟨none,[],none⟩

def initLogging (t : Telemetry) (s : LogSettings) : Except TelemetryError Telemetry :=
  if !s.enabled then .ok t
  else do
    let f ← filterOf s.level
    match t.logger with
    | some _ => .error (.logging "a global default trace dispatcher has already been set")
    | none => .ok { t with logger := some (s,f) }

def initMetrics (t : Telemetry) (enabled : Bool) (address : String) : Except TelemetryError Telemetry :=
  if !enabled then .ok t
  else do
    let _ ← addressOf address
    match t.recorder with
    | some _ => .error (.metrics "attempted to set a recorder after the metrics system was already initialized")
    | none => .ok { t with recorder := some [] }

def emit (t : Telemetry) (target : String) (e : LogEvent) : Telemetry :=
  match t.logger with
  | some (_,f) => if f.admits e.level target (e.fields.map (·.1)) then { t with printed := t.printed ++ [e] } else t
  | none => t

def tick (t : Telemetry) (x : Tick) : Telemetry := { t with recorder := t.recorder.map (· ++ [x]) }

def render (t : Telemetry) : Option (List String) := t.recorder.map (Metrics.lines true)

-- An event as a line of JSON, the moment and the place of logging being left out as `any`.
def jsonLine (any : Json) (target : String) (s : LogSettings) (e : LogEvent) : Json :=
  .object ([("timestamp",any),("level",.string e.level.name),
      ("fields",.object (("message",.string e.message) :: e.fields))] ++
    (if s.target then [("target",.string target)] else []) ++
    (if s.fileLine then [("filename",any),("line_number",any)] else []))

def jsonLines (t : Telemetry) (any : Json) (target : String) : List Json :=
  match t.logger with
  | some (s,_) => if s.format = .json then t.printed.map (jsonLine any target s) else []
  | none => []

def log (t : Telemetry) (target : String) : String :=
  match t.logger with
  | some (s,_) =>
    String.intercalate "\n" (t.printed.map fun e =>
      if s.format = .json then (jsonLine .null target s e).compact else e.message)
  | none => ""

end Telemetry
end ServiceKit.Observe
