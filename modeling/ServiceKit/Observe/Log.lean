import ServiceKit.Json.Printer

namespace ServiceKit

inductive Level where
  | trace | debug | info | warn | error
deriving DecidableEq, Repr

def Level.name : Level → String
  | .trace => "TRACE" | .debug => "DEBUG" | .info => "INFO" | .warn => "WARN" | .error => "ERROR"

structure Span where
  name : String
  fields : Members
deriving DecidableEq, Repr

structure LogEvent where
  level : Level
  message : String
  fields : Members
  span : Option Span
deriving DecidableEq, Repr

namespace LogEvent

def toJson (e : LogEvent) : Json :=
  .object
    [("level",.string e.level.name),("message",.string e.message),("fields",.object e.fields),
     ("span",.ofOption (e.span.map fun s => .array [.string s.name,.object s.fields]))]

end LogEvent
end ServiceKit
