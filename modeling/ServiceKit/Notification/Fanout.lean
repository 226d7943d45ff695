import ServiceKit.Notification.Sink
import ServiceKit.Text.Quoted
import ServiceKit.Observe.Log

namespace ServiceKit

structure Recorded where
  traceId : String
  destination : Option String
  notification : Notification
deriving DecidableEq, Repr

structure Fanout where
  sinks : List Sink
deriving DecidableEq, Repr

-- One send: the sink with its place in the fanout, the delivery it got and how that went.
structure Sent where
  place : Nat
  sink : Sink
  delivery : Delivery
  result : Except SinkError Unit

namespace Fanout

def ofSettings (hook token chat : Option String) : Fanout :=
  ⟨[.ofWebhook (hook.getD ""),.ofToken (token.getD "") chat]⟩

def active (f : Fanout) : List (Nat × Sink) :=
  ((f.sinks.zipIdx.map fun (s,i) => (i,s)).filter fun p => p.2.isActive)

def sendTo (network : Network) (traceId : String) (n : Notification) (p : Nat × Sink) : Sent :=
  let d : Delivery := ⟨traceId,n.destinationFor p.2.type⟩
  ⟨p.1,p.2,d,p.2.send network d n⟩

def deliver (network : Network) (f : Fanout) (traceId : String) (n : Notification) : List Sent :=
  f.active.map (sendTo network traceId n)

def dispatch (network : Network) (f : Fanout) (fresh : String) (n : Notification) : List Sent :=
  f.deliver network (n.traceId.getD fresh) n

def notify (network : Network) (f : Fanout) (contextTrace : String) (n : Notification) : List Sent :=
  f.deliver network (n.traceId.getD contextTrace) n

def recordedAt (place : Nat) (n : Notification) (sent : List Sent) : List Recorded :=
  sent.filterMap fun s =>
    match s.sink with
    | .memory _ => if s.place = place then some ⟨s.delivery.traceId,s.delivery.destination,n⟩ else none
    | _ => none

def warnings (sent : List Sent) : List LogEvent :=
  sent.filterMap fun s =>
    match s.result with
    | .ok _ => none
    | .error e => some ⟨.warn,"notification delivery failed",
        [("error",.string e.message),("sink",.string s.sink.type),("trace_id",.string s.delivery.traceId)],none⟩

def describe (f : Fanout) : String :=
  "Fanout \x7b sinks: [" ++ String.intercalate ", " (f.sinks.map fun s => Text.quote s.type) ++ "] \x7d"

end Fanout
end ServiceKit
