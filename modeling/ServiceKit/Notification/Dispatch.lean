import ServiceKit.Context
import ServiceKit.Notification.Fanout

namespace ServiceKit

-- All that a fanout knows of a sink: its type, and whether it is to be sent to.
structure Outlet where
  type : String
  active : Bool
deriving DecidableEq, Repr

def Sink.outlet (s : Sink) : Outlet := ⟨s.type,s.isActive⟩

-- For whom a fanout is called: for a context, or for nobody.
inductive Caller where
  | context (c : Context)
  | alone

-- The trace id of a call: the notification's own if it has one, else the context's, else a fresh one.
def Caller.trace (caller : Caller) (n : Notification) (w : World) : String × World :=
  match n.traceId,caller with
  | some id,_ => (id,w)
  | none,.context c => (c.traceId,w)
  | none,.alone => w.freshTrace

def Fanout.call (network : Network) (f : Fanout) (caller : Caller) (n : Notification) (w : World) : List Sent :=
  match caller with
  | .context c => f.notify network c.traceId n
  | .alone => f.dispatch network w.freshTrace.1 n

namespace Dispatch

inductive Phase where
  | waiting
  | sending
  | ended (r : Except SinkError Unit)

structure Sending where
  place : Nat
  delivery : Delivery
  phase : Phase

-- The sends of a call, with what the sinks were handed so far and how they answered, each by the place of the sink.
structure Call where
  sends : List Sending
  handed : List (Nat × Delivery)
  answers : List (Nat × Except SinkError Unit)

def active (outlets : List Outlet) : List (Nat × Outlet) :=
  (outlets.zipIdx.map fun (o,i) => (i,o)).filter fun a => a.2.active

def due (outlets : List Outlet) (trace : String) (n : Notification) : List (Nat × Delivery) :=
  (active outlets).map fun a => (a.1,⟨trace,n.destinationFor a.2.type⟩)

def Sending.new (d : Nat × Delivery) : Sending := ⟨d.1,d.2,.waiting⟩

def start (outlets : List Outlet) (trace : String) (n : Notification) : Call :=
  ⟨(due outlets trace n).map Sending.new,[],[]⟩

def Sending.handed (s : Sending) : Nat × Delivery := (s.place,s.delivery)

def Sending.result? (s : Sending) : Option (Except SinkError Unit) :=
  match s.phase with
  | .ended r => some r
  | _ => none

def Call.results? (c : Call) : Option (List (Except SinkError Unit)) := c.sends.mapM Sending.result?

inductive Step (c : Call) : Call → Prop where
  | begins {before s after} (sends : c.sends = before ++ s :: after) (waiting : s.phase = .waiting) :
      Step c { c with sends := before ++ { s with phase := .sending } :: after,handed := c.handed ++ [s.handed] }
  | ends {before s after r} (sends : c.sends = before ++ s :: after) (sending : s.phase = .sending) :
      Step c { c with
        sends := before ++ { s with phase := .ended r } :: after,answers := c.answers ++ [(s.place,r)] }

inductive Reached (c : Call) : Call → Prop where
  | refl : Reached c c
  | step {d e} (before : Reached c d) (next : Step d e) : Reached c e

end Dispatch
end ServiceKit
