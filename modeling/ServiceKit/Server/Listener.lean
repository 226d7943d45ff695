import ServiceKit.Server.App
import ServiceKit.Server.Tls

namespace ServiceKit.Server
open Text (Bytes)

inductive Frame where
  | data (bytes : Bytes)
  | trailers (fields : Headers)
  | broken (message : String)
  | finished
deriving DecidableEq, Repr

structure Arrival where
  time : Nat
  frame : Frame
deriving DecidableEq, Repr

inductive BodyFault where
  | tooSlow
  | tooLarge (limit : Nat)
  | broken (message : String)
deriving DecidableEq, Repr

def BodyFault.toEnvelope : BodyFault → Envelope
  | .tooSlow => .make 408 "timed out reading request body" Code.parsingBody
  | .tooLarge limit => .make 413 s!"request body exceeds {limit} bytes" Code.payloadTooLarge
  | .broken m => .badRequest ("failed to read request body: " ++ m) Code.parsingBody

-- Takes frame after frame with what was read before; what has not come by the timeout is not waited for. Trailers are no
-- part of the body.
def readBody (limit timeout : Nat) (got : Bytes) : List Arrival → Except BodyFault Bytes
  | [] => .error .tooSlow
  | a :: rest =>
    if timeout < a.time then .error .tooSlow
    else match a.frame with
      | .finished => .ok got
      | .broken m => .error (.broken m)
      | .trailers _ => readBody limit timeout got rest
      | .data bytes =>
        if limit < got.length + bytes.length then .error (.tooLarge limit)
        else readBody limit timeout (got ++ bytes) rest

structure Incoming where
  request : Request
  remote : Net.Address
  body : List Arrival

def rejected (i : Incoming) (e : Envelope) : LogEvent :=
  ⟨.warn,"rejected request body",[("remote",.string i.remote.text),("http.method",.string i.request.method),
    ("http.path",.string i.request.uri.path),("status",.nat e.status),("error",.string e.message)],none⟩

-- The answer to a request; none if the connection is closed without one.
def ListenerSettings.answer (s : ListenerSettings) (a : App) (i : Incoming) : Run (Option Answered) := do
  match readBody s.maxBodyBytes s.readTimeout [] i.body with
  | .error fault =>
    modify fun m => { m with logs := m.logs ++ [rejected i fault.toEnvelope] }
    return some (.plain (.ofEnvelope fault.toEnvelope))
  | .ok body =>
    let started := (← get).world.now
    let answered ← (a.handle? { i.request with body := body,remote := some i.remote.text }).run
    return if (← get).world.now - started ≤ s.writeTimeout then answered else none

def announcement (service : Service) (state : String) : Notification :=
  (((Notification.new (service.label ++ " " ++ state)).withKind .info).field "Container" service.container).field
    "Version" service.version

def App.announce (a : App) (state : String) : Run Unit := do
  let c ← a.context
  let c ← Run.world c.detached
  let _ ← Run.notify c (announcement a.pipeline.service state)

def App.serveNone (a : App) (s : ListenerSettings) : Run Unit := do
  if s.notifyStatus then a.announce "started"
  a.cancelAll
  if s.notifyStatus then a.announce "stopped"

end ServiceKit.Server
