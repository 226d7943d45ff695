import ServiceKit.Http.Request
import ServiceKit.Notification
import ServiceKit.Service

namespace ServiceKit.Server

structure RequestMeta where
  remote : Option String
  method : String
  uri : String
  host : String
  path : String
  uniqueKey : Option String
deriving DecidableEq, Repr

def RequestMeta.capture (r : Request) (keyHeader : Option String) : RequestMeta :=
  ⟨r.remote,r.method,r.uri.text,r.host?.getD "",r.uri.path,keyHeader.bind r.header?⟩

def RequestMeta.toJson (m : RequestMeta) : Json :=
  .object [("remote_addr",.ofOption (m.remote.map Json.string)),("method",.string m.method),("uri",.string m.uri),
    ("host",.string m.host),("path",.string m.path),("unique_key",.ofOption (m.uniqueKey.map Json.string))]

structure Caught where
  message : String
  backtrace : String
deriving DecidableEq, Repr

inductive Payload where
  | text (s : String)
  | other
deriving DecidableEq, Repr

def Payload.message : Payload → String
  | .text s => s
  | .other => "non-string panic payload"

def frames : String := "0: raised\n1: caught"

-- The slot that holds the frames of the last panic until they are read.
abbrev BacktraceSlot := Option String

def Caught.ofPayload (p : Payload) (slot : BacktraceSlot) : Caught × BacktraceSlot :=
  (⟨p.message,slot.getD "backtrace unavailable"⟩,none)

def withKey (m : RequestMeta) (n : Notification) : Notification :=
  match m.uniqueKey with
  | some key => n.prependField "Unique Key" key
  | none => n

def withFields (n : Notification) (fields : List (String × String)) : Notification :=
  fields.foldl (fun n f => n.field f.1 f.2) n

def panicNotice (service : Service) (m : RequestMeta) (c : Caught) : Notification :=
  withKey m (withFields ((Notification.new (service.label ++ " panic recovered")).withKind .error)
    [("Remote Address",m.remote.getD ""),("Method",m.method),("Host",m.host),("Path",m.path),
     ("App Version",service.version),("-URI",m.uri),("-Error",c.message),("-Stack Trace",c.backtrace)])

def failureNotice (service : Service) (m : RequestMeta) (e : Envelope) : Notification :=
  withKey m (withFields
    ((Notification.new (service.label ++ " request failed")).withKind (if e.isServerError then .error else .warn))
    ([("Method",m.method),("Path",m.path),("Status",toString e.status),("Code",e.code),("-Message",e.message)] ++
      match e.data with
      | some d => [("-Data",d.sorted.compact)]
      | none => []))

end ServiceKit.Server
