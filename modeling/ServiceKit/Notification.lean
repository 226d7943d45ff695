import ServiceKit.Envelope

namespace ServiceKit
open Validation

inductive NotificationKind where
  | info | warn | error | default
deriving DecidableEq, Repr

namespace NotificationKind

def name : NotificationKind → String
  | .info => "info" | .warn => "warn" | .error => "error" | .default => "default"

def color : NotificationKind → String
  | .info => "#2eb886" | .warn => "#daa038" | .error => "#a30200" | .default => "#dddddd"

def all : List NotificationKind := [.info,.warn,.error,.default]

def ofName (s : String) : Option NotificationKind := all.find? fun k => k.name == s

end NotificationKind

structure NotificationField where
  key : String
  value : String
  short : Bool
deriving DecidableEq, Repr

structure Notification where
  title : String
  kind : NotificationKind
  fields : List NotificationField
  traceId : Option String
  destinations : List (String × String)
deriving DecidableEq, Repr

namespace Notification

def new (title : String) : Notification := ⟨title,.default,[],none,[]⟩

def withKind (n : Notification) (kind : NotificationKind) : Notification := { n with kind := kind }

def makeField (key value : String) : NotificationField :=
  match key.toList with
  | '-' :: rest => ⟨String.ofList rest,value,false⟩
  | _ => ⟨key,value,true⟩

def field (n : Notification) (key value : String) : Notification :=
  { n with fields := n.fields ++ [makeField key value] }

def prependField (n : Notification) (key value : String) : Notification :=
  { n with fields := makeField key value :: n.fields }

def withTrace (n : Notification) (traceId : String) : Notification := { n with traceId := some traceId }

def putDestination (sink address : String) : List (String × String) → List (String × String)
  | [] => [(sink,address)]
  | (s,a) :: rest =>
    if sink = s then (sink,address) :: rest
    else if sink < s then (sink,address) :: (s,a) :: rest
    else (s,a) :: putDestination sink address rest

def destination (n : Notification) (sink address : String) : Notification :=
  { n with destinations := putDestination sink address n.destinations }

def destinationFor (n : Notification) (sink : String) : Option String :=
  (n.destinations.find? fun d => d.1 == sink).map (·.2)

def get? (n : Notification) (key : String) : Option String :=
  (n.fields.find? fun f => f.key == key).map (·.value)

def renderText (n : Notification) : String :=
  n.title ++ String.join (n.fields.map fun f => "\n" ++ f.key ++ ": " ++ f.value)

def toJson (n : Notification) : Json :=
  .object
    [("title",.string n.title),
     ("kind",.string n.kind.name),
     ("fields",.array (n.fields.map fun f =>
       .object [("key",.string f.key),("value",.string f.value),("short",.bool f.short)])),
     ("trace_id",.ofOption (n.traceId.map .string)),
     ("destinations",.object (n.destinations.map fun d => (d.1,.string d.2)))]

open Envelope (fieldType)

def fieldRecord : RecordType :=
  ⟨"NotificationField",.named,
   [fieldType "key" .text false,fieldType "value" .text false,fieldType "short" .flag false]⟩

def recordType : RecordType :=
  ⟨"Notification",.named,
   [fieldType "title" .text false,fieldType "kind" (.choice (NotificationKind.all.map (·.name))) false,
    fieldType "fields" (.list (.record "NotificationField")) false,
    fieldType "trace_id" (.optional .text) false,fieldType "destinations" .dictionary false]⟩

def fieldOfDatum : Datum → Option NotificationField
  | .record _ [(_,.text key),(_,.text value),(_,.flag short)] => some ⟨key,value,short⟩
  | _ => none

def ofDatum : Datum → Option Notification
  | .record _ [(_,.text title),(_,.text kind),(_,.list fields),(_,.optional trace),(_,.dictionary targets)] =>
    (NotificationKind.ofName kind).map fun kind =>
      ⟨title,kind,fields.filterMap fieldOfDatum,
       trace.bind fun
         | .text t => some t
         | _ => none,targets⟩
  | _ => none

def ofText (s : String) : Except Json.ReadError Notification := do
  let d ← Record.ofText [recordType,fieldRecord] (.record "Notification") s
  match ofDatum d with
  | some n => .ok n
  | none => .error ⟨.expectedValue,none⟩

end Notification
end ServiceKit
