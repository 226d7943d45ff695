import ServiceKit.Notification
import ServiceKit.Service
import ServiceKit.Json.Printer

namespace ServiceKit

namespace Json

def get (j : Json) (k : String) : Json := (j.member? k).getD .null
def has (j : Json) (k : String) : Bool := (j.member? k).isSome

def asText (j : Json) : String := j.text?.getD ""
def str (j : Json) (k : String) : String := (j.get k).asText
def str? (j : Json) (k : String) : Option String := (j.get k).text?

def asNat? : Json → Option Nat
  | .number (.int i) => if i ≥ 0 then some i.toNat else none
  | _ => none

def asNat (j : Json) : Nat := j.asNat?.getD 0
def nat? (j : Json) (k : String) : Option Nat := (j.get k).asNat?
def natAt (j : Json) (k : String) : Nat := (j.get k).asNat

def items : Json → List Json
  | .array xs => xs
  | _ => []

def arr (j : Json) (k : String) : List Json := (j.get k).items
def flag (j : Json) (k : String) : Bool := j.get k == .bool true

def undenied (j : Json) (k : String) : Bool := j.get k != .bool false

def item (j : Json) (i : Nat) : Json := (j.items[i]?).getD .null
def itemText (j : Json) (i : Nat) : String := (j.item i).asText

def pairs (j : Json) (k : String) : List (String × String) := (j.arr k).map fun p => (p.itemText 0,p.itemText 1)

def unhex : List Char → Text.Bytes
  | a :: b :: rest =>
    UInt8.ofNat ((Text.hexValue a).getD 0 * 16 + (Text.hexValue b).getD 0) :: unhex rest
  | _ => []

def asBytes : Json → Text.Bytes
  | .string s => Text.utf8 s
  | j =>
    match j.member? "hex",j.member? "repeat" with
    | some h,_ => unhex h.asText.toList
    | _,some r => (List.replicate (j.natAt "times") (Text.utf8 r.asText)).flatten
    | _,_ => []

def ofBytes (bs : Text.Bytes) : Json :=
  match Text.ofUtf8? bs with
  | some text => .string text
  | none => .object [("hex",.string (Text.hexBytes bs))]

def asStep (j : Json) : String × Json := (j.itemText 0,.array (j.items.drop 1))

end Json

namespace Rehearsal

def envelopeOf (j : Json) : Envelope :=
  let e : Envelope := { Envelope.badRequest (j.str "message") (j.str "code") with status := (j.nat? "status").getD 400 }
  match j.member? "data" with
  | some d => e.withData d
  | none => e

def noteStep (n : Notification) (step : Json) : Notification :=
  let (name,a) := step.asStep
  match name with
  | "kind" => n.withKind ((NotificationKind.ofName (a.itemText 0)).getD .default)
  | "field" => n.field (a.itemText 0) (a.itemText 1)
  | "prepend_field" => n.prependField (a.itemText 0) (a.itemText 1)
  | "trace_id" => n.withTrace (a.itemText 0)
  | _ => n.destination (a.itemText 0) (a.itemText 1)

def noteOf (j : Json) : Notification := (j.arr "steps").foldl noteStep (.new (j.str "title"))

def serviceOf (j : Json) : Service := ⟨j.str "app_name",j.str "env",j.str "container",j.str "version"⟩

end Rehearsal
end ServiceKit
