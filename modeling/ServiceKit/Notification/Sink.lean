import ServiceKit.Notification
import ServiceKit.Text.Blank
import ServiceKit.Text.Split

namespace ServiceKit

-- One delivery: the trace id it carries, and the sink's own destination if the notification has one.
structure Delivery where
  traceId : String
  destination : Option String
deriving DecidableEq, Repr

inductive SinkError where
  | transport (sink : String)
  | rejected (sink : String) (status : Nat) (body : String)
  | misconfigured (sink : String) (message : String)
deriving DecidableEq, Repr

def SinkError.kind : SinkError → String
  | .transport _ => "Transport"
  | .rejected .. => "Rejected"
  | .misconfigured .. => "Misconfigured"

def SinkError.sink : SinkError → String
  | .transport sink | .rejected sink _ _ | .misconfigured sink _ => sink

def SinkError.message : SinkError → String
  | .transport sink => s!"{sink} request failed"
  | .rejected sink status body => s!"{sink} responded with status {status}: {body}"
  | .misconfigured sink message => s!"{sink} is misconfigured: {message}"

structure Post where
  url : String
  body : Json
deriving DecidableEq, Repr

structure PostReply where
  status : Nat
  body : String
deriving DecidableEq, Repr

abbrev Network := Post → Option PostReply

def Network.unreachable : Network := fun _ => none

inductive Sink where
  | memory (active : Bool)
  | slack (webhook : String) (active : Bool)
  | telegram (token : String) (chat : Option String) (base : String) (active : Bool)
  | failing (active : Bool)
deriving DecidableEq, Repr

namespace Sink

def type : Sink → String
  | .memory _ => "memory"
  | .slack .. => "slack"
  | .telegram .. => "telegram"
  | .failing _ => "failing"

def isActive : Sink → Bool
  | .memory active | .slack _ active | .telegram _ _ _ active | .failing active => active

def telegramBase : String := "https://api.telegram.org"

def ofWebhook (url : String) : Sink := .slack url (!Text.allBlank url)
def ofToken (token : String) (chat : Option String) : Sink :=
  .telegram token chat telegramBase (!Text.allBlank token)

def trimSlashes (s : String) : String :=
  String.ofList ((s.toList.reverse.dropWhile (· == '/')).reverse)

def withBase (base : String) : Sink → Sink
  | .telegram token chat _ active => .telegram token chat (trimSlashes base) active
  | other => other

def withActive (active : Bool) : Sink → Sink
  | .memory _ => .memory active
  | .slack webhook _ => .slack webhook active
  | .telegram token chat base _ => .telegram token chat base active
  | .failing _ => .failing active

def slackPayload (traceId : String) (n : Notification) : Json :=
  .object [("attachments",.array [.object
    [("color",.string n.kind.color),
     ("fields",.array (n.fields.map fun f =>
       .object [("short",.bool f.short),("title",.string f.key),("value",.string f.value)])),
     ("footer",.string ("trace_id: " ++ traceId)),
     ("title",.string n.title)]])]

-- The characters of markup as entities. The ampersand goes first, since every entity has one.
def escapeChars (cs : List Char) : List Char :=
  let cs := Text.replaced '&' ['&','a','m','p',';'] cs
  let cs := Text.replaced '<' ['&','l','t',';'] cs
  Text.replaced '>' ['&','g','t',';'] cs

def escapeMarkup (s : String) : String := String.ofList (escapeChars s.toList)

def telegramField (f : NotificationField) : String :=
  if f.short then "<b>" ++ escapeMarkup f.key ++ "</b>: " ++ escapeMarkup f.value ++ "\n"
  else "<b>" ++ escapeMarkup f.key ++ "</b>:\n<pre>" ++ escapeMarkup f.value ++ "</pre>\n"

def telegramText (traceId : String) (n : Notification) : String :=
  "<b>" ++ escapeMarkup n.title ++ "</b>\n" ++ String.join (n.fields.map telegramField) ++
    "<code>trace_id: " ++ escapeMarkup traceId ++ "</code>"

def telegramPayload (chat traceId : String) (n : Notification) : Json :=
  .object
    [("chat_id",.string chat),("disable_web_page_preview",.bool true),("parse_mode",.string "HTML"),
     ("text",.string (telegramText traceId n))]

def post? (d : Delivery) (n : Notification) : Sink → Except SinkError (Option Post)
  | .memory _ => .ok none
  | .failing _ => .error (.misconfigured "failing" n.title)
  | .slack webhook _ =>
    let url := d.destination.getD webhook
    if url.isEmpty then .error (.misconfigured "slack" "webhook url is empty")
    else .ok (some ⟨url,slackPayload d.traceId n⟩)
  | .telegram token chat base _ =>
    match d.destination.or chat with
    | none => .error (.misconfigured "telegram" "no chat id configured")
    | some chat => .ok (some ⟨base ++ "/bot" ++ token ++ "/sendMessage",telegramPayload chat d.traceId n⟩)

def isSuccess (status : Nat) : Bool := decide (200 ≤ status) && decide (status < 300)

def send (network : Network) (s : Sink) (d : Delivery) (n : Notification) : Except SinkError Unit := do
  match ← post? d n s with
  | none => .ok ()
  | some post =>
    match network post with
    | none => .error (.transport s.type)
    | some reply => if isSuccess reply.status then .ok () else .error (.rejected s.type reply.status reply.body)

end Sink
end ServiceKit
