import ServiceKit.Server.Stage

namespace ServiceKit.Rehearsal

def isSeconds (s : String) : Bool :=
  let cs := s.toList
  let whole := cs.takeWhile Text.isDigit
  match cs.drop whole.length with
  | ['.',a,b,'s'] => !whole.isEmpty && Text.isDigit a && Text.isDigit b
  | _ => false

def redactField (f : NotificationField) : NotificationField :=
  if f.key = "Stack Trace" ∧ f.value.toList.contains '\n' then { f with value := "<stack>" }
  else if f.key = "Execution Time" ∧ isSeconds f.value then { f with value := "<secs>" }
  else f

def redactNote (n : Notification) : Notification := { n with fields := n.fields.map redactField }

def looksMade (id : String) : Bool := id.length == requestIdLength && id.toList.all Text.isAlnum

def redactMember (m : String × Json) : String × Json :=
  if ["elapsed_ms","secs","addr","peer","backtrace"].contains m.1 then (m.1,.string "<any>")
  else match m with
    | ("request_id",.string id) => ("request_id",.string (if looksMade id then "<generated>" else id))
    | m => m

def redactLog (e : LogEvent) : LogEvent :=
  { e with fields := e.fields.map redactMember
           span := e.span.map fun s => { s with fields := s.fields.map redactMember } }

-- An id that the request did not bring was made for the response.
def redactHeaders (brought : Option String) (h : Headers) : Headers :=
  h.map fun e =>
    match Headers.readable e.2 with
    | some id =>
      if e.1 = Server.Stage.requestIdHeader ∧ looksMade id ∧ brought ≠ some id then
        (e.1,Headers.ofText "<generated>")
      else e
    | none => e

def redactResponse (brought : Option String) (r : Response) : Response :=
  { r with headers := redactHeaders brought r.headers }

def numberText (seen : List String) : Nat → List Char → List Char × List String
  | 0,cs => (cs,seen)
  | _ + 1,[] => ([],seen)
  | fuel + 1,c :: rest =>
    if Ids.beginsWithTrace (c :: rest) then
      let id := String.ofList ((c :: rest).take 36)
      let (i,seen) := match seen.findIdx? (· == id) with
        | some i => (i,seen)
        | none => (seen.length,seen ++ [id])
      let (more,seen) := numberText seen fuel (rest.drop 35)
      (("<trace-" ++ toString i ++ ">").toList ++ more,seen)
    else
      let (more,seen) := numberText seen fuel rest
      (c :: more,seen)

mutual

def numberTraces (seen : List String) : Json → Json × List String
  | .string t =>
    if t.length < 36 then (.string t,seen)
    else
      let (cs,seen) := numberText seen (t.length + 1) t.toList
      (.string (String.ofList cs),seen)
  | .array xs =>
    let (ys,seen) := numberItems seen xs
    (.array ys,seen)
  | .object ms =>
    let (ys,seen) := numberMembers seen ms
    (.object ys,seen)
  | j => (j,seen)

def numberItems (seen : List String) : List Json → List Json × List String
  | [] => ([],seen)
  | x :: rest =>
    let (y,seen) := numberTraces seen x
    let (ys,seen) := numberItems seen rest
    (y :: ys,seen)

def numberMembers (seen : List String) : List (String × Json) → List (String × Json) × List String
  | [] => ([],seen)
  | (k,x) :: rest =>
    let (y,seen) := numberTraces seen x
    let (ys,seen) := numberMembers seen rest
    ((k,y) :: ys,seen)

end

end ServiceKit.Rehearsal
