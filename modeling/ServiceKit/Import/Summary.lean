import ServiceKit.Import.Seam
import ServiceKit.Notification
import ServiceKit.Service

namespace ServiceKit.Import

def previewLimit : Nat := 10

abbrev Groups := List (String × List Json)

namespace Groups

def get? (g : Groups) (message : String) : Option (List Json) := (g.find? fun e => e.1 == message).map (·.2)

-- Adds a sample under its message, in the order of messages; a full group takes no more.
def add (message : String) (sample : Json) : Groups → Groups
  | [] => [(message,[sample])]
  | (m,samples) :: rest =>
    if m = message then (m,if samples.length < previewLimit then samples ++ [sample] else samples) :: rest
    else if message < m then (message,[sample]) :: (m,samples) :: rest
    else (m,samples) :: add message sample rest

end Groups

structure Summary where
  groups : Groups
  total : Nat
  failed : Nat
  millis : Nat
deriving DecidableEq, Repr

namespace Summary

def empty : Summary := ⟨[],0,0,0⟩

def record (s : Summary) (o : RowOutcome) : Summary :=
  match o.error with
  | none => { s with total := s.total + 1 }
  | some e => { s with total := s.total + 1,failed := s.failed + 1,groups := s.groups.add e.message (e.data.getD .null) }

def ofOutcomes (os : List RowOutcome) : Summary := os.foldl record empty

def succeeded (s : Summary) : Nat := s.total - s.failed

def isClean (s : Summary) : Bool := s.failed == 0

def seconds (s : Summary) : String :=
  let hundredths := (s.millis + 5) / 10
  let rest := hundredths % 100
  toString (hundredths / 100) ++ "." ++ (if rest < 10 then "0" else "") ++ toString rest ++ "s"

def groupsJson (s : Summary) : Json := .object (s.groups.map fun g => (g.1,.array g.2))

def toJson (s : Summary) : Json :=
  .object [("failed_list",s.groupsJson),("total_data",.nat s.total),("total_failed",.nat s.failed),
    ("execution_time",.number (.float ((Binary64.ofNat s.millis).div (Binary64.ofNat 1000))))]

def overview (s : Summary) : Json :=
  .object [("failed_list",s.groupsJson),("is_clean",.bool s.isClean),
    ("keys",.array (s.toJson.sorted.memberNames.map .string)),("total_data",.nat s.total),
    ("total_failed",.nat s.failed),("total_succeeded",.nat s.succeeded)]

def requestedBy (claims : Option Json) (n : Notification) : Notification :=
  match claims with
  | some c => n.field "-Requested By" c.compact
  | none => n

def title (s : Summary) (service : Service) (process : String) : String :=
  service.titled ("import " ++ process ++
    if s.isClean then " completed" else " finished with " ++ toString s.failed ++ " failed rows")

def notification (s : Summary) (service : Service) (process : String) (claims : Option Json) : Notification :=
  let n := (Notification.new (s.title service process)).withKind (if s.isClean then .info else .warn)
  let n := (((n.field "Process" process).field "Total Data" (toString s.total)).field "Total Failed"
    (toString s.failed)).field "Execution Time" s.seconds
  s.groups.foldl (fun n g => n.field ("-Failed: " ++ g.1) (Json.array g.2).pretty) (requestedBy claims n)

end Summary

inductive NotifyPreference where
  | always | onFailure | never
deriving DecidableEq, Repr

def NotifyPreference.wants (p : NotifyPreference) (s : Summary) : Bool :=
  match p with
  | .always => true
  | .onFailure => !s.isClean
  | .never => false

end ServiceKit.Import
