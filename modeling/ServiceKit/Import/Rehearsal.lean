import ServiceKit.Import.Job

namespace ServiceKit.Import

inductive Verdict where
  | ok
  | refuse (f : Failure)
  | panic (message : String)
deriving DecidableEq, Repr

structure RowRule where
  field : Option String
  equals : String
  verdict : Verdict
deriving DecidableEq, Repr

def RowRule.concerns (r : RowRule) (row : Json) : Bool :=
  match r.field with
  | none => true
  | some f => (row.member? f).bind Json.text? == some r.equals

-- Transactions are numbered from 1 in the order in which they are begun.
structure Script where
  rules : List RowRule
  panicBegin : List Nat
  failBegin : List Nat
  failCommit : List Nat
  failRollback : List Nat
deriving DecidableEq, Repr

structure Journal where
  begun : Nat
  lines : List String
deriving DecidableEq, Repr

def Journal.add (j : Journal) (line : String) : Journal := { j with lines := j.lines ++ [line] }

namespace Script

def verdict (s : Script) (row : Json) : Verdict :=
  ((s.rules.find? fun r => r.concerns row).map (·.verdict)).getD .ok

def judged (s : Script) (row : Json) : Processed :=
  match s.verdict row with
  | .ok => .accepted
  | .refuse f => .refused f
  | .panic m => .panicked m

def processed (ctx : Context) (row : Json) (worker : Nat) : String :=
  s!"process {row.sorted.compact} worker {worker} deadline {ctx.deadline.isSome}"

def numbered (refused : List Nat) (what : String) (n : Nat) (j : Journal) : Called Unit × Journal :=
  let j := j.add (what ++ " " ++ toString n)
  if refused.contains n then (.failed (what ++ " " ++ toString n ++ " refused"),j) else (.returned (),j)

def process (s : Script) (ctx : Context) (d : Validation.Datum) (worker : Nat) (j : Journal) :
    Processed × Journal :=
  (s.judged d.toJson,j.add (processed ctx d.toJson worker))

def seam (s : Script) : Seam Journal where
  begin j :=
    let n := j.begun + 1
    let j := { j with begun := n }
    if s.panicBegin.contains n then (.panicked "begin panicked",j)
    else match numbered s.failBegin "begin" n j with
      | (.returned _,j) => (.returned n,j)
      | (.failed m,j) => (.failed m,j)
      | (.panicked m,j) => (.panicked m,j)
  process ctx d _ worker j := s.process ctx d worker j
  commit n j := numbered s.failCommit "commit" n j
  rollback n j := numbered s.failRollback "rollback" n j

def open_ (s : Script) : Seam Journal := .noTransaction s.process
def bare (s : Script) : Seam Unit := .noTransaction fun _ d _ u => (s.judged d.toJson,u)

end Script
end ServiceKit.Import
