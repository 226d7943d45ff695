import ServiceKit.Http.Writer

namespace ServiceKit.Writer.History

inductive Call where
  | write (c : Content)
  | isWritten
  | status
deriving DecidableEq, Repr

inductive Answer where
  | wrote (result : Except WriteError Unit)
  | written (b : Bool)
  | status (s : Option Nat)
deriving Repr

def act (w : Writer) : Call → Answer × Writer
  | .write c => (.wrote (w.write c).1,(w.write c).2)
  | .isWritten => (.written w.isWritten,w)
  | .status => (.status w.status?,w)

def after (calls : List Call) : Writer := calls.foldl (fun w c => (act w c).2) .empty

def answers (w : Writer) : List Call → List Answer
  | [] => []
  | c :: rest => (act w c).1 :: answers (act w c).2 rest

def Call.content? : Call → Option Content
  | .write c => some c
  | _ => none

def Unwritten (calls : List Call) : Prop := ∀ call ∈ calls, call.content? = none

def First (calls : List Call) (c : Content) : Prop :=
  ∃ before later, calls = before ++ .write c :: later ∧ Unwritten before

inductive Right (past : List Call) : Call → Answer → Prop where
  | first {c} (unwritten : Unwritten past) : Right past (.write c) (.wrote (.ok ()))
  | again {c c'} (taken : First past c') : Right past (.write c) (.wrote (.error .alreadyWritten))
  | isWritten {b} (told : b = true ↔ ∃ c, First past c) : Right past .isWritten (.written b)
  | status {s} (told : ∀ n, s = some n ↔ ∃ c, First past c ∧ (Response.ofContent c).status = n) :
      Right past .status (.status s)

end ServiceKit.Writer.History
