import ServiceKit.Clock
import ServiceKit.Context.Token
import ServiceKit.Ids
import ServiceKit.Json

namespace ServiceKit

def claimsGet (claims : Json) (key : String) : Option Json := claims.member? key
def claimsSubject (claims : Json) : Option String := (claimsGet claims "sub").bind Json.text?

-- What a request carries with it. Times are milliseconds of one clock.
structure Context where
  requestId : Option String
  traceId : String
  deadline : Option Nat
  token : Token
  claims : Option Json
  notifier : Option Nat
  cache : Option Nat
  span : Option Nat
  receivedAt : Nat
deriving DecidableEq, Repr

-- The clock, the tokens and the fresh identifiers that contexts draw on.
structure World where
  now : Nat
  tokens : TokenForest
  supply : Supply
deriving DecidableEq, Repr, Inhabited

namespace World

def start : World := ⟨0,.empty,⟨0⟩⟩

def freshTrace (w : World) : String × World :=
  let (id,supply) := w.supply.trace
  (id,{ w with supply := supply })

def freshRequestId (w : World) : String × World :=
  let (id,supply) := w.supply.request
  (id,{ w with supply := supply })

def freshToken (w : World) : Token × World :=
  let (t,tokens) := w.tokens.root
  (t,{ w with tokens := tokens })

def childToken (w : World) (parent : Token) : Token × World :=
  let (t,tokens) := w.tokens.child parent
  (t,{ w with tokens := tokens })

def cancel (w : World) (t : Token) : World := { w with tokens := w.tokens.cancel t }

def advance (w : World) (ms : Nat) : World := { w with now := w.now + ms }

end World

namespace Context

def new (w : World) : Context × World :=
  let (trace,w) := w.freshTrace
  let (token,w) := w.freshToken
  (⟨none,trace,none,token,none,none,none,none,w.now⟩,w)

-- A copy for work that outlives the request: it keeps the trace id, the claims and both services and shares nothing else.
def detached (c : Context) (w : World) : Context × World :=
  let (token,w) := w.freshToken
  ({ c with requestId := none,deadline := none,token := token,receivedAt := w.now },w)

def withParent (c : Context) (w : World) (parent : Token) : Context × World :=
  let (token,w) := w.childToken parent
  ({ c with token := token },w)

def withDeadline (c : Context) (moment : Nat) : Context := { c with deadline := some moment }

def withTimeout (c : Context) (w : World) (ms : Nat) : Option Context := (Clock.later? w.now ms).map c.withDeadline

theorem withTimeout_eq_some_iff {c d : Context} {w : World} {ms : Nat} :
    c.withTimeout w ms = some d ↔ w.now + ms ≤ Clock.last ∧ c.withDeadline (w.now + ms) = d := by
  simp [withTimeout,Clock.later?_eq_some_iff,and_assoc]

def isCancelled (c : Context) (w : World) : Bool := w.tokens.isCancelled c.token

def isDone (c : Context) (w : World) : Bool :=
  c.isCancelled w || (c.deadline.map fun d => decide (d ≤ w.now)).getD false

def remaining (c : Context) (w : World) : Option Nat := c.deadline.map (· - w.now)

def elapsed (c : Context) (w : World) : Nat := w.now - c.receivedAt

def doneAt (c : Context) (w : World) : Option Nat :=
  if c.isCancelled w then some w.now else c.deadline.map (max w.now)

end Context
end ServiceKit
