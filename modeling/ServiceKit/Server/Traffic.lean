import ServiceKit.Context.History
import ServiceKit.Server.App
import ServiceKit.Server.Race

namespace ServiceKit.Server

-- What a race does next: its handler has an effect or ends, or the waiting side answers or gives up.
inductive Turn where
  | works | ends | answers | expires
deriving DecidableEq, Repr

-- What a race becomes by a turn; none where it is not the time for it.
def Race.turn (p : Pipeline) (s : Race) : Turn → Option Race
  | .works =>
    match s.task with
    | .running (.act e next) own => some (s.worked own e next)
    | _ => none
  | .ends =>
    match s.task with
    | .running rest _ => rest.end?.map (s.closed p)
    | .ended _ => none
  | .answers =>
    match s.chosen,s.task with
    | none,.ended e => some (s.answered p e)
    | _,_ => none
  | .expires => if s.chosen.isNone then some (s.answered p .deadline) else none

namespace Traffic

-- A request on its way: the contexts that its stages hold, the first being the one that it arrived with, and its race once
-- it has reached the pipeline, with the machine as it was after the last turn.
structure Flight where
  contexts : List Context
  race : Option Race

structure State where
  app : App
  machine : Machine
  flights : List Flight

-- What a stage does with a context of its request: an effect through it, or something that it puts on it.
inductive Use where
  | effect (e : Effect)
  | attach (a : Context.Attachment)
  | deadline (moment : Nat)

def Use.run (c : Context) : Use → Run Context
  | .effect e => return (← Run.perform c e).1
  | .attach a => return c.attach a
  | .deadline moment => return c.withDeadline moment

-- How a stage comes by a context more: a copy of one of its request's, a new one with a token of its own, a new one under
-- the application's token, a detached copy, or a copy that is put under the token of another.
inductive Make where
  | copy (n : Nat)
  | fresh
  | rooted
  | detach (n : Nat)
  | link (n k : Nat)
deriving DecidableEq

def Make.run (a : App) (held : List Context) : Make → Option (Run Context)
  | .copy n => (held[n]?).map pure
  | .fresh => some (Run.world Context.new)
  | .rooted => some a.context
  | .detach n => (held[n]?).map fun c => Run.world c.detached
  | .link n k => (held[n]?).bind fun c => (held[k]?).map fun p => Run.world fun w => c.withParent w p.token

-- A stage uses any context that its request holds and makes others, and any of them may be let on. The steps of requests
-- come in any order, and time passes in between.
inductive Action where
  | arrive (r : Request)
  | stage (i n : Nat) (u : Use)
  | make (i : Nat) (m : Make)
  | reach (i n : Nat) (r : Request) (handler : Request → Handler)
  | turn (i : Nat) (t : Turn)
  | cancelAll
  | elapse (ms : Nat)

def Action.request? : Action → Option Nat
  | .stage i _ _ | .make i _ | .reach i _ _ _ | .turn i _ => some i
  | .arrive _ | .cancelAll | .elapse _ => none

namespace State

def start (settings : AppSettings) (m : Machine) : State :=
  let (a,m) := (App.build settings).run m
  ⟨a,m,[]⟩

def tokens (s : State) : TokenForest := s.machine.world.tokens

def race? (s : State) (i : Nat) : Option Race := (s.flights[i]?).bind (·.race)

def put (s : State) (i : Nat) (f : Flight) (m : Machine) : State :=
  { s with machine := m,flights := s.flights.set i f }

def arrive (s : State) (r : Request) : State :=
  let (c,m) := (do App.openSpan (← s.app.context) r : Run Context).run s.machine
  { s with machine := m,flights := s.flights ++ [⟨[c],none⟩] }

def stage (s : State) (i n : Nat) (u : Use) : Option State := do
  let flight ← s.flights[i]?
  let c ← flight.contexts[n]?
  let (c,m) := (u.run c).run s.machine
  return s.put i { flight with contexts := flight.contexts.set n c } m

def make (s : State) (i : Nat) (x : Make) : Option State := do
  let flight ← s.flights[i]?
  let (c,m) := (← x.run s.app flight.contexts).run s.machine
  return s.put i { flight with contexts := flight.contexts ++ [c] } m

-- A request reaches the pipeline at most once, with the context that was let on; where the clock cannot tell the deadline
-- there is no race.
def reach (s : State) (i n : Nat) (r : Request) (handler : Request → Handler) : Option State := do
  let flight ← s.flights[i]?
  let c ← flight.contexts[n]?
  let k := Race.opened s.app.pipeline handler c r s.machine
  if flight.race.isNone ∧ (Clock.later? s.machine.world.now s.app.pipeline.timeout).isSome then
    some (s.put i ⟨flight.contexts.set n k.exchange.context,some k⟩ k.machine)
  else none

def turn (s : State) (i : Nat) (t : Turn) : Option State := do
  let flight ← s.flights[i]?
  let k ← flight.race
  let k ← { k with machine := s.machine }.turn s.app.pipeline t
  return s.put i { flight with race := some k } k.machine

def cancelAll (s : State) : State := { s with machine := (s.app.cancelAll.run s.machine).2 }

def elapse (s : State) (ms : Nat) : State :=
  { s with machine := { s.machine with world := s.machine.world.advance ms } }

def act (s : State) : Action → Option State
  | .arrive r => some (s.arrive r)
  | .stage i n u => s.stage i n u
  | .make i x => s.make i x
  | .reach i n r handler => s.reach i n r handler
  | .turn i t => s.turn i t
  | .cancelAll => some s.cancelAll
  | .elapse ms => some (s.elapse ms)

end State

def run (s : State) (actions : List Action) : Option State := actions.foldlM State.act s

end Traffic
end ServiceKit.Server
