import ServiceKit.Server.Pipeline

namespace ServiceKit.Server

-- What happens to a machine in the meantime: notices keep their way, and tokens are added or cancelled.
structure Machine.Later (m m' : Machine) : Prop where
  fanout : m'.fanout = m.fanout
  tokens : m.world.tokens.Extends m'.world.tokens

def Machine.since (before after : Machine) : List Notice := after.notices.drop before.notices.length

def Handler.end? : Handler → Option Event
  | .finish r => some (.returned r)
  | .panic payload => some (.panicked (Caught.ofPayload payload (some frames)).1)
  | .act _ _ => none

inductive HandlerTask where
  | running (rest : Handler) (own : Context)
  | ended (e : Event)

-- The event that the waiting side chose, and the notices that both tasks started themselves.
structure Race where
  machine : Machine
  exchange : Exchange
  task : HandlerTask
  chosen : Option Event
  told : List Notice

namespace Race

def start (m : Machine) (x : Exchange) (h : Handler) : Race := ⟨m,x,.running h x.given,none,[]⟩

def opened (p : Pipeline) (handler : Request → Handler) (c : Context) (r : Request) (m : Machine) : Race :=
  let r := { r with limits := p.limits }
  let (x,m) := (p.open c r).run m
  start m x (handler r)

def closed (p : Pipeline) (s : Race) (e : Event) : Race :=
  let m := ((s.exchange.ended p e).run s.machine).2
  { s with machine := m,task := .ended e,told := s.told ++ s.machine.since m }

def answered (p : Pipeline) (s : Race) (e : Event) : Race :=
  let (x,m) := (s.exchange.answer p e).run s.machine
  { s with machine := m,exchange := x,chosen := some e,told := s.told ++ s.machine.since m }

-- The handler has an effect; how long it takes does not matter here.
def worked (s : Race) (own : Context) (e : Effect) (next : e.Answer → Handler) : Race :=
  let ((own,a),m) := (Run.perform own e).run s.machine
  { s with machine := m,task := .running (next a) own }

inductive Step (p : Pipeline) (s : Race) : Race → Prop where
  | works {own e next} (running : s.task = .running (.act e next) own) : Step p s (s.worked own e next)
  | ends {rest own e} (running : s.task = .running rest own) (ending : rest.end? = some e) : Step p s (s.closed p e)
  | answers {e} (ended : s.task = .ended e) (waiting : s.chosen = none) : Step p s (s.answered p e)
  | expires (waiting : s.chosen = none) : Step p s (s.answered p .deadline)
  | elsewhere {m} (later : s.machine.Later m) : Step p s { s with machine := m }

inductive Reached (p : Pipeline) (s : Race) : Race → Prop where
  | refl : Reached p s s
  | step {t u} (before : Reached p s t) (next : Step p t u) : Reached p s u

end Race
end ServiceKit.Server
