import ServiceKit.Server.Listener
import ServiceKit.Server.Race
import ServiceKit.Server.Shutdown

namespace ServiceKit.Server

-- What a connection is busy with; a request that is read has no context yet.
inductive Work where
  | idle
  | reading
  | handling
deriving DecidableEq, Repr

structure Connection where
  work : Work
  asked : Bool
  gone : Bool
deriving DecidableEq, Repr

namespace Serving

inductive Phase where
  | starting
  | accepting
  | draining (since : Nat)
  | stopping (inTime : Bool)
  | ended (inTime : Bool)
deriving DecidableEq, Repr

def Phase.seen : Phase → Bool
  | .starting | .accepting => false
  | _ => true

def outcome (inTime : Bool) : Except ServerError Unit := if inTime then .ok () else .error .shutdownTimedOut

def Phase.result? : Phase → Option (Except ServerError Unit)
  | .ended inTime => some (outcome inTime)
  | _ => none

inductive Happening where
  | told (n : Notice)
  | accepted
  | gone (connection : Nat)
  | saw (now : Nat)
  | waited (inTime : Bool) (now : Nat)
deriving DecidableEq, Repr

-- The listener holds the first signal and each connection a copy of it, in their order. The contexts are those of all
-- requests so far, with the ones that were made from them.
structure State where
  machine : Machine
  phase : Phase
  signals : Signals
  connections : List Connection
  contexts : List Context
  history : List Happening

namespace State

def start (m : Machine) : State := ⟨m,.starting,.start,[],[],[]⟩

def now (s : State) : Nat := s.machine.world.now

def allGone (s : State) : Bool := s.connections.all (·.gone)

def shut (s : State) (i : Nat) : Bool := (s.signals.signals[i]?).any s.signals.isShutDown

structure Live (s : State) (i : Nat) (c : Connection) : Prop where
  found : s.connections[i]? = some c
  here : c.gone = false

def announce (conf : ListenerSettings) (a : App) (s : State) (state : String) : State :=
  if conf.notifyStatus then
    let m := ((a.announce state).run s.machine).2
    { s with machine := m,history := s.history ++ (s.machine.since m).map .told }
  else s

def begin (conf : ListenerSettings) (a : App) (s : State) : State :=
  { s.announce conf a "started" with phase := .accepting }

def accept (s : State) : State :=
  { s with
    signals := s.signals.copy 0
    connections := s.connections ++ [⟨.idle,false,false⟩]
    history := s.history ++ [.accepted] }

def refusal (message : String) : LogEvent := ⟨.error,"failed to accept connection",[("error",.string message)],none⟩

def refuse (s : State) (message : String) : State :=
  { s with machine := { s.machine with logs := s.machine.logs ++ [refusal message] } }

-- The loop sees the signal: nothing more is accepted and every request is cancelled.
def see (a : App) (s : State) : State :=
  { s with
    machine := (a.cancelAll.run s.machine).2
    phase := .draining s.now
    history := s.history ++ [.saw s.now] }

def wait (s : State) (inTime : Bool) : State :=
  { s with phase := .stopping inTime,history := s.history ++ [.waited inTime s.now] }

def finish (conf : ListenerSettings) (a : App) (s : State) (inTime : Bool) : State :=
  { s.announce conf a "stopped" with phase := .ended inTime }

def update (s : State) (i : Nat) (c : Connection) : State := { s with connections := s.connections.set i c }

def leave (s : State) (i : Nat) (c : Connection) : State :=
  { s with connections := s.connections.set i { c with gone := true },history := s.history ++ [.gone i] }

def enter (a : App) (s : State) (i : Nat) (c : Connection) (r : Request) : State :=
  let (own,m) := (a.opens r).run s.machine
  { s.update i { c with work := .handling } with machine := m,contexts := s.contexts ++ [own] }

def narrow (s : State) (own : Context) : State :=
  let (c,w) := own.withParent s.machine.world own.token
  { s with machine := { s.machine with world := w },contexts := s.contexts ++ [c] }

def answer (s : State) (i : Nat) (c : Connection) : State :=
  if c.asked then s.leave i { c with work := .idle } else s.update i { c with work := .idle }

def pass (s : State) (ms : Nat) : State := { s with machine := ((Run.setNow (s.now + ms)).run s.machine).2 }

end State

-- An accepted connection may end at any time. While connections are waited for, time passes only up to the end of the
-- window, and only until all are gone.
inductive Step (conf : ListenerSettings) (a : App) (s : State) : State → Prop where
  | begin (phase : s.phase = .starting) : Step conf a s (s.begin conf a)
  | accept (phase : s.phase = .accepting) : Step conf a s s.accept
  | refuse (phase : s.phase = .accepting) (message : String) : Step conf a s (s.refuse message)
  | receive {i c} (live : s.Live i c) (idle : c.work = .idle) : Step conf a s (s.update i { c with work := .reading })
  | reject {i c} (live : s.Live i c) (reading : c.work = .reading) : Step conf a s (s.answer i c)
  | enter {i c} (live : s.Live i c) (reading : c.work = .reading) (r : Request) : Step conf a s (s.enter a i c r)
  | narrow {own} (held : own ∈ s.contexts) : Step conf a s (s.narrow own)
  | answer {i c} (live : s.Live i c) (handling : c.work = .handling) : Step conf a s (s.answer i c)
  | close {i c} (live : s.Live i c) : Step conf a s (s.leave i c)
  | trigger (i : Nat) : Step conf a s { s with signals := s.signals.trigger i }
  | ask {i c} (live : s.Live i c) (shut : s.shut (i + 1) = true) : Step conf a s (s.update i { c with asked := true })
  | see (phase : s.phase = .accepting) (shut : s.shut 0 = true) : Step conf a s (s.see a)
  | pass (ms : Nat)
      (free : ∀ since, s.phase = .draining since → s.allGone = false ∧ s.now + ms ≤ since + conf.shutdownTimeout) :
      Step conf a s (s.pass ms)
  | elsewhere {m} (later : s.machine.Later m) (now : m.world.now = s.now) : Step conf a s { s with machine := m }
  | drained {since} (phase : s.phase = .draining since) (all : s.allGone = true) : Step conf a s (s.wait true)
  | expire {since} (phase : s.phase = .draining since) (left : s.allGone = false)
      (lapsed : s.now = since + conf.shutdownTimeout) : Step conf a s (s.wait false)
  | finish {inTime} (phase : s.phase = .stopping inTime) : Step conf a s (s.finish conf a inTime)

inductive Reached (conf : ListenerSettings) (a : App) (s : State) : State → Prop where
  | refl : Reached conf a s s
  | step {t u} (before : Reached conf a s t) (next : Step conf a t u) : Reached conf a s u

end Serving
end ServiceKit.Server
