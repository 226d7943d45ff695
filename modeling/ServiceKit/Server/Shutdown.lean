import ServiceKit.Context.Token

namespace ServiceKit.Server

structure Signals where
  forest : TokenForest
  signals : List Token
  waiters : List Token
deriving DecidableEq, Repr

namespace Signals

def add (s : Signals) : Signals :=
  let (t,forest) := s.forest.root
  ⟨forest,s.signals ++ [t],s.waiters⟩

def start : Signals := add ⟨.empty,[],[]⟩

def copy (s : Signals) (i : Nat) : Signals := { s with signals := s.signals ++ (s.signals[i]?).toList }

def trigger (s : Signals) (i : Nat) : Signals :=
  match s.signals[i]? with
  | some t => { s with forest := s.forest.cancel t }
  | none => s

def wait (s : Signals) (i : Nat) : Signals := { s with waiters := s.waiters ++ (s.signals[i]?).toList }

def isShutDown (s : Signals) (t : Token) : Bool := s.forest.isCancelled t

def states (s : Signals) : List Bool := s.signals.map s.isShutDown

-- Tells of each waiter whether it is answered now, and lets those go.
def poll (s : Signals) : List Bool × Signals :=
  (s.waiters.map s.isShutDown,{ s with waiters := s.waiters.filter fun t => !s.isShutDown t })

end Signals
end ServiceKit.Server
