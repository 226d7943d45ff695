import ServiceKit.Context

namespace ServiceKit.Context

inductive Attachment where
  | requestId (id : String)
  | traceId (id : String)
  | claims (value : Json)
  | notifier (n : Nat)
  | cache (n : Nat)
deriving DecidableEq, Repr

def attach (c : Context) : Attachment → Context
  | .requestId id => { c with requestId := some id }
  | .traceId id => { c with traceId := id }
  | .claims value => { c with claims := some value }
  | .notifier n => { c with notifier := some n }
  | .cache n => { c with cache := some n }

namespace History

-- What a program does with the contexts that it holds, which are known by number, in the order in which they came. Linking
-- puts the first context under the token of the second.
inductive Op where
  | new
  | clone (i : Nat)
  | link (i j : Nat)
  | detach (i : Nat)
  | cancel (i : Nat)
  | timeout (i ms : Nat)
  | deadline (i moment : Nat)
  | attach (i : Nat) (a : Attachment)
  | advance (ms : Nat)
deriving DecidableEq, Repr

structure State where
  world : World
  held : List Context
deriving DecidableEq, Repr

namespace State

def start : State := ⟨.start,[]⟩

def keep (s : State) : Context × World → State
  | (c,w) => ⟨w,s.held ++ [c]⟩

def put (s : State) (i : Nat) : Context × World → State
  | (c,w) => ⟨w,s.held.set i c⟩

-- What an operation does. On a context that is not held there is none, and a timeout whose end the clock cannot tell panics.
def act (s : State) : Op → Option State
  | .new => some (s.keep (Context.new s.world))
  | .clone i => (s.held[i]?).map fun c => s.keep (c,s.world)
  | .link i j => (s.held[i]?).bind fun c => (s.held[j]?).map fun p => s.put i (c.withParent s.world p.token)
  | .detach i => (s.held[i]?).map fun c => s.keep (c.detached s.world)
  | .cancel i => (s.held[i]?).map fun c => { s with world := s.world.cancel c.token }
  | .timeout i ms => (s.held[i]?).bind fun c => (c.withTimeout s.world ms).map fun c => s.put i (c,s.world)
  | .deadline i moment => (s.held[i]?).map fun c => s.put i (c.withDeadline moment,s.world)
  | .attach i a => (s.held[i]?).map fun c => s.put i (c.attach a,s.world)
  | .advance ms => some { s with world := s.world.advance ms }

end State

def run (ops : List Op) : Option State := ops.foldlM State.act .start

end History
end ServiceKit.Context
