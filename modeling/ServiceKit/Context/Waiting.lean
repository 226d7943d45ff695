import ServiceKit.Context.History

namespace ServiceKit.Context

-- What a wait listens to, and when it was over.
structure Wait where
  token : Token
  timer : Option Nat
  ended : Option Nat
deriving DecidableEq, Repr

namespace Wait

def endAt (q : Wait) (moment : Nat) : Wait := { q with ended := q.ended.or (some moment) }

def begin (c : Context) (w : World) : Wait :=
  let q : Wait := ⟨c.token,c.deadline,none⟩
  if w.tokens.isCancelled q.token || q.timer.any (· ≤ w.now) then q.endAt w.now else q

-- A cancel wakes the waits on all tokens that it reaches and that were not cancelled before.
def hear (before after : World) (q : Wait) : Wait :=
  if after.tokens.isCancelled q.token && !before.tokens.isCancelled q.token then q.endAt after.now else q

def ring (moment : Nat) (q : Wait) : Wait :=
  match q.timer with
  | some due => if due ≤ moment then q.endAt due else q
  | none => q

-- Where the clock leaps to a moment, a timer that is due by then fires there.
def ringLate (moment : Nat) (q : Wait) : Wait := if q.timer.any (· ≤ moment) then q.endAt moment else q

end Wait

namespace Waiting

inductive Step where
  | operate (op : History.Op)
  | leap (ms : Nat)
  | await (i : Nat)
deriving DecidableEq, Repr

-- What a step does with the contexts; a leap of the clock is to them like its running on.
def Step.op? : Step → Option History.Op
  | .operate op => some op
  | .leap ms => some (.advance ms)
  | .await _ => none

def Step.wake (before after : World) : Step → Wait → Wait
  | .operate (.cancel _) => .hear before after
  | .operate (.advance _) => .ring after.now
  | .leap _ => .ringLate after.now
  | _ => id

structure State where
  scene : History.State
  waits : List Wait
deriving DecidableEq, Repr

namespace State

def start : State := ⟨.start,[]⟩

def world (s : State) : World := s.scene.world

def actBy (s : State) (x : Step) (op : History.Op) : Option State :=
  (s.scene.act op).map fun t => ⟨t,s.waits.map (x.wake s.scene.world t.world)⟩

def act (s : State) : Step → Option State
  | .operate op => s.actBy (.operate op) op
  | .leap ms => s.actBy (.leap ms) (.advance ms)
  | .await i => (s.scene.held[i]?).map fun c => { s with waits := s.waits ++ [.begin c s.world] }

def runFrom (s : State) (steps : List Step) : Option State := steps.foldlM act s

end State

def run (steps : List Step) : Option State := State.start.runFrom steps

def operations (steps : List Step) : List History.Op := steps.filterMap Step.op?

-- The worlds that a step shows: the one that it leads to, and those that the clock runs through on its way.
inductive Shows (s : State) : Step → World → Prop where
  | passes {ms k : Nat} (within : k ≤ ms) : Shows s (.operate (.advance ms)) (s.world.advance k)
  | leads {x : Step} {t : State} (acted : s.act x = some t) : Shows s x t.world

end Waiting
end ServiceKit.Context
