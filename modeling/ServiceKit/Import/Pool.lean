import ServiceKit.Import.Summary

namespace ServiceKit.Import.Pool

structure Setting (σ : Type) where
  catalog : Catalog
  shape : Shape
  seam : Seam σ
  context : Context
  span : Option Span
  size : Nat

def Setting.capacity (p : Setting σ) : Nat := 2 * p.size

structure State (σ : Type) where
  unread : List Placed
  queue : List Placed
  workers : List Phase
  outcomes : List Report
  recorded : List Report
  outside : σ
  taken : List (Nat × Nat)
  calls : List SeamCall
  logs : List LogEvent
  ticks : List Tick

inductive Action where
  | read
  | take (worker : Nat)
  | call (worker : Nat)
  | report (worker : Nat)
  | leave (worker : Nat)
  | collect
deriving DecidableEq, Repr

def placed (rows : List RawRow) : List Placed := rows.zipIdx.map fun r => ⟨r.2,r.1⟩

namespace State

def start (p : Setting σ) (rows : List RawRow) (outside : σ) : State σ :=
  ⟨placed rows,[],List.replicate p.size .idle,[],[],outside,[],[],[],[]⟩

def allGone (s : State σ) : Bool := s.workers.all Phase.isGone

def become (s : State σ) (worker : Nat) (phase : Phase) : State σ :=
  { s with workers := s.workers.set worker phase }

-- The run itself keeps the receiving end of the channel of rows until it returns, so that the reader
-- may send into a channel that no worker listens to any more, as long as there is room.
def read (p : Setting σ) (s : State σ) : Option (State σ) :=
  match s.unread with
  | row :: rest =>
    if s.queue.length < p.capacity then some { s with unread := rest,queue := s.queue ++ [row] } else none
  | [] => none

def take (p : Setting σ) (s : State σ) (worker : Nat) : Option (State σ) :=
  match s.workers[worker]?,s.queue with
  | some .idle,row :: rest =>
    some { s with queue := rest,workers := s.workers.set worker (Phase.ofRow p.catalog p.shape row),
                  taken := s.taken ++ [(row.place,worker)] }
  | _,_ => none

def call (p : Setting σ) (s : State σ) (worker : Nat) : Option (State σ) := do
  let phase ← s.workers[worker]?
  let w ← Worked.call p.seam p.context p.span worker s.outside phase
  return { s with workers := s.workers.set worker w.phase,outside := w.outside,calls := s.calls ++ [w.made],
                  logs := s.logs ++ w.logs }

def report (p : Setting σ) (s : State σ) (worker : Nat) : Option (State σ) :=
  match s.workers[worker]? with
  | some (.reporting r) =>
    if s.outcomes.length < p.capacity then
      some { s.become worker .idle with
             outcomes := s.outcomes ++ [r]
             ticks := s.ticks ++ [.row (if r.outcome.isFailed then "failed" else "ok")] }
    else none
  | _ => none

def leave (p : Setting σ) (s : State σ) (worker : Nat) : Option (State σ) :=
  match s.workers[worker]?,s.queue,s.unread with
  | some .idle,[],[] =>
    some { s.become worker .finished with
           logs := s.logs ++ [⟨.debug,"import worker finished",[("worker",.nat worker)],p.span⟩] }
  | _,_,_ => none

def collect (s : State σ) : Option (State σ) :=
  match s.outcomes with
  | r :: rest => some { s with outcomes := rest,recorded := s.recorded ++ [r] }
  | [] => none

def act (p : Setting σ) (s : State σ) : Action → Option (State σ)
  | .read => s.read p
  | .take w => s.take p w
  | .call w => s.call p w
  | .report w => s.report p w
  | .leave w => s.leave p w
  | .collect => s.collect

end State

def Step (p : Setting σ) (s t : State σ) : Prop := ∃ a, s.act p a = some t

inductive Reached (p : Setting σ) (s : State σ) : State σ → Prop where
  | refl : Reached p s s
  | step {t u} (before : Reached p s t) (next : Step p t u) : Reached p s u

namespace State

def done (s : State σ) : Bool := s.allGone && s.outcomes.isEmpty && s.unread.isEmpty

-- What a run returns once it does: the error that stopped the reader, or the summary.
def returns (s : State σ) (failure : Option ImportError) : Option (Except ImportError Summary) :=
  if s.done then
    some (match failure with
      | some e => .error e
      | none => .ok (Summary.ofOutcomes (s.recorded.map (·.outcome))))
  else none

end State

def candidates (size : Nat) : List Action :=
  .read :: .collect ::
    ((List.range size).map .report ++ (List.range size).map .call ++ (List.range size).map .take ++
      (List.range size).map .leave)

def firstOf (p : Setting σ) (s : State σ) : List Action → Option (State σ)
  | [] => none
  | a :: rest =>
    match s.act p a with
    | some t => some t
    | none => firstOf p s rest

def next? (p : Setting σ) (s : State σ) : Option (State σ) := firstOf p s (candidates p.size)

def runFor (p : Setting σ) : Nat → State σ → State σ
  | 0,s => s
  | fuel + 1,s =>
    match next? p s with
    | some t => runFor p fuel t
    | none => s

-- A row is read, taken, at most thrice called for, reported and collected; each worker leaves once.
def run (p : Setting σ) (rows : List RawRow) (outside : σ) : State σ :=
  runFor p (7 * rows.length + p.size + 1) (.start p rows outside)

theorem firstOf_step {p : Setting σ} {s t : State σ} {as : List Action} (found : firstOf p s as = some t) :
    Step p s t := by
  induction as with
  | nil => simp [firstOf] at found
  | cons a rest ih =>
    unfold firstOf at found
    split at found
    · next moved => cases found; exact ⟨a,moved⟩
    · exact ih found

theorem runFor_reached (p : Setting σ) (fuel : Nat) (start s : State σ) (before : Reached p start s) :
    Reached p start (runFor p fuel s) := by
  induction fuel generalizing s with
  | zero => exact before
  | succ n ih =>
    unfold runFor
    split
    · next moved => exact ih _ (before.step (firstOf_step moved))
    · exact before

theorem run_reached (p : Setting σ) (rows : List RawRow) (outside : σ) :
    Reached p (.start p rows outside) (run p rows outside) :=
  runFor_reached p _ _ _ .refl

end ServiceKit.Import.Pool
