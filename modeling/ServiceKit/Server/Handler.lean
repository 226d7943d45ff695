import ServiceKit.Server.Failure
import ServiceKit.Http.Writer
import ServiceKit.Import.Rehearsal
import ServiceKit.Cache

namespace ServiceKit.Server
open Import (Job Summary ImportError)

inductive Effect where
  | say (text : String)
  | sleep (ms : Nat)
  | awaitDone
  | notify (n : Notification)
  | cacheGet (key : String)
  | cacheSet (key value : String)
  | cancel
  | retrace (traceId : String)
  | moment
  | importFile (decoder : Import.Decoder) (job : Job) (shape : Shape) (script : Import.Script)

structure Moment where
  context : Context
  done : Bool
  remaining : Option Nat

abbrev Effect.Answer : Effect → Type
  | .notify _ => Bool
  | .cacheGet _ => Option (Option String)
  | .moment => Moment
  | .importFile .. => Except ImportError Summary
  | _ => Unit

inductive Handler where
  | finish (r : Except Failure Reply)
  | panic (p : Payload)
  | act (e : Effect) (next : e.Answer → Handler)

inductive Completion where
  | completed | timedOut | panicked
deriving DecidableEq, Repr

def Completion.name : Completion → String
  | .completed => "completed"
  | .timedOut => "timed_out"
  | .panicked => "panicked"

inductive Event where
  | deadline
  | returned (r : Except Failure Reply)
  | panicked (c : Caught)

-- One request in the pipeline, with the context of the request, the one its handler was given, and
-- what each write of a response answered so far.
structure Exchange where
  facts : RequestMeta
  context : Context
  given : Context
  writer : Writer
  writes : List (Except WriteError Unit)
  completion : Option Completion

-- A handler that goes on after its response was sent: when it wakes, the rest of it, and the context
-- it was given as it has changed it.
structure Pending where
  wakes : Nat
  rest : Handler
  own : Context
  exchange : Exchange

structure Notice where
  traceId : String
  notification : Notification
deriving DecidableEq, Repr

-- All that requests share: clock, tokens and ids, where notices go, the cache, and which notices were
-- started and what was logged, said and counted so far.
structure Machine where
  world : World
  fanout : Option Fanout
  notices : List Notice
  kept : List (Nat × Recorded)
  cache : Cache
  spans : List Span
  said : List String
  logs : List LogEvent
  ticks : Metrics
  pending : List Pending
  catalog : Catalog

abbrev Run := StateM Machine

namespace Machine

def start (catalog : Catalog) (fanout : Option Fanout) : Machine :=
  ⟨.start,fanout,[],[],[],[],[],[],[],[],catalog⟩

def span? (m : Machine) (c : Context) : Option Span := c.span.bind fun i => m.spans[i]?

end Machine

namespace Run

def world (f : World → α × World) : Run α := modifyGet fun m =>
  let (a,w) := f m.world
  (a,{ m with world := w })

def say (text : String) : Run Unit := modify fun m => { m with said := m.said ++ [text] }

def log (c : Context) (level : Level) (message : String) (fields : Members) : Run Unit :=
  modify fun m => { m with logs := m.logs ++ [⟨level,message,fields,m.span? c⟩] }

def tick (t : Tick) : Run Unit := modify fun m => { m with ticks := m.ticks ++ [t] }

def record (c : Context) (name value : String) : Run Unit := modify fun m =>
  match c.span with
  | some i => { m with spans := m.spans.modify i fun s => { s with fields := s.fields.insert name (.string value) } }
  | none => m

def deliver (f : Fanout) (n : Notification) (sent : List Sent) : Run Unit := modify fun m =>
  { m with kept := m.kept ++ (List.range f.sinks.length).flatMap fun i => (Fanout.recordedAt i n sent).map ((i,·))
           logs := m.logs ++ Fanout.warnings sent }

def notify (c : Context) (n : Notification) : Run Bool := do
  match c.notifier,(← get).fanout with
  | some _,some f =>
    modify fun m => { m with notices := m.notices ++ [⟨c.traceId,n⟩] }
    deliver f n (f.notify .unreachable c.traceId n)
    return true
  | _,_ => return false

def send (c : Context) : Option Notification → Run Unit
  | some n => do let _ ← notify c n
  | none => pure ()

def importFile (c : Context) (decoder : Import.Decoder) (job : Job) (shape : Shape) (script : Import.Script) :
    Run (Except ImportError Summary) := do
  let m ← get
  let (detached,w) := c.detached m.world
  set { m with world := w }
  let ran := job.run decoder m.catalog shape script.bare detached (m.span? c) ()
  modify fun m => { m with logs := m.logs ++ ran.logs,ticks := m.ticks ++ ran.ticks }
  send detached ran.notice
  -- A run without transactions always returns, so that the default is never taken.
  return ran.result.getD (.error (.reader ""))

def perform (c : Context) : (e : Effect) → Run (Context × e.Answer)
  | .say text => do say text; return (c,())
  | .sleep _ | .awaitDone => return (c,())
  | .notify n => return (c,← notify c n)
  | .cacheGet key => do
    match c.cache with
    | none => return (c,none)
    | some _ =>
      let m ← get
      let (value,cache) := m.cache.get m.world.now key
      set { m with cache := cache }
      return (c,some value)
  | .cacheSet key value => do
    if c.cache.isSome then modify fun m => { m with cache := m.cache.put key value none }
    return (c,())
  | .cancel => do
    modify fun m => { m with world := m.world.cancel c.token }
    return (c,())
  | .retrace traceId => return ({ c with traceId := traceId },())
  | .moment => do
    let m ← get
    return (c,⟨c,c.isDone m.world,c.remaining m.world⟩)
  | .importFile decoder job shape script => return (c,← importFile c decoder job shape script)

def setNow (now : Nat) : Run Unit := modify fun m => { m with world := { m.world with now := now } }

end Run

-- How far a handler came: it ended, or it waits for a moment that is not before the limit.
inductive Progress where
  | returned (r : Except Failure Reply)
  | panicked (p : Payload)
  | waiting (wakes : Nat) (rest : Handler) (c : Context)

def Handler.runUntil (limit : Nat) : Handler → Context → Run Progress
  | .finish r,_ => return .returned r
  | .panic p,_ => return .panicked p
  | .act (.sleep ms) next,c => do
    let wakes := (← get).world.now + ms
    if ms = 0 then (next ()).runUntil limit c
    else if wakes < limit then
      Run.setNow wakes
      (next ()).runUntil limit c
    else return .waiting wakes (next ()) c
  | .act .awaitDone next,c => do
    let m ← get
    match c.doneAt m.world with
    | some t =>
      if t < limit then
        Run.setNow t
        (next ()).runUntil limit c
      else return .waiting t (.act .awaitDone next) c
    | none => return .waiting limit (.act .awaitDone next) c
  | .act e next,c => do
    let (c,a) ← Run.perform c e
    (next a).runUntil limit c

end ServiceKit.Server
