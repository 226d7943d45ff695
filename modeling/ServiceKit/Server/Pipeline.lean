import ServiceKit.Server.Handler

namespace ServiceKit.Server

structure Pipeline where
  timeout : Nat
  service : Service
  keyHeader : Option String
  limits : Form.Limits
deriving DecidableEq, Repr

structure Answered where
  response : Response
  completion : Option Completion
deriving DecidableEq, Repr

def Answered.plain (r : Response) : Answered := ⟨r,none⟩

namespace Exchange

def traced (x : Exchange) (fields : Members) : Members := ("trace_id",.string x.context.traceId) :: fields

def placed (m : RequestMeta) : Members := [("http.method",.string m.method),("http.path",.string m.path)]

def write (x : Exchange) (content : Content) (completion : Completion) : Run Exchange := do
  let (answer,writer) := x.writer.write content
  match answer with
  | .ok _ => pure ()
  | .error e =>
    Run.log x.context .error (if completion = .timedOut then "timeout response not written" else "response not written")
      (x.traced [("error",.string e.message)])
  return { x with writer := writer,writes := x.writes ++ [answer],completion := some completion }

def settled (x : Exchange) : Bool := x.completion.isSome

def timedOut (p : Pipeline) (x : Exchange) : Run Exchange := do
  modify fun m => { m with world := m.world.cancel x.given.token }
  Run.tick .timeout
  Run.log x.context .warn "request deadline exceeded" (x.traced (placed x.facts ++ [("timeout_ms",.nat p.timeout)]))
  x.write (.text 504 "timeout") .timedOut

def failed (p : Pipeline) (x : Exchange) (f : Failure) : Run Exchange := do
  let e := f.toEnvelope.withTrace x.context.traceId
  Run.log x.context .error e.message
    (x.traced ([("code",.string e.code),("status",.nat e.status)] ++ placed x.facts))
  let _ ← Run.notify x.context (failureNotice p.service x.facts e)
  x.write (.error e) .completed

def report (p : Pipeline) (x : Exchange) (c : Caught) : Run Unit := do
  Run.tick .panic
  Run.log x.context .error "handler panicked"
    (("trace_id",.string x.given.traceId) ::
      (placed x.facts ++ [("panic",.string c.message),("backtrace",.string c.backtrace)]))
  let _ ← Run.notify x.given ((panicNotice p.service x.facts c).withTrace x.given.traceId)

def panicEnvelope (x : Exchange) : Envelope := (Envelope.internal "internal server error").withTrace x.context.traceId

-- What the task of the handler does at its end: a panic is reported whenever it comes.
def ended (p : Pipeline) (x : Exchange) : Event → Run Unit
  | .panicked c => x.report p c
  | _ => pure ()

def answer (p : Pipeline) (x : Exchange) : Event → Run Exchange
  | .deadline => x.timedOut p
  | .returned (.ok r) => x.write (.success r) .completed
  | .returned (.error f) => x.failed p f
  | .panicked _ => x.write (.error x.panicEnvelope) .panicked

def receive (p : Pipeline) (x : Exchange) (e : Event) : Run Exchange := do
  x.ended p e
  if x.settled then return x else x.answer p e

end Exchange

namespace Pipeline

def ended : Progress → Option Event
  | .returned r => some (.returned r)
  | .panicked payload => some (.panicked (Caught.ofPayload payload (some frames)).1)
  | .waiting .. => none

def identify (c : Context) : Run Context := do
  let traceId ← Run.world World.freshTrace
  let c := { c with traceId := traceId }
  Run.record c "trace_id" traceId
  return c

-- Opens an exchange: a new trace id for the request, and for the handler a child of its context that ends with the
-- deadline. The clock is taken to tell the deadline.
def «open» (p : Pipeline) (c : Context) (r : Request) : Run Exchange := do
  let facts := RequestMeta.capture r p.keyHeader
  let c ← identify c
  let now := (← get).world.now
  let given ← Run.world fun w => c.withParent w c.token
  return ⟨facts,c,given.withDeadline (now + p.timeout),.empty,[],none⟩

def leave (p : Pipeline) (x : Exchange) (wakes : Nat) (rest : Handler) (own : Context) : Run Exchange := do
  let x ← x.receive p .deadline
  modify fun m => { m with pending := m.pending ++ [⟨wakes,rest,own,x⟩] }
  return x

def meet (p : Pipeline) (x : Exchange) (deadline : Nat) : Progress → Run Exchange
  | .waiting wakes rest own => do
    Run.setNow deadline
    p.leave x wakes rest own
  | progress =>
    match ended progress with
    | some e => x.receive p e
    | none => return x

-- Lets the handler run until the deadline, and settles the exchange by what came first.
def race (p : Pipeline) (x : Exchange) (deadline : Nat) (h : Handler) : Run Exchange := do
  p.meet x deadline (← h.runUntil deadline x.given)

def finishedLog (x : Exchange) (r : Response) (completion : Completion) (ms : Nat) : Members :=
  x.traced [("status",.nat r.status),("completion",.string completion.name),("elapsed_ms",.nat ms)]

def conclude (p : Pipeline) (started : Nat) (x : Exchange) (h : Handler) : Run Exchange :=
  if p.timeout = 0 then p.leave x started h x.given else p.race x (started + p.timeout) h

def close (started : Nat) (x : Exchange) : Run (Context × Answered) := do
  let response := x.writer.finish
  let completion := x.completion.getD .panicked
  Run.tick (.request response.status)
  Run.log x.context .debug "request finished" (finishedLog x response completion ((← get).world.now - started))
  return (x.context,⟨response,some completion⟩)

def execute (p : Pipeline) (handler : Request → Handler) (c : Context) (r : Request) : Run (Context × Answered) := do
  let started := (← get).world.now
  let r := { r with limits := p.limits }
  let x ← p.open c r
  let x ← p.conclude started x (handler r)
  close started x

-- Executes any request. Where the clock cannot tell the deadline this panics: the request has its trace id then, its handler
-- was not started, and there is no response.
def execute? (p : Pipeline) (handler : Request → Handler) (c : Context) (r : Request) :
    OptionT Run (Context × Answered) := do
  match Clock.later? (← get).world.now p.timeout with
  | some _ => p.execute handler c r
  | none =>
    let _ ← identify c
    failure

-- What becomes of a handler that was left behind by what it came to; if it ended, its exchange is told.
def wake (p : Pipeline) (x : Exchange) : Progress → Run (Option Pending)
  | .waiting wakes rest own => return some ⟨wakes,rest,own,x⟩
  | progress => do
    match ended progress with
    | some e => let _ ← x.receive p e
    | none => pure ()
    return none

def resume (p : Pipeline) (limit : Nat) (q : Pending) : Run (Option Pending) := do
  if q.wakes < limit then
    Run.setNow (max q.wakes (← get).world.now)
    p.wake q.exchange (← q.rest.runUntil limit q.own)
  else return some q

def resumeAll (p : Pipeline) (limit now : Nat) : List Pending → Run (List Pending)
  | [] => return []
  | q :: rest => do
    Run.setNow now
    let kept ← p.resume limit q
    return kept.toList ++ (← p.resumeAll limit now rest)

def settle (p : Pipeline) (ms : Nat) : Run Unit := do
  let m ← get
  let now := m.world.now
  set { m with pending := [] }
  let kept ← p.resumeAll (now + ms + 1) now m.pending
  modify fun m => { m with pending := kept ++ m.pending }
  Run.setNow (now + ms)

end Pipeline
end ServiceKit.Server
