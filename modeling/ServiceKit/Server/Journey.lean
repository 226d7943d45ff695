import ServiceKit.Server.App

namespace ServiceKit.Server

-- What lies behind the stages that a request still has before it.
inductive Bound where
  | router
  | handler (e : Entry Target)

-- A call with the answer it gave, if it did not let the request on.
inductive Call where
  | enters (s : Stage) (answer : Option Answered)
  | routes (r : Request) (answer : Option Answered)
  | executes (e : Entry Target) (answer : Answered)
  | resumes (s : Stage) (seen left : Answered)

inductive Heading where
  | inwards (bound : Bound) (stages : List Stage) (r : Request)
  | outwards (a : Answered)

-- The stages that let the request on still have something to do, the last of them first.
structure Journey where
  machine : Machine
  context : Context
  heading : Heading
  back : List (Stage × After)
  calls : List Call

namespace Journey

def start (a : App) (r : Request) (m : Machine) : Journey :=
  let (c,m) := (a.opens r).run m
  ⟨m,c,.inwards .router a.stages r,[],[]⟩

def enter (j : Journey) (bound : Bound) (s : Stage) (rest : List Stage) (r : Request) : Journey :=
  let (entered,m) := (s.enter rest.length j.context r).run j.machine
  match entered with
  | .answers c x => ⟨m,c,.outwards x,j.back,j.calls ++ [.enters s (some x)]⟩
  | .proceeds c r after => ⟨m,c,.inwards bound rest r,(s,after) :: j.back,j.calls ++ [.enters s none]⟩

def refuse (j : Journey) (r : Request) (response : Response) : Journey :=
  { j with heading := .outwards (.plain response),calls := j.calls ++ [.routes r (some (.plain response))] }

def route (a : App) (j : Journey) (r : Request) : Journey :=
  if r.method = "GET" ∧ r.uri.path = "/ping" then j.refuse r App.pong
  else match Lookup.of r.method r.uri.path a.table with
    | .found e params =>
      let heading := .inwards (.handler e) e.target.stages { r with params := params }
      { j with heading := heading,calls := j.calls ++ [.routes r none] }
    | .methodNotAllowed allowed => j.refuse r (App.notAllowed allowed)
    | .notFound => j.refuse r App.notFound

def execute (a : App) (j : Journey) (e : Entry Target) (r : Request) : Journey :=
  let ((c,x),m) := (a.pipeline.execute e.target.handler j.context r).run j.machine
  ⟨m,c,.outwards x,j.back,j.calls ++ [.executes e x]⟩

def resume (j : Journey) (s : Stage) (after : After) (back : List (Stage × After)) (x : Answered) : Journey :=
  let ((c,y),m) := (after j.context x).run j.machine
  ⟨m,c,.outwards y,back,j.calls ++ [.resumes s x y]⟩

def next (a : App) (j : Journey) : Option Journey :=
  match j.heading,j.back with
  | .inwards bound (s :: rest) r,_ => some (j.enter bound s rest r)
  | .inwards .router [] r,_ => some (j.route a r)
  | .inwards (.handler e) [] r,_ => some (j.execute a e r)
  | .outwards x,(s,after) :: back => some (j.resume s after back x)
  | .outwards _,[] => none

inductive Reached (a : App) (j : Journey) : Journey → Prop where
  | refl : Reached a j j
  | step {k l} (before : Reached a j k) (moved : k.next a = some l) : Reached a j l

end Journey
end ServiceKit.Server
