import ServiceKit.Import.Job

namespace ServiceKit.Import.Errand

structure Brief (σ : Type) where
  decoder : Decoder
  catalog : Catalog
  shape : Shape
  seam : World → Seam σ
  span : Option Span
  job : Job

structure Announced where
  notifier : Nat
  traceId : String
  notification : Notification
deriving DecidableEq, Repr

-- An import at work: its own context, when it began, what it imports and how far its pool has come.
structure Work (σ : Type) where
  own : Context
  since : Nat
  file : Form.Upload
  kind : FileKind
  pool : Pool.State σ

inductive Stage (σ : Type) where
  | called (given : Context) (outside : σ)
  | working (w : Work σ)
  | returned (ran : Job.Ran σ)

structure State (σ : Type) where
  world : World
  stage : Stage σ
  notices : List Announced

inductive Call where
  | run | spawn
deriving DecidableEq, Repr

inductive Action where
  | begin
  | work (a : Pool.Action)
  | finish
  | cancel (t : Token)
  | elapse (ms : Nat)
deriving DecidableEq, Repr

-- The token of the context that an import hands to its row processors, who may cancel it; nobody else has it.
def Call.handed (call : Call) (w : World) : Token :=
  match call with
  | .run => w.tokens.nodes.length
  | .spawn => w.tokens.nodes.length + 1

def Brief.setting (b : Brief σ) (own : Context) (w : World) : Pool.Setting σ :=
  b.job.setting b.catalog b.shape (b.seam w) own b.span

def Brief.source (b : Brief σ) (file : Form.Upload) (kind : FileKind) : RowSource :=
  RowSource.ofFile b.decoder kind b.job.sheet file.data

def Brief.leave (b : Brief σ) (w : Work σ) (now : Nat) : Job.Ran σ :=
  b.job.leave w.own b.span w.file w.kind (b.source w.file w.kind).failure (now - w.since) w.pool

-- A notice is delivered under its own trace id if it has one, else under the context's.
def announce (own : Context) (n : Notification) : Option Announced :=
  own.notifier.map fun notifier => ⟨notifier,n.traceId.getD own.traceId,n⟩

namespace State

def start (call : Call) (given : Context) (w : World) (outside : σ) : State σ :=
  match call with
  | .run => ⟨w,.called given outside,[]⟩
  | .spawn => ⟨(given.detached w).2,.called (given.detached w).1 outside,[]⟩

def begin (b : Brief σ) (s : State σ) : Option (State σ) :=
  match s.stage with
  | .called given outside =>
    match b.job.prepare with
    | .error e => some { s with stage := .returned (Job.refused e outside) }
    | .ok (file,kind) =>
      let (own,world) := given.detached s.world
      let pool := Pool.State.start (b.setting own world) (b.source file kind).rows outside
      some { s with world := world,stage := .working ⟨own,s.world.now,file,kind,pool⟩ }
  | _ => none

def work (b : Brief σ) (s : State σ) (a : Pool.Action) : Option (State σ) :=
  match s.stage with
  | .working w =>
    (w.pool.act (b.setting w.own s.world) a).map fun pool => { s with stage := .working { w with pool := pool } }
  | _ => none

def finish (b : Brief σ) (s : State σ) : Option (State σ) :=
  match s.stage with
  | .working w =>
    if w.pool.done then
      let ran := b.leave w s.world.now
      some { s with stage := .returned ran,notices := s.notices ++ (ran.notice.bind (announce w.own)).toList }
    else none
  | _ => none

def act (b : Brief σ) (s : State σ) : Action → Option (State σ)
  | .begin => s.begin b
  | .work a => s.work b a
  | .finish => s.finish b
  | .cancel t => some { s with world := s.world.cancel t }
  | .elapse ms => some { s with world := s.world.advance ms }

def calls (s : State σ) : List SeamCall :=
  match s.stage with
  | .called .. => []
  | .working w => w.pool.calls
  | .returned ran => ran.calls

def result? (s : State σ) : Option (Except ImportError Summary) :=
  match s.stage with
  | .returned ran => ran.result
  | _ => none

end State

def run (b : Brief σ) (start : State σ) (as : List Action) : Option (State σ) := as.foldlM (State.act b) start

end ServiceKit.Import.Errand
