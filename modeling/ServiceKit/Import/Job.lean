import ServiceKit.Import.Pool
import ServiceKit.Import.Decoder
import ServiceKit.Config.Setting
import ServiceKit.Notification.Fanout

namespace ServiceKit.Import

structure Job where
  file : Option Form.Upload
  kind : Option FileKind
  sheet : Option String
  workers : Nat
  process : String
  notify : NotifyPreference
  destinations : List (String × String)
  service : Service
deriving DecidableEq, Repr

namespace Job

def new : Job := ⟨none,none,none,10,"upload",.always,[],⟨"","","",""⟩⟩

def destination (j : Job) (sink to_ : String) : Job :=
  { j with destinations := (j.destinations.filter fun d => d.1 != sink) ++ [(sink,to_)] }

def ofConfig (c : Config) : Job :=
  let j : Job := { new with workers := c .workers,service := c.service }
  match (c .slackInfoWebhook : Option String) with
  | some hook => j.destination "slack" hook
  | none => j

def prepare (j : Job) : Except ImportError (Form.Upload × FileKind) := do
  match j.file with
  | none => .error .missingFile
  | some f =>
    let kind ← match j.kind with
      | some k => .ok k
      | none => FileKind.detect f
    if j.workers = 0 then .error .noWorkers else .ok (f,kind)

-- What a run leaves: its result if it returns, the outside, the notice it sends if it does, logs and
-- counts.
structure Ran (σ : Type) where
  result : Option (Except ImportError Summary)
  outside : σ
  calls : List SeamCall
  notice : Option Notification
  logs : List LogEvent
  ticks : List Tick

def started (j : Job) (span : Option Span) (f : Form.Upload) (kind : FileKind) : LogEvent :=
  ⟨.info,"import started",[("process",.string j.process),("kind",.string kind.extension),
    ("workers",.nat j.workers),("bytes",.nat f.size)],span⟩

-- Tasks are numbered: the reader is the first one and the workers follow.
def taskOf (worker : Nat) : Nat := worker + 2

def stopped (j : Job) (span : Option Span) (phases : List Phase) : List LogEvent :=
  phases.zipIdx.filterMap fun
    | (.dead _ message,worker) => some ⟨.warn,"import worker stopped abnormally",
        [("process",.string j.process),
         ("error",.string (s!"task {taskOf worker} panicked with message " ++ Text.quote message))],span⟩
    | _ => none

def finished (j : Job) (span : Option Span) (s : Summary) : LogEvent :=
  ⟨.info,"import finished",[("process",.string j.process),("total",.nat s.total),("failed",.nat s.failed),
    ("secs",.number (.float ((Binary64.ofNat s.millis).div (Binary64.ofNat 1000))))],span⟩

def notice? (j : Job) (ctx : Context) (s : Summary) : Option Notification :=
  if j.notify.wants s && ctx.notifier.isSome then
    some (j.destinations.foldl (fun n d => n.destination d.1 d.2) (s.notification j.service j.process ctx.claims))
  else none

def setting (c : Catalog) (shape : Shape) (seam : Seam σ) (ctx : Context) (span : Option Span) (j : Job) :
    Pool.Setting σ := ⟨c,shape,seam,ctx,span,j.workers⟩

def refused (e : ImportError) (outside : σ) : Ran σ := ⟨some (.error e),outside,[],none,[],[]⟩

def leave (j : Job) (ctx : Context) (span : Option Span) (f : Form.Upload) (kind : FileKind)
    (failure : Option ImportError) (millis : Nat) (s : Pool.State σ) : Ran σ :=
  let logs := j.started span f kind :: (s.logs ++ j.stopped span s.workers)
  match s.returns failure with
  | some (.ok summary) =>
    let summary := { summary with millis := millis }
    ⟨some (.ok summary),s.outside,s.calls,j.notice? ctx summary,logs ++ [j.finished span summary],s.ticks⟩
  | unfinished => ⟨unfinished,s.outside,s.calls,none,logs,s.ticks⟩

def run (d : Decoder) (c : Catalog) (shape : Shape) (seam : Seam σ) (ctx : Context) (span : Option Span) (j : Job)
    (outside : σ) : Ran σ :=
  match j.prepare with
  | .error e => refused e outside
  | .ok (f,kind) =>
    let source := RowSource.ofFile d kind j.sheet f.data
    j.leave ctx span f kind source.failure 0 (Pool.run (j.setting c shape seam ctx span) source.rows outside)

-- What runs leave, in whatever order their pools go and however long they take.
inductive Leaves (d : Decoder) (c : Catalog) (shape : Shape) (seam : Seam σ) (ctx : Context) (span : Option Span) (j : Job)
    (outside : σ) : Ran σ → Prop where
  | refused {e : ImportError} (refusal : j.prepare = .error e) : Leaves d c shape seam ctx span j outside (refused e outside)
  | ended {f : Form.Upload} {kind : FileKind} {s : Pool.State σ} (prepared : j.prepare = .ok (f,kind))
      (path : Pool.Reached (j.setting c shape seam ctx span)
        (.start (j.setting c shape seam ctx span) (RowSource.ofFile d kind j.sheet f.data).rows outside) s)
      (ended : s.done = true) (millis : Nat) :
      Leaves d c shape seam ctx span j outside
        (j.leave ctx span f kind (RowSource.ofFile d kind j.sheet f.data).failure millis s)

theorem isSome_leave (j : Job) (ctx : Context) (span : Option Span) (f : Form.Upload) (kind : FileKind)
    (failure : Option ImportError) (millis : Nat) (s : Pool.State σ) :
    (j.leave ctx span f kind failure millis s).result.isSome = s.done := by
  unfold leave Pool.State.returns
  cases s.done with
  | false => rfl
  | true => cases failure <;> rfl

theorem leave_calls (j : Job) (ctx : Context) (span : Option Span) (f : Form.Upload) (kind : FileKind)
    (failure : Option ImportError) (millis : Nat) (s : Pool.State σ) :
    (j.leave ctx span f kind failure millis s).calls = s.calls := by
  unfold leave
  rcases s.returns failure with _ | _ | _ <;> rfl

theorem run_leaves {d : Decoder} {c : Catalog} {shape : Shape} {seam : Seam σ} {j : Job} {outside : σ}
    (returned : (j.run d c shape seam ctx span outside).result.isSome = true) :
    Leaves d c shape seam ctx span j outside (j.run d c shape seam ctx span outside) := by
  unfold run at returned ⊢
  split at returned
  · next refusal => exact .refused refusal
  · next f kind prepared =>
    exact .ended prepared (Pool.run_reached _ _ _) ((j.isSome_leave ..).symm.trans returned) 0

end Job
end ServiceKit.Import
