import ServiceKit.Proofs.Import.Pool
import ServiceKit.Import.Job

namespace ServiceKit.Import
open Validation

def Called.map (f : α → β) : Called α → Called β
  | .returned a => .returned (f a)
  | .failed m => .failed m
  | .panicked m => .panicked m

-- How the calls for a row end, but for the number of its transaction.
structure Replies where
  begun : Called Unit
  processed : Processed
  committed : Called Unit
  rolledBack : Called Unit
deriving DecidableEq, Repr

def Replies.seam (r : Replies) : Seam Unit where
  begin _ := (r.begun.map fun _ => 0,())
  process _ _ _ _ _ := (r.processed,())
  commit _ _ := (r.committed,())
  rollback _ _ := (r.rolledBack,())

namespace Asked

def Agrees (r : Replies) : Asked → Prop
  | .begun a => (a.map fun _ => ()) = r.begun
  | .processed _ _ _ a => a = r.processed
  | .committed _ a => a = r.committed
  | .rolledBack _ a => a = r.rolledBack

def anonymous : Asked → Asked
  | .begun a => .begun (a.map fun _ => 0)
  | .processed ctx d _ a => .processed ctx d 0 a
  | .committed _ a => .committed 0 a
  | .rolledBack _ a => .rolledBack 0 a

end Asked

def SeamCall.anonymous (c : SeamCall) : SeamCall := { c with asked := c.asked.anonymous }

namespace Phase

def row? : Phase → Option GoodRow
  | .beginning row | .processing row _ | .committing row _ | .rollingBack row _ _ => some row
  | _ => none

def anonymous : Phase → Phase
  | .processing row _ => .processing row 0
  | .committing row _ => .committing row 0
  | .rollingBack row _ e => .rollingBack row 0 e
  | phase => phase

@[simp] theorem anonymous_idle : anonymous .idle = .idle := rfl
@[simp] theorem anonymous_finished : anonymous .finished = .finished := rfl
@[simp] theorem anonymous_reporting (r : Report) : anonymous (.reporting r) = .reporting r := rfl
@[simp] theorem row?_anonymous (phase : Phase) : phase.anonymous.row? = phase.row? := by cases phase <;> rfl
@[simp] theorem isGone_anonymous (phase : Phase) : phase.anonymous.isGone = phase.isGone := by cases phase <;> rfl

@[simp] theorem anonymous_ofRow (c : Catalog) (s : Shape) (r : Placed) : (ofRow c s r).anonymous = ofRow c s r := by
  unfold ofRow
  dsimp only
  split
  · rfl
  · split <;> rfl

end Phase

namespace Worked

def anonymous (w : Worked σ) : Worked Unit := ⟨w.phase.anonymous,(),w.made.anonymous,w.logs⟩

theorem isSome_call (seam : Seam σ) (ctx : Context) (span : Option Span) (worker : Nat) (s : σ) (phase : Phase) :
    (call seam ctx span worker s phase).isSome = phase.row?.isSome := by
  cases phase <;> rfl

theorem call_anonymous {seam : Seam σ} {r : Replies} {phase : Phase}
    (agrees : ∀ w, call seam ctx span worker s phase = some w → w.made.asked.Agrees r) :
    (call seam ctx span worker s phase).map anonymous = call r.seam ctx span worker () phase.anonymous := by
  cases phase with
  | idle | finished | dead _ _ | reporting _ => rfl
  | beginning row =>
    simp only [call,Phase.anonymous,Replies.seam] at agrees ⊢
    cases answer : (seam.begin s).1 with
    | returned _ | failed _ | panicked _ =>
      rw [answer] at agrees
      have agreed : _ = r.begun := agrees _ rfl
      rw [← agreed]
      rfl
  | processing row tx =>
    simp only [call,Phase.anonymous,Replies.seam] at agrees ⊢
    cases answer : (seam.process ctx row.datum tx worker s).1 with
    | accepted | refused _ | panicked _ =>
      rw [answer] at agrees
      have agreed : _ = r.processed := agrees _ rfl
      rw [← agreed]
      rfl
  | committing row tx =>
    simp only [call,Phase.anonymous,Replies.seam] at agrees ⊢
    cases answer : (seam.commit tx s).1 with
    | returned _ | failed _ | panicked _ =>
      rw [answer] at agrees
      have agreed : _ = r.committed := agrees _ rfl
      rw [← agreed]
      rfl
  | rollingBack row tx e =>
    simp only [call,Phase.anonymous,Replies.seam] at agrees ⊢
    cases answer : (seam.rollback tx s).1 with
    | returned _ | failed _ | panicked _ =>
      rw [answer] at agrees
      have agreed : _ = r.rolledBack := agrees _ rfl
      rw [← agreed]
      rfl

end Worked

namespace Pool

def Setting.replying (p : Setting σ) (r : Replies) : Setting Unit := ⟨p.catalog,p.shape,r.seam,p.context,p.span,p.size⟩

@[simp] theorem capacity_replying (p : Setting σ) (r : Replies) : (p.replying r).capacity = p.capacity := rfl

namespace State

def anonymous (s : State σ) : State Unit :=
  ⟨s.unread,s.queue,s.workers.map Phase.anonymous,s.outcomes,s.recorded,(),s.taken,s.calls.map SeamCall.anonymous,s.logs,
    s.ticks⟩

@[simp] theorem unread_anonymous (s : State σ) : s.anonymous.unread = s.unread := rfl
@[simp] theorem queue_anonymous (s : State σ) : s.anonymous.queue = s.queue := rfl
@[simp] theorem outcomes_anonymous (s : State σ) : s.anonymous.outcomes = s.outcomes := rfl
@[simp] theorem recorded_anonymous (s : State σ) : s.anonymous.recorded = s.recorded := rfl
@[simp] theorem workers_anonymous (s : State σ) : s.anonymous.workers = s.workers.map Phase.anonymous := rfl

theorem done_anonymous (s : State σ) : s.anonymous.done = s.done := by
  simp [done,allGone,anonymous,Function.comp_def]

theorem act_anonymous {p : Setting σ} {s : State σ} {a : Action} {r : Replies}
    (agrees : ∀ worker phase w, a = .call worker → s.workers[worker]? = some phase →
      Worked.call p.seam p.context p.span worker s.outside phase = some w → w.made.asked.Agrees r) :
    (s.act p a).map anonymous = s.anonymous.act (p.replying r) a := by
  cases a with
  | read =>
    cases unread : s.unread with
    | nil => simp [act,read,unread]
    | cons row rest => by_cases room : s.queue.length < p.capacity <;> simp [act,read,unread,room,anonymous]
  | collect => cases outcomes : s.outcomes <;> simp [act,collect,outcomes,anonymous]
  | take worker =>
    simp only [act,take,workers_anonymous,List.getElem?_map,queue_anonymous]
    cases held : s.workers[worker]? with
    | none => rfl
    | some phase =>
      cases phase with
      | idle => cases queue : s.queue <;> simp [anonymous,Setting.replying,List.map_set]
      | _ => rfl
  | call worker =>
    simp only [act,call,workers_anonymous,List.getElem?_map]
    cases held : s.workers[worker]? with
    | none => rfl
    | some phase =>
      have same := Worked.call_anonymous (fun w made => agrees worker phase w rfl held made)
      simp only [Option.bind_eq_bind,Option.bind_some,Option.map_some]
      show _ = (Worked.call r.seam p.context p.span worker () phase.anonymous).bind _
      rw [← same]
      cases Worked.call p.seam p.context p.span worker s.outside phase <;>
        simp [anonymous,Worked.anonymous,List.map_set]
  | report worker =>
    simp only [act,report,workers_anonymous,List.getElem?_map,outcomes_anonymous,capacity_replying]
    cases held : s.workers[worker]? with
    | none => rfl
    | some phase =>
      cases phase with
      | reporting o => by_cases room : s.outcomes.length < p.capacity <;> simp [room,anonymous,become,List.map_set]
      | _ => rfl
  | leave worker =>
    simp only [act,leave,workers_anonymous,List.getElem?_map,queue_anonymous,unread_anonymous]
    cases held : s.workers[worker]? with
    | none => rfl
    | some phase =>
      cases phase with
      | idle =>
        cases s.queue <;> cases s.unread <;> simp [anonymous,become,Setting.replying,List.map_set]
      | _ => rfl

-- Pools that differ in those numbers alone take the same actions and still do, if their calls end alike.
theorem act_alike {p p' : Setting σ} {s s' t : State σ} {a : Action} {r : Replies}
    (settings : p.replying r = p'.replying r) (alike : s.anonymous = s'.anonymous)
    (agrees : ∀ worker phase w, a = .call worker → s.workers[worker]? = some phase →
      Worked.call p.seam p.context p.span worker s.outside phase = some w → w.made.asked.Agrees r)
    (agrees' : ∀ worker phase w, a = .call worker → s'.workers[worker]? = some phase →
      Worked.call p'.seam p'.context p'.span worker s'.outside phase = some w → w.made.asked.Agrees r)
    (acted : s.act p a = some t) : ∃ t', s'.act p' a = some t' ∧ t.anonymous = t'.anonymous := by
  have seen := act_anonymous agrees
  rw [acted,alike,settings,← act_anonymous agrees'] at seen
  obtain ⟨t',acted',same⟩ := Option.map_eq_some_iff.mp seen.symm
  exact ⟨t',acted',same.symm⟩

def row? (s : State σ) : Action → Option GoodRow
  | .call worker => s.workers[worker]?.bind Phase.row?
  | _ => none

theorem row?_anonymous (s : State σ) (a : Action) : s.anonymous.row? a = s.row? a := by
  cases a with
  | call worker =>
    simp only [row?,workers_anonymous,List.getElem?_map]
    cases s.workers[worker]? <;> simp
  | _ => rfl

end State
end Pool

namespace Job

def Ran.anonymous (r : Ran σ) : Ran Unit :=
  ⟨r.result,(),r.calls.map SeamCall.anonymous,r.notice,r.logs,r.ticks⟩

theorem stopped_anonymous (j : Job) (span : Option Span) (phases : List Phase) :
    j.stopped span (phases.map Phase.anonymous) = j.stopped span phases := by
  unfold stopped
  rw [List.zipIdx_map,List.filterMap_map]
  congr 1
  funext ⟨phase,worker⟩
  cases phase <;> rfl

theorem leave_anonymous (j : Job) (ctx : Context) (span : Option Span) (f : Form.Upload) (kind : FileKind)
    (failure : Option ImportError) (millis : Nat) (s : Pool.State σ) :
    (j.leave ctx span f kind failure millis s).anonymous = j.leave ctx span f kind failure millis s.anonymous := by
  have same : s.anonymous.returns failure = s.returns failure := by
    unfold Pool.State.returns
    rw [Pool.State.done_anonymous,Pool.State.recorded_anonymous]
  unfold leave
  rw [same,Pool.State.workers_anonymous,stopped_anonymous]
  rcases s.returns failure with _ | _ | _ <;> rfl

end Job
end ServiceKit.Import
