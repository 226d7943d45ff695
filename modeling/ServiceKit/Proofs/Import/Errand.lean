import ServiceKit.Import.Errand
import ServiceKit.Proofs.Import.Notice
import ServiceKit.Proofs.Import.Pool
import ServiceKit.Proofs.Context.Tokens
import ServiceKit.Proofs.Runs

namespace ServiceKit.Import.Errand
variable {b : Brief σ} {call : Call} {given c : Context} {world w : World} {outside : σ} {s s' t : State σ} {a : Action}
  {as : List Action}

-- What a context keeps of the one that it was detached from.
structure Heir (given c : Context) : Prop where
  traceId : c.traceId = given.traceId
  claims : c.claims = given.claims
  notifier : c.notifier = given.notifier

theorem Heir.detached (heir : Heir given c) (w : World) : Heir given (c.detached w).1 :=
  ⟨heir.traceId,heir.claims,heir.notifier⟩

-- A context without a deadline, whose token has nothing above it.
structure Alone (c : Context) (w : World) (cancelled : Bool) : Prop where
  deadline : c.deadline = none
  node : w.tokens.nodes[c.token]? = some ⟨[c.token],cancelled⟩

variable {cancelled : Bool}

theorem alone_detached (c : Context) (w : World) : Alone (c.detached w).1 (c.detached w).2 false := by
  refine ⟨rfl,?_⟩
  exact List.getElem?_concat_length

theorem Alone.cancel (alone : Alone c w cancelled) (t : Token) :
    Alone c (w.cancel t) (decide (t = c.token) || cancelled) := by
  refine ⟨alone.deadline,?_⟩
  show (w.tokens.nodes.map _)[c.token]? = _
  rw [List.getElem?_map,alone.node]
  by_cases own : t = c.token <;> simp [own]

theorem Alone.advance (alone : Alone c w cancelled) (ms : Nat) : Alone c (w.advance ms) cancelled :=
  ⟨alone.deadline,alone.node⟩

theorem Alone.isDone (alone : Alone c w cancelled) : c.isDone w = cancelled := by
  simp [Context.isDone,Context.isCancelled,TokenForest.isCancelled,alone.node,alone.deadline]

inductive Moved (b : Brief σ) (s : State σ) : Action → State σ → Prop where
  | refused {given : Context} {outside : σ} (stage : s.stage = .called given outside)
      (refusal : b.job.prepare = .error e) : Moved b s .begin { s with stage := .returned (Job.refused e outside) }
  | begins {given : Context} {outside : σ} (stage : s.stage = .called given outside)
      (prepared : b.job.prepare = .ok (file,kind)) :
      Moved b s .begin { s with
        world := (given.detached s.world).2
        stage := .working ⟨(given.detached s.world).1,s.world.now,file,kind,
          .start (b.setting (given.detached s.world).1 (given.detached s.world).2) (b.source file kind).rows outside⟩ }
  | works {w : Work σ} {a : Pool.Action} {pool : Pool.State σ} (stage : s.stage = .working w)
      (acted : w.pool.act (b.setting w.own s.world) a = some pool) :
      Moved b s (.work a) { s with stage := .working { w with pool := pool } }
  | ends {w : Work σ} (stage : s.stage = .working w) (ended : w.pool.done = true) :
      Moved b s .finish { s with
        stage := .returned (b.leave w s.world.now)
        notices := s.notices ++ ((b.leave w s.world.now).notice.bind (announce w.own)).toList }
  | cancels {t : Token} : Moved b s (.cancel t) { s with world := s.world.cancel t }
  | elapses {ms : Nat} : Moved b s (.elapse ms) { s with world := s.world.advance ms }

theorem act_moved (moved : s.act b a = some t) : Moved b s a t := by
  cases a with
  | begin =>
    simp only [State.act,State.begin] at moved
    split at moved
    · next stage =>
      split at moved
      · next refusal => cases moved; exact .refused stage refusal
      · next prepared => cases moved; exact .begins stage prepared
    · cases moved
  | work a =>
    simp only [State.act,State.work] at moved
    split at moved
    · next stage =>
      obtain ⟨pool,acted,rfl⟩ := Option.map_eq_some_iff.mp moved
      exact .works stage acted
    · cases moved
  | finish =>
    simp only [State.act,State.finish] at moved
    split at moved
    · next stage =>
      split at moved
      · next ended => cases moved; exact .ends stage ended
      · cases moved
    · cases moved
  | cancel t =>
    cases moved
    exact .cancels
  | elapse ms =>
    cases moved
    exact .elapses

def Saw (own : Context) (c : SeamCall) : Prop := ∀ ctx d tx r, c.asked = .processed ctx d tx r → ctx = own

theorem call_saw {seam : Seam σ} {phase : Phase} {m : Worked σ}
    (made : Worked.call seam ctx span worker outside phase = some m) : Saw ctx m.made := by
  cases phase with
  | idle | finished | dead _ _ | reporting _ => cases made
  | beginning row | committing row tx | rollingBack row tx e =>
    simp only [Worked.call] at made
    split at made <;> cases made <;> (intro _ _ _ _ asked; cases asked)
  | processing row tx =>
    simp only [Worked.call] at made
    split at made <;> cases made <;> (intro _ _ _ _ asked; cases asked; rfl)

theorem acted_saw {p : Pool.Setting σ} {s t : Pool.State σ} {a : Pool.Action} (saw : ∀ c ∈ s.calls, Saw p.context c)
    (acted : s.act p a = some t) : ∀ c ∈ t.calls, Saw p.context c := by
  cases Pool.act_moved acted with
  | read _ _ | take _ _ | report _ _ | leave _ _ _ | collect _ => exact saw
  | call held made =>
    intro c member
    rcases List.mem_append.mp member with old | new
    · exact saw c old
    · rw [List.mem_singleton.mp new]
      exact call_saw made

-- Where an import stands after some actions, and what its notifier has been told.
inductive Sound (b : Brief σ) (call : Call) (given : Context) (world : World) (as : List Action) : State σ → Prop where
  | called {w : World} {c : Context} {outside : σ} (heir : Heir given c)
      (size : w.tokens.nodes.length = call.handed world) : Sound b call given world as ⟨w,.called c outside,[]⟩
  | working {w : World} {work : Work σ} {cancelled : Bool} (heir : Heir given work.own)
      (token : work.own.token = call.handed world) (alone : Alone work.own w cancelled)
      (quit : cancelled = true → .cancel (call.handed world) ∈ as) (saw : ∀ c ∈ work.pool.calls, Saw work.own c) :
      Sound b call given world as ⟨w,.working work,[]⟩
  | returned {w : World} {ran : Job.Ran σ} {own : Context} (heir : Heir given own) (deadline : own.deadline = none)
      (saw : ∀ c ∈ ran.calls, Saw own c) :
      Sound b call given world as ⟨w,.returned ran,((b.job.noticeFor own ran.result).bind (announce own)).toList⟩

theorem start_sound (b : Brief σ) (call : Call) (given : Context) (world : World) (outside : σ) :
    Sound b call given world [] (.start call given world outside) := by
  have heir : Heir given given := ⟨rfl,rfl,rfl⟩
  cases call with
  | run => exact .called heir rfl
  | spawn => exact .called (heir.detached world) (TokenForest.length_root world.tokens)

theorem step_sound (sound : Sound b call given world as s) (moved : s.act b a = some t) :
    Sound b call given world (as ++ [a]) t := by
  cases act_moved moved with
  | refused stage refusal =>
    cases sound with
    | @called w c _ heir _ =>
      cases stage
      refine .returned (heir.detached w) rfl ?_
      intro _ member
      cases member
    | working _ _ _ _ _ | returned _ _ _ => cases stage
  | begins stage prepared =>
    cases sound with
    | @called w c _ heir size =>
      cases stage
      refine .working (heir.detached w) size (alone_detached _ w) nofun ?_
      intro _ member
      cases member
    | working _ _ _ _ _ | returned _ _ _ => cases stage
  | works stage acted =>
    cases sound with
    | working heir token alone quit saw =>
      cases stage
      exact .working heir token alone (fun done => List.mem_append_left _ (quit done)) (acted_saw saw acted)
    | called _ _ | returned _ _ _ => cases stage
  | ends stage ended =>
    cases sound with
    | working heir token alone quit saw =>
      cases stage
      simp only [List.nil_append,Brief.leave,Job.leave_notice]
      refine .returned heir alone.deadline ?_
      rw [Job.leave_calls]
      exact saw
    | called _ _ | returned _ _ _ => cases stage
  | @cancels t =>
    cases sound with
    | @called w _ _ heir size => exact .called heir ((w.tokens.length_cancel t).trans size)
    | working heir token alone quit saw =>
      refine .working heir token (alone.cancel t) (fun done => ?_) saw
      rcases Bool.or_eq_true_iff.mp done with own | before
      · rw [← token,of_decide_eq_true own]
        exact List.mem_append_right _ (List.mem_singleton_self _)
      · exact List.mem_append_left _ (quit before)
    | returned heir deadline saw => exact .returned heir deadline saw
  | elapses =>
    cases sound with
    | called heir size => exact .called heir size
    | working heir token alone quit saw =>
      exact .working heir token (alone.advance _) (fun done => List.mem_append_left _ (quit done)) saw
    | returned heir deadline saw => exact .returned heir deadline saw

theorem run_sound (ran : run b (.start call given world outside) as = some s) : Sound b call given world as s :=
  run_induction (P := Sound b call given world) (start_sound b call given world outside)
    (fun _ _ _ _ _ sound moved => step_sound sound moved) ran

theorem Sound.alone {work : Work σ} (sound : Sound b call given world as s) (stage : s.stage = .working work) :
    work.own.token = call.handed world ∧ (∀ c ∈ s.calls, Saw work.own c) ∧
      ∃ cancelled, Alone work.own s.world cancelled ∧ (cancelled = true → .cancel (call.handed world) ∈ as) := by
  cases sound with
  | working _ token alone quit saw =>
    cases stage
    exact ⟨token,saw,_,alone,quit⟩
  | called _ _ | returned _ _ _ => cases stage

theorem Sound.boundless {c : SeamCall} {ctx : Context} (sound : Sound b call given world as s) (member : c ∈ s.calls)
    (processed : c.asked = .processed ctx d tx r) : ctx.deadline = none := by
  cases sound with
  | called _ _ => cases member
  | working _ _ alone _ saw => exact saw c member ctx d tx r processed ▸ alone.deadline
  | returned _ deadline saw => exact saw c member ctx d tx r processed ▸ deadline

structure Tells (j : Job) (given : Context) (summary : Summary) (n : Announced) : Prop where
  notifier : given.notifier = some n.notifier
  traceId : n.traceId = given.traceId
  notice : j.Notice given.claims summary n.notification

theorem announce_tells {j : Job} {result : Option (Except ImportError Summary)} {n : Announced} (heir : Heir given c)
    (sent : (j.noticeFor c result).bind (announce c) = some n) :
    ∃ summary, result = some (.ok summary) ∧ j.notify.wants summary = true ∧ given.notifier.isSome = true ∧
      Tells j given summary n := by
  obtain ⟨notification,noticed,announced⟩ := Option.bind_eq_some_iff.mp sent
  obtain ⟨summary,rfl,made⟩ := Job.noticeFor_some noticed
  obtain ⟨wants,notifier,notice⟩ := Job.notice?_some made
  obtain ⟨sink,has,rfl⟩ := Option.map_eq_some_iff.mp announced
  rw [heir.notifier] at has notifier
  rw [heir.claims] at notice
  refine ⟨summary,rfl,wants,notifier,has,?_,notice⟩
  rw [← heir.traceId]
  dsimp only
  rw [notice.traceId]
  rfl

theorem announce_wanted {j : Job} {summary : Summary} (heir : Heir given c) (wants : j.notify.wants summary = true)
    (notifier : given.notifier.isSome = true) :
    ∃ n, (j.noticeFor c (some (.ok summary))).bind (announce c) = some n := by
  rw [← heir.notifier] at notifier
  obtain ⟨sink,has⟩ := Option.isSome_iff_exists.mp notifier
  have wanted : (j.notify.wants summary && c.notifier.isSome) = true := by rw [wants,notifier]; rfl
  obtain ⟨n,made⟩ : ∃ n, j.notice? c summary = some n := ⟨_,(j.notice?_eq c summary).trans (if_pos wanted)⟩
  refine ⟨⟨sink,n.traceId.getD c.traceId,n⟩,Option.bind_eq_some_iff.mpr ⟨n,made,?_⟩⟩
  rw [announce,has]
  rfl

-- One notice is sent if and only if a summary is returned, is wanted and can be sent; otherwise there is none.
structure Noticed (j : Job) (given : Context) (s : State σ) : Prop where
  exactly : (∃ n, s.notices = [n]) ↔
    ∃ summary, s.result? = some (.ok summary) ∧ j.notify.wants summary = true ∧ given.notifier.isSome = true
  otherwise : (¬ ∃ n, s.notices = [n]) → s.notices = []
  tells : ∀ n ∈ s.notices, ∃ summary, s.result? = some (.ok summary) ∧ Tells j given summary n

theorem Sound.noticed (sound : Sound b call given world as s) : Noticed b.job given s := by
  cases sound with
  | called _ _ | working _ _ _ _ _ =>
    refine ⟨?_,fun _ => rfl,nofun⟩
    exact iff_of_false (by simp) (by simp [State.result?])
  | @returned _ ran own heir _ _ =>
    refine ⟨?_,?_,?_⟩
    · constructor
      · rintro ⟨n,only⟩
        obtain ⟨summary,result,wants,notifier,_⟩ := announce_tells heir (Option.toList_eq_singleton_iff.mp only)
        exact ⟨summary,result,wants,notifier⟩
      · rintro ⟨summary,result,wants,notifier⟩
        obtain ⟨n,sent⟩ := announce_wanted heir wants notifier
        refine ⟨n,?_⟩
        rw [show ran.result = _ from result,sent]
        rfl
    · intro not
      cases sent : (b.job.noticeFor own ran.result).bind (announce own) with
      | none => rfl
      | some n => exact absurd ⟨n,by rw [sent]; rfl⟩ not
    · intro n member
      obtain ⟨summary,result,_,_,tells⟩ := announce_tells heir (Option.mem_toList.mp member)
      exact ⟨summary,result,tells⟩

theorem reached_actions {p : Pool.Setting σ} {s t : Pool.State σ} (path : Pool.Reached p s t) :
    ∃ as : List Pool.Action, as.foldlM (Pool.State.act p) s = some t := by
  induction path with
  | refl => exact ⟨[],rfl⟩
  | step _ next ih =>
    obtain ⟨as,before⟩ := ih
    obtain ⟨a,acted⟩ := next
    exact ⟨as ++ [a],(foldlM_concat _ _ _ _).trans (Option.bind_eq_some_iff.mpr ⟨_,before,acted⟩)⟩

theorem run_append (b : Brief σ) (s : State σ) (as later : List Action) :
    run b s (as ++ later) = (run b s as).bind fun t => run b t later := List.foldlM_append

theorem run_works {work : Work σ} {pool : Pool.State σ} {as : List Pool.Action} (notices : List Announced)
    (acted : as.foldlM (Pool.State.act (b.setting work.own w)) work.pool = some pool) :
    run b ⟨w,.working work,notices⟩ (as.map .work) = some ⟨w,.working { work with pool := pool },notices⟩ := by
  induction as generalizing work with
  | nil => cases acted; rfl
  | cons a rest ih =>
    obtain ⟨next,first,later⟩ := Option.bind_eq_some_iff.mp acted
    refine Option.bind_eq_some_iff.mpr ⟨⟨w,.working { work with pool := next },notices⟩,?_,ih later⟩
    simp only [State.act,State.work,first,Option.map_some]

theorem work_returned (work : Work σ) {pool : Pool.State σ} (path : Pool.Reached (b.setting work.own w) work.pool pool)
    (ended : pool.done = true) (millis : Nat) :
    ∃ as s, run b ⟨w,.working work,[]⟩ as = some s ∧
      s.stage = .returned (b.leave { work with pool := pool } (w.now + millis)) := by
  obtain ⟨as,acted⟩ := reached_actions path
  have ends : run b ⟨w,.working { work with pool := pool },[]⟩ [.elapse millis,.finish] =
      some ⟨w.advance millis,.returned (b.leave { work with pool := pool } (w.now + millis)),
        ((b.leave { work with pool := pool } (w.now + millis)).notice.bind (announce work.own)).toList⟩ := by
    simp only [run,List.foldlM_cons,List.foldlM_nil,State.act,State.finish,Option.bind_eq_bind,Option.bind_some,ended,
      if_true]
    rfl
  have ran := (run_append b _ _ _).trans (Option.bind_eq_some_iff.mpr ⟨_,run_works [] acted,ends⟩)
  exact ⟨_,_,ran,rfl⟩

-- However a job ends in the context detached from a request, its errand can end so, if the seam does not look at
-- the world.
theorem leaves_returned (blind : ∀ w, b.seam w = b.seam world) {ran : Job.Ran σ}
    (leaves : b.job.Leaves b.decoder b.catalog b.shape (b.seam world) (given.detached world).1 b.span outside ran) :
    ∃ as s, run b (.start .run given world outside) as = some s ∧ s.stage = .returned ran := by
  cases leaves with
  | @refused e refusal =>
    refine ⟨[.begin],⟨world,.returned (Job.refused e outside),[]⟩,?_,rfl⟩
    simp [run,State.act,State.begin,State.start,refusal]
  | @ended f kind pool prepared path ended millis =>
    have setting : b.setting (given.detached world).1 (given.detached world).2 =
        b.job.setting b.catalog b.shape (b.seam world) (given.detached world).1 b.span := by rw [Brief.setting,blind]
    rw [← setting] at path
    obtain ⟨as,s,ran,stage⟩ := work_returned ⟨(given.detached world).1,world.now,f,kind,_⟩ path ended millis
    refine ⟨.begin :: as,s,?_,?_⟩
    · refine Option.bind_eq_some_iff.mpr ⟨_,?_,ran⟩
      simp only [State.act,State.begin,State.start,prepared]
      rfl
    · have elapsed : (given.detached world).2.now + millis - world.now = millis := Nat.add_sub_cancel_left _ _
      rw [stage]
      simp only [Brief.leave,elapsed]
      rfl

end ServiceKit.Import.Errand
