import ServiceKit.Proofs.Server.Race
import ServiceKit.Server.App

namespace ServiceKit.Server

def Progress.Leaves (own : Context) (rest : Handler) : Progress → Prop
  | .returned r => rest = .finish r
  | .panicked payload => rest = .panic payload
  | .waiting _ h c => rest = h ∧ own = c

theorem Progress.Leaves.ending {progress : Progress} (leaves : progress.Leaves own rest)
    (ended : Pipeline.ended progress = some e) : rest.end? = some e := by
  cases progress with
  | returned r => cases leaves; exact ended
  | panicked payload => cases leaves; exact ended
  | waiting _ _ _ => cases ended

def Effect.waits : Effect → Bool
  | .sleep _ | .awaitDone => true
  | _ => false

theorem runUntil_act (limit : Nat) (e : Effect) (next : e.Answer → Handler) (own : Context) (m : Machine)
    (timeless : e.waits = false) : ((Handler.act e next).runUntil limit own).run m =
      ((next ((Run.perform own e).run m).1.2).runUntil limit ((Run.perform own e).run m).1.1).run
        ((Run.perform own e).run m).2 := by
  cases e with
  | sleep _ | awaitDone => cases timeless
  | say _ | notify _ | cacheGet _ | cacheSet _ _ | cancel | retrace _ | moment | importFile _ _ _ _ => rfl

theorem runUntil_sleep (limit ms : Nat) (next : Unit → Handler) (own : Context) (m : Machine) :
    ((Handler.act (.sleep ms) next).runUntil limit own).run m =
      if ms = 0 then ((next ()).runUntil limit own).run m
      else if m.world.now + ms < limit then
        ((next ()).runUntil limit own).run ((Run.setNow (m.world.now + ms)).run m).2
      else (.waiting (m.world.now + ms) (next ()) own,m) := by
  have ran : ((Handler.act (.sleep ms) next).runUntil limit own).run m =
      (if ms = 0 then (next ()).runUntil limit own
      else if m.world.now + ms < limit then do
        Run.setNow (m.world.now + ms)
        (next ()).runUntil limit own
      else return .waiting (m.world.now + ms) (next ()) own).run m := rfl
  rw [ran]
  split
  · rfl
  · split <;> rfl

theorem runUntil_awaitDone (limit : Nat) (next : Unit → Handler) (own : Context) (m : Machine) :
    ((Handler.act .awaitDone next).runUntil limit own).run m =
      match own.doneAt m.world with
      | some t =>
        if t < limit then ((next ()).runUntil limit own).run ((Run.setNow t).run m).2
        else (.waiting t (.act .awaitDone next) own,m)
      | none => (.waiting limit (.act .awaitDone next) own,m) := by
  have ran : ((Handler.act .awaitDone next).runUntil limit own).run m =
      (match own.doneAt m.world with
        | some t =>
          if t < limit then do
            Run.setNow t
            (next ()).runUntil limit own
          else return .waiting t (.act .awaitDone next) own
        | none => return .waiting limit (.act .awaitDone next) own).run m := rfl
  rw [ran]
  split
  · split <;> rfl
  · rfl

namespace Race
variable {p : Pipeline} {x : Exchange} {m : Machine} {s t : Race}

theorem Reached.trans (first : Reached p s t) (second : Reached p t u) : Reached p s u := by
  induction second with
  | refl => exact first
  | step _ next ih => exact ih.step next

def passed (s : Race) (now : Nat) : Race := { s with machine := ((Run.setNow now).run s.machine).2 }

theorem passes (s : Race) (now : Nat) : Step p s (s.passed now) := .elsewhere ⟨rfl,.refl _⟩

theorem still (running : s.task = .running h own) :
    Reached p s { s with machine := s.machine,task := .running h own } := by
  rw [← running]
  exact .refl

-- Running a handler up to a limit makes steps of its task and lets time pass, but not up to the limit.
theorem runUntil_reached (p : Pipeline) (limit : Nat) (h : Handler) (own : Context) (s : Race)
    (running : s.task = .running h own) : ∃ rest own', Reached p s
        { s with machine := ((h.runUntil limit own).run s.machine).2,task := .running rest own' } ∧
      ((h.runUntil limit own).run s.machine).1.Leaves own' rest ∧
      (s.machine.world.now < limit → ((h.runUntil limit own).run s.machine).2.world.now < limit) := by
  induction h generalizing own s with
  | finish r => exact ⟨.finish r,own,still running,rfl,id⟩
  | panic payload => exact ⟨.panic payload,own,still running,rfl,id⟩
  | act e next ih =>
    have first : Reached p s (s.worked own e next) := Reached.refl.step (.works running)
    cases timed : e.waits with
    | false =>
      rw [runUntil_act limit e next own s.machine timed]
      obtain ⟨rest,own',path,leaves,early⟩ := ih _ _ (s.worked own e next) rfl
      refine ⟨rest,own',first.trans path,leaves,?_⟩
      rw [← (Run.keeps_perform own e s.machine).2]
      exact early
    | true =>
      cases e with
      | say _ | notify _ | cacheGet _ | cacheSet _ _ | cancel | retrace _ | moment | importFile _ _ _ _ => cases timed
      | sleep ms =>
        rw [runUntil_sleep]
        split
        · obtain ⟨rest,own',path,leaves,early⟩ := ih () own (s.worked own (.sleep ms) next) rfl
          exact ⟨rest,own',first.trans path,leaves,early⟩
        · split
          · next soon =>
            have later := first.step (passes _ (s.machine.world.now + ms))
            obtain ⟨rest,own',path,leaves,early⟩ :=
              ih () own ((s.worked own (.sleep ms) next).passed (s.machine.world.now + ms)) rfl
            exact ⟨rest,own',later.trans path,leaves,fun _ => early soon⟩
          · exact ⟨next (),own,first,⟨rfl,rfl⟩,id⟩
      | awaitDone =>
        rw [runUntil_awaitDone]
        split
        · next t _ =>
          split
          · next soon =>
            have later := first.step (passes _ t)
            obtain ⟨rest,own',path,leaves,early⟩ := ih () own ((s.worked own .awaitDone next).passed t) rfl
            exact ⟨rest,own',later.trans path,leaves,fun _ => early soon⟩
          · exact ⟨.act .awaitDone next,own,still running,⟨rfl,rfl⟩,id⟩
        · exact ⟨.act .awaitDone next,own,still running,⟨rfl,rfl⟩,id⟩

theorem receive_fresh (fresh : x.Fresh) (p : Pipeline) (e : Event) (m : Machine) :
    (x.receive p e).run m = (x.answer p e).run ((x.ended p e).run m).2 := by
  have open_ : x.settled = false := by rw [Exchange.settled,fresh.completion]; rfl
  have ran : (x.receive p e).run m =
      (if x.settled then return x else x.answer p e : Run Exchange).run ((x.ended p e).run m).2 := rfl
  rw [ran,open_]
  rfl

theorem receive_settled (settled : x.completion.isSome) (p : Pipeline) (e : Event) (m : Machine) :
    (x.receive p e).run m = (x,((x.ended p e).run m).2) := by
  have ran : (x.receive p e).run m =
      (if x.settled then return x else x.answer p e : Run Exchange).run ((x.ended p e).run m).2 := rfl
  rw [ran,Exchange.settled,settled]
  rfl

-- How a race stands on the clock when its exchange is settled.
structure OnTime (deadline : Nat) (s : Race) : Prop where
  settled : s.chosen.isSome
  late : s.chosen = some .deadline → s.machine.world.now = deadline ∧
    ∃ wakes rest own, s.task = .running rest own ∧ ⟨wakes,rest,own,s.exchange⟩ ∈ s.machine.pending
  early : s.chosen ≠ some .deadline → s.machine.world.now < deadline

theorem ends_reached (exchange : s.exchange = x) (fresh : x.Fresh) (waiting : s.chosen = none)
    (running : s.task = .running rest own) (ending : rest.end? = some e) :
    ∃ t, Reached p s t ∧ (t.exchange,t.machine) = (x.receive p e).run s.machine ∧ t.chosen = some e := by
  refine ⟨(s.closed p e).answered p e,?_,?_,rfl⟩
  · exact (Reached.refl.step (.ends running ending)).step (.answers rfl waiting)
  · rw [receive_fresh fresh,← exchange]
    rfl

theorem receive_now (fresh : x.Fresh) (p : Pipeline) (e : Event) (m : Machine) :
    ((x.receive p e).run m).2.world.now = m.world.now := by
  rw [receive_fresh fresh,(Exchange.keeps_answer fresh p e _).2]
  exact (Exchange.keeps_ended p x e m).2

theorem leave_reached (fresh : x.Fresh) (p : Pipeline) (s : Race) (wakes : Nat) (exchange : s.exchange = x)
    (waiting : s.chosen = none) (running : s.task = .running rest own) :
    ∃ t, Reached p s t ∧ OnTime s.machine.world.now t ∧
      (t.exchange,t.machine) = (p.leave x wakes rest own).run s.machine := by
  let t := s.answered p .deadline
  have answered : (t.exchange,t.machine) = (x.receive p .deadline).run s.machine := by
    rw [receive_fresh fresh,← exchange]
    rfl
  have now : t.machine.world.now = s.machine.world.now := by
    rw [show t.machine = ((x.receive p .deadline).run s.machine).2 from congrArg Prod.snd answered,receive_now fresh]
  let q : Pending := ⟨wakes,rest,own,t.exchange⟩
  let left := { t.machine with pending := t.machine.pending ++ [q] }
  refine ⟨{ t with machine := left },?_,⟨rfl,?_,?_⟩,?_⟩
  · exact (Reached.refl.step (.expires waiting)).step (.elsewhere ⟨rfl,.refl _⟩)
  · intro _
    exact ⟨now,wakes,rest,own,running,List.mem_append_right _ (List.mem_singleton_self q)⟩
  · intro early
    exact absurd rfl early
  · have ran : (p.leave x wakes rest own).run s.machine =
        (((x.receive p .deadline).run s.machine).1,{ ((x.receive p .deadline).run s.machine).2 with
          pending := ((x.receive p .deadline).run s.machine).2.pending ++
            [⟨wakes,rest,own,((x.receive p .deadline).run s.machine).1⟩] }) := rfl
    rw [ran,← answered]

-- How a race goes on from where running the handler up to the deadline has left it.
theorem meet_reached (fresh : x.Fresh) (p : Pipeline) (s : Race) {progress : Progress} (exchange : s.exchange = x)
    (waiting : s.chosen = none) (running : s.task = .running rest own) (leaves : progress.Leaves own rest)
    (early : s.machine.world.now < deadline) : ∃ t, Reached p s t ∧ OnTime deadline t ∧
      (t.exchange,t.machine) = (p.meet x deadline progress).run s.machine := by
  have ending : ∀ {e}, Pipeline.ended progress = some e → e ≠ .deadline →
      ∃ t, Reached p s t ∧ OnTime deadline t ∧ (t.exchange,t.machine) = (x.receive p e).run s.machine := by
    intro e ended other
    obtain ⟨t,path,ran,chosen⟩ := ends_reached (p := p) exchange fresh waiting running (leaves.ending ended)
    have machine : t.machine = ((x.receive p e).run s.machine).2 := congrArg Prod.snd ran
    refine ⟨t,path,⟨by rw [chosen]; rfl,?_,?_⟩,ran⟩
    · intro late
      exact absurd (Option.some.inj (chosen.symm.trans late)) other
    · intro _
      rw [machine,receive_now fresh]
      exact early
  cases progress with
  | returned r => exact ending rfl nofun
  | panicked payload => exact ending rfl nofun
  | waiting wakes rest' own' =>
    obtain ⟨rfl,rfl⟩ := leaves
    obtain ⟨t,path,onTime,ran⟩ := leave_reached fresh p (s.passed deadline) wakes exchange waiting running
    exact ⟨t,(Reached.refl.step (passes s deadline)).trans path,onTime,ran⟩

theorem race_reached (fresh : x.Fresh) (p : Pipeline) (h : Handler) (early : m.world.now < deadline) :
    ∃ s, Reached p (.start m x h) s ∧ OnTime deadline s ∧ (s.exchange,s.machine) = (p.race x deadline h).run m := by
  obtain ⟨rest,own,path,leaves,soon⟩ := runUntil_reached p deadline h x.given (.start m x h) rfl
  let s : Race := { start m x h with machine := ((h.runUntil deadline x.given).run m).2,task := .running rest own }
  obtain ⟨t,more,onTime,ran⟩ := meet_reached fresh p s rfl rfl rfl leaves (soon early)
  exact ⟨t,path.trans more,onTime,ran⟩

theorem conclude_reached (fresh : x.Fresh) (p : Pipeline) (h : Handler) (m : Machine) :
    ∃ s, Reached p (.start m x h) s ∧ OnTime (m.world.now + p.timeout) s ∧
      (s.exchange,s.machine) = (p.conclude m.world.now x h).run m := by
  unfold Pipeline.conclude
  split
  · next instant =>
    rw [instant]
    exact leave_reached fresh p (.start m x h) m.world.now rfl rfl rfl
  · next timed => exact race_reached fresh p h (Nat.lt_add_of_pos_right (Nat.pos_of_ne_zero timed))

theorem opened_now (p : Pipeline) (handler : Request → Handler) (c : Context) (r : Request) (m : Machine) :
    (opened p handler c r m).machine.world.now = m.world.now :=
  (Run.keeps_record { c with traceId := (World.freshTrace m.world).1 } "trace_id"
    (World.freshTrace m.world).1 { m with world := (World.freshTrace m.world).2 }).2

theorem OnTime.later (onTime : OnTime deadline s) (now : m.world.now = s.machine.world.now)
    (pending : m.pending = s.machine.pending) : OnTime deadline { s with machine := m } := by
  obtain ⟨settled,late,early⟩ := onTime
  refine ⟨settled,?_,?_⟩
  · intro chosen
    rw [now,pending]
    exact late chosen
  · intro chosen
    rw [now]
    exact early chosen

theorem run_execute (p : Pipeline) (handler : Request → Handler) (c : Context) (r : Request) (m : Machine) :
    (p.execute handler c r).run m =
      let s := opened p handler c r m
      let concluded := (p.conclude m.world.now s.exchange (handler { r with limits := p.limits })).run s.machine
      (Pipeline.close m.world.now concluded.1).run concluded.2 := rfl

-- A request that is executed on the clock is a race that is settled on time.
theorem execute_reached (p : Pipeline) (handler : Request → Handler) (c : Context) (r : Request) (m : Machine) :
    ∃ s, Reached p (opened p handler c r m) s ∧ OnTime (m.world.now + p.timeout) s ∧
      (p.execute handler c r).run m =
        ((s.exchange.context,⟨s.exchange.writer.finish,some (s.exchange.completion.getD .panicked)⟩),s.machine) := by
  let h := handler { r with limits := p.limits }
  obtain ⟨s,path,onTime,ran⟩ := conclude_reached (opened_fresh p handler c r m) p h (opened p handler c r m).machine
  rw [opened_now] at onTime ran
  let closed := ((Pipeline.close m.world.now s.exchange).run s.machine).2
  refine ⟨{ s with machine := closed },path.step (.elsewhere ⟨rfl,.refl _⟩),onTime.later rfl rfl,?_⟩
  simp only [run_execute,← ran,h]
  rfl

theorem run_execute?_of (told : Clock.later? m.world.now p.timeout = some deadline) (handler : Request → Handler)
    (c : Context) (r : Request) : (p.execute? handler c r).run.run m =
      (some ((p.execute handler c r).run m).1,((p.execute handler c r).run m).2) := by
  have ran : (p.execute? handler c r).run.run m = (match Clock.later? m.world.now p.timeout with
      | some _ => liftM (p.execute handler c r)
      | none => do
        let _ ← Pipeline.identify c
        failure : OptionT Run (Context × Answered)).run.run m := rfl
  rw [ran,told]
  rfl

theorem run_execute?_none (untold : Clock.later? m.world.now p.timeout = none) (handler : Request → Handler)
    (c : Context) (r : Request) :
    (p.execute? handler c r).run.run m = (none,((Pipeline.identify c).run m).2) := by
  have ran : (p.execute? handler c r).run.run m = (match Clock.later? m.world.now p.timeout with
      | some _ => liftM (p.execute handler c r)
      | none => do
        let _ ← Pipeline.identify c
        failure : OptionT Run (Context × Answered)).run.run m := rfl
  rw [ran,untold]
  rfl

-- How a settled race stands when its handler went on: nothing is answered again.
structure WentOn (s t : Race) (left : Option Pending) : Prop where
  exchange : t.exchange = s.exchange
  chosen : t.chosen = s.chosen
  waits : ∀ q, left = some q → t.task = .running q.rest q.own ∧ q.exchange = s.exchange
  ends : left = none → ∃ e, t.task = .ended e

theorem wake_reached (p : Pipeline) (s : Race) {progress : Progress} (settled : s.exchange.completion.isSome)
    (running : s.task = .running rest own) (leaves : progress.Leaves own rest) :
    ∃ t, Reached p s t ∧ t.machine = ((p.wake s.exchange progress).run s.machine).2 ∧
      WentOn s t ((p.wake s.exchange progress).run s.machine).1 := by
  have ending : ∀ {e}, Pipeline.ended progress = some e →
      ∃ t, Reached p s t ∧ t.machine = ((s.exchange.receive p e).run s.machine).2 ∧ WentOn s t none := by
    intro e ended
    refine ⟨s.closed p e,Reached.refl.step (.ends running (leaves.ending ended)),?_,⟨rfl,rfl,?_,fun _ => ⟨e,rfl⟩⟩⟩
    · rw [receive_settled settled]
      rfl
    · intro q left
      cases left
  cases progress with
  | returned r => exact ending rfl
  | panicked payload => exact ending rfl
  | waiting wakes rest' own' =>
    obtain ⟨rfl,rfl⟩ := leaves
    refine ⟨s,.refl,rfl,⟨rfl,rfl,?_,?_⟩⟩
    · intro q left
      cases left
      exact ⟨running,rfl⟩
    · intro left
      cases left

theorem resume_reached (p : Pipeline) (limit : Nat) (q : Pending) (s : Race) (exchange : s.exchange = q.exchange)
    (settled : s.exchange.completion.isSome) (running : s.task = .running q.rest q.own) :
    ∃ t, Reached p s t ∧ t.machine = ((p.resume limit q).run s.machine).2 ∧
      WentOn s t ((p.resume limit q).run s.machine).1 := by
  unfold Pipeline.resume
  split
  · let later := s.passed (max q.wakes s.machine.world.now)
    obtain ⟨rest,own,path,leaves,_⟩ := runUntil_reached p limit q.rest q.own later running
    let run := (q.rest.runUntil limit q.own).run later.machine
    let r : Race := { later with machine := run.2,task := .running rest own }
    obtain ⟨t,more,machine,wentOn⟩ := wake_reached p r settled rfl leaves
    have whole : Reached p s t := ((Reached.refl.step (passes s _)).trans path).trans more
    refine ⟨t,whole,?_,?_⟩
    · rw [machine,← exchange]
      rfl
    · rw [← exchange]
      exact ⟨wentOn.exchange,wentOn.chosen,wentOn.waits,wentOn.ends⟩
  · refine ⟨s,.refl,rfl,⟨rfl,rfl,?_,?_⟩⟩
    · intro q' left
      cases left
      exact ⟨running,exchange.symm⟩
    · intro left
      cases left

-- If the clock can tell the deadline of a request, then whatever the order of steps it is settled once and for all, and
-- executing it on the clock is one of these orders, and one that settles it. Otherwise executing it panics as soon as it has
-- its trace id.
theorem execute_settles (p : Pipeline) (handler : Request → Handler) (c : Context) (r : Request) (m : Machine) :
    (∀ deadline, Clock.later? m.world.now p.timeout = some deadline →
      (∀ s, Reached p (opened p handler c r m) s → Settles p c m (opened p handler c r m).exchange s ∧
        (s.chosen.isSome → ∀ t, Reached p s t → t.exchange = s.exchange ∧ t.chosen = s.chosen)) ∧
      ∃ s response, Reached p (opened p handler c r m) s ∧ OnTime deadline s ∧
        s.exchange.writer.response = some response ∧
        (p.execute? handler c r).run.run m = (some (s.exchange.context,⟨response,s.exchange.completion⟩),s.machine)) ∧
    (Clock.later? m.world.now p.timeout = none →
      (p.execute? handler c r).run.run m = (none,((Pipeline.identify c).run m).2)) := by
  refine ⟨?_,fun untold => run_execute?_none untold handler c r⟩
  intro deadline told
  obtain ⟨_,rfl⟩ := Clock.later?_eq_some_iff.mp told
  refine ⟨fun s path => ⟨opened_settles path,fun settled t more => reached_settled settled more⟩,?_⟩
  obtain ⟨s,path,onTime,executed⟩ := execute_reached p handler c r m
  obtain ⟨_,written,completed⟩ := (opened_settles path).once onTime.settled
  obtain ⟨response,written⟩ := Option.isSome_iff_exists.mp written
  obtain ⟨completion,completed⟩ := Option.isSome_iff_exists.mp completed
  refine ⟨s,response,path,onTime,written,?_⟩
  rw [run_execute?_of told,executed,Writer.finish,written,completed]
  rfl

def tardy (_ : Request) : Handler := .act (.sleep 10) fun _ => .finish (.error (.bare "too late"))

def hasty : Pipeline := ⟨5,⟨"","","",""⟩,none,⟨32,4⟩⟩

theorem tardy_settles : Clock.later? 0 hasty.timeout = some 5 ∧
    ((hasty.execute? tardy (Context.new .start).1 plainRequest).run.run (.start [] none)).1.map (·.2) =
      some ⟨.ofText 504 "timeout",some .timedOut⟩ ∧
    ∃ s, Reached hasty (opened hasty tardy (Context.new .start).1 plainRequest (.start [] none)) s ∧ OnTime 5 s := by
  have told : Clock.later? 0 hasty.timeout = some 5 := by decide
  obtain ⟨within,_⟩ := execute_settles hasty tardy (Context.new .start).1 plainRequest (.start [] none)
  obtain ⟨_,s,_,path,onTime,_⟩ := within 5 told
  exact ⟨told,rfl,s,path,onTime⟩

-- The longest timeout that settings can have; it is accepted, and no request is answered.
def endless : Config := Config.defaults.set .apiTimeout (18446744073709551615 : Nat)

def patient : Pipeline := { hasty with timeout := (AppSettings.ofConfig endless).timeout }

theorem patient_panics : endless.validate = .ok () ∧ Clock.later? 0 patient.timeout = none ∧
    ¬ ∃ x, ((patient.execute? tardy (Context.new .start).1 plainRequest).run.run (.start [] none)).1 = some x := by
  have untold : Clock.later? 0 patient.timeout = none := by decide
  have executed := run_execute?_none untold tardy (Context.new .start).1 plainRequest (m := .start [] none)
  refine ⟨rfl,untold,?_⟩
  rintro ⟨x,answered⟩
  rw [executed] at answered
  cases answered

end Race
end ServiceKit.Server
