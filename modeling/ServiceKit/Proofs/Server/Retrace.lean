import ServiceKit.Proofs.Server.Expiry
import ServiceKit.Proofs.Server.Nesting
import ServiceKit.Proofs.Server.Trace

namespace ServiceKit.Server

theorem told_notify {c : Context} {n : Notification} {m : Machine} {notice : Notice}
    (told : notice ∈ m.since ((Run.notify c n).run m).2) : notice = ⟨c.traceId,n⟩ := by
  rw [Race.since_append (Run.run_notify c n m).2.2] at told
  split at told
  · exact List.mem_singleton.mp told
  · cases told

structure Tells (trace : String) (c : Context) : Prop where
  id : c.traceId = trace
  told : ∀ n m, n.traceId = none → ∀ notice ∈ Machine.since m ((Run.notify c n).run m).2, notice.Carries trace

theorem Notice.carries_own {notice : Notice} (bare : notice.notification.traceId = none) : notice.Carries notice.traceId := by
  have carried := notice.carries
  rwa [bare] at carried

theorem tells {c : Context} {trace : String} (same : c.traceId = trace) : Tells trace c := by
  refine ⟨same,?_⟩
  intro n m bare notice told
  obtain rfl := told_notify told
  exact same ▸ Notice.carries_own bare

def Entered.context : Entered → Context
  | .answers c _ | .proceeds c _ _ => c

-- The context keeps its trace id, and an envelope on the response is one that was there under the same id.
structure After.LeavesTrace (after : After) : Prop where
  context : ∀ c x m, ((after c x).run m).1.1.traceId = c.traceId
  envelope : ∀ c x m e, ((after c x).run m).1.2.response.Bears e → ∃ seen, x.response.Bears seen ∧ seen.traceId = e.traceId

structure Stage.LeavesTrace (s : Stage) : Prop where
  enter : ∀ k c r m, ((s.enter k c r).run m).1.context.traceId = c.traceId
  back : s.Handles After.LeavesTrace

def Handler.LeavesTrace : Handler → Prop
  | .finish _ | .panic _ => True
  | .act e next => (∀ trace, e ≠ .retrace trace) ∧ ∀ answer, (next answer).LeavesTrace

theorem After.Plain.envelope {after : After} (plain : after.Plain) (c : Context) (x : Answered) (m : Machine) (e : Envelope)
    (bears : ((after c x).run m).1.2.response.Bears e) : ∃ seen, x.response.Bears seen ∧ seen.traceId = e.traceId := by
  obtain ⟨_,body,_⟩ := plain c x m
  exact ⟨e,body.symm.trans bears,rfl⟩

namespace Stage

theorem requestId_leavesTrace : requestId.LeavesTrace := by
  refine ⟨?_,requestId_handles fun id => ⟨fun _ _ _ => rfl,(stamp_plain requestIdHeader id).envelope⟩⟩
  intro k c r m
  obtain ⟨_,ran,_⟩ := run_requestId k c r m
  rw [ran]
  rfl

theorem secureHeaders_leavesTrace : secureHeaders.LeavesTrace := by
  refine ⟨fun _ _ _ _ => rfl,?_⟩
  intro k c r m c' r' after proceeds
  cases proceeds
  exact ⟨fun _ _ _ => rfl,fun _ _ _ e bears => ⟨e,bears,rfl⟩⟩

end Stage

namespace Journey
variable {a : App} {r on : Request} {m : Machine} {j k l : Journey} {e : Entry Target} {x : Answered} {bound : Bound}
  {trace : String}

-- The stages before a journey, and what those behind it still do, leave trace ids alone.
structure Light (k : Journey) : Prop where
  ahead : ∀ bound stages r, k.heading = .inwards bound stages r → ∀ s ∈ stages, s.LeavesTrace
  back : ∀ s after, (s,after) ∈ k.back → after.LeavesTrace

theorem Light.outwards {m : Machine} {c : Context} {back : List (Stage × After)} {calls : List Call}
    (leave : ∀ s after, (s,after) ∈ back → after.LeavesTrace) : Light ⟨m,c,.outwards x,back,calls⟩ :=
  ⟨nofun,leave⟩

theorem enter_light {s : Stage} {rest : List Stage} (first : s.LeavesTrace) (later : ∀ s ∈ rest, s.LeavesTrace)
    (leave : ∀ s after, (s,after) ∈ k.back → after.LeavesTrace) :
    (k.enter bound s rest r).Light ∧ (k.enter bound s rest r).context.traceId = k.context.traceId := by
  have kept := first.enter rest.length k.context r k.machine
  rcases ran : (s.enter rest.length k.context r).run k.machine with ⟨outcome,m⟩
  rw [ran] at kept
  cases outcome with
  | answers own x =>
    rw [enter_answers ran]
    exact ⟨.outwards leave,kept⟩
  | proceeds own on after =>
    have handled := first.back rest.length k.context r k.machine own on after (congrArg Prod.fst ran)
    rw [enter_proceeds ran]
    refine ⟨⟨?_,?_⟩,kept⟩
    · rintro bound' stages' r' ⟨⟩
      exact later
    · intro s' after' mem
      rcases List.mem_cons.mp mem with same | mem
      · cases same
        exact handled
      · exact leave s' after' mem

theorem route_light (table : ∀ e ∈ a.table, ∀ s ∈ e.target.stages, s.LeavesTrace)
    (leave : ∀ s after, (s,after) ∈ k.back → after.LeavesTrace) :
    (k.route a r).Light ∧ (k.route a r).context = k.context := by
  unfold Journey.route
  split
  · exact ⟨.outwards leave,rfl⟩
  · cases looked : Lookup.of r.method r.uri.path a.table with
    | notFound | methodNotAllowed _ => exact ⟨.outwards leave,rfl⟩
    | found e params =>
      refine ⟨⟨?_,leave⟩,rfl⟩
      rintro bound stages on ⟨⟩
      exact table e (Lookup.mem_of_found looked)

theorem step_light (table : ∀ e ∈ a.table, ∀ s ∈ e.target.stages, s.LeavesTrace) (light : k.Light)
    (moved : k.next a = some l) : l.Light ∧ (l.context.traceId = k.context.traceId ∨
      ∃ e on, k.heading = .inwards (.handler e) [] on ∧ l = k.execute a e on) := by
  obtain ⟨ahead,leave⟩ := light
  rcases k with ⟨m,c,⟨bound,stages,r⟩ | x,back,calls⟩
  · cases stages with
    | cons s rest =>
      cases moved
      have later := fun s' mem => ahead bound (s :: rest) r rfl s' (List.mem_cons_of_mem s mem)
      obtain ⟨light,kept⟩ := enter_light (ahead bound (s :: rest) r rfl s List.mem_cons_self) later leave
      exact ⟨light,.inl kept⟩
    | nil =>
      cases bound with
      | router =>
        cases moved
        obtain ⟨light,kept⟩ := route_light table leave
        exact ⟨light,.inl (congrArg Context.traceId kept)⟩
      | handler e =>
        cases moved
        exact ⟨.outwards leave,.inr ⟨e,r,rfl,rfl⟩⟩
  · cases back with
    | nil => cases moved
    | cons first back =>
      obtain ⟨s,after⟩ := first
      cases moved
      have rest := fun s after mem => leave s after (List.mem_cons_of_mem _ mem)
      exact ⟨.outwards rest,.inl ((leave s after List.mem_cons_self).context c x m)⟩

structure Arrives (a : App) (r : Request) (m : Machine) (j : Journey) (e : Entry Target) (on : Request) : Prop where
  path : Reached a (.start a r m) j
  ready : j.heading = .inwards (.handler e) [] on

-- A whole way. The context keeps the trace id that it was made with, unless the request has come to the pipeline.
theorem reached_light (table : ∀ e ∈ a.table, ∀ s ∈ e.target.stages, s.LeavesTrace) (stages : ∀ s ∈ a.stages, s.LeavesTrace)
    (path : Reached a (.start a r m) k) : k.Light ∧ (k.context.traceId = ((a.opens r).run m).1.traceId ∨
      ∃ j e on, Arrives a r m j e on ∧ Reached a (j.execute a e on) k) := by
  induction path with
  | refl =>
    refine ⟨⟨?_,nofun⟩,.inl rfl⟩
    rintro bound ahead on ⟨⟩
    exact stages
  | @step k l before moved ih =>
    obtain ⟨light,seen⟩ := ih
    obtain ⟨light',kept⟩ := step_light table light moved
    refine ⟨light',?_⟩
    rcases seen with born | ⟨j,e,on,arrives,behind⟩
    · rcases kept with same | ⟨e,on,ready,rfl⟩
      · exact .inl (same.trans born)
      · exact .inr ⟨k,e,on,⟨before,ready⟩,.refl⟩
    · exact .inr ⟨j,e,on,arrives,behind.step moved⟩

-- A journey on its way back: the context has the trace id, and so has an envelope that is the response so far.
structure Homewards (trace : String) (k : Journey) : Prop where
  context : k.context.traceId = trace
  answer : ∃ x, k.heading = .outwards x ∧ ∀ e, x.response.Bears e → e.traceId = trace

theorem execute_homewards (a : App) (j : Journey) (e : Entry Target) (on : Request) :
    Homewards (Race.traceOf j.machine) (j.execute a e on) := by
  obtain ⟨context,event,response⟩ := Race.execute_response a.pipeline e.target.handler j.context on j.machine
  let x := ((a.pipeline.execute e.target.handler j.context on).run j.machine).1.2
  refine ⟨context,x,rfl,?_⟩
  intro e bears
  rw [response] at bears
  exact event.response_traced bears

theorem Homewards.step (homewards : Homewards trace k) (light : k.Light) (moved : k.next a = some l) :
    Homewards trace l := by
  rcases k with ⟨m,c,heading,back,calls⟩
  obtain ⟨context,x,heading,under⟩ := homewards
  cases heading
  cases back with
  | nil => cases moved
  | cons first back =>
    obtain ⟨s,after⟩ := first
    cases moved
    have leaves := light.back s after List.mem_cons_self
    refine ⟨(leaves.context c x m).trans context,_,rfl,?_⟩
    intro e bears
    obtain ⟨seen,bore,same⟩ := leaves.envelope c x m e bears
    exact same.symm.trans (under seen bore)

theorem reached_homewards (table : ∀ e ∈ a.table, ∀ s ∈ e.target.stages, s.LeavesTrace) (light : k.Light)
    (homewards : Homewards trace k) (path : Reached a k l) : l.Light ∧ Homewards trace l := by
  induction path with
  | refl => exact ⟨light,homewards⟩
  | step _ moved ih =>
    obtain ⟨light,homewards⟩ := ih
    exact ⟨(step_light table light moved).1,homewards.step light moved⟩

end Journey

namespace Race
variable {p : Pipeline} {s t : Race} {trace : String}

-- Every notice that is started goes out under the trace id of the context.
def Under (c : Context) (f : Run α) : Prop := ∀ m, ∀ notice ∈ Machine.since m (f.run m).2, notice.traceId = c.traceId

theorem under_silent {c : Context} {f : Run α} (silent : ∀ m, (f.run m).2.notices = m.notices) : Under c f := by
  intro m notice mem
  rw [Machine.since,silent m,List.drop_length] at mem
  cases mem

theorem under_notify (c : Context) (n : Notification) : Under c (Run.notify c n) := by
  intro m notice told
  obtain rfl := told_notify told
  rfl

theorem under_send (c : Context) (notice : Option Notification) : Under c (Run.send c notice) := by
  cases notice with
  | none => exact under_silent fun _ => rfl
  | some n => exact under_notify c n

theorem under_perform (c : Context) (e : Effect) : Under c (Run.perform c e) := by
  cases e with
  | say _ | sleep _ | awaitDone | retrace _ | cancel | moment => exact under_silent fun _ => rfl
  | notify n => exact under_notify c n
  | cacheGet key =>
    unfold Run.perform
    cases c.cache <;> exact under_silent fun _ => rfl
  | cacheSet key value =>
    unfold Run.perform
    cases c.cache <;> exact under_silent fun _ => rfl
  | importFile d job shape script =>
    intro m
    let own := (c.detached m.world).1
    let ran := job.run d m.catalog shape script.bare own (m.span? c) ()
    let logged := { m with world := (c.detached m.world).2,logs := m.logs ++ ran.logs,ticks := m.ticks ++ ran.ticks }
    exact under_send own ran.notice logged

theorem perform_keeps (c : Context) {e : Effect} (other : ∀ trace, e ≠ .retrace trace) (m : Machine) :
    ((Run.perform c e).run m).1.1.traceId = c.traceId := by
  cases e with
  | retrace trace => exact absurd rfl (other trace)
  | say _ | sleep _ | awaitDone | notify _ | cancel | moment | importFile _ _ _ _ => rfl
  | cacheGet key =>
    unfold Run.perform
    cases c.cache <;> rfl
  | cacheSet key value =>
    unfold Run.perform
    cases c.cache <;> rfl

structure Working (trace : String) (s : Race) : Prop where
  own : ∀ rest own, s.task = .running rest own → own.traceId = trace ∧ rest.LeavesTrace

theorem Working.step (working : Working trace s) (next : Step p s t) : Working trace t := by
  cases next with
  | @works own e next running =>
    obtain ⟨same,other,later⟩ := working.own _ _ running
    refine ⟨?_⟩
    rintro rest own' ⟨⟩
    exact ⟨(perform_keeps own other s.machine).trans same,later _⟩
  | ends _ _ => exact ⟨nofun⟩
  | answers _ _ | expires _ | elsewhere _ => exact ⟨working.own⟩

theorem reached_working (working : Working trace s) (path : Reached p s t) : Working trace t := by
  induction path with
  | refl => exact working
  | step _ next ih => exact ih.step next

theorem Working.told (working : Working trace s) {own : Context} {e : Effect} {next : e.Answer → Handler}
    (running : s.task = .running (.act e next) own) :
    ∀ notice ∈ s.machine.since (s.worked own e next).machine, notice.notification.traceId = none → notice.Carries trace := by
  intro notice mem bare
  have same : notice.traceId = trace := (under_perform own e s.machine notice mem).trans (working.own _ _ running).1
  exact same ▸ Notice.carries_own bare

theorem execute_fails {handler : Request → Handler} {c : Context} {r : Request} {m : Machine} {f : Failure}
    (inTime : p.timeout ≠ 0) (fails : handler { r with limits := p.limits } = .finish (.error f)) :
    ((p.execute handler c r).run m).1.2.response = .ofEnvelope (answerTo (traceOf m) f) := by
  let x := (opened p handler c r m).exchange
  let start := (opened p handler c r m).machine
  have fresh : x.Fresh := opened_fresh p handler c r m
  have concluded : (p.conclude m.world.now x (.finish (.error f))).run start =
      (x.receive p (.returned (.error f))).run start := by
    unfold Pipeline.conclude
    rw [if_neg inTime]
    rfl
  obtain ⟨_,answered,_⟩ := Exchange.run_answer fresh p (.returned (.error f))
    ((x.ended p (.returned (.error f))).run start).2
  simp only [run_execute,fails]
  rw [concluded,receive_fresh fresh,answered]
  rfl

end Race

-- From the pipeline on a request has one trace id. Until it comes there, and if it never does, its context has the one that
-- it was made with. What is told through the context, by whomever and without a trace id of its own, goes out under the
-- one that the context has then; behind the pipeline this is the one of the envelope, of what the framework tells, and of
-- what the handler tells if it leaves the trace id of its own context alone.
theorem handle_traces (settings : AppSettings) (first m : Machine) (r : Request)
    (leaves : ∀ s ∈ settings.stages ++ settings.entries.flatMap (·.target.stages), s.LeavesTrace) :
    let a := ((App.build settings).run first).1
    let born := ((a.opens r).run m).1.traceId
    (∀ k, Journey.Reached a (.start a r m) k → Tells born k.context ∨
      ∃ j e on, Journey.Arrives a r m j e on ∧ Journey.Reached a (j.execute a e on) k) ∧
    ∀ j e on, Journey.Arrives a r m j e on →
      let trace := Race.traceOf j.machine
      let race := Race.opened a.pipeline e.target.handler j.context on j.machine
      Tells born j.context ∧
      (∀ k, Journey.Reached a (j.execute a e on) k → Tells trace k.context ∧
        ∃ x, k.heading = .outwards x ∧ ∀ e, x.response.Bears e → e.traceId = trace) ∧
      (∀ s, Race.Reached a.pipeline race s → s.Traced trace) ∧
      ((e.target.handler { on with limits := a.pipeline.limits }).LeavesTrace → ∀ s, Race.Reached a.pipeline race s →
        ∀ own e next, s.task = .running (.act e next) own → Tells trace own ∧
          ∀ notice ∈ s.machine.since (s.worked own e next).machine, notice.notification.traceId = none →
            notice.Carries trace) := by
  intro a born
  have stages : ∀ s ∈ a.stages, s.LeavesTrace := App.build_each Stage.requestId_leavesTrace
    Stage.secureHeaders_leavesTrace fun s mem => leaves s (List.mem_append_left _ mem)
  have table : ∀ e ∈ a.table, ∀ s ∈ e.target.stages, s.LeavesTrace := by
    have listed : a.table = settings.entries := Lookup.register_table [] settings.entries
    intro e mem s inside
    rw [listed] at mem
    exact leaves s (List.mem_append_right _ (List.mem_flatMap.mpr ⟨e,mem,inside⟩))
  have behind : ∀ j e on, Journey.Arrives a r m j e on → ∀ k, Journey.Reached a (j.execute a e on) k →
      Journey.Homewards (Race.traceOf j.machine) k := by
    intro j e on arrives k path
    obtain ⟨light,_⟩ := Journey.reached_light table stages arrives.path
    exact (Journey.reached_homewards table (.outwards light.back) (Journey.execute_homewards a j e on) path).2
  refine ⟨?_,?_⟩
  · intro k path
    exact (Journey.reached_light table stages path).2.imp_left tells
  · intro j e on arrives trace race
    refine ⟨?_,?_,?_,?_⟩
    · rcases (Journey.reached_light table stages arrives.path).2 with same | ⟨j',e',on',arrives',path⟩
      · exact tells same
      · obtain ⟨x,heading,_⟩ := (behind j' e' on' arrives' j path).answer
        cases arrives.ready.symm.trans heading
    · intro k path
      obtain ⟨context,answer⟩ := behind j e on arrives k path
      exact ⟨tells context,answer⟩
    · exact fun s path => Race.opened_traced path
    · intro handler s path own e' next running
      have working : Race.Working trace race := ⟨by rintro rest own ⟨⟩; exact ⟨rfl,handler⟩⟩
      have later := Race.reached_working working path
      exact ⟨tells (later.own _ _ running).1,later.told running⟩

def herald : Stage where
  name := "herald"
  enter _ c r := do
    let _ ← Run.notify c (.new "request")
    return .proceeds c r fun c x => do
      let _ ← Run.notify c (.new "response")
      return (c,x)

def refuser (_ : Request) : Handler := .finish (.error (.envelope Race.refusal))

def heraldEntry : Entry Target := ⟨"GET","/v1/thing",⟨[],refuser⟩⟩

def heraldRequest : Request := { plainRequest with uri := ⟨none,"","/v1/thing",none⟩ }

def heraldSettings : AppSettings :=
  { AppSettings.default with
    controllers := [.ofRoute ⟨"GET","/thing",1,refuser,[]⟩],stages := [herald],secureHeaders := false,notifies := true }

def heraldApp : App := ((App.build heraldSettings).run Race.watched).1

theorem herald_handles {kind : After → Prop} (told : kind fun c x => do
    let _ ← Run.notify c (.new "response")
    return (c,x)) : herald.Handles kind := by
  rintro k c r m c' r' after ⟨⟩
  exact told

theorem herald_leavesTrace : herald.LeavesTrace :=
  ⟨fun _ _ _ _ => rfl,herald_handles ⟨fun _ _ _ => rfl,fun _ _ _ e bears => ⟨e,bears,rfl⟩⟩⟩

theorem heraldStages_leaveTrace :
    ∀ s ∈ heraldSettings.stages ++ heraldSettings.entries.flatMap (·.target.stages), s.LeavesTrace := by
  intro s mem
  have one : s = herald := List.mem_singleton.mp mem
  exact one ▸ herald_leavesTrace

theorem Notice.Carries.unique {notice : Notice} {trace trace' : String} (carries : notice.Carries trace)
    (carries' : notice.Carries trace') : trace = trace' := by
  let sink : Fanout := ⟨[.memory true]⟩
  have same : [(0,trace)] = [(0,trace')] :=
    (carries.sent .unreachable sink).symm.trans (carries'.sent .unreachable sink)
  exact (Prod.mk.inj (List.cons.inj same).1).2

-- The request comes to the pipeline with the trace id of its context, under which it was told of, and gets another.
theorem herald_reaches : ∃ c on m back, heraldApp.Reaches heraldRequest Race.watched heraldEntry c on m back ∧
    c.traceId = Ids.traceText 0 ∧ m.notices = [⟨Ids.traceText 0,.new "request"⟩] ∧ Race.traceOf m = Ids.traceText 2 := by
  have probe : ¬ (heraldRequest.method = "GET" ∧ heraldRequest.uri.path = "/ping") := by decide
  have found : Lookup.of heraldRequest.method heraldRequest.uri.path heraldApp.table = .found heraldEntry [] := rfl
  exact ⟨_,_,_,_,.route rfl probe found rfl,rfl,rfl,rfl⟩

theorem herald_differs : (∀ s ∈ heraldSettings.stages ++ heraldSettings.entries.flatMap (·.target.stages), s.LeavesTrace) ∧
    ∃ c on m back, heraldApp.Reaches heraldRequest Race.watched heraldEntry c on m back ∧
      ∃ notice ∈ m.notices, notice.notification.traceId = none ∧
        ∃ e, ((heraldApp.handle heraldRequest).run Race.watched).1.response.Bears e ∧ ¬ notice.Carries e.traceId ∧
          c.traceId ≠ e.traceId := by
  obtain ⟨c,on,m,back,reaches,born,told,drawn⟩ := herald_reaches
  have other : Ids.traceText 0 ≠ Race.traceOf m := by
    rw [drawn]
    decide
  refine ⟨heraldStages_leaveTrace,c,on,m,back,reaches,⟨Ids.traceText 0,.new "request"⟩,?_,rfl,
    answerTo (Race.traceOf m) (.envelope Race.refusal),?_,?_,?_⟩
  · rw [told]
    exact List.mem_singleton_self _
  · have plain : ∀ s ∈ heraldApp.stages ++ heraldEntry.target.stages, s.Handles After.Plain := by
      refine ListenerSettings.built_each (show _ = heraldApp from rfl)
        (Stage.requestId_handles fun id => Stage.stamp_plain _ id) Stage.secureHeaders_plain ?_
      intro s mem
      obtain rfl := List.mem_singleton.mp mem
      exact herald_handles fun _ _ _ => ⟨rfl,rfl,rfl⟩
    let answer := (heraldApp.pipeline.execute refuser c on).run m
    have executed : answer.1.2.response.Bears (answerTo (Race.traceOf m) (.envelope Race.refusal)) := by
      rw [Race.execute_fails (by decide) rfl]
      exact Response.bears_ofEnvelope _
    obtain ⟨_,body,_⟩ := unwind_plain (reaches.back_of plain) answer.1 answer.2
    rw [App.run_handle reaches rfl]
    exact body.trans executed
  · intro carries
    exact other ((Notice.carries_own rfl).unique carries)
  · rw [born]
    exact other

theorem herald_arrives : ∃ j on, Journey.Arrives heraldApp heraldRequest Race.watched j heraldEntry on ∧
    j.context.traceId = Ids.traceText 0 ∧ Race.traceOf j.machine = Ids.traceText 2 := by
  have began : Journey.Reached heraldApp (.start heraldApp heraldRequest Race.watched) _ := .refl
  have entered := began.step rfl
  have told := entered.step rfl
  have routed := told.step rfl
  exact ⟨_,_,⟨routed,rfl⟩,rfl,rfl⟩

theorem herald_traces : ∃ j on, Journey.Arrives heraldApp heraldRequest Race.watched j heraldEntry on ∧
    Tells (Ids.traceText 0) j.context ∧ Tells (Ids.traceText 2) (j.execute heraldApp heraldEntry on).context := by
  obtain ⟨j,on,arrives,born,drawn⟩ := herald_arrives
  obtain ⟨_,behind⟩ := handle_traces heraldSettings Race.watched Race.watched heraldRequest heraldStages_leaveTrace
  obtain ⟨before,after,_⟩ := behind j heraldEntry on arrives
  have executed := (after _ .refl).1
  rw [← before.id,born] at before
  rw [drawn] at executed
  exact ⟨j,on,arrives,before,executed⟩

end ServiceKit.Server
