import ServiceKit.Proofs.Server.Clock
import ServiceKit.Proofs.Server.Stages
import ServiceKit.Server.Listener

namespace ServiceKit.Server

namespace Race
variable {p : Pipeline} {x : Exchange} {m : Machine}

def Hangs (p : Pipeline) (handler : Request → Handler) (c : Context) (r : Request) (m : Machine) : Prop :=
  ∃ wakes rest own, (((handler { r with limits := p.limits }).runUntil (m.world.now + p.timeout)
    (opened p handler c r m).exchange.given).run (opened p handler c r m).machine).1 = .waiting wakes rest own

theorem run_leave (fresh : x.Fresh) (p : Pipeline) (wakes : Nat) (rest : Handler) (own : Context) (m : Machine) :
    ((p.leave x wakes rest own).run m).1 = x.settledBy .deadline ∧
      ((p.leave x wakes rest own).run m).2.world.now = m.world.now := by
  obtain ⟨m',ran,_,_,_⟩ := Exchange.run_answer fresh p .deadline m
  have now := (Exchange.keeps_answer fresh p .deadline m).2
  rw [ran] at now
  have received : (x.receive p .deadline).run m = (x.settledBy .deadline,m') := by
    rw [receive_fresh fresh]
    exact ran
  have left : (p.leave x wakes rest own).run m = (((x.receive p .deadline).run m).1,
      { ((x.receive p .deadline).run m).2 with pending := ((x.receive p .deadline).run m).2.pending ++
        [⟨wakes,rest,own,((x.receive p .deadline).run m).1⟩] }) := rfl
  rw [left,received]
  exact ⟨rfl,now⟩

theorem run_conclude (fresh : x.Fresh) (p : Pipeline) (h : Handler)
    (hangs : ((h.runUntil (m.world.now + p.timeout) x.given).run m).1 = .waiting wakes rest own) :
    ((p.conclude m.world.now x h).run m).1 = x.settledBy .deadline ∧
      ((p.conclude m.world.now x h).run m).2.world.now = m.world.now + p.timeout := by
  unfold Pipeline.conclude
  split
  · next instant =>
    rw [instant]
    exact run_leave fresh p m.world.now h x.given m
  · let deadline := m.world.now + p.timeout
    let late := ((Run.setNow deadline).run ((h.runUntil deadline x.given).run m).2).2
    have raced : (p.race x deadline h).run m =
        (p.meet x deadline ((h.runUntil deadline x.given).run m).1).run ((h.runUntil deadline x.given).run m).2 := rfl
    have met : (p.race x deadline h).run m = (p.leave x wakes rest own).run late := by
      rw [raced,hangs]
      rfl
    rw [met]
    exact run_leave fresh p wakes rest own late

theorem execute_hangs {handler : Request → Handler} {c : Context} {r : Request} (hangs : Hangs p handler c r m) :
    ((p.execute handler c r).run m).1.2 = ⟨.ofText 504 "timeout",some .timedOut⟩ ∧
      ((p.execute handler c r).run m).2.world.now = m.world.now + p.timeout := by
  obtain ⟨wakes,rest,own,waiting⟩ := hangs
  rw [← opened_now p handler c r m] at waiting
  obtain ⟨settled,now⟩ := run_conclude (opened_fresh p handler c r m) p _ waiting
  rw [opened_now] at settled now
  simp only [run_execute,settled]
  exact ⟨rfl,now⟩

end Race

namespace App
variable {a : App} {r r' : Request} {m m' : Machine} {e : Entry Target} {c : Context} {back : List After}

theorem opens_timeless (a : App) (r : Request) : (a.opens r).Timeless := fun _ => rfl

-- A request passes the stages of an application, is no liveness probe, finds a route and passes its stages: with which
-- context, request and machine it comes to the pipeline, and what the stages do with the response.
inductive Reaches (a : App) (r : Request) (m : Machine) (e : Entry Target) :
    Context → Request → Machine → List After → Prop where
  | route {c r₁ m₁ outer params c' r' m' inner}
      (passed : (pass a.stages ((a.opens r).run m).1 r).run ((a.opens r).run m).2 = (.reached c r₁ outer,m₁))
      (probe : ¬ (r₁.method = "GET" ∧ r₁.uri.path = "/ping"))
      (found : Lookup.of r₁.method r₁.uri.path a.table = .found e params)
      (entered : (pass e.target.stages c { r₁ with params := params }).run m₁ = (.reached c' r' inner,m')) :
      Reaches a r m e c' r' m' (inner ++ outer)

theorem run_route (probe : ¬ (r.method = "GET" ∧ r.uri.path = "/ping"))
    (found : Lookup.of r.method r.uri.path a.table = .found e params)
    (entered : (pass e.target.stages c { r with params := params }).run m = (.reached c' r' back,m')) :
    (a.route c r).run m = (unwind back ((a.pipeline.execute e.target.handler c' r').run m').1).run
      ((a.pipeline.execute e.target.handler c' r').run m').2 := by
  have ran : (a.route c r).run m =
      (chain (a.pipeline.execute e.target.handler) e.target.stages c { r with params := params }).run m := by
    unfold App.route App.routeBy
    rw [if_neg probe,found]
  rw [ran,chain_eq,StateT.run_bind,entered]
  rfl

theorem run_handle (reaches : a.Reaches r m e c r' m' back)
    (executed : (a.pipeline.execute e.target.handler c r').run m' = (x,late)) :
    (a.handle r).run m = (((unwind back x).run late).1.2,((unwind back x).run late).2) := by
  cases reaches with
  | @route c₁ r₁ m₁ outer params _ _ _ inner passed probe found entered =>
    have ran : (a.handle r).run m =
        let y := (chain a.route a.stages ((a.opens r).run m).1 r).run ((a.opens r).run m).2
        (y.1.2,y.2) := rfl
    have finished : (Passage.finish a.route (.reached c₁ r₁ outer)).run m₁ =
        (unwind outer ((a.route c₁ r₁).run m₁).1).run ((a.route c₁ r₁).run m₁).2 := rfl
    rw [run_route probe found entered,executed] at finished
    rw [ran,chain_eq,StateT.run_bind,passed]
    simp only [run_unwind_append]
    show (let y := (Passage.finish a.route (.reached c₁ r₁ outer)).run m₁; (y.1.2,y.2)) = _
    rw [finished]

theorem run_handle?_chain (a : App) (r : Request) (m : Machine) : (a.handle? r).run.run m =
    let y := (chain a.route? a.stages ((a.opens r).run m).1 r).run.run ((a.opens r).run m).2
    (y.1.map (·.2),y.2) := by
  have opened : (a.handle? r).run.run m = ((do
      let y ← chain a.route? a.stages ((a.opens r).run m).1 r
      return y.2 : OptionT Run Answered)).run.run ((a.opens r).run m).2 := rfl
  rw [opened]
  simp only [OptionT.run_bind,Option.elimM,StateT.run_bind]
  show (let y := (chain a.route? a.stages ((a.opens r).run m).1 r).run.run ((a.opens r).run m).2; _) = _
  rcases (chain a.route? a.stages ((a.opens r).run m).1 r).run.run ((a.opens r).run m).2 with ⟨_ | _,_⟩ <;> rfl

-- Where the pipeline panics nothing comes back, and no stage sees anything of it.
theorem run_handle? (reaches : a.Reaches r m e c r' m' back) : (a.handle? r).run.run m =
    let y := unwound back ((a.pipeline.execute? e.target.handler c r').run.run m')
    (y.1.map (·.2),y.2) := by
  cases reaches with
  | @route c₁ r₁ m₁ outer params _ _ _ inner passed probe found entered =>
    have routed : (a.route? c₁ r₁).run.run m₁ =
        unwound inner ((a.pipeline.execute? e.target.handler c r').run.run m') := by
      rw [← run_chain?_reached entered]
      unfold App.route? App.routeBy
      rw [if_neg probe,found]
    rw [run_handle?_chain,run_chain?_reached passed,routed]
    rcases (a.pipeline.execute? e.target.handler c r').run.run m' with ⟨_ | x,late⟩
    · rfl
    · simp only [unwound,run_unwind_append]

theorem execute_covers (p : Pipeline) (handler : Request → Handler) :
    Endpoint.Covers (p.execute handler) (p.execute? handler) := by
  intro c r m x m' given
  cases told : Clock.later? m.world.now p.timeout with
  | none =>
    rw [Race.run_execute?_none told] at given
    cases given
  | some deadline =>
    rw [Race.run_execute?_of told] at given
    cases given
    rfl

theorem route_covers (a : App) : Endpoint.Covers a.route a.route? := by
  intro c r m x m' given
  unfold App.route? App.routeBy at given
  unfold App.route App.routeBy
  split at given
  · next probe =>
    rw [if_pos probe]
    cases given
    rfl
  · next probe =>
    rw [if_neg probe]
    cases looked : Lookup.of r.method r.uri.path a.table with
    | found e params =>
      rw [looked] at given
      exact chain_covers (execute_covers a.pipeline e.target.handler) e.target.stages c _ m x m' given
    | methodNotAllowed allowed | notFound =>
      rw [looked] at given
      cases given
      rfl

-- What any request is answered with, it is answered with where the clock is taken to tell the deadline.
theorem handle_covers {x : Answered} (given : (a.handle? r).run.run m = (some x,m')) : (a.handle r).run m = (x,m') := by
  rw [run_handle?_chain] at given
  rcases ran : (chain a.route? a.stages ((a.opens r).run m).1 r).run.run ((a.opens r).run m).2 with ⟨_ | y,late⟩
  · rw [ran] at given
    cases given
  · rw [ran] at given
    cases given
    have same := chain_covers (route_covers a) a.stages _ r _ y _ ran
    show (let z := (chain a.route a.stages ((a.opens r).run m).1 r).run ((a.opens r).run m).2; (z.1.2,z.2)) = _
    rw [same]

theorem Reaches.back_of {kind : After → Prop} (reaches : a.Reaches r m e c r' m' back)
    (each : ∀ s ∈ a.stages ++ e.target.stages, s.Handles kind) : ∀ after ∈ back, kind after := by
  cases reaches with
  | @route c₁ r₁ m₁ outer params _ _ _ inner passed _ _ entered =>
    have first := pass_back (fun s mem => each s (List.mem_append_left _ mem)) ((a.opens r).run m).1 r
      ((a.opens r).run m).2
    have second := pass_back (fun s mem => each s (List.mem_append_right _ mem)) c₁ { r₁ with params := params } m₁
    rw [passed] at first
    rw [entered] at second
    intro after mem
    rcases List.mem_append.mp mem with inner | outer
    · exact second after inner
    · exact first after outer

theorem Reaches.timeless (reaches : a.Reaches r m e c r' m' back)
    (each : ∀ s ∈ a.stages ++ e.target.stages, s.Timeless) : m'.world.now = m.world.now := by
  cases reaches with
  | @route c₁ r₁ m₁ outer params _ _ _ inner passed _ _ entered =>
    have first := pass_timeless (fun s mem => each s (List.mem_append_left _ mem)) ((a.opens r).run m).1 r
      ((a.opens r).run m).2
    have second := pass_timeless (fun s mem => each s (List.mem_append_right _ mem)) c₁ { r₁ with params := params } m₁
    rw [passed] at first
    rw [entered] at second
    exact second.trans (first.trans (opens_timeless a r m))

def overdue : Answered := ⟨.ofText 504 "timeout",some .timedOut⟩

theorem handle_hangs (reaches : a.Reaches r m e c r' m' back)
    (each : ∀ s ∈ a.stages ++ e.target.stages, s.Timeless)
    (hangs : Race.Hangs a.pipeline e.target.handler c r' m')
    (told : m.world.now + a.pipeline.timeout ≤ Clock.last) :
    ∃ own late ending, (a.handle? r).run.run m = (some ((unwind back (own,overdue)).run late).1.2,ending) ∧
      ending.world.now = m.world.now + a.pipeline.timeout := by
  obtain ⟨answered,now⟩ := Race.execute_hangs hangs
  let x := ((a.pipeline.execute e.target.handler c r').run m').1
  let late := ((a.pipeline.execute e.target.handler c r').run m').2
  rw [← reaches.timeless each] at told
  have executed : (a.pipeline.execute? e.target.handler c r').run.run m' = (some (x.1,overdue),late) := by
    rw [Race.run_execute?_of (Clock.later?_eq_some_iff.mpr ⟨told,rfl⟩),← show x.2 = overdue from answered]
  have still := unwind_timeless (reaches.back_of fun s mem => (each s mem).back) (x.1,overdue) late
  refine ⟨x.1,late,((unwind back (x.1,overdue)).run late).2,by rw [run_handle? reaches,executed]; rfl,?_⟩
  rw [still,now,reaches.timeless each]

theorem handle_panics (reaches : a.Reaches r m e c r' m' back)
    (each : ∀ s ∈ a.stages ++ e.target.stages, s.Timeless) (untold : Clock.last < m.world.now + a.pipeline.timeout) :
    ∃ ending, (a.handle? r).run.run m = (none,ending) := by
  rw [← reaches.timeless each] at untold
  have late : Clock.later? m'.world.now a.pipeline.timeout = none := if_neg (Nat.not_le.mpr untold)
  refine ⟨((Pipeline.identify c).run m').2,?_⟩
  rw [run_handle? reaches,Race.run_execute?_none late]
  rfl

end App

def Incoming.whole (i : Incoming) (body : Text.Bytes) : Request :=
  { i.request with body := body,remote := some i.remote.text }

namespace ListenerSettings
variable {conf : Config} {settings : AppSettings} {s : ListenerSettings} {a : App} {i : Incoming} {m m' : Machine}

theorem run_answer (read : readBody s.maxBodyBytes s.readTimeout [] i.body = .ok body)
    (handled : (a.handle? (i.whole body)).run.run m = (answered,late)) : (s.answer a i).run m =
      (if late.world.now - m.world.now ≤ s.writeTimeout then answered else none,late) := by
  have ran : (s.answer a i).run m =
      let y := (a.handle? (i.whole body)).run.run m
      (if y.2.world.now - m.world.now ≤ s.writeTimeout then y.1 else none,y.2) := by
    unfold ListenerSettings.answer
    rw [read]
    rfl
  rw [ran,handled]

theorem answer_overdue {body : Text.Bytes} {e : Entry Target} {c : Context} {r : Request} {back : List After}
    (read : readBody s.maxBodyBytes s.readTimeout [] i.body = .ok body)
    (reaches : a.Reaches (i.whole body) m e c r m' back)
    (each : ∀ stage ∈ a.stages ++ e.target.stages, stage.Timeless)
    (hangs : Race.Hangs a.pipeline e.target.handler c r m')
    (told : m.world.now + a.pipeline.timeout ≤ Clock.last) : ∃ own late ending,
      (s.answer a i).run m = (if a.pipeline.timeout ≤ s.writeTimeout then
        some ((unwind back (own,App.overdue)).run late).1.2 else none,ending) ∧
      ending.world.now = m.world.now + a.pipeline.timeout := by
  obtain ⟨own,late,ending,handled,now⟩ := App.handle_hangs reaches each hangs told
  refine ⟨own,late,ending,?_,now⟩
  rw [run_answer read handled,now,Nat.add_sub_cancel_left]

-- What holds of the stages that any application has and of those that this one is given holds of all on the way.
theorem built_each {first : Machine} {e : Entry Target} {kind : Stage → Prop}
    (built : ((App.build settings).run first).1 = a) (id : kind Stage.requestId) (headers : kind Stage.secureHeaders)
    (given : ∀ s ∈ settings.stages ++ e.target.stages, kind s) : ∀ s ∈ a.stages ++ e.target.stages, kind s := by
  cases built
  intro s mem
  rcases List.mem_append.mp mem with global | own
  · exact App.build_each id headers (fun s mem => given s (List.mem_append_left _ mem)) s global
  · exact given s (List.mem_append_right _ own)

-- A listener and an application of one configuration, and a request whose body was read and that reaches a route whose
-- handler hangs, through stages that take no time. If the clock can tell the deadline and the bound on responses is no
-- shorter, there is one response, the one of the deadline, when the deadline has passed; otherwise there is none.
theorem answer_hanging {first : Machine} {body : Text.Bytes} {e : Entry Target} {c : Context} {r : Request}
    {back : List After} (built : ((App.build settings).run first).1 = a)
    (timeout : settings.timeout = (AppSettings.ofConfig conf).timeout)
    (read : readBody (ofConfig conf).maxBodyBytes (ofConfig conf).readTimeout [] i.body = .ok body)
    (reaches : a.Reaches (i.whole body) m e c r m' back)
    (timeless : ∀ stage ∈ settings.stages ++ e.target.stages, stage.Timeless)
    (hangs : Race.Hangs a.pipeline e.target.handler c r m') :
    (m.world.now + (conf .apiTimeout : Nat) * 1000 ≤ Clock.last →
      ((conf .apiTimeout : Nat) ≤ conf .writeTimeout → ∃ answered own late,
        (((ofConfig conf).answer a i).run m).1 = some answered ∧
        (((ofConfig conf).answer a i).run m).2.world.now = m.world.now + (conf .apiTimeout : Nat) * 1000 ∧
        answered = ((unwind back (own,App.overdue)).run late).1.2 ∧
        ((∀ stage ∈ settings.stages ++ e.target.stages, stage.Handles After.Plain) → App.overdue.Same answered)) ∧
      ((conf .writeTimeout : Nat) < conf .apiTimeout → (((ofConfig conf).answer a i).run m).1 = none)) ∧
    (Clock.last < m.world.now + (conf .apiTimeout : Nat) * 1000 → (((ofConfig conf).answer a i).run m).1 = none) := by
  have each : ∀ stage ∈ a.stages ++ e.target.stages, stage.Timeless :=
    built_each built Stage.requestId_timeless Stage.secureHeaders_timeless timeless
  have deadline : a.pipeline.timeout = (conf .apiTimeout : Nat) * 1000 := by
    rw [← built]
    exact timeout
  have bound : (ofConfig conf).writeTimeout = (conf .writeTimeout : Nat) * 1000 := rfl
  rw [← deadline]
  refine ⟨fun told => ?_,fun untold => ?_⟩
  · obtain ⟨own,late,ending,answered,now⟩ := answer_overdue read reaches each hangs told
    rw [deadline] at answered now
    rw [answered,bound,deadline]
    refine ⟨?_,?_⟩
    · intro inTime
      refine ⟨_,own,late,if_pos (Nat.mul_le_mul_right 1000 inTime),now,rfl,?_⟩
      intro plain
      have handles : ∀ stage ∈ a.stages ++ e.target.stages, stage.Handles After.Plain :=
        built_each built (Stage.requestId_handles fun id => Stage.stamp_plain _ id) Stage.secureHeaders_plain plain
      exact unwind_plain (reaches.back_of handles) (own,App.overdue) late
    · intro tooLate
      exact if_neg (Nat.not_le.mpr (Nat.mul_lt_mul_of_pos_right tooLate (by decide)))
  · obtain ⟨ending,panicked⟩ := App.handle_panics reaches each untold
    rw [run_answer read panicked]
    exact ite_self none

def slowHandler (_ : Request) : Handler := .act (.sleep 20000) fun _ => .finish (.ok (.ok "late"))

def slowEntry : Entry Target := ⟨"GET","/v1/slow",⟨[],slowHandler⟩⟩

def slowRequest : Incoming :=
  ⟨⟨"GET",⟨none,"","/v1/slow",none⟩,[],[],[],none,⟨32,4⟩,none⟩,⟨.v4 ⟨[127,0,0,1]⟩,0,4000⟩,[⟨0,.finished⟩]⟩

def slowSettings (conf : Config) : AppSettings :=
  { AppSettings.ofConfig conf with controllers := [.ofRoute ⟨"GET","/slow",1,slowHandler,[]⟩] }

def slowApp (conf : Config) : App := ((App.build (slowSettings conf)).run (.start [] none)).1

theorem slowHandler_hangs {p : Pipeline} (short : p.timeout ≤ 20000) (c : Context) (r : Request) (m : Machine) :
    Race.Hangs p slowHandler c r m := by
  have now := Race.opened_now p slowHandler c r m
  refine ⟨m.world.now + 20000,.finish (.ok (.ok "late")),(Race.opened p slowHandler c r m).exchange.given,?_⟩
  rw [slowHandler,runUntil_sleep,if_neg (by decide),now,if_neg (by omega)]

theorem slowRequest_reaches (stages : a.stages = [Stage.requestId,Stage.secureHeaders])
    (table : a.table = [slowEntry]) :
    ∃ c r m' back, a.Reaches (slowRequest.whole []) (.start [] none) slowEntry c r m' back := by
  obtain ⟨_,_,_,_,_,_⟩ := a
  cases stages
  cases table
  have found : Lookup.of "GET" "/v1/slow" [slowEntry] = .found slowEntry [] := rfl
  refine ⟨_,_,_,_,.route rfl ?_ found rfl⟩
  show ¬ ("GET" = "GET" ∧ "/v1/slow" = "/ping")
  decide

theorem slowApp_stages (conf : Config) (secure : conf .secureHeaders = true) :
    (slowApp conf).stages = [Stage.requestId,Stage.secureHeaders] := by
  show Stage.requestId :: ((if conf .secureHeaders = true then [Stage.secureHeaders] else []) ++ []) = _
  rw [if_pos secure]
  rfl

-- With the default settings the listener waits longer than the pipeline.
theorem slow_answered : ∃ answered,
    (((ofConfig .defaults).answer (slowApp .defaults) slowRequest).run (.start [] none)).1 = some answered ∧
    App.overdue.Same answered ∧
    (((ofConfig .defaults).answer (slowApp .defaults) slowRequest).run (.start [] none)).2.world.now = 3000 := by
  obtain ⟨c,r,m',back,reaches⟩ := slowRequest_reaches (slowApp_stages .defaults rfl) rfl
  have hangs := slowHandler_hangs (p := (slowApp .defaults).pipeline) (by decide) c r m'
  have built : ((App.build (slowSettings .defaults)).run (.start [] none)).1 = slowApp .defaults := rfl
  have timeout : (slowSettings .defaults).timeout = (AppSettings.ofConfig .defaults).timeout := rfl
  obtain ⟨told,_⟩ := answer_hanging built timeout rfl reaches (fun stage mem => nomatch mem) hangs
  obtain ⟨inTime,_⟩ := told (by decide)
  obtain ⟨answered,_,_,given,now,_,same⟩ := inTime (by decide)
  refine ⟨answered,given,same (fun stage mem => nomatch mem),?_⟩
  rw [now]
  rfl

-- Settings that are accepted, and with which the listener does not wait for the pipeline.
def impatient : Config := (Config.defaults.set .apiTimeout (5 : Nat)).set .writeTimeout (1 : Nat)

theorem impatient_silent : impatient.validate = .ok () ∧
    (∃ c r m' back, (slowApp impatient).Reaches (slowRequest.whole []) (.start [] none) slowEntry c r m' back ∧
      Race.Hangs (slowApp impatient).pipeline slowHandler c r m') ∧
    (((ofConfig impatient).answer (slowApp impatient) slowRequest).run (.start [] none)).1 = none := by
  obtain ⟨c,r,m',back,reaches⟩ := slowRequest_reaches (slowApp_stages impatient rfl) rfl
  have hangs := slowHandler_hangs (p := (slowApp impatient).pipeline) (by decide) c r m'
  have built : ((App.build (slowSettings impatient)).run (.start [] none)).1 = slowApp impatient := rfl
  have each : ∀ stage ∈ (slowApp impatient).stages ++ slowEntry.target.stages, stage.Timeless :=
    built_each built Stage.requestId_timeless Stage.secureHeaders_timeless fun stage mem => nomatch mem
  have read : readBody (ofConfig impatient).maxBodyBytes (ofConfig impatient).readTimeout [] slowRequest.body =
      .ok [] := rfl
  obtain ⟨_,_,_,answered,_⟩ := answer_overdue read reaches each hangs (by decide)
  refine ⟨rfl,⟨c,r,m',back,reaches,hangs⟩,?_⟩
  rw [answered]
  rfl

end ListenerSettings
end ServiceKit.Server
