import ServiceKit.Proofs.Server.Lookup
import ServiceKit.Proofs.Server.Stages
import ServiceKit.Server.Journey

namespace ServiceKit.Server

def Call.letsOn (s : Stage) : Call := .enters s none

-- Stages resume one after another, each with the answer that the one before it left.
inductive Returns : List Stage → Answered → List Call → Answered → Prop where
  | nil : Returns [] x [] x
  | cons (later : Returns rest y calls z) : Returns (s :: rest) x (.resumes s x y :: calls) z

-- The calls of stages around what they enclose: one answers, and what comes after it is not met; or all let the request
-- on. Those that let it on resume.
inductive Passes (enclosed : List Call → Answered → Prop) (stages : List Stage) : List Call → Answered → Prop where
  | stopped (split : stages = met ++ s :: unmet) (back : Returns met.reverse x more z) :
      Passes enclosed stages (met.map Call.letsOn ++ .enters s (some x) :: more) z
  | through (inner : enclosed calls x) (back : Returns stages.reverse x more z) :
      Passes enclosed stages (stages.map Call.letsOn ++ calls ++ more) z

inductive Refuses (table : List (Entry Target)) (r : Request) : Response → Prop where
  | probe (probe : r.method = "GET" ∧ r.uri.path = "/ping") : Refuses table r App.pong
  | notAllowed (other : ¬ (r.method = "GET" ∧ r.uri.path = "/ping"))
      (listed : Lookup.of r.method r.uri.path table = .methodNotAllowed allowed) :
      Refuses table r (App.notAllowed allowed)
  | notFound (other : ¬ (r.method = "GET" ∧ r.uri.path = "/ping"))
      (nothing : Lookup.of r.method r.uri.path table = .notFound) : Refuses table r App.notFound

inductive Executed (e : Entry Target) : List Call → Answered → Prop where
  | once : Executed e [.executes e x] x

inductive Routed (table : List (Entry Target)) : List Call → Answered → Prop where
  | refused (refuses : Refuses table r response) : Routed table [.routes r (some (.plain response))] (.plain response)
  | found (other : ¬ (r.method = "GET" ∧ r.uri.path = "/ping"))
      (found : Lookup.of r.method r.uri.path table = .found e params)
      (inside : Passes (Executed e) e.target.stages calls x) : Routed table (.routes r none :: calls) x

section
variable {rest xs ys : List Stage} {x y z : Answered} {calls more : List Call} {kind : List Call → Answered → Prop}

theorem Returns.append (first : Returns xs x calls y) (second : Returns ys y more z) :
    Returns (xs ++ ys) x (calls ++ more) z := by
  induction first with
  | nil => exact second
  | cons _ ih => exact .cons (ih second)

theorem Returns.last (back : Returns xs x calls y) (s : Stage) (z : Answered) :
    Returns (xs ++ [s]) x (calls ++ [.resumes s y z]) z :=
  back.append (.cons .nil)

theorem Passes.bare (inner : kind calls x) : Passes kind [] calls x := by
  have returns : Returns ([] : List Stage).reverse x [] x := .nil
  simpa using Passes.through inner returns

theorem Passes.answered (s : Stage) (rest : List Stage) (x : Answered) :
    Passes kind (s :: rest) [.enters s (some x)] x := by
  have alone : s :: rest = [] ++ s :: rest := rfl
  exact .stopped alone .nil

theorem Passes.around (s : Stage) (passes : Passes kind rest calls x) (y : Answered) :
    Passes kind (s :: rest) (Call.letsOn s :: (calls ++ [.resumes s x y])) y := by
  cases passes with
  | @stopped met t unmet a more _ split back =>
    have whole : s :: rest = (s :: met) ++ t :: unmet := congrArg (s :: ·) split
    have returns : Returns (s :: met).reverse a (more ++ [.resumes s x y]) y := by
      rw [List.reverse_cons]
      exact back.last s y
    have stopped : Passes kind (s :: rest) _ y := .stopped whole returns
    simpa using stopped
  | @through calls a more _ inner back =>
    have returns : Returns (s :: rest).reverse a (more ++ [.resumes s x y]) y := by
      rw [List.reverse_cons]
      exact back.last s y
    simpa using Passes.through inner returns

end

namespace Journey
variable {a : App} {j k l : Journey} {bound : Bound} {f : Endpoint} {kind : List Call → Answered → Prop}

theorem Reached.trans (first : Reached a j k) (second : Reached a k l) : Reached a j l := by
  induction second with
  | refl => exact first
  | step _ moved ih => exact ih.step moved

theorem Reached.first (moved : j.next a = some k) (path : Reached a k l) : Reached a j l :=
  (Reached.refl.step moved).trans path

theorem Reached.moved (path : Reached a j l) : l = j ∨ ∃ k, j.next a = some k ∧ Reached a k l := by
  induction path with
  | refl => exact .inl rfl
  | @step k l _ moved ih =>
    rcases ih with rfl | ⟨first,next,path⟩
    · exact .inr ⟨l,moved,.refl⟩
    · exact .inr ⟨first,next,path.step moved⟩

theorem Reached.onward (path : Reached a j k) (whole : Reached a j l) (ended : l.next a = none) : Reached a k l := by
  induction path with
  | refl => exact whole
  | @step k k' _ moved ih =>
    rcases ih.moved with rfl | ⟨next,moved',path⟩
    · rw [ended] at moved
      cases moved
    · rw [moved] at moved'
      cases moved'
      exact path

-- A journey with some stages before it makes calls of a kind and comes back with what an endpoint gives.
def Brings (a : App) (bound : Bound) (stages : List Stage) (f : Endpoint) (kind : List Call → Answered → Prop) : Prop :=
  ∀ c r m back calls, ∃ made, kind made ((f c r).run m).1.2 ∧
    Reached a ⟨m,c,.inwards bound stages r,back,calls⟩
      ⟨((f c r).run m).2,((f c r).run m).1.1,.outwards ((f c r).run m).1.2,back,calls ++ made⟩

theorem enter_answers {rest : List Stage} (ran : (s.enter rest.length j.context r).run j.machine = (.answers c x,m)) :
    j.enter bound s rest r = ⟨m,c,.outwards x,j.back,j.calls ++ [.enters s (some x)]⟩ := by
  rw [Journey.enter,ran]

theorem enter_proceeds {rest : List Stage}
    (ran : (s.enter rest.length j.context r).run j.machine = (.proceeds c on after,m)) :
    j.enter bound s rest r = ⟨m,c,.inwards bound rest on,(s,after) :: j.back,j.calls ++ [.letsOn s]⟩ := by
  rw [Journey.enter,ran]
  rfl

theorem brings_chain (inner : Brings a bound [] f kind) (stages : List Stage) :
    Brings a bound stages (chain f stages) (Passes kind stages) := by
  induction stages with
  | nil =>
    intro c r m back calls
    obtain ⟨made,enclosed,path⟩ := inner c r m back calls
    exact ⟨made,.bare enclosed,path⟩
  | cons s rest ih =>
    intro c r m back calls
    let j : Journey := ⟨m,c,.inwards bound (s :: rest) r,back,calls⟩
    have entered : j.next a = some (j.enter bound s rest r) := rfl
    rcases ran : (s.enter rest.length c r).run m with ⟨outcome,m'⟩
    cases outcome with
    | answers own x =>
      rw [enter_answers ran] at entered
      rw [run_chain_answers ran]
      exact ⟨_,.answered s rest x,.step .refl entered⟩
    | proceeds own on after =>
      rw [enter_proceeds ran] at entered
      rw [run_chain_proceeds ran]
      obtain ⟨made,passes,path⟩ := ih own on m' ((s,after) :: back) (calls ++ [Call.letsOn s])
      refine ⟨_,passes.around s _,.first entered ?_⟩
      have listed (last : Call) :
          calls ++ Call.letsOn s :: (made ++ [last]) = calls ++ [Call.letsOn s] ++ made ++ [last] := by simp
      rw [listed]
      exact path.step rfl

theorem brings_execute (a : App) (e : Entry Target) :
    Brings a (.handler e) [] (a.pipeline.execute e.target.handler) (Executed e) :=
  fun _ _ _ _ _ => ⟨_,.once,.step .refl rfl⟩

theorem brings_route (a : App) : Brings a .router [] a.route (Routed a.table) := by
  intro c r m back calls
  let j : Journey := ⟨m,c,.inwards .router [] r,back,calls⟩
  have routed : j.next a = some (j.route a r) := rfl
  unfold Journey.route at routed
  unfold App.route App.routeBy
  by_cases probe : r.method = "GET" ∧ r.uri.path = "/ping"
  · rw [if_pos probe] at routed ⊢
    exact ⟨_,.refused (.probe probe),.step .refl routed⟩
  · rw [if_neg probe] at routed ⊢
    cases looked : Lookup.of r.method r.uri.path a.table with
    | notFound =>
      rw [looked] at routed
      exact ⟨_,.refused (.notFound probe looked),.step .refl routed⟩
    | methodNotAllowed allowed =>
      rw [looked] at routed
      exact ⟨_,.refused (.notAllowed probe looked),.step .refl routed⟩
    | found e params =>
      rw [looked] at routed
      obtain ⟨made,passes,path⟩ := brings_chain (brings_execute a e) e.target.stages c { r with params := params } m back
        (calls ++ [.routes r none])
      refine ⟨_,.found probe looked passes,.first routed ?_⟩
      simpa using path

end Journey

def Route.entry (r : Route) (c : Controller) : Entry Target :=
  ⟨r.method,r.fullPath c.path,⟨c.stages ++ r.stages,r.handler⟩⟩

def AppSettings.entries (settings : AppSettings) : List (Entry Target) := settings.controllers.flatMap Controller.entries

structure AppSettings.Finds (settings : AppSettings) (r : Request) (c : Controller) (route : Route) : Prop where
  other : ¬ (r.method = "GET" ∧ r.uri.path = "/ping")
  owner : c ∈ settings.controllers
  listed : route ∈ c.routes
  found : ∃ params, Lookup.of r.method r.uri.path settings.entries = .found (route.entry c) params

-- The calls of a request's whole way. A stage around the router answers; or the router does; or a stage of the route
-- that was found; or the handler of that route. All stages that come before are let on, none that comes after is met,
-- and those that let the request on resume from the innermost on.
inductive Nested (settings : AppSettings) (around : List Stage) : List Call → Answered → Prop where
  | stopped (split : around = met ++ s :: unmet) (back : Returns met.reverse x more z) :
      Nested settings around (met.map Call.letsOn ++ .enters s (some x) :: more) z
  | refused (refuses : Refuses settings.entries r response) (back : Returns around.reverse (.plain response) more z) :
      Nested settings around (around.map Call.letsOn ++ .routes r (some (.plain response)) :: more) z
  | stoppedInside (finds : settings.Finds r c route) (split : c.stages ++ route.stages = met ++ s :: unmet)
      (back : Returns (around ++ met).reverse x more z) :
      Nested settings around
        (around.map Call.letsOn ++ .routes r none :: (met.map Call.letsOn ++ .enters s (some x) :: more)) z
  | executed (finds : settings.Finds r c route)
      (back : Returns (around ++ (c.stages ++ route.stages)).reverse x more z) :
      Nested settings around (around.map Call.letsOn ++ .routes r none ::
        ((c.stages ++ route.stages).map Call.letsOn ++ .executes (route.entry c) x :: more)) z

section
variable {settings : AppSettings} {around : List Stage} {calls : List Call} {z : Answered}

theorem AppSettings.finds {e : Entry Target} {r : Request} {params : Http.Params}
    (other : ¬ (r.method = "GET" ∧ r.uri.path = "/ping"))
    (found : Lookup.of r.method r.uri.path settings.entries = .found e params) :
    ∃ c route, e = route.entry c ∧ settings.Finds r c route := by
  obtain ⟨c,owner,member⟩ := List.mem_flatMap.mp (Lookup.mem_of_found found)
  obtain ⟨route,mem,rfl⟩ := List.mem_map.mp member
  exact ⟨c,route,rfl,other,owner,mem,params,found⟩

theorem Passes.nested (passes : Passes (Routed settings.entries) around calls z) : Nested settings around calls z := by
  cases passes with
  | stopped split back => exact .stopped split back
  | through inner back =>
    cases inner with
    | refused refuses => simpa using Nested.refused refuses back
    | found other found inside =>
      obtain ⟨c,route,rfl,finds⟩ := AppSettings.finds other found
      cases inside with
      | @stopped met _ _ _ _ _ split within =>
        have whole := within.append back
        rw [← List.reverse_append] at whole
        simpa using Nested.stoppedInside finds split whole
      | through executes within =>
        cases executes with
        | once =>
          have whole := within.append back
          rw [← List.reverse_append] at whole
          simpa [Route.entry] using Nested.executed finds whole

end

-- Every request's way through every application comes to one end, at which it is back with what the application gives for
-- it, and its calls are nested: first the stage of request ids, then the one of secure headers where it is wanted, then
-- the application's own; then, for the route that was found, its controller's and its own.
theorem handle_nested (settings : AppSettings) (first m : Machine) (r : Request) :
    let a := ((App.build settings).run first).1
    ∃ j answered, Journey.Reached a (.start a r m) j ∧ j.next a = none ∧
      (∀ k, Journey.Reached a (.start a r m) k → Journey.Reached a k j) ∧
      j.heading = .outwards answered ∧ (a.handle r).run m = (answered,j.machine) ∧
      Nested settings (Stage.requestId :: ((if settings.secureHeaders then [Stage.secureHeaders] else []) ++ settings.stages))
        j.calls answered := by
  intro a
  have table : a.table = settings.entries := Lookup.register_table [] settings.entries
  obtain ⟨made,passes,path⟩ := Journey.brings_chain (Journey.brings_route a) a.stages ((a.opens r).run m).1 r
    ((a.opens r).run m).2 [] []
  rw [table] at passes
  exact ⟨_,_,path,rfl,fun k onWay => onWay.onward path rfl,rfl,rfl,passes.nested⟩

end ServiceKit.Server
