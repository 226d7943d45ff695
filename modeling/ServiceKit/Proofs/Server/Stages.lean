import ServiceKit.Proofs.Server.Machine
import ServiceKit.Server.App

namespace ServiceKit.Server

-- How far a request came, with what the stages on its way still do, the innermost first.
inductive Passage where
  | answered (c : Context) (a : Answered) (back : List After)
  | reached (c : Context) (r : Request) (back : List After)

def unwind : List After → Context × Answered → Run (Context × Answered)
  | [],x => return x
  | after :: back,x => do unwind back (← after x.1 x.2)

namespace Passage

def back : Passage → List After
  | .answered _ _ back | .reached _ _ back => back

def around (after : After) : Passage → Passage
  | .answered c a back => .answered c a (back ++ [after])
  | .reached c r back => .reached c r (back ++ [after])

def finish (endpoint : Endpoint) : Passage → Run (Context × Answered)
  | .answered c a back => unwind back (c,a)
  | .reached c r back => do unwind back (← endpoint c r)

theorem back_around (after : After) (p : Passage) : (p.around after).back = p.back ++ [after] := by
  cases p <;> rfl

end Passage

def pass : List Stage → Context → Request → Run Passage
  | [],c,r => return .reached c r []
  | s :: rest,c,r => do
    match ← s.enter rest.length c r with
    | .answers c a => return .answered c a []
    | .proceeds c r after => return (← pass rest c r).around after

theorem unwind_append (back back' : List After) (x : Context × Answered) :
    unwind (back ++ back') x = unwind back x >>= unwind back' := by
  induction back generalizing x with
  | nil => simp [unwind]
  | cons first back ih => simp [unwind,ih]

theorem run_unwind_append (back back' : List After) (x : Context × Answered) (m : Machine) :
    (unwind (back ++ back') x).run m =
      (unwind back' ((unwind back x).run m).1).run ((unwind back x).run m).2 := by
  rw [unwind_append]
  rfl

theorem finish_around (endpoint : Endpoint) (after : After) (p : Passage) :
    (p.around after).finish endpoint = p.finish endpoint >>= fun y => after y.1 y.2 := by
  cases p <;> simp [Passage.around,Passage.finish,unwind_append,unwind]

theorem chain_eq (endpoint : Endpoint) (stages : List Stage) (c : Context) (r : Request) :
    chain endpoint stages c r = pass stages c r >>= Passage.finish endpoint := by
  induction stages generalizing c r with
  | nil => simp [chain,pass,Passage.finish,unwind]
  | cons s rest ih =>
    simp only [chain,pass,bind_assoc]
    refine congrArg (s.enter rest.length c r >>= ·) (funext fun entered => ?_)
    cases entered with
    | answers c a => simp [Passage.finish,unwind]
    | proceeds c r after => simp [ih,finish_around]

section
variable {f : Endpoint} {f? : Context → Request → OptionT Run (Context × Answered)} {s : Stage} {rest stages : List Stage}
  {c own : Context} {r on : Request} {m m' : Machine} {back : List After}

theorem run_chain_cons (f : Endpoint) (s : Stage) (rest : List Stage) (c : Context) (r : Request) (m : Machine) :
    (chain f (s :: rest) c r).run m =
      match (s.enter rest.length c r).run m with
      | (.answers own x,m') => ((own,x),m')
      | (.proceeds own on after,m') => (after ((chain f rest own on).run m').1.1 ((chain f rest own on).run m').1.2).run
          ((chain f rest own on).run m').2 := by
  have ran : (chain f (s :: rest) c r).run m =
      (match ((s.enter rest.length c r).run m).1 with
        | .answers own x => return (own,x)
        | .proceeds own on after => do
          let y ← chain f rest own on
          after y.1 y.2 : Run (Context × Answered)).run ((s.enter rest.length c r).run m).2 := rfl
  rw [ran]
  rcases (s.enter rest.length c r).run m with ⟨entered,_⟩
  cases entered <;> rfl

theorem run_chain_answers {x : Answered} (ran : (s.enter rest.length c r).run m = (.answers own x,m')) :
    (chain f (s :: rest) c r).run m = ((own,x),m') := by
  rw [run_chain_cons,ran]

theorem run_chain_proceeds {after : After} (ran : (s.enter rest.length c r).run m = (.proceeds own on after,m')) :
    (chain f (s :: rest) c r).run m = (after ((chain f rest own on).run m').1.1 ((chain f rest own on).run m').1.2).run
      ((chain f rest own on).run m').2 := by
  rw [run_chain_cons,ran]

def unwound (back : List After) : Option (Context × Answered) × Machine → Option (Context × Answered) × Machine
  | (some x,m) => (some ((unwind back x).run m).1,((unwind back x).run m).2)
  | (none,m) => (none,m)

theorem unwound_append (back : List After) (after : After) (y : Option (Context × Answered) × Machine) :
    unwound (back ++ [after]) y = unwound [after] (unwound back y) := by
  obtain ⟨_ | x,m⟩ := y
  · rfl
  · simp only [unwound,run_unwind_append]

theorem run_chain?_cons (f? : Context → Request → OptionT Run (Context × Answered)) (s : Stage) (rest : List Stage)
    (c : Context) (r : Request) (m : Machine) : (chain f? (s :: rest) c r).run.run m =
      match (s.enter rest.length c r).run m with
      | (.answers own x,m') => (some (own,x),m')
      | (.proceeds own on after,m') => unwound [after] ((chain f? rest own on).run.run m') := by
  have ran : (chain f? (s :: rest) c r).run.run m =
      (match ((s.enter rest.length c r).run m).1 with
        | .answers own x => return (own,x)
        | .proceeds own on after => chain f? rest own on >>= fun y => liftM (after y.1 y.2) :
          OptionT Run (Context × Answered)).run.run ((s.enter rest.length c r).run m).2 := rfl
  rw [ran]
  rcases (s.enter rest.length c r).run m with ⟨entered,m'⟩
  cases entered with
  | answers own x => rfl
  | proceeds own on after =>
    simp only [OptionT.run_bind,Option.elimM,StateT.run_bind]
    show (let y := (chain f? rest own on).run.run m'; _) = unwound [after] ((chain f? rest own on).run.run m')
    rcases (chain f? rest own on).run.run m' with ⟨_ | y,late⟩ <;> rfl

def Endpoint.Covers (f : Endpoint) (f? : Context → Request → OptionT Run (Context × Answered)) : Prop :=
  ∀ c r m x m', (f? c r).run.run m = (some x,m') → (f c r).run m = (x,m')

theorem chain_covers (inner : f.Covers f?) (stages : List Stage) : Endpoint.Covers (chain f stages) (chain f? stages) := by
  induction stages with
  | nil => exact inner
  | cons s rest ih =>
    intro c r m x late given
    rw [run_chain?_cons] at given
    rw [run_chain_cons]
    rcases entered : (s.enter rest.length c r).run m with ⟨_ | ⟨own,on,after⟩,m'⟩
    · rw [entered] at given
      cases given
      rfl
    · rw [entered] at given
      dsimp only at given ⊢
      rcases ran : (chain f? rest own on).run.run m' with ⟨_ | y,behind⟩
      · rw [ran] at given
        cases given
      · rw [ran] at given
        rw [ih own on m' y behind ran]
        cases given
        rfl

end

theorem run_pass_cons (s : Stage) (rest : List Stage) (c : Context) (r : Request) (m : Machine) :
    (pass (s :: rest) c r).run m =
      match ((s.enter rest.length c r).run m).1 with
      | .answers own a => (.answered own a [],((s.enter rest.length c r).run m).2)
      | .proceeds own on after =>
        (((pass rest own on).run ((s.enter rest.length c r).run m).2).1.around after,
          ((pass rest own on).run ((s.enter rest.length c r).run m).2).2) := by
  have ran : (pass (s :: rest) c r).run m =
      (match ((s.enter rest.length c r).run m).1 with
        | .answers own a => return .answered own a []
        | .proceeds own on after => do return (← pass rest own on).around after : Run Passage).run
          ((s.enter rest.length c r).run m).2 := rfl
  rw [ran]
  cases ((s.enter rest.length c r).run m).1 <;> rfl

theorem run_chain?_reached {f? : Context → Request → OptionT Run (Context × Answered)} {stages : List Stage}
    {c own : Context} {r on : Request} {m m' : Machine} {back : List After}
    (passed : (pass stages c r).run m = (.reached own on back,m')) :
    (chain f? stages c r).run.run m = unwound back ((f? own on).run.run m') := by
  induction stages generalizing c r m back with
  | nil =>
    cases passed
    show (f? own on).run.run m' = unwound [] ((f? own on).run.run m')
    rcases (f? own on).run.run m' with ⟨_ | _,_⟩ <;> rfl
  | cons s rest ih =>
    rw [run_pass_cons] at passed
    rw [run_chain?_cons]
    rcases entered : (s.enter rest.length c r).run m with ⟨_ | ⟨own',on',after⟩,late⟩
    · rw [entered] at passed
      cases passed
    · rw [entered] at passed
      dsimp only at passed ⊢
      rcases inner : (pass rest own' on').run late with ⟨_ | _,later⟩
      · rw [inner] at passed
        cases passed
      · rw [inner] at passed
        cases passed
        rw [ih inner,unwound_append]

def Stage.Handles (kind : After → Prop) (s : Stage) : Prop :=
  ∀ k c r m c' r' after, ((s.enter k c r).run m).1 = .proceeds c' r' after → kind after

theorem pass_back {kind : After → Prop} {stages : List Stage} (each : ∀ s ∈ stages, s.Handles kind) (c : Context)
    (r : Request) (m : Machine) : ∀ after ∈ ((pass stages c r).run m).1.back, kind after := by
  induction stages generalizing c r m with
  | nil => exact fun after mem => nomatch mem
  | cons s rest ih =>
    rw [run_pass_cons]
    have first := each s List.mem_cons_self rest.length c r m
    have rest_ := fun s' mem => each s' (List.mem_cons_of_mem s mem)
    split
    · exact fun after mem => nomatch mem
    · next c' r' after entered =>
      intro later mem
      rw [Passage.back_around] at mem
      rcases List.mem_append.mp mem with inner | outer
      · exact ih rest_ c' r' _ later inner
      · obtain rfl := List.mem_singleton.mp outer
        exact first c' r' later entered

def Run.Timeless (f : Run α) : Prop := ∀ m : Machine, (f.run m).2.world.now = m.world.now

theorem Run.Timeless.bind {f : Run α} {g : α → Run β} (first : f.Timeless) (second : ∀ a, (g a).Timeless) :
    (f >>= g).Timeless := by
  intro m
  exact (second (f.run m).1 (f.run m).2).trans (first m)

def After.Timeless (after : After) : Prop := ∀ c a, (after c a).Timeless

structure Stage.Timeless (s : Stage) : Prop where
  enter : ∀ k c r, (s.enter k c r).Timeless
  back : s.Handles After.Timeless

theorem pass_timeless {stages : List Stage} (each : ∀ s ∈ stages, s.Timeless) (c : Context) (r : Request) :
    (pass stages c r).Timeless := by
  induction stages generalizing c r with
  | nil => exact fun _ => rfl
  | cons s rest ih =>
    intro m
    have entered := (each s List.mem_cons_self).enter rest.length c r m
    have rest_ := fun s' mem => each s' (List.mem_cons_of_mem s mem)
    rw [run_pass_cons]
    split
    · exact entered
    · next c' r' _ _ => exact (ih rest_ c' r' _).trans entered

theorem unwind_timeless {back : List After} (each : ∀ after ∈ back, after.Timeless) (x : Context × Answered) :
    (unwind back x).Timeless := by
  induction back generalizing x with
  | nil => exact fun _ => rfl
  | cons after back ih =>
    have first := each after List.mem_cons_self x.1 x.2
    exact first.bind (ih fun after' mem => each after' (List.mem_cons_of_mem after mem))

def Answered.Same (a b : Answered) : Prop :=
  b.response.status = a.response.status ∧ b.response.body = a.response.body ∧ b.completion = a.completion

def After.Plain (after : After) : Prop := ∀ c (a : Answered) m, a.Same ((after c a).run m).1.2

theorem unwind_plain {back : List After} (each : ∀ after ∈ back, after.Plain) (x : Context × Answered) (m : Machine) :
    x.2.Same ((unwind back x).run m).1.2 := by
  induction back generalizing x m with
  | nil => exact ⟨rfl,rfl,rfl⟩
  | cons after back ih =>
    obtain ⟨status,body,completion⟩ := each after List.mem_cons_self x.1 x.2 m
    obtain ⟨status',body',completion'⟩ := ih (fun after' mem => each after' (List.mem_cons_of_mem after mem))
      ((after x.1 x.2).run m).1 ((after x.1 x.2).run m).2
    exact ⟨status'.trans status,body'.trans body,completion'.trans completion⟩

namespace Stage

def chosenId (r : Request) (m : Machine) : String := (incomingId r).getD m.world.freshRequestId.1

theorem run_requestId (k : Nat) (c : Context) (r : Request) (m : Machine) : ∃ m',
    (requestId.enter k c r).run m =
      (.proceeds { c with requestId := some (chosenId r m) } { r with stampedId := some (chosenId r m) }
        fun c a => return (c,stamp requestIdHeader (chosenId r m) a),m') ∧
      m'.world.now = m.world.now := by
  let c' := { c with requestId := some (chosenId r m) }
  cases given : incomingId r with
  | some id =>
    have chosen : chosenId r m = id := by rw [chosenId,given,Option.getD_some]
    refine ⟨((Run.record c' "request_id" id).run m).2,?_,(Run.keeps_record c' "request_id" id m).2⟩
    simp only [requestId,given,c',chosen]
    rfl
  | none =>
    let id := m.world.freshRequestId.1
    let drawn := { m with world := m.world.freshRequestId.2 }
    have chosen : chosenId r m = id := by rw [chosenId,given,Option.getD_none]
    refine ⟨((Run.record c' "request_id" id).run drawn).2,?_,(Run.keeps_record c' "request_id" id drawn).2⟩
    simp only [requestId,given,c',chosen]
    rfl

theorem stamp_same (name value : String) (a : Answered) : a.Same (stamp name value a) := by
  unfold stamp
  split <;> exact ⟨rfl,rfl,rfl⟩

theorem stamp_plain (name value : String) : After.Plain fun c a => return (c,stamp name value a) :=
  fun _ a _ => stamp_same name value a

theorem requestId_handles {kind : After → Prop} (each : ∀ id, kind fun c a => return (c,stamp requestIdHeader id a)) :
    requestId.Handles kind := by
  intro k c r m c' r' after proceeds
  obtain ⟨_,ran,_⟩ := run_requestId k c r m
  rw [ran] at proceeds
  cases proceeds
  exact each (chosenId r m)

theorem requestId_timeless : requestId.Timeless := by
  refine ⟨?_,requestId_handles fun _ _ _ _ => rfl⟩
  intro k c r m
  obtain ⟨_,ran,now⟩ := run_requestId k c r m
  rw [ran]
  exact now

theorem secureHeaders_timeless : secureHeaders.Timeless := by
  refine ⟨fun _ _ _ _ => rfl,?_⟩
  intro k c r m c' r' after proceeds
  cases proceeds
  exact fun _ _ _ => rfl

theorem secureHeaders_plain : secureHeaders.Handles After.Plain := by
  intro k c r m c' r' after proceeds
  cases proceeds
  exact fun _ _ _ => ⟨rfl,rfl,rfl⟩

end Stage

-- What holds of the two and of the stages that an application is given holds of all that it has.
theorem App.build_each {settings : AppSettings} {first : Machine} {kind : Stage → Prop} (id : kind Stage.requestId)
    (headers : kind Stage.secureHeaders) (given : ∀ s ∈ settings.stages, kind s) :
    ∀ s ∈ ((App.build settings).run first).1.stages, kind s := by
  intro s mem
  have stages : ((App.build settings).run first).1.stages =
      Stage.requestId :: ((if settings.secureHeaders then [Stage.secureHeaders] else []) ++ settings.stages) := rfl
  rw [stages] at mem
  rcases List.mem_cons.mp mem with rfl | mem
  · exact id
  · rcases List.mem_append.mp mem with second | user
    · split at second
      · rw [List.mem_singleton.mp second]
        exact headers
      · cases second
    · exact given s user

end ServiceKit.Server
