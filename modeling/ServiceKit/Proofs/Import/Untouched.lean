import ServiceKit.Proofs.Import.Anonymous
import ServiceKit.Proofs.Import.Errand
import ServiceKit.Proofs.Import.Loss
import ServiceKit.Proofs.Import.Transactions

namespace ServiceKit.Import.Errand
variable {b : Brief σ} {call : Call} {given c : Context} {world w : World} {outside : σ} {s s' t : State σ} {a : Action}
  {as : List Action}

-- What a context shows to whom it is handed.
structure View where
  context : Context
  done : Bool
  remaining : Option Nat
  elapsed : Nat
deriving DecidableEq, Repr

def view (c : Context) (w : World) : View := ⟨c,c.isDone w,c.remaining w,c.elapsed w⟩

theorem view_eq {w' : World} (unbounded : c.deadline = none) (done : c.isDone w = c.isDone w') (now : w.now = w'.now) :
    view c w = view c w' := by
  simp [view,done,Context.remaining,unbounded,Context.elapsed,now]

theorem detached_eq {c' : Context} {w' : World} (twins : { c with deadline := none } = { c' with deadline := none })
    (now : w.now = w'.now) (size : w.tokens.nodes.length = w'.tokens.nodes.length) :
    (c.detached w).1 = (c'.detached w').1 := by
  cases c
  cases c'
  simp only [Context.mk.injEq] at twins
  simp only [Context.detached,World.freshToken,TokenForest.root,Context.mk.injEq]
  grind

def Answered (b : Brief σ) (g : GoodRow → View → Replies) (s : State σ) : Prop :=
  ∀ work worker phase row made, s.stage = .working work → work.pool.workers[worker]? = some phase →
    phase.row? = some row → Worked.call (b.seam s.world) work.own b.span worker work.pool.outside phase = some made →
      made.made.asked.Agrees (g row (view work.own s.world))

def replies (g : GoodRow → View → Replies) (v : View) : Option GoodRow → Replies
  | some row => g row v
  | none => ⟨.returned (),.accepted,.returned (),.returned ()⟩

theorem Answered.agrees {g : GoodRow → View → Replies} {work : Work σ} (answered : Answered b g s)
    (stage : s.stage = .working work) (a : Pool.Action) (worker : Nat) (phase : Phase) (m : Worked σ)
    (calls : a = .call worker) (held : work.pool.workers[worker]? = some phase)
    (made : Worked.call (b.seam s.world) work.own b.span worker work.pool.outside phase = some m) :
    m.made.asked.Agrees (replies g (view work.own s.world) (work.pool.row? a)) := by
  subst calls
  have some_ := Worked.isSome_call (b.seam s.world) work.own b.span worker work.pool.outside phase
  rw [made] at some_
  obtain ⟨row,has⟩ := Option.isSome_iff_exists.mp some_.symm
  simp only [Pool.State.row?,held,Option.bind_some,has]
  exact answered work worker phase row m stage held has made

inductive Stage.Alike : Stage σ → Stage σ → Prop where
  | called {c c' : Context} {outside outside' : σ} (twins : { c with deadline := none } = { c' with deadline := none }) :
      Alike (.called c outside) (.called c' outside')
  | working {work : Work σ} {pool : Pool.State σ} (pools : work.pool.anonymous = pool.anonymous) :
      Alike (.working work) (.working { work with pool := pool })
  | returned {ran ran' : Job.Ran σ} (rans : ran.anonymous = ran'.anonymous) : Alike (.returned ran) (.returned ran')

theorem Stage.Alike.atWork {stage stage' : Stage σ} {work : Work σ} (alike : stage.Alike stage')
    (at_ : stage = .working work) : ∃ work', stage' = .working work' ∧ work'.own = work.own := by
  cases alike with
  | working _ =>
    cases at_
    exact ⟨_,rfl,rfl⟩
  | called _ | returned _ => cases at_

-- States that differ in what was cancelled, and in what an import does not show.
structure State.Alike (s s' : State σ) : Prop where
  now : s.world.now = s'.world.now
  size : s.world.tokens.nodes.length = s'.world.tokens.nodes.length
  notices : s.notices = s'.notices
  stage : s.stage.Alike s'.stage
  done : ∀ work, s.stage = .working work → work.own.isDone s.world = work.own.isDone s'.world

theorem outside_alike {c : Token} (sound : Sound b call given world as s) (alike : s.Alike s')
    (outside : c ≠ call.handed world) (moved : s.act b (.cancel c) = some t) : t.Alike s' := by
  cases moved
  refine ⟨alike.now,(TokenForest.length_cancel _ _).trans alike.size,alike.notices,alike.stage,?_⟩
  intro work stage
  obtain ⟨token,_,cancelled,alone,_⟩ := sound.alone stage
  rw [← alike.done work stage,alone.isDone]
  exact (alone.cancel c).isDone.trans (by simp [token,outside])

theorem cancel_alike {world' : World} {given' : Context} {as' : List Action} {c : Token}
    (sound : Sound b call given world as s) (sound' : Sound b call given' world' as' s') (alike : s.Alike s')
    (moved : s.act b (.cancel c) = some t) : ∃ t', s'.act b (.cancel c) = some t' ∧ t.Alike t' := by
  cases moved
  refine ⟨_,rfl,alike.now,?_,alike.notices,alike.stage,?_⟩
  · exact (TokenForest.length_cancel _ _).trans (alike.size.trans (TokenForest.length_cancel _ _).symm)
  · intro work stage
    obtain ⟨work',stage',own⟩ := alike.stage.atWork stage
    obtain ⟨_,_,cancelled,alone,_⟩ := sound.alone stage
    obtain ⟨_,_,cancelled',alone',_⟩ := sound'.alone stage'
    have same : cancelled = cancelled' := by
      rw [← alone.isDone,← alone'.isDone,own]
      exact alike.done work stage
    rw [own] at alone'
    exact (alone.cancel c).isDone.trans (same ▸ (alone'.cancel c).isDone.symm)

theorem begin_alike (alike : s.Alike s') (moved : s.begin b = some t) : ∃ t', s'.begin b = some t' ∧ t.Alike t' := by
  obtain ⟨w,stage,notices⟩ := s
  obtain ⟨w',stage',notices'⟩ := s'
  obtain ⟨now,size,told,stages,_⟩ := alike
  cases stages with
  | working _ | returned _ => cases moved
  | called twins =>
    simp only [State.begin] at moved ⊢
    cases prepared : b.job.prepare with
    | error e =>
      rw [prepared] at moved
      cases moved
      exact ⟨_,rfl,now,size,told,.returned rfl,fun _ stage => by cases stage⟩
    | ok p =>
      obtain ⟨file,kind⟩ := p
      rw [prepared] at moved
      cases moved
      have own := detached_eq twins now size
      refine ⟨_,rfl,now,?_,told,?_,?_⟩
      · exact (TokenForest.length_root _).trans ((congrArg (· + 1) size).trans (TokenForest.length_root _).symm)
      · rw [own,show w.now = w'.now from now]
        exact .working rfl
      · intro work stage
        cases stage
        refine (alone_detached _ w).isDone.trans (Eq.symm ?_)
        dsimp only
        rw [own]
        exact (alone_detached _ w').isDone

theorem work_alike {g : GoodRow → View → Replies} {a : Pool.Action} (sound : Sound b call given world as s)
    (answered : Answered b g s) (answered' : Answered b g s') (alike : s.Alike s')
    (moved : s.work b a = some t) : ∃ t', s'.work b a = some t' ∧ t.Alike t' := by
  obtain ⟨w,stage,notices⟩ := s
  obtain ⟨w',stage',notices'⟩ := s'
  obtain ⟨now,size,told,stages,done⟩ := alike
  cases stages with
  | called _ | returned _ => cases moved
  | @working work pool pools =>
    obtain ⟨pool₁,acted,rfl⟩ := Option.map_eq_some_iff.mp moved
    obtain ⟨_,_,_,alone,_⟩ := sound.alone rfl
    have shown : view work.own w = view work.own w' := view_eq alone.deadline (done work rfl) now
    have same : work.pool.row? a = pool.row? a := by
      rw [← work.pool.row?_anonymous,pools,pool.row?_anonymous]
    have agrees := answered.agrees rfl a
    have agrees' := answered'.agrees rfl a
    simp only [← shown,← same] at agrees'
    have settings : (b.setting work.own w).replying (replies g (view work.own w) (work.pool.row? a)) =
        (b.setting work.own w').replying (replies g (view work.own w) (work.pool.row? a)) := rfl
    obtain ⟨pool₂,acted',still⟩ := Pool.State.act_alike settings pools agrees agrees' acted
    refine ⟨_,Option.map_eq_some_iff.mpr ⟨pool₂,acted',rfl⟩,now,size,told,?_,?_⟩
    · exact .working still
    · intro _ stage
      cases stage
      exact done work rfl

theorem finish_alike (alike : s.Alike s') (moved : s.finish b = some t) :
    ∃ t', s'.finish b = some t' ∧ t.Alike t' := by
  obtain ⟨w,stage,notices⟩ := s
  obtain ⟨w',stage',notices'⟩ := s'
  obtain ⟨now,size,told,stages,_⟩ := alike
  cases stages with
  | called _ | returned _ => cases moved
  | @working work pool pools =>
    have same : (b.leave work w.now).anonymous = (b.leave { work with pool := pool } w'.now).anonymous := by
      rw [Brief.leave,Job.leave_anonymous,pools,show w.now = w'.now from now,← Job.leave_anonymous]
      rfl
    have ended : work.pool.done = pool.done := by
      rw [← work.pool.done_anonymous,pools,pool.done_anonymous]
    simp only [State.finish,← ended] at moved ⊢
    split at moved
    · next finished =>
      cases moved
      refine ⟨_,if_pos finished,now,size,?_,.returned same,fun _ stage => by cases stage⟩
      have notice : (b.leave work w.now).notice = (b.leave { work with pool := pool } w'.now).notice :=
        congrArg (fun r : Job.Ran Unit => r.notice) same
      dsimp only
      rw [notice,show notices = notices' from told]
    · cases moved

theorem elapse_alike (alike : s.Alike s') (ms : Nat) (sound : Sound b call given world as s) :
    ({ s with world := s.world.advance ms } : State σ).Alike { s' with world := s'.world.advance ms } := by
  refine ⟨congrArg (· + ms) alike.now,alike.size,alike.notices,alike.stage,?_⟩
  intro work stage
  obtain ⟨_,_,cancelled,alone,_⟩ := sound.alone stage
  have still := alike.done work stage
  simp only [Context.isDone,alone.deadline] at still ⊢
  exact still

theorem act_alike {g : GoodRow → View → Replies} {world' : World} {given' : Context} {as' : List Action}
    (sound : Sound b call given world as s) (sound' : Sound b call given' world' as' s')
    (answered : Answered b g s) (answered' : Answered b g s') (alike : s.Alike s')
    (moved : s.act b a = some t) : ∃ t', s'.act b a = some t' ∧ t.Alike t' := by
  cases a with
  | begin => exact begin_alike alike moved
  | work a => exact work_alike sound answered answered' alike moved
  | finish => exact finish_alike alike moved
  | cancel t => exact cancel_alike sound sound' alike moved
  | elapse ms =>
    cases moved
    exact ⟨_,rfl,elapse_alike alike ms sound⟩

theorem start_alike (call : Call) {given given' : Context} (world : World) (outside : σ)
    (twins : { given with deadline := none } = { given' with deadline := none }) :
    (State.start call given world outside).Alike (.start call given' world outside) := by
  cases call with
  | run => exact ⟨rfl,rfl,rfl,.called twins,fun _ stage => by cases stage⟩
  | spawn =>
    refine ⟨rfl,rfl,rfl,.called ?_,fun _ stage => by cases stage⟩
    rw [detached_eq twins rfl rfl]

-- Whatever the seam is asked in any run from here, with any deadline of the request, its answers depend on the
-- row and on what the context shows.
def Brief.Faithful (b : Brief σ) (call : Call) (given : Context) (world : World) (outside : σ)
    (g : GoodRow → View → Replies) : Prop :=
  ∀ deadline as s, run b (.start call { given with deadline := deadline } world outside) as = some s → Answered b g s

def spared (own : Token) (as : List Action) : List Action :=
  as.filter fun a => match a with
    | .cancel t => t == own
    | _ => true

theorem spared_concat (own : Token) (as : List Action) (a : Action) :
    spared own (as ++ [a]) = spared own as ++ spared own [a] := List.filter_append ..

-- Without the other cancellations and with another deadline the same actions lead to an alike state.
theorem run_alike {g : GoodRow → View → Replies} (faithful : b.Faithful call given world outside g)
    (deadline : Option Nat) (ran : run b (.start call given world outside) as = some s) :
    ∃ s', run b (.start call { given with deadline := deadline } world outside) (spared (call.handed world) as) = some s' ∧
      s.Alike s' := by
  refine run_induction (P := fun as s => ∃ s', run b (.start call { given with deadline := deadline } world outside)
    (spared (call.handed world) as) = some s' ∧ s.Alike s') ?_ ?_ ran
  · exact ⟨_,rfl,start_alike call world outside rfl⟩
  · rintro as s a t before ⟨s',before',alike⟩ moved
    rw [spared_concat]
    have together : spared (call.handed world) [a] = [a] → ∃ t', run b
        (.start call { given with deadline := deadline } world outside) (spared (call.handed world) as ++ [a]) = some t' ∧
          t.Alike t' := by
      intro _
      obtain ⟨t',moved',still⟩ := act_alike (run_sound before) (run_sound before') (faithful given.deadline _ _ before)
        (faithful _ _ _ before') alike moved
      exact ⟨t',(foldlM_concat _ _ _ _).trans (Option.bind_eq_some_iff.mpr ⟨s',before',moved'⟩),still⟩
    cases a with
    | cancel c =>
      by_cases own : c = call.handed world
      · simpa [spared,own] using together
      · have gone : spared (call.handed world) [.cancel c] = [] := by simp [spared,own]
        rw [gone,List.append_nil]
        exact ⟨s',before',outside_alike (run_sound before) alike own moved⟩
    | begin | work _ | finish | elapse _ => exact together rfl

def placesOf (kind : Asked → Bool) (calls : List SeamCall) : List Nat :=
  (calls.filter fun c => kind c.asked).map (·.place)

theorem placesOf_anonymous {kind : Asked → Bool} (blind : ∀ asked, kind asked.anonymous = kind asked)
    (calls : List SeamCall) : placesOf kind (calls.map SeamCall.anonymous) = placesOf kind calls := by
  unfold placesOf
  rw [List.filter_map,List.map_map]
  simp only [Function.comp_def,SeamCall.anonymous,blind]

theorem isCommitted_anonymous (asked : Asked) : asked.anonymous.isCommitted = asked.isCommitted := by
  rcases asked with _ | _ | ⟨_,_ | _ | _⟩ | _ <;> rfl

theorem isRolledBack_anonymous (asked : Asked) : asked.anonymous.isRolledBack = asked.isRolledBack := by
  rcases asked with _ | _ | _ | ⟨_,_ | _ | _⟩ <;> rfl

-- Two imports with the same result, time included, the same calls but for the numbers of transactions, the same
-- rows committed and rolled back, and the same notices.
structure Same (s s' : State σ) : Prop where
  result : s.result? = s'.result?
  calls : s.calls.map SeamCall.anonymous = s'.calls.map SeamCall.anonymous
  committed : placesOf Asked.isCommitted s.calls = placesOf Asked.isCommitted s'.calls
  rolledBack : placesOf Asked.isRolledBack s.calls = placesOf Asked.isRolledBack s'.calls
  notices : s.notices = s'.notices

theorem State.Alike.calls (alike : s.Alike s') :
    s.calls.map SeamCall.anonymous = s'.calls.map SeamCall.anonymous := by
  obtain ⟨w,stage,notices⟩ := s
  obtain ⟨w',stage',notices'⟩ := s'
  cases alike.stage with
  | called _ => rfl
  | working pools => exact congrArg (fun p : Pool.State Unit => p.calls) pools
  | returned rans => exact congrArg (fun r : Job.Ran Unit => r.calls) rans

theorem State.Alike.result (alike : s.Alike s') : s.result? = s'.result? := by
  obtain ⟨w,stage,notices⟩ := s
  obtain ⟨w',stage',notices'⟩ := s'
  cases alike.stage with
  | called _ | working _ => rfl
  | returned rans => exact congrArg (fun r : Job.Ran Unit => r.result) rans

theorem State.Alike.same (alike : s.Alike s') : Same s s' := by
  refine ⟨alike.result,alike.calls,?_,?_,alike.notices⟩
  · rw [← placesOf_anonymous isCommitted_anonymous,alike.calls,placesOf_anonymous isCommitted_anonymous]
  · rw [← placesOf_anonymous isRolledBack_anonymous,alike.calls,placesOf_anonymous isRolledBack_anonymous]

structure Untouched (b : Brief σ) (call : Call) (given : Context) (world : World) (outside : σ) (as : List Action)
    (s : State σ) : Prop where
  -- Any token can be cancelled at any moment, and time can pass.
  cancels : ∀ t, (s.act b (.cancel t)).isSome = true
  elapses : ∀ ms, (s.act b (.elapse ms)).isSome = true
  -- The context that is handed on, at any moment of the work, is not done unless its own token was cancelled.
  sheltered : ∀ work, s.stage = .working work → work.own.token = call.handed world ∧
    (work.own.isDone s.world = true → .cancel (call.handed world) ∈ as) ∧ ∀ c ∈ s.calls, Saw work.own c
  boundless : ∀ c ∈ s.calls, ∀ ctx d tx r, c.asked = .processed ctx d tx r → ctx.deadline = none
  noticed : Noticed b.job given s
  same : ∀ g, b.Faithful call given world outside g → ∀ deadline, ∃ s', Same s s' ∧
    run b (.start call { given with deadline := deadline } world outside) (spared (call.handed world) as) = some s'

-- Whatever is cancelled meanwhile, the same run can be made from a context with any deadline while nothing is cancelled
-- but what the import hands to its row processors; only they can make it done.
theorem run_untouched (ran : run b (.start call given world outside) as = some s) :
    Untouched b call given world outside as s := by
  have sound := run_sound ran
  refine ⟨fun _ => rfl,fun _ => rfl,?_,?_,sound.noticed,?_⟩
  · intro work stage
    obtain ⟨token,saw,cancelled,alone,quit⟩ := sound.alone stage
    exact ⟨token,alone.isDone ▸ quit,saw⟩
  · intro c member ctx d tx r processed
    exact sound.boundless member processed
  · intro g faithful deadline
    obtain ⟨s',ran',alike⟩ := run_alike faithful deadline ran
    exact ⟨s',alike.same,ran'⟩

-- Refuses a row once its context is done, and at all if that has a deadline.
def hasty (v : View) : Processed :=
  if v.done || v.context.deadline.isSome then .refused (.bare "too late") else .accepted

def hastyStock : Brief Unit :=
  ⟨Workbook.plain,[],.any,fun w => .noTransaction fun ctx _ _ u => (hasty (view ctx w),u),none,Pool.stockJob⟩

def counter : World := (World.start.freshToken.2.childToken 0).2
def customer : Context := ⟨none,"trace",some 50,1,none,some 0,none,none,0⟩

def closing : List Action :=
  [.begin,.work .read,.cancel 1,.work .read,.work (.take 0),.work (.call 0),.elapse 100,.work (.call 0),.work (.call 0),
    .work (.report 0),.cancel 0,.work .collect,.work (.take 0),.work (.call 0),.work (.call 0),.work (.call 0),
    .work (.report 0),.work .collect,.work (.leave 0),.finish]

theorem hastyStock_faithful (call : Call) (given : Context) (world : World) :
    hastyStock.Faithful call given world () fun _ v => ⟨.returned (),hasty v,.returned (),.returned ()⟩ := by
  intro deadline as s _ work worker phase row made _ _ _ called
  cases phase with
  | idle | finished | dead _ _ | reporting _ => cases called
  | beginning row | committing row tx | rollingBack row tx e => cases called; rfl
  | processing row tx =>
    simp only [Worked.call] at called
    split at called <;> cases called <;> rfl

-- The request and then its app are cancelled and the deadline passes, and both rows are committed all the same.
theorem closing_untouched : ∃ s, run hastyStock (.start .run customer counter ()) closing = some s ∧
    s.result? = some (.ok ⟨[],2,0,100⟩) ∧ s.notices.map (·.traceId) = ["trace"] ∧ customer.isDone s.world = true ∧
    Untouched hastyStock .run customer counter () closing s ∧
    ∃ s', Same s s' ∧ run hastyStock (.start .run { customer with deadline := none } counter ())
      (closing.filter fun a => decide (a ≠ .cancel 0 ∧ a ≠ .cancel 1)) = some s' := by
  have shown : (run hastyStock (.start .run customer counter ()) closing).map
      (fun s => (s.result?,s.notices.map (·.traceId),customer.isDone s.world)) =
      some (some (.ok ⟨[],2,0,100⟩),["trace"],true) := by decide +kernel
  obtain ⟨s,ran,shown⟩ := Option.map_eq_some_iff.mp shown
  simp only [Prod.mk.injEq] at shown
  obtain ⟨result,announced,late⟩ := shown
  have untouched := run_untouched ran
  exact ⟨s,ran,result,announced,late,untouched,untouched.same _ (hastyStock_faithful _ _ _) none⟩

-- Whoever processes the first row cancels the context that the second is handed too, which nothing of the request was.
def quitting : List Action :=
  [.begin,.work .read,.work .read,.work (.take 0),.work (.call 0),.work (.call 0),.cancel 2,.work (.call 0),
    .work (.report 0),.work .collect,.work (.take 0),.work (.call 0),.work (.call 0)]

def refusedIn? (w : World) : Asked → Option Bool
  | .processed ctx _ _ (.refused _) => some (ctx.isDone w)
  | _ => none

theorem refusedIn?_some {asked : Asked} {done : Bool} (refused : refusedIn? w asked = some done) :
    ∃ ctx d tx e, asked = .processed ctx d tx (.refused e) ∧ ctx.isDone w = done := by
  cases asked with
  | begun _ | committed _ _ | rolledBack _ _ => cases refused
  | processed ctx d tx r =>
    cases r with
    | refused e => exact ⟨ctx,d,tx,e,rfl,Option.some.inj refused⟩
    | _ => cases refused

theorem quitting_refused : ∃ s, run hastyStock (.start .run customer counter ()) quitting = some s ∧
    customer.isDone s.world = false ∧ ∃ c ∈ s.calls, ∃ ctx d tx e, c.asked = .processed ctx d tx (.refused e) ∧
      ctx.deadline = none ∧ ctx.isDone s.world = true := by
  have shown : (run hastyStock (.start .run customer counter ()) quitting).map
      (fun s => (customer.isDone s.world,s.calls.filterMap fun c => refusedIn? s.world c.asked)) =
      some (false,[true]) := by decide +kernel
  obtain ⟨s,ran,shown⟩ := Option.map_eq_some_iff.mp shown
  simp only [Prod.mk.injEq] at shown
  obtain ⟨c,member,refused⟩ := List.mem_filterMap.mp (shown.2 ▸ List.mem_singleton_self true)
  obtain ⟨ctx,d,tx,e,asked,done⟩ := refusedIn?_some refused
  exact ⟨s,ran,shown.1,c,member,ctx,d,tx,e,asked,(run_sound ran).boundless member asked,done⟩

end ServiceKit.Import.Errand
