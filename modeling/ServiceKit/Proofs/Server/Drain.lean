import ServiceKit.Proofs.Server.Trace
import ServiceKit.Server.Serving

namespace ServiceKit.Server
variable {a : App} {m : Machine}

theorem Run.keeps_world {f : World → α × World}
    (kept : ∀ w, w.tokens.Extends (f w).2.tokens ∧ (f w).2.now = w.now) : Run.Keeps (Run.world f) :=
  fun m => ⟨⟨rfl,(kept m.world).1⟩,(kept m.world).2⟩

theorem App.keeps_context (a : App) : Run.Keeps a.context := by
  refine (Run.keeps_world fun w => ?_).bind fun c => (Run.keeps_world fun w => ?_).bind fun c => Run.keeps_pure _
  · exact ⟨TokenForest.extends_append _ _,rfl⟩
  · exact ⟨TokenForest.extends_append _ _,rfl⟩

theorem App.keeps_opens (a : App) (r : Request) : Run.Keeps (a.opens r) :=
  a.keeps_context.bind fun _ => Run.keeps_of_same (fun _ => rfl) (fun _ => rfl)

theorem App.keeps_announce (a : App) (state : String) : Run.Keeps (a.announce state) := by
  refine a.keeps_context.bind fun c => (Run.keeps_world fun w => ?_).bind fun c =>
    (Run.keeps_notify c _).bind fun _ => Run.keeps_pure ()
  exact ⟨TokenForest.extends_append _ _,rfl⟩

theorem App.announce_notices (a : App) (state : String) (m : Machine) : ∃ trace, ((a.announce state).run m).2.notices =
    m.notices ++ if a.notifies && m.fanout.isSome then [⟨trace,announcement a.pipeline.service state⟩] else [] := by
  let own := ((a.context.run m).1.detached (a.context.run m).2.world).1
  let ready := { (a.context.run m).2 with world := ((a.context.run m).1.detached (a.context.run m).2.world).2 }
  have told : ((a.announce state).run m).2.notices = m.notices ++
      if ready.hears own then [⟨own.traceId,announcement a.pipeline.service state⟩] else [] :=
    (Run.run_notify own (announcement a.pipeline.service state) ready).2.2
  have attached : own.notifier = if a.notifies then some 0 else none := rfl
  have hears : ready.hears own = (a.notifies && m.fanout.isSome) := by
    rw [Machine.hears,attached]
    cases a.notifies <;> rfl
  exact ⟨own.traceId,by rw [told,hears]⟩

structure Born (before after : TokenForest) (parent : Token) (c : Context) : Prop where
  child : ∃ f, before.Extends f ∧ after = (f.child parent).2 ∧ c.token = (f.child parent).1

theorem App.opens_born (a : App) (r : Request) (m : Machine) :
    Born m.world.tokens ((a.opens r).run m).2.world.tokens a.root ((a.opens r).run m).1 :=
  ⟨m.world.tokens.root.2,TokenForest.extends_append _ _,rfl,rfl⟩

namespace Serving
variable {conf : ListenerSettings} {s t : State}

theorem announce_later (conf : ListenerSettings) (a : App) (s : State) (state : String) :
    s.machine.Later (s.announce conf a state).machine := by
  unfold State.announce
  split
  · exact (a.keeps_announce state s.machine).1
  · exact .refl _

theorem Step.later (step : Step conf a s t) : s.machine.Later t.machine := by
  cases step with
  | begin _ | finish _ => exact announce_later conf a s _
  | accept _ | receive _ _ | close _ | trigger _ | ask _ _ | drained _ _ | expire _ _ _ => exact .refl _
  | refuse _ _ | pass _ _ => exact ⟨rfl,.refl _⟩
  | enter _ _ r => exact (a.keeps_opens r s.machine).1
  | narrow _ => exact ⟨rfl,TokenForest.extends_append _ _⟩
  | reject _ _ | answer _ _ =>
    unfold State.answer
    split <;> exact .refl _
  | see _ _ => exact ⟨rfl,TokenForest.extends_cancel _ _⟩
  | elsewhere later _ => exact later

theorem announce_contexts (conf : ListenerSettings) (a : App) (s : State) (state : String) :
    (s.announce conf a state).contexts = s.contexts := by
  unfold State.announce
  split <;> rfl

theorem Step.contexts (step : Step conf a s t) : t.contexts = s.contexts ∨ ∃ parent c, t.contexts = s.contexts ++ [c] ∧
    (parent = a.root ∨ ∃ own ∈ s.contexts, parent = own.token) ∧
    Born s.machine.world.tokens t.machine.world.tokens parent c := by
  cases step with
  | begin _ | finish _ => exact .inl (announce_contexts conf a s _)
  | accept _ | refuse _ _ | receive _ _ | close _ | trigger _ | ask _ _ | see _ _ | pass _ _ | elsewhere _ _
  | drained _ _ | expire _ _ _ => exact .inl rfl
  | reject _ _ | answer _ _ =>
    unfold State.answer
    split <;> exact .inl rfl
  | enter _ _ r => exact .inr ⟨a.root,_,rfl,.inl rfl,a.opens_born r s.machine⟩
  | @narrow own held => exact .inr ⟨own.token,_,rfl,.inr ⟨own,held,rfl⟩,⟨_,.refl _,rfl,rfl⟩⟩

structure Kin (a : App) (s : State) : Prop where
  root : s.machine.world.tokens.Rooted a.root
  below : ∀ c ∈ s.contexts, s.machine.world.tokens.Below a.root c.token

theorem Kin.step (kin : Kin a s) (step : Step conf a s t) : Kin a t := by
  have grows := step.later.tokens
  refine ⟨kin.root.extends grows,?_⟩
  intro c mem
  rcases step.contexts with same | ⟨parent,own,more,above,f,extended,after,token⟩
  · exact (kin.below c (same ▸ mem)).extends grows
  · -- The parent of a new context was known before, so the new token has the application's on its line.
    rw [more] at mem
    rcases List.mem_append.mp mem with old | new
    · exact (kin.below c old).extends grows
    · obtain rfl := List.mem_singleton.mp new
      have known : f.Below a.root parent := by
        rcases above with rfl | ⟨own,held,rfl⟩
        · exact kin.root.below.extends extended
        · exact (kin.below own held).extends extended
      rw [after,token]
      exact TokenForest.below_child known

structure Struck (a : App) (s : State) : Prop where
  root : s.machine.world.tokens.isCancelled a.root = true
  each : ∀ c ∈ s.contexts, s.machine.world.tokens.isCancelled c.token = true

theorem Struck.step (struck : Struck a s) (step : Step conf a s t) : Struck a t := by
  have grows := step.later.tokens
  refine ⟨TokenForest.cancelled_extends grows struck.root,?_⟩
  intro c mem
  rcases step.contexts with same | ⟨parent,own,more,above,f,extended,after,token⟩
  · exact TokenForest.cancelled_extends grows (struck.each c (same ▸ mem))
  · -- A child of a cancelled token is cancelled when it is made.
    rw [more] at mem
    rcases List.mem_append.mp mem with old | new
    · exact TokenForest.cancelled_extends grows (struck.each c old)
    · obtain rfl := List.mem_singleton.mp new
      have ended : f.isCancelled parent = true := by
        rcases above with rfl | ⟨own,held,rfl⟩
        · exact TokenForest.cancelled_extends extended struck.root
        · exact TokenForest.cancelled_extends extended (struck.each own held)
      rw [after,token]
      exact TokenForest.cancelled_child ended

theorem Kin.see (kin : Kin a s) : Struck a (s.see a) :=
  ⟨TokenForest.cancelled_cancel kin.root,fun c mem => TokenForest.cancelled_below (kin.below c mem)⟩

def Announces (conf : ListenerSettings) (a : App) (m : Machine) : Prop :=
  conf.notifyStatus = true ∧ a.notifies = true ∧ m.fanout.isSome = true

-- One notice of a state, or none if serving does not tell.
inductive Announced (conf : ListenerSettings) (a : App) (m : Machine) (state : String) : List Happening → Prop where
  | told (on : Announces conf a m) (trace : String) :
      Announced conf a m state [.told ⟨trace,announcement a.pipeline.service state⟩]
  | silent (off : ¬ Announces conf a m) : Announced conf a m state []

theorem announce_told (conf : ListenerSettings) (a : App) (s : State) (state : String) :
    ∃ told, (s.announce conf a state).history = s.history ++ told ∧ Announced conf a s.machine state told := by
  obtain ⟨trace,notices⟩ := a.announce_notices state s.machine
  unfold State.announce
  split
  · next wanted =>
    refine ⟨_,rfl,?_⟩
    rw [Race.since_append notices]
    split
    · next heard =>
      obtain ⟨notifies,fanout⟩ := Bool.and_eq_true_iff.mp heard
      exact .told ⟨wanted,notifies,fanout⟩ trace
    · next unheard =>
      exact .silent fun ⟨_,notifies,fanout⟩ => unheard (Bool.and_eq_true_iff.mpr ⟨notifies,fanout⟩)
  · next unwanted => exact ⟨[],(List.append_nil _).symm,.silent fun on => unwanted on.1⟩

def State.flags (s : State) : List Bool := s.connections.map (·.gone)

theorem allGone_flags (s : State) : s.allGone = s.flags.all id := by
  simp [State.allGone,State.flags]

-- What a step means for the phase, the record and the connections that are gone.
inductive Recorded (conf : ListenerSettings) (a : App) (s t : State) : Prop where
  | quiet (phase : t.phase = s.phase) (history : t.history = s.history) (gone : t.flags = s.flags)
  | left (i : Nat) (phase : t.phase = s.phase) (here : s.flags[i]? = some false)
      (history : t.history = s.history ++ [.gone i]) (gone : t.flags = s.flags.set i true)
  | accepted (was : s.phase = .accepting) (phase : t.phase = .accepting) (history : t.history = s.history ++ [.accepted])
      (gone : t.flags = s.flags ++ [false])
  | began (was : s.phase = .starting) (phase : t.phase = .accepting) (told : List Happening)
      (history : t.history = s.history ++ told) (opening : Announced conf a s.machine "started" told)
      (gone : t.flags = s.flags)
  | saw (was : s.phase = .accepting) (new : t = s.see a)
  | waited (since : Nat) (was : s.phase = .draining since) (phase : t.phase = .stopping s.allGone)
      (lapsed : s.allGone = false → s.now = since + conf.shutdownTimeout)
      (history : t.history = s.history ++ [.waited s.allGone s.now]) (gone : t.flags = s.flags)
  | finished (inTime : Bool) (was : s.phase = .stopping inTime) (phase : t.phase = .ended inTime) (told : List Happening)
      (history : t.history = s.history ++ told) (closing : Announced conf a s.machine "stopped" told)
      (gone : t.flags = s.flags)

theorem update_flags {i : Nat} {c c' : Connection} (live : s.Live i c) (same : c'.gone = c.gone) :
    (s.update i c').flags = s.flags := by
  obtain ⟨bound,found⟩ := List.getElem?_eq_some_iff.mp live.found
  have within : i < (s.connections.map (·.gone)).length := by simpa using bound
  have old : (s.connections.map (·.gone))[i] = c'.gone := by rw [List.getElem_map,found,same]
  show (s.connections.set i c').map (·.gone) = s.connections.map (·.gone)
  rw [List.map_set,← old]
  exact List.set_getElem_self _

theorem leave_left {i : Nat} {c c' : Connection} (live : s.Live i c) : Recorded conf a s (s.leave i c') := by
  refine .left i rfl ?_ rfl ?_
  · rw [State.flags,List.getElem?_map,live.found,Option.map_some,live.here]
  · show (s.connections.set i { c' with gone := true }).map (·.gone) = s.flags.set i true
    rw [List.map_set]
    rfl

theorem answer_recorded {i : Nat} {c : Connection} (live : s.Live i c) : Recorded conf a s (s.answer i c) := by
  unfold State.answer
  split
  · exact leave_left live
  · exact .quiet rfl rfl (update_flags live rfl)

theorem announce_flags (conf : ListenerSettings) (a : App) (s : State) (state : String) :
    (s.announce conf a state).flags = s.flags := by
  unfold State.announce
  split <;> rfl

theorem Step.recorded (step : Step conf a s t) : Recorded conf a s t := by
  cases step with
  | begin phase =>
    obtain ⟨told,history,opening⟩ := announce_told conf a s "started"
    exact .began phase rfl told history opening (announce_flags conf a s _)
  | finish phase =>
    obtain ⟨told,history,closing⟩ := announce_told conf a s "stopped"
    exact .finished _ phase rfl told history closing (announce_flags conf a s _)
  | accept phase => exact .accepted phase phase rfl (by simp [State.flags,State.accept])
  | refuse _ _ | narrow _ | trigger _ | pass _ _ | elsewhere _ _ => exact .quiet rfl rfl rfl
  | receive live _ | ask live _ | enter live _ _ => exact .quiet rfl rfl (update_flags live rfl)
  | reject live _ | answer live _ => exact answer_recorded live
  | close live => exact leave_left live
  | see phase _ => exact .saw phase rfl
  | drained phase all =>
    rw [← all]
    exact .waited _ phase rfl (fun left => nomatch all.symm.trans left) rfl rfl
  | expire phase left lapsed =>
    rw [← left]
    exact .waited _ phase rfl (fun _ => lapsed) rfl rfl

def Happening.Serves (h : Happening) : Prop := h = .accepted ∨ ∃ i, h = .gone i

def Happening.Leaves (h : Happening) : Prop := ∃ i, h = .gone i

inductive Opened (conf : ListenerSettings) (a : App) (m : Machine) : List Happening → Prop where
  | opened (opening : Announced conf a m "started" told) (serving : ∀ h ∈ served, h.Serves) :
      Opened conf a m (told ++ served)

-- What the wait ends with: it is in time if all connections that were accepted are gone, and otherwise the window is over.
structure Verdict (conf : ListenerSettings) (served during : List Happening) (since : Nat) (inTime : Bool) (now : Nat) :
    Prop where
  all : inTime = true ↔ ∀ i < served.count .accepted, Happening.gone i ∈ served ++ during
  bound : since ≤ now ∧ now ≤ since + conf.shutdownTimeout
  lapsed : inTime = false → now = since + conf.shutdownTimeout

-- What is recorded at each phase. From the signal on nothing happens but that connections go, the wait ends once, and
-- serving tells once that it stopped.
inductive Story (conf : ListenerSettings) (a : App) (m : Machine) : Phase → List Happening → Prop where
  | starting : Story conf a m .starting []
  | accepting (opened : Opened conf a m served) : Story conf a m .accepting served
  | draining (opened : Opened conf a m served) (leaving : ∀ h ∈ during, h.Leaves) :
      Story conf a m (.draining since) (served ++ .saw since :: during)
  | stopping (opened : Opened conf a m served) (leaving : ∀ h ∈ during, h.Leaves)
      (verdict : Verdict conf served during since inTime now) (later : ∀ h ∈ after, h.Leaves) :
      Story conf a m (.stopping inTime) (served ++ .saw since :: (during ++ .waited inTime now :: after))
  | ended (opened : Opened conf a m served) (leaving : ∀ h ∈ during, h.Leaves)
      (verdict : Verdict conf served during since inTime now) (later : ∀ h ∈ after, h.Leaves)
      (closing : Announced conf a m "stopped" told) (last : ∀ h ∈ rest, h.Leaves) :
      Story conf a m (.ended inTime) (served ++ .saw since :: (during ++ .waited inTime now :: (after ++ told ++ rest)))

-- The record tells which connections there are and which of them are gone.
structure Tally (flags : List Bool) (history : List Happening) : Prop where
  accepted : history.count .accepted = flags.length
  gone : ∀ i, Happening.gone i ∈ history ↔ flags[i]? = some true

theorem none_leaves : ∀ h ∈ ([] : List Happening), h.Leaves := fun _ mem => nomatch mem

theorem leaves_concat {l : List Happening} (leaves : ∀ h ∈ l, h.Leaves) (i : Nat) : ∀ h ∈ l ++ [.gone i], h.Leaves := by
  intro h mem
  rcases List.mem_append.mp mem with old | new
  · exact leaves h old
  · exact ⟨i,List.mem_singleton.mp new⟩

theorem Opened.concat {l : List Happening} {h : Happening} (opened : Opened conf a m l) (serves : h.Serves) :
    Opened conf a m (l ++ [h]) := by
  obtain ⟨opening,serving⟩ := opened
  rw [List.append_assoc]
  refine ⟨opening,?_⟩
  intro h' mem
  rcases List.mem_append.mp mem with old | new
  · exact serving h' old
  · exact List.mem_singleton.mp new ▸ serves

theorem Story.gone {phase : Phase} {history : List Happening} (story : Story conf a m phase history)
    (begun : phase ≠ .starting) (i : Nat) : Story conf a m phase (history ++ [.gone i]) := by
  cases story with
  | starting => exact absurd rfl begun
  | accepting opened => exact .accepting (opened.concat (.inr ⟨i,rfl⟩))
  | draining opened leaving => simpa using Story.draining opened (leaves_concat leaving i)
  | stopping opened leaving verdict later => simpa using Story.stopping opened leaving verdict (leaves_concat later i)
  | ended opened leaving verdict later closing last =>
    simpa using Story.ended opened leaving verdict later closing (leaves_concat last i)

theorem Tally.more {flags : List Bool} {history more : List Happening} (tally : Tally flags history)
    (still : ∀ h ∈ more, ¬ h.Serves) : Tally flags (history ++ more) := by
  refine ⟨?_,?_⟩
  · have none : more.count .accepted = 0 := List.count_eq_zero.mpr fun mem => still _ mem (.inl rfl)
    rw [List.count_append,none,tally.accepted]
    rfl
  · intro i
    rw [List.mem_append,← tally.gone]
    exact or_iff_left fun mem => still _ mem (.inr ⟨i,rfl⟩)

theorem Announced.still {told : List Happening} (announced : Announced conf a m state told) : ∀ h ∈ told, ¬ h.Serves := by
  cases announced <;> simp [Happening.Serves]

theorem Recorded.tally (recorded : Recorded conf a s t) (tally : Tally s.flags s.history) : Tally t.flags t.history := by
  cases recorded with
  | quiet _ history gone => rwa [history,gone]
  | left i _ here history gone =>
    obtain ⟨bound,_⟩ := List.getElem?_eq_some_iff.mp here
    rw [history,gone]
    refine ⟨by simpa using tally.accepted,?_⟩
    intro j
    rw [List.mem_append,tally.gone,List.getElem?_set]
    by_cases same : i = j
    · simp [same.symm,bound]
    · simp [same,Ne.symm same]
  | accepted _ _ history gone =>
    rw [history,gone]
    refine ⟨by simp [tally.accepted],?_⟩
    intro j
    rw [List.mem_append,tally.gone]
    rcases Nat.lt_trichotomy j s.flags.length with old | new | beyond
    · simp [List.getElem?_append_left old]
    · simp [new]
    · have past : (s.flags ++ [false]).length ≤ j := List.length_append ▸ beyond
      simp [List.getElem?_eq_none (Nat.le_of_lt beyond),List.getElem?_eq_none past]
  | began _ _ _ history opening gone =>
    rw [history,gone]
    exact tally.more opening.still
  | saw _ new =>
    rw [new]
    exact tally.more (by simp [Happening.Serves])
  | waited _ _ _ _ history gone =>
    rw [history,gone]
    exact tally.more (by simp [Happening.Serves])
  | finished _ _ _ _ history closing gone =>
    rw [history,gone]
    exact tally.more closing.still

theorem allGone_iff (s : State) : s.allGone = true ↔ ∀ i < s.flags.length, s.flags[i]? = some true := by
  rw [allGone_flags,List.all_eq_true]
  constructor
  · intro all i bound
    rw [List.getElem?_eq_getElem bound]
    exact congrArg some (all _ (List.getElem_mem bound))
  · intro all flag mem
    obtain ⟨i,bound,rfl⟩ := List.mem_iff_getElem.mp mem
    exact Option.some.inj ((List.getElem?_eq_getElem bound).symm.trans (all i bound))

def Timed (conf : ListenerSettings) (s : State) : Prop :=
  ∀ since, s.phase = .draining since → since ≤ s.now ∧ s.now ≤ since + conf.shutdownTimeout

theorem announce_now (conf : ListenerSettings) (a : App) (s : State) (state : String) :
    (s.announce conf a state).now = s.now := by
  unfold State.announce
  split
  · exact (a.keeps_announce state s.machine).2
  · rfl

theorem Timed.kept (timed : Timed conf s) (phase : t.phase = s.phase) (now : t.now = s.now) : Timed conf t := by
  intro since draining
  rw [now]
  exact timed since (phase ▸ draining)

theorem Timed.step (timed : Timed conf s) (step : Step conf a s t) : Timed conf t := by
  cases step with
  | begin _ | drained _ _ | expire _ _ _ | finish _ => exact nofun
  | accept _ | refuse _ _ | receive _ _ | close _ | trigger _ | ask _ _ | narrow _ => exact timed.kept rfl rfl
  | enter _ _ r => exact timed.kept rfl (a.keeps_opens r s.machine).2
  | reject _ _ | answer _ _ =>
    unfold State.answer
    split <;> exact timed.kept rfl rfl
  | see _ _ =>
    rintro since ⟨⟩
    exact ⟨Nat.le_refl _,Nat.le_add_right _ _⟩
  | pass ms free =>
    intro since draining
    exact ⟨Nat.le_add_right_of_le (timed since draining).1,(free since draining).2⟩
  | elsewhere _ now => exact timed.kept rfl now

-- By the tally, all connections are gone exactly if every one that was accepted is told to be gone.
theorem Tally.verdict {served during : List Happening} {since : Nat}
    (tally : Tally s.flags (served ++ .saw since :: during)) (leaving : ∀ h ∈ during, h.Leaves)
    (bound : since ≤ s.now ∧ s.now ≤ since + conf.shutdownTimeout)
    (lapsed : s.allGone = false → s.now = since + conf.shutdownTimeout) :
    Verdict conf served during since s.allGone s.now := by
  have accepted : s.flags.length = served.count .accepted := by
    have none : during.count .accepted = 0 := by
      refine List.count_eq_zero.mpr fun mem => ?_
      obtain ⟨i,same⟩ := leaving _ mem
      cases same
    rw [← tally.accepted,List.count_append,List.count_cons_of_ne (by simp),none]
    rfl
  have gone : ∀ i, Happening.gone i ∈ served ++ during ↔ s.flags[i]? = some true := by
    intro i
    rw [← tally.gone]
    simp
  refine ⟨?_,bound,lapsed⟩
  rw [allGone_iff,accepted]
  exact forall₂_congr fun i _ => (gone i).symm

theorem Announced.earlier {m' : Machine} {told : List Happening} (announced : Announced conf a m' state told)
    (later : m.Later m') : Announced conf a m state told := by
  have same : Announces conf a m' ↔ Announces conf a m := by
    unfold Announces
    rw [later.fanout]
  cases announced with
  | told on trace => exact .told (same.mp on) trace
  | silent off => exact .silent fun on => off (same.mpr on)

theorem Story.unbegun {history : List Happening} (story : Story conf a m .starting history) : history = [] := by
  cases story
  rfl

-- Each kind of step extends the story at its end, by what the phase allows. No connection can go before serving tells
-- that it started: by the tally there is none.
theorem Story.step (story : Story conf a m s.phase s.history) (recorded : Recorded conf a s t) (later : m.Later s.machine)
    (tally : Tally s.flags s.history) (timed : Timed conf s) : Story conf a m t.phase t.history := by
  cases recorded with
  | quiet phase history _ => rwa [phase,history]
  | left i phase here history _ =>
    rw [phase,history]
    refine story.gone ?_ i
    intro unbegun
    rw [unbegun] at story
    have empty : s.flags.length = 0 := by
      rw [← tally.accepted,story.unbegun]
      rfl
    exact absurd here (by simp [List.length_eq_zero_iff.mp empty])
  | accepted was phase history _ =>
    rw [was] at story
    rw [phase,history]
    cases story with
    | accepting opened => exact .accepting (opened.concat (.inl rfl))
  | began was phase told history opening _ =>
    have opened : Opened conf a m (told ++ []) := .opened (opening.earlier later) (by simp)
    rw [was] at story
    rw [phase,history,story.unbegun]
    exact .accepting (List.append_nil told ▸ opened)
  | saw was new =>
    rw [was] at story
    rw [new]
    cases story with
    | accepting opened => exact .draining opened none_leaves
  | waited since was phase lapsed history _ =>
    have bound := timed since was
    rw [was] at story
    rw [phase,history]
    generalize s.history = before at story tally
    cases story with
    | draining opened leaving =>
      simpa using Story.stopping opened leaving (tally.verdict leaving bound lapsed) none_leaves
  | finished inTime was phase told history closing _ =>
    rw [was] at story
    rw [phase,history]
    generalize s.history = before at story
    cases story with
    | stopping opened leaving verdict after =>
      simpa using Story.ended opened leaving verdict after (closing.earlier later) none_leaves

structure Sound (conf : ListenerSettings) (a : App) (m : Machine) (s : State) : Prop where
  later : m.Later s.machine
  story : Story conf a m s.phase s.history
  tally : Tally s.flags s.history
  timed : Timed conf s
  kin : Kin a s
  struck : s.phase.seen = true → Struck a s

theorem sound_start (conf : ListenerSettings) (rooted : m.world.tokens.Rooted a.root) : Sound conf a m (.start m) :=
  ⟨.refl m,.starting,⟨rfl,by simp [State.start,State.flags]⟩,nofun,⟨rooted,by simp [State.start]⟩,nofun⟩

theorem Recorded.seen (recorded : Recorded conf a s t) (seen : t.phase.seen = true) : s.phase.seen = true ∨ t = s.see a := by
  cases recorded with
  | quiet phase _ _ | left _ phase _ _ _ => exact .inl (phase ▸ seen)
  | accepted _ phase _ _ | began _ phase _ _ _ _ => exact nomatch phase ▸ seen
  | saw _ new => exact .inr new
  | waited _ was _ _ _ _ | finished _ was _ _ _ _ _ => exact .inl (was ▸ rfl)

theorem Recorded.stays (recorded : Recorded conf a s t) (seen : s.phase.seen = true) :
    t.phase.seen = true ∧ t.flags.length = s.flags.length := by
  cases recorded with
  | quiet phase _ gone => exact ⟨phase ▸ seen,congrArg _ gone⟩
  | left _ phase _ _ gone => exact ⟨phase ▸ seen,by rw [gone,List.length_set]⟩
  | accepted was _ _ _ | began was _ _ _ _ _ | saw was _ => exact nomatch was ▸ seen
  | waited _ _ phase _ _ gone | finished _ _ phase _ _ _ gone => exact ⟨phase ▸ rfl,congrArg _ gone⟩

theorem Sound.step (sound : Sound conf a m s) (step : Step conf a s t) : Sound conf a m t := by
  have recorded := step.recorded
  refine ⟨sound.later.trans step.later,sound.story.step recorded sound.later sound.tally sound.timed,
    recorded.tally sound.tally,sound.timed.step step,sound.kin.step step,?_⟩
  intro seen
  rcases recorded.seen seen with before | rfl
  · exact (sound.struck before).step step
  · exact sound.kin.see

theorem Sound.reached (sound : Sound conf a m s) (path : Reached conf a s t) : Sound conf a m t := by
  induction path with
  | refl => exact sound
  | step _ next ih => exact ih.step next

theorem reached_stays (path : Reached conf a s t) (seen : s.phase.seen = true) :
    t.phase.seen = true ∧ t.connections.length = s.connections.length := by
  induction path with
  | refl => exact ⟨seen,rfl⟩
  | step _ next ih =>
    obtain ⟨before,same⟩ := ih
    obtain ⟨after,kept⟩ := next.recorded.stays before
    simp only [State.flags,List.length_map] at kept
    exact ⟨after,kept.trans same⟩

def Returns (conf : ListenerSettings) (a : App) (s : State) (result : Except ServerError Unit) (now : Nat) : Prop :=
  ∃ t, Reached conf a s t ∧ t.phase.result? = some result ∧ t.now = now

theorem stopping_returns {inTime : Bool} (path : Reached conf a s t) (phase : t.phase = .stopping inTime) :
    Returns conf a s (outcome inTime) t.now :=
  ⟨_,path.step (.finish phase),rfl,announce_now conf a t _⟩

theorem drained_returns {since : Nat} (phase : s.phase = .draining since) (all : s.allGone = true) :
    Returns conf a s (.ok ()) s.now :=
  stopping_returns (Reached.refl.step (.drained phase all)) rfl

theorem expired_returns {since : Nat} (timed : Timed conf s) (phase : s.phase = .draining since)
    (left : s.allGone = false) : Returns conf a s (.error .shutdownTimedOut) (since + conf.shutdownTimeout) := by
  have rest : s.now + (since + conf.shutdownTimeout - s.now) = since + conf.shutdownTimeout :=
    Nat.add_sub_of_le (timed since phase).2
  have passed : Step conf a s (s.pass (since + conf.shutdownTimeout - s.now)) := by
    refine .pass _ fun since' phase' => ⟨left,?_⟩
    cases phase.symm.trans phase'
    exact Nat.le_of_eq rest
  have lapsed : (s.pass (since + conf.shutdownTimeout - s.now)).now = since + conf.shutdownTimeout := rest
  rw [← lapsed]
  exact stopping_returns ((Reached.refl.step passed).step (.expire phase left lapsed)) rfl

-- What is true of a listener in each of its states.
structure Drains (conf : ListenerSettings) (a : App) (m : Machine) (s : State) : Prop where
  story : Story conf a m s.phase s.history
  halted : s.phase.seen = true → ∀ t, Reached conf a s t → t.phase.seen = true ∧
    t.connections.length = s.connections.length ∧ ∀ c ∈ t.contexts, c.isDone t.machine.world = true
  timed : Timed conf s
  drained : ∀ since, s.phase = .draining since → s.allGone = true → Returns conf a s (.ok ()) s.now
  expired : ∀ since, s.phase = .draining since → s.allGone = false →
    Returns conf a s (.error .shutdownTimedOut) (since + conf.shutdownTimeout)
  stopping : ∀ inTime, s.phase = .stopping inTime → Returns conf a s (outcome inTime) s.now
  answered : ∀ result, s.phase.result? = some result → ∃ served since during inTime now rest,
    s.history = served ++ .saw since :: (during ++ .waited inTime now :: rest) ∧
      Verdict conf served during since inTime now ∧ result = outcome inTime

theorem Sound.halted (sound : Sound conf a m s) (seen : s.phase.seen = true) (path : Reached conf a s t) :
    t.phase.seen = true ∧ t.connections.length = s.connections.length ∧
      ∀ c ∈ t.contexts, c.isDone t.machine.world = true := by
  obtain ⟨after,same⟩ := reached_stays path seen
  refine ⟨after,same,?_⟩
  intro c mem
  have cancelled := ((sound.reached path).struck after).each c mem
  rw [Context.isDone,Context.isCancelled,cancelled]
  rfl

theorem Story.answered {phase : Phase} {history : List Happening} {result : Except ServerError Unit}
    (story : Story conf a m phase history) (answer : phase.result? = some result) :
    ∃ served since during inTime now rest, history = served ++ .saw since :: (during ++ .waited inTime now :: rest) ∧
      Verdict conf served during since inTime now ∧ result = outcome inTime := by
  cases story with
  | starting | accepting _ | draining _ _ | stopping _ _ _ _ => cases answer
  | ended _ _ verdict _ _ _ => exact ⟨_,_,_,_,_,_,rfl,verdict,(Option.some.inj answer).symm⟩

-- However connections, requests and the signal come, and whatever else happens, since the application was built.
theorem serve_drains (settings : AppSettings) (first m : Machine)
    (later : ((App.build settings).run first).2.Later m) (conf : ListenerSettings) (s : State)
    (path : Reached conf ((App.build settings).run first).1 (.start m) s) :
    Drains conf ((App.build settings).run first).1 m s := by
  have rooted : m.world.tokens.Rooted ((App.build settings).run first).1.root :=
    (TokenForest.rooted_root first.world.tokens).extends later.tokens
  have sound := (sound_start conf rooted).reached path
  exact ⟨sound.story,fun seen _ onward => sound.halted seen onward,sound.timed,fun _ => drained_returns,
    fun _ => expired_returns sound.timed,fun _ => stopping_returns .refl,fun _ => sound.story.answered⟩

def lateSettings : AppSettings := { AppSettings.default with notifies := true }

def lateApp : App := ((App.build lateSettings).run Race.watched).1

def lateMachine : Machine := ((App.build lateSettings).run Race.watched).2

def lateListener : ListenerSettings := { ListenerSettings.default with notifyStatus := true }

theorem late_reached : ∃ s, Reached lateListener lateApp (.start lateMachine) s ∧ s.phase = .draining 0 ∧
    s.connections = [⟨.reading,false,false⟩] ∧ s.contexts = [] := by
  have first : Reached lateListener lateApp (.start lateMachine) (.start lateMachine) := .refl
  have began := first.step (.begin rfl)
  have accepted := began.step (.accept rfl)
  have received := accepted.step (.receive (i := 0) ⟨rfl,rfl⟩ rfl)
  have triggered := received.step (.trigger 0)
  have saw := triggered.step (.see rfl rfl)
  exact ⟨_,saw,rfl,rfl,rfl⟩

theorem late_drains : ∃ s t, Reached lateListener lateApp (.start lateMachine) s ∧ s.phase = .draining 0 ∧
    s.contexts = [] ∧ Step lateListener lateApp s t ∧
    (∃ own, t.contexts = [own] ∧ own.isDone t.machine.world = true) ∧
    Returns lateListener lateApp t (.error .shutdownTimedOut) 10000 := by
  obtain ⟨s,path,phase,connections,none⟩ := late_reached
  have live : s.Live 0 ⟨.reading,false,false⟩ := ⟨by rw [connections]; rfl,rfl⟩
  have enters : Step lateListener lateApp s (s.enter lateApp 0 ⟨.reading,false,false⟩ plainRequest) :=
    .enter live rfl plainRequest
  have one : (s.enter lateApp 0 ⟨.reading,false,false⟩ plainRequest).contexts =
      [((lateApp.opens plainRequest).run s.machine).1] := by
    show s.contexts ++ _ = _
    rw [none]
    rfl
  have left : (s.enter lateApp 0 ⟨.reading,false,false⟩ plainRequest).allGone = false := by
    show (s.connections.set 0 _).all (·.gone) = false
    rw [connections]
    rfl
  obtain ⟨_,_,done⟩ := (serve_drains lateSettings Race.watched lateMachine (.refl _) lateListener s path).halted
    (phase ▸ rfl) _ (Reached.refl.step enters)
  have returns := (serve_drains lateSettings Race.watched lateMachine (.refl _) lateListener _ (path.step enters)).expired
    0 phase left
  exact ⟨s,_,path,phase,none,enters,⟨_,one,done _ (one ▸ List.mem_singleton_self _)⟩,returns⟩

end Serving
end ServiceKit.Server
