import Mathlib.Order.Bounds.Basic
import Mathlib.Order.WellFounded
import ServiceKit.Context.Waiting
import ServiceKit.Proofs.Context.Cancellation

namespace ServiceKit.Context
variable {c : Context} {w w' w'' : World} {a : Token}

theorem isDone_iff : c.isDone w = true ↔ c.isCancelled w = true ∨ ∃ d, c.deadline = some d ∧ d ≤ w.now := by
  rw [isDone,Bool.or_eq_true]
  apply or_congr_right
  cases c.deadline <;> simp

inductive Leaves (now : Nat) : Option Nat → Option Nat → Prop where
  | unbounded : Leaves now none none
  | past {d : Nat} (due : d ≤ now) : Leaves now (some d) (some 0)
  | ahead {n : Nat} (early : 0 < n) : Leaves now (some (now + n)) (some n)

theorem remaining_iff {left : Option Nat} : c.remaining w = left ↔ Leaves w.now c.deadline left := by
  rw [remaining]
  constructor
  · rintro rfl
    cases c.deadline with
    | none => exact .unbounded
    | some d =>
      rcases Nat.le_total d w.now with due | early
      · simpa [Nat.sub_eq_zero_of_le due] using Leaves.past due
      · obtain ⟨n,rfl⟩ := Nat.exists_eq_add_of_le early
        cases n with
        | zero => simpa using Leaves.past (Nat.le_refl w.now)
        | succ n => simpa using Leaves.ahead n.succ_pos
  · intro leaves
    generalize c.deadline = due at leaves
    cases leaves with
    | unbounded => rfl
    | past due => simp [Nat.sub_eq_zero_of_le due]
    | ahead => simp

-- How the world may change: no cancellation is taken back, and the clock does not go back.
structure Onward (w w' : World) : Prop where
  tokens : w.tokens.Extends w'.tokens
  clock : w.now ≤ w'.now

theorem Onward.refl (w : World) : Onward w w := ⟨.refl _,Nat.le_refl _⟩

theorem Onward.trans (first : Onward w w') (second : Onward w' w'') : Onward w w'' :=
  ⟨first.tokens.trans second.tokens,first.clock.trans second.clock⟩

theorem Onward.known (onward : Onward w w') (known : a < w.tokens.nodes.length) : a < w'.tokens.nodes.length := by
  obtain ⟨_,found,_⟩ := onward.tokens a _ (List.getElem?_eq_getElem known)
  exact (List.getElem?_eq_some_iff.mp found).1

theorem Onward.cancelled (onward : Onward w w') (cancelled : c.isCancelled w = true) : c.isCancelled w' = true :=
  TokenForest.cancelled_extends onward.tokens cancelled

theorem Onward.done (onward : Onward w w') (done : c.isDone w = true) : c.isDone w' = true := by
  rcases isDone_iff.mp done with cancelled | ⟨d,bounded,due⟩
  · exact isDone_iff.mpr (.inl (onward.cancelled cancelled))
  · exact isDone_iff.mpr (.inr ⟨d,bounded,due.trans onward.clock⟩)

theorem advance_onward {k ms : Nat} (within : k ≤ ms) : Onward (w.advance k) (w.advance ms) :=
  ⟨.refl _,Nat.add_le_add_left within _⟩

namespace History
variable {s t : State} {op : Op}

def Op.time : Op → Nat
  | .advance ms => ms
  | _ => 0

theorem act_now (acted : s.act op = some t) : t.world.now = s.world.now + op.time := by
  cases op with
  | new | advance _ =>
    cases acted
    rfl
  | link i j =>
    obtain ⟨c,_,acted⟩ := Option.bind_eq_some_iff.mp acted
    obtain ⟨p,_,rfl⟩ := Option.map_eq_some_iff.mp acted
    rfl
  | timeout _ _ =>
    obtain ⟨c,_,acted⟩ := Option.bind_eq_some_iff.mp acted
    obtain ⟨_,_,rfl⟩ := Option.map_eq_some_iff.mp acted
    rfl
  | clone _ | detach _ | cancel _ | deadline _ _ | attach _ _ =>
    obtain ⟨c,_,rfl⟩ := Option.map_eq_some_iff.mp acted
    rfl

theorem act_advance {ms : Nat} (acted : s.act (.advance ms) = some t) : t.world = s.world.advance ms := by
  cases acted
  rfl

theorem act_onward (acted : s.act op = some t) : Onward s.world t.world :=
  ⟨moved_extends (act_moved acted),by simp [act_now acted]⟩

theorem act_calm (acted : s.act op = some t) (calm : ∀ i, op ≠ .cancel i) (known : a < s.world.tokens.nodes.length) :
    t.world.tokens.isCancelled a = s.world.tokens.isCancelled a := by
  cases act_moved acted with
  | grows _ _ forest _ | links _ _ forest _ =>
    rw [forest,TokenForest.isCancelled]
    simp only [TokenForest.root,TokenForest.child,List.getElem?_append_left known]
    rfl
  | copies _ | alters _ _ _ _ | passes => rfl
  | cancels _ => exact absurd rfl (calm _)

theorem act_done (acted : s.act op = some t) (calm : ∀ i, op ≠ .cancel i) (still : op.time = 0)
    (known : c.token < s.world.tokens.nodes.length) : c.isDone t.world = c.isDone s.world := by
  simp only [isDone,isCancelled,act_calm acted calm known,act_now acted,still,Nat.add_zero]

end History

theorem deadline_ahead {d : Nat} (pending : c.isDone w = false) (bounded : c.deadline = some d) : w.now < d := by
  apply Nat.lt_of_not_le
  intro due
  rw [isDone_iff.mpr (.inr ⟨d,bounded,due⟩)] at pending
  cases pending

theorem done_now (pending : c.isDone w = false) (now : w'.now = w.now) : c.isDone w' = c.isCancelled w' := by
  have ⟨_,early⟩ := Bool.or_eq_false_iff.mp pending
  rw [isDone,now,early,Bool.or_false]

theorem done_advance {k : Nat} (pending : c.isDone w = false) :
    c.isDone (w.advance k) = true ↔ ∃ d, c.deadline = some d ∧ d ≤ w.now + k := by
  have ⟨calm,_⟩ := Bool.or_eq_false_iff.mp pending
  rw [isDone_iff]
  apply or_iff_right
  show ¬ c.isCancelled w = true
  rw [calm]
  exact Bool.false_ne_true

def ends (c : Context) (seen : World → Prop) : Set Nat := {m | ∃ w, seen w ∧ c.isDone w = true ∧ w.now = m}

variable {seen shown : World → Prop} {q : Wait} {m : Nat}

-- Worlds that come later put no earlier end to a context that was done before.
theorem ends_kept (later : ∀ w w', seen w → shown w' → w.now ≤ w'.now) (ended : ∃ w, seen w ∧ c.isDone w = true) :
    IsLeast (ends c fun w => seen w ∨ shown w) m ↔ IsLeast (ends c seen) m := by
  have early {m : Nat} : m ∈ ends c seen → m ∈ ends c fun w => seen w ∨ shown w := by
    rintro ⟨w,was,done,rfl⟩
    exact ⟨w,.inl was,done,rfl⟩
  constructor
  · rintro ⟨⟨w,was | comes,done,rfl⟩,least⟩
    · exact ⟨⟨w,was,done,rfl⟩,fun _ member => least (early member)⟩
    · obtain ⟨w',was,done'⟩ := ended
      have same : w'.now = w.now := Nat.le_antisymm (later w' w was comes) (least (early ⟨w',was,done',rfl⟩))
      exact ⟨⟨w',was,done',same⟩,fun _ member => least (early member)⟩
  · rintro ⟨member,least⟩
    refine ⟨early member,?_⟩
    rintro _ ⟨w',was | comes,done',rfl⟩
    · exact least ⟨w',was,done',rfl⟩
    · obtain ⟨w,was,_,rfl⟩ := member
      exact later w w' was comes

theorem ends_pending (pending : ∀ w, seen w → c.isDone w = false) :
    ends c (fun w => seen w ∨ shown w) = ends c shown := by
  ext m
  constructor
  · rintro ⟨w,was | comes,done,at'⟩
    · rw [pending w was] at done
      cases done
    · exact ⟨w,comes,done,at'⟩
  · rintro ⟨w,comes,done,at'⟩
    exact ⟨w,.inr comes,done,at'⟩

theorem ends_single : IsLeast (ends c (· = w)) m ↔ c.isDone w = true ∧ w.now = m := by
  constructor
  · rintro ⟨⟨_,rfl,done,at'⟩,_⟩
    exact ⟨done,at'⟩
  · rintro ⟨done,rfl⟩
    refine ⟨⟨w,rfl,done,rfl⟩,?_⟩
    rintro _ ⟨_,rfl,_,rfl⟩
    exact Nat.le_refl _

namespace Wait
variable {x : Waiting.Step} {moment : Nat}

@[simp] theorem endAt_token (q : Wait) (m : Nat) : (q.endAt m).token = q.token := rfl
@[simp] theorem endAt_timer (q : Wait) (m : Nat) : (q.endAt m).timer = q.timer := rfl

theorem endAt_ends (pending : q.ended = none) : (q.endAt moment).ended = some moment := by simp [endAt,pending]

theorem endAt_ended (ended : q.ended = some m) : (q.endAt moment).ended = some m := by simp [endAt,ended]

theorem begin_listens : (begin c w).token = c.token ∧ (begin c w).timer = c.deadline := by
  rw [begin]
  split <;> simp

theorem begin_ends : (begin c w).ended = some m ↔ c.isDone w = true ∧ w.now = m := by
  have done : c.isDone w = (w.tokens.isCancelled c.token || c.deadline.any (· ≤ w.now)) := by
    rw [isDone,isCancelled]
    cases c.deadline <;> rfl
  rw [begin,done]
  split <;> simp_all [endAt]

theorem hear_ends (pending : q.ended = none) : (q.hear w w').ended = some m ↔
    (w'.tokens.isCancelled q.token = true ∧ w.tokens.isCancelled q.token = false) ∧ w'.now = m := by
  rw [hear]
  split <;> simp_all [endAt]

theorem ring_ends (pending : q.ended = none) : (q.ring moment).ended = some m ↔ q.timer = some m ∧ m ≤ moment := by
  rw [ring]
  split
  · next due armed =>
    rw [armed,Option.some_inj]
    split
    · next there =>
      rw [endAt_ends pending,Option.some_inj]
      constructor
      · rintro rfl
        exact ⟨rfl,there⟩
      · exact And.left
    · next early =>
      rw [pending]
      simp only [reduceCtorEq,false_iff]
      rintro ⟨rfl,there⟩
      exact early there
  · next unarmed => simp [pending,unarmed]

theorem ringLate_ends (pending : q.ended = none) : (q.ringLate moment).ended = some m ↔
    (∃ d, q.timer = some d ∧ d ≤ moment) ∧ moment = m := by
  have due : q.timer.any (· ≤ moment) = true ↔ ∃ d, q.timer = some d ∧ d ≤ moment := by
    simp [Option.any_eq_true]
  rw [ringLate,← due]
  split <;> simp_all [endAt]

theorem wake_kept (x : Waiting.Step) (w w' : World) (q : Wait) :
    (x.wake w w' q).token = q.token ∧ (x.wake w w' q).timer = q.timer ∧
      ∀ m, q.ended = some m → (x.wake w w' q).ended = some m := by
  have ended {m : Nat} (moment : Nat) : q.ended = some m → (q.endAt moment).ended = some m := endAt_ended
  unfold Waiting.Step.wake
  split
  · rw [hear]
    split <;> simp +contextual [ended]
  · rw [ring]
    split
    · split <;> simp +contextual [ended]
    · simp
  · rw [ringLate]
    split <;> simp +contextual [ended]
  · simp

end Wait

namespace Waiting
variable {steps later more : List Step} {x : Step} {s t u v : State} {i ms : Nat}

inductive Turn (s : State) : Step → State → Prop where
  | operates {x : Step} {op : History.Op} {t : State} (same : x.op? = some op) (moved : s.scene.act op = some t.scene)
      (woken : t.waits = s.waits.map (x.wake s.world t.world)) : Turn s x t
  | awaits {i : Nat} {c : Context} (found : s.scene.held[i]? = some c) :
      Turn s (.await i) ⟨s.scene,s.waits ++ [.begin c s.world]⟩

theorem act_turn (acted : s.act x = some t) : Turn s x t := by
  cases x with
  | operate op | leap ms =>
    rw [State.act,State.actBy,Option.map_eq_some_iff] at acted
    obtain ⟨u,moved,rfl⟩ := acted
    exact .operates rfl moved rfl
  | await i =>
    obtain ⟨c,found,rfl⟩ := Option.map_eq_some_iff.mp acted
    exact .awaits found

theorem await_world (acted : s.act (.await i) = some t) : t.world = s.world := by
  cases act_turn acted with
  | operates same _ _ => cases same
  | awaits _ => rfl

theorem act_onward (acted : s.act x = some t) : Onward s.world t.world := by
  cases act_turn acted with
  | operates _ moved _ => exact History.act_onward moved
  | awaits _ => exact .refl _

theorem shows_onward (shows : Shows s x w) : Onward s.world w := by
  cases shows with
  | passes _ => exact advance_onward (Nat.zero_le _)
  | leads acted => exact act_onward acted

theorem onward_shown (acted : s.act x = some t) (shows : Shows s x w) : Onward w t.world := by
  cases shows with
  | passes within =>
    cases acted
    exact advance_onward within
  | leads acted' =>
    rw [acted] at acted'
    cases acted'
    exact .refl _

theorem shows_advance : Shows s (.operate (.advance ms)) w ↔ ∃ k ≤ ms, w = s.world.advance k := by
  constructor
  · intro shows
    cases shows with
    | passes within => exact ⟨_,within,rfl⟩
    | leads acted =>
      cases acted
      exact ⟨ms,Nat.le_refl _,rfl⟩
  · rintro ⟨k,within,rfl⟩
    exact .passes within

theorem shows_iff (acted : s.act x = some t) (still : ∀ ms, x ≠ .operate (.advance ms)) : Shows s x w ↔ w = t.world := by
  constructor
  · intro shows
    cases shows with
    | passes _ => exact absurd rfl (still _)
    | leads acted' =>
      rw [acted] at acted'
      cases acted'
      rfl
  · rintro rfl
    exact .leads acted

theorem ends_advance (pending : c.isDone s.world = false) :
    IsLeast (ends c (Shows s (.operate (.advance ms)))) m ↔ c.deadline = some m ∧ m ≤ s.world.now + ms := by
  constructor
  · rintro ⟨⟨w,shows,done,rfl⟩,least⟩
    obtain ⟨k,within,rfl⟩ := shows_advance.mp shows
    obtain ⟨d,bounded,due⟩ := (done_advance pending).mp done
    obtain ⟨n,rfl⟩ := Nat.exists_eq_add_of_le (deadline_ahead pending bounded).le
    have sooner : n ≤ k := Nat.le_of_add_le_add_left due
    have member : s.world.now + n ∈ ends c (Shows s (.operate (.advance ms))) :=
      ⟨s.world.advance n,.passes (sooner.trans within),(done_advance pending).mpr ⟨_,bounded,Nat.le_refl _⟩,rfl⟩
    have same : s.world.now + k = s.world.now + n := Nat.le_antisymm (least member) due
    exact ⟨bounded.trans (congrArg some same.symm),Nat.add_le_add_left within _⟩
  · rintro ⟨bounded,due⟩
    obtain ⟨n,rfl⟩ := Nat.exists_eq_add_of_le (deadline_ahead pending bounded).le
    have within : n ≤ ms := Nat.le_of_add_le_add_left due
    refine ⟨⟨s.world.advance n,.passes within,(done_advance pending).mpr ⟨_,bounded,Nat.le_refl _⟩,rfl⟩,?_⟩
    rintro _ ⟨w,shows,done,rfl⟩
    obtain ⟨k,_,rfl⟩ := shows_advance.mp shows
    obtain ⟨d,bounded',due'⟩ := (done_advance pending).mp done
    rw [bounded] at bounded'
    cases bounded'
    exact due'

-- A wait that is not over is over after a step at the first end that the step shows.
theorem wake_first (acted : s.act x = some t) (known : c.token < s.world.tokens.nodes.length)
    (pending : c.isDone s.world = false) (token : q.token = c.token) (timer : q.timer = c.deadline)
    (waits : q.ended = none) : (x.wake s.world t.world q).ended = some m ↔ IsLeast (ends c (Shows s x)) m := by
  have ⟨calm,_⟩ := Bool.or_eq_false_iff.mp pending
  -- Steps that show one world only.
  have single (still : ∀ ms, x ≠ .operate (.advance ms)) :
      IsLeast (ends c (Shows s x)) m ↔ c.isDone t.world = true ∧ t.world.now = m := by
    have shown : Shows s x = (· = t.world) := funext fun _ => propext (shows_iff acted still)
    rw [shown,ends_single]
  cases act_turn acted with
  | awaits _ =>
    rw [single (by simp)]
    show q.ended = some m ↔ c.isDone s.world = true ∧ _
    simp [waits,pending]
  | @operates x op _ same moved _ =>
    cases x with
    | await _ => cases same
    | leap ms =>
      cases same
      rw [single (by simp),Step.wake,Wait.ringLate_ends waits,timer]
      have world : t.world = s.world.advance ms := History.act_advance moved
      rw [world,done_advance pending]
      rfl
    | operate op' =>
      cases same
      cases op with
      | advance ms =>
        have world : t.world = s.world.advance ms := History.act_advance moved
        rw [ends_advance pending,Step.wake,Wait.ring_ends waits,timer,world]
        rfl
      | cancel i =>
        have now : t.world.now = s.world.now := History.act_now moved
        rw [single (by simp),Step.wake,Wait.hear_ends waits,done_now pending now,token]
        exact and_congr_left fun _ => and_iff_left calm
      | _ =>
        have unchanged : c.isDone t.world = c.isDone s.world := History.act_done moved (by simp) rfl known
        rw [single (by simp),unchanged,pending]
        show q.ended = some m ↔ _
        simp [waits]

theorem operations_concat (steps : List Step) (x : Step) :
    operations (steps ++ [x]) = operations steps ++ x.op?.toList := by
  rw [operations,List.filterMap_append,← operations]
  cases h : x.op? <;> simp [h]

theorem run_scene (ran : run steps = some s) : History.run (operations steps) = some s.scene := by
  refine run_induction (P := fun steps s => History.run (operations steps) = some s.scene) rfl ?_ ran
  intro steps s x t _ before acted
  rw [operations_concat]
  cases act_turn acted with
  | operates same moved _ =>
    rw [same,Option.toList_some,History.run_concat,before]
    exact moved
  | awaits _ => simpa [Step.op?] using before

theorem run_append : run (steps ++ later) = (run steps).bind (·.runFrom later) := List.foldlM_append

theorem run_later (ran : run steps = some s) (more : s.runFrom later = some t) : run (steps ++ later) = some t := by
  rw [run_append,ran]
  exact more

theorem held_known (ran : run steps = some s) (member : c ∈ s.scene.held) :
    c.token < s.world.tokens.nodes.length :=
  (History.run_sound (run_scene ran)).held c member

def Seen (s : State) (later : List Step) (w : World) : Prop := Happened State.act s (fun u x => Shows u x w) later

theorem seen_concat (more : s.runFrom later = some t) :
    Seen s (later ++ [x]) = fun w => Seen s later w ∨ Shows t x w := funext fun _ => propext (happened_concat more)

theorem seen_single : Seen s [x] = Shows s x := by
  have none : s.runFrom [] = some s := rfl
  have single := seen_concat (x := x) none
  rw [List.nil_append] at single
  rw [single]
  exact funext fun _ => propext (or_iff_right happened_nil)

theorem run_onward (more : s.runFrom later = some t) : Onward s.world t.world := by
  refine run_induction (P := fun _ t => Onward s.world t.world) (.refl _) ?_ more
  intro _ _ _ _ _ before acted
  exact before.trans (act_onward acted)

theorem seen_onward (more : s.runFrom later = some t) : ∀ w, Seen s later w → Onward s.world w ∧ Onward w t.world := by
  refine run_induction (P := fun later t => ∀ w, Seen s later w → Onward s.world w ∧ Onward w t.world) ?_ ?_ more
  · intro _ seen
    exact absurd seen happened_nil
  · intro later t x v more before acted w seen
    rw [seen_concat more] at seen
    rcases seen with seen | shows
    · obtain ⟨first,second⟩ := before w seen
      exact ⟨first,second.trans (act_onward acted)⟩
    · exact ⟨(run_onward more).trans (shows_onward shows),onward_shown acted shows⟩

theorem runFrom_concat (later : List Step) (x : Step) (more : s.runFrom (later ++ [x]) = some t) :
    ∃ u, s.runFrom later = some u ∧ u.act x = some t := by
  rw [State.runFrom,foldlM_concat] at more
  exact Option.bind_eq_some_iff.mp more

structure Judged (c : Context) (seen : World → Prop) (w : World) (q : Wait) : Prop where
  token : q.token = c.token
  timer : q.timer = c.deadline
  last : seen w
  past : ∀ w', seen w' → Onward w' w
  ended : ∀ m, q.ended = some m ↔ IsLeast (ends c seen) m

theorem judged_begin (c : Context) (w : World) : Judged c (· = w) w (.begin c w) := by
  refine ⟨Wait.begin_listens.1,Wait.begin_listens.2,rfl,?_,?_⟩
  · rintro _ rfl
    exact .refl _
  · intro m
    rw [Wait.begin_ends,ends_single]

theorem Judged.step (judged : Judged c seen s.world q) (known : c.token < s.world.tokens.nodes.length)
    (acted : s.act x = some t) :
    Judged c (fun w => seen w ∨ Shows s x w) t.world (x.wake s.world t.world q) := by
  obtain ⟨token,timer,last,past,first⟩ := judged
  obtain ⟨token',timer',ended⟩ := Wait.wake_kept x s.world t.world q
  refine ⟨token'.trans token,timer'.trans timer,.inr (.leads acted),?_,?_⟩
  · rintro w (was | shows)
    · exact (past w was).trans (act_onward acted)
    · exact onward_shown acted shows
  intro m
  cases waits : q.ended with
  | none =>
    have pending : ∀ w, seen w → c.isDone w = false := by
      intro w was
      by_contra done
      have some : (ends c seen).Nonempty := ⟨w.now,w,was,by simpa using done,rfl⟩
      obtain ⟨m,member,least⟩ := wellFounded_lt.has_min _ some
      rw [(first m).mpr ⟨member,fun n other => Nat.not_lt.mp (least n other)⟩] at waits
      cases waits
    rw [ends_pending pending]
    exact wake_first acted known (pending _ last) token timer waits
  | some n =>
    have least := (first n).mp waits
    have later : ∀ w w', seen w → Shows s x w' → w.now ≤ w'.now :=
      fun w w' was shows => (past w was).clock.trans (shows_onward shows).clock
    obtain ⟨w,was,done,_⟩ := least.1
    rw [ends_kept later ⟨w,was,done⟩,ended n waits,Option.some_inj]
    constructor
    · rintro rfl
      exact least
    · exact least.unique

theorem run_judged (ran : run steps = some s) (found : s.scene.held[i]? = some c)
    (more : s.runFrom (.await i :: later) = some t) :
    ∃ q, t.waits[s.waits.length]? = some q ∧ Judged c (Seen s (.await i :: later)) t.world q := by
  have known := held_known ran (List.mem_of_getElem? found)
  induction later using List.reverseRecOn generalizing t with
  | nil =>
    have acted : s.act (.await i) = some t := by simpa [State.runFrom] using more
    have seen : Seen s [.await i] = (· = s.world) := by
      rw [seen_single]
      funext w
      rw [shows_iff acted (by simp),await_world acted]
    cases act_turn acted with
    | operates same _ _ => cases same
    | awaits found' =>
      rw [found] at found'
      cases found'
      rw [seen]
      exact ⟨_,List.getElem?_concat_length,judged_begin c s.world⟩
  | append_singleton later x ih =>
    rw [← List.cons_append] at more ⊢
    obtain ⟨u,before,acted⟩ := runFrom_concat _ _ more
    obtain ⟨q,placed,judged⟩ := ih before
    have there : c.token < u.world.tokens.nodes.length :=
      (run_onward before).known known
    rw [seen_concat before]
    have judged := judged.step there acted
    cases act_turn acted with
    | operates _ _ woken => exact ⟨_,by rw [woken,List.getElem?_map,placed]; rfl,judged⟩
    | awaits _ =>
      have bound := (List.getElem?_eq_some_iff.mp placed).1
      exact ⟨q,by rw [List.getElem?_append_left bound,placed],judged⟩

theorem seen_later (more : s.runFrom later = some t) (smooth : ∀ ms, .leap ms ∉ later) (first : s.world.now < m)
    (last : m ≤ t.world.now) : ∃ w, Seen s later w ∧ w.now = m := by
  refine run_induction (P := fun later t => (∀ ms, .leap ms ∉ later) → m ≤ t.world.now → ∃ w, Seen s later w ∧ w.now = m)
    ?_ ?_ more smooth last
  · intro _ last
    exact absurd first (Nat.not_lt.mpr last)
  · intro later t x v more before acted smooth last
    rw [seen_concat more]
    rcases Nat.lt_or_ge t.world.now m with early | there
    · cases act_turn acted with
      | awaits _ => exact absurd last (Nat.not_le.mpr early)
      | @operates x op _ same moved _ =>
        have spent : v.world.now = t.world.now + op.time := History.act_now moved
        cases x with
        | await _ => cases same
        | leap ms => exact absurd (List.mem_append_right _ (List.mem_singleton_self _)) (smooth ms)
        | operate op =>
          cases same
          cases op with
          | advance ms =>
            obtain ⟨k,rfl⟩ := Nat.exists_eq_add_of_le early.le
            rw [spent] at last
            exact ⟨t.world.advance k,.inr (.passes (Nat.le_of_add_le_add_left last)),rfl⟩
          | _ =>
            rw [spent] at last
            exact absurd last (Nat.not_le.mpr early)
    · obtain ⟨w,seen,now⟩ := before (fun ms member => smooth ms (List.mem_append_left _ member)) there
      exact ⟨w,.inl seen,now⟩

theorem seen_first (more : s.runFrom (.await i :: later) = some t) : Seen s (.await i :: later) s.world := by
  rw [State.runFrom,List.foldlM_cons] at more
  obtain ⟨u,acted,_⟩ := Option.bind_eq_some_iff.mp more
  refine ⟨[],.await i,later,s,rfl,rfl,?_⟩
  rw [← await_world acted]
  exact .leads acted

theorem doneAt_le (clock : w.now ≤ w'.now) (same : c.isCancelled w' = c.isCancelled w) :
    c.isDone w' = true ↔ ∃ e, c.doneAt w = some e ∧ e ≤ w'.now := by
  rw [isDone_iff,same,doneAt]
  split
  · next cancelled => simp [cancelled,clock]
  · next calm => simp [calm,clock]

-- Without leaps, and where nobody cancels the context meanwhile, it is done from the foretold moment on.
theorem ends_foretold (more : s.runFrom (.await i :: later) = some t) (smooth : ∀ ms, .leap ms ∉ later)
    (calm : c.isCancelled t.world = c.isCancelled s.world) :
    IsLeast (ends c (Seen s (.await i :: later))) m ↔ c.doneAt s.world = some m ∧ m ≤ t.world.now := by
  have done {w : World} (seen : Seen s (.await i :: later) w) :
      c.isDone w = true ↔ ∃ e, c.doneAt s.world = some e ∧ e ≤ w.now := by
    obtain ⟨first,second⟩ := seen_onward more w seen
    refine doneAt_le first.clock (Bool.eq_iff_iff.mpr ⟨fun cancelled => ?_,first.cancelled⟩)
    rw [← calm]
    exact second.cancelled cancelled
  have shown {n : Nat} (first : s.world.now ≤ n) (last : n ≤ t.world.now) :
      ∃ w, Seen s (.await i :: later) w ∧ w.now = n := by
    rcases first.eq_or_lt with rfl | early
    · exact ⟨s.world,seen_first more,rfl⟩
    · exact seen_later more (by simpa using smooth) early last
  have ahead {e : Nat} (foretold : c.doneAt s.world = some e) : s.world.now ≤ e := by
    rw [doneAt] at foretold
    split at foretold
    · exact (Option.some_inj.mp foretold).le
    · obtain ⟨d,_,rfl⟩ := Option.map_eq_some_iff.mp foretold
      exact Nat.le_max_left _ _
  constructor
  · rintro ⟨⟨w,seen,ended,rfl⟩,least⟩
    obtain ⟨e,foretold,due⟩ := (done seen).mp ended
    have last := (seen_onward more w seen).2.clock
    obtain ⟨w',seen',rfl⟩ := shown (ahead foretold) (due.trans last)
    have sooner : w.now ≤ w'.now := least ⟨w',seen',(done seen').mpr ⟨_,foretold,Nat.le_refl _⟩,rfl⟩
    exact ⟨by rw [foretold,Nat.le_antisymm sooner due],last⟩
  · rintro ⟨foretold,last⟩
    obtain ⟨w,seen,rfl⟩ := shown (ahead foretold) last
    refine ⟨⟨w,seen,(done seen).mpr ⟨_,foretold,Nat.le_refl _⟩,rfl⟩,?_⟩
    rintro _ ⟨w',seen',ended,rfl⟩
    obtain ⟨e,foretold',due⟩ := (done seen').mp ended
    rw [foretold] at foretold'
    cases foretold'
    exact due

-- What a context tells of its end after a run, at any moment and whatever is done to the contexts later.
structure Agrees (steps : List Step) (s : State) (c : Context) : Prop where
  done : ∀ later t, s.runFrom later = some t → (c.isDone t.world = true ↔
    (∃ a, History.Struck (operations (steps ++ later)) a ∧ History.Above (operations (steps ++ later)) a c.token) ∨
      ∃ d, c.deadline = some d ∧ d ≤ t.world.now)
  remaining : ∀ w left, c.remaining w = left ↔ Leaves w.now c.deadline left
  kept : ∀ later t, s.runFrom later = some t → c.isDone t.world = true →
    ∀ more u w, t.runFrom more = some u → Seen t more w → c.isDone w = true
  awaited : ∀ i later t, s.scene.held[i]? = some c → s.runFrom (.await i :: later) = some t →
    ∃ q, t.waits[s.waits.length]? = some q ∧ ∀ m, q.ended = some m ↔ IsLeast (ends c (Seen s (.await i :: later))) m
  -- Where the clock does not leap and nobody cancels meanwhile, the wait ends at the moment that is told beforehand.
  foretold : ∀ i later t q, s.scene.held[i]? = some c → s.runFrom (.await i :: later) = some t →
    (∀ ms, .leap ms ∉ later) → c.isCancelled t.world = c.isCancelled s.world → t.waits[s.waits.length]? = some q →
    ∀ m, q.ended = some m ↔ c.doneAt s.world = some m ∧ m ≤ t.world.now

-- What is told, what is left and what is waited for agree, whatever was done to contexts and is done to them later.
theorem deadlines_agree (ran : run steps = some s) (member : c ∈ s.scene.held) : Agrees steps s c := by
  have known := held_known ran member
  refine ⟨?_,fun _ _ => remaining_iff,?_,?_,?_⟩
  · intro later t more
    have sound := History.run_sound (run_scene (run_later ran more))
    have there : c.token < t.scene.world.tokens.nodes.length := (run_onward more).known known
    rw [isDone_iff]
    exact or_congr_left (sound.cancelled_iff there)
  · intro later t more done more' u w further seen
    exact (seen_onward further w seen).1.done done
  · intro i later t found more
    obtain ⟨q,placed,judged⟩ := run_judged ran found more
    exact ⟨q,placed,judged.ended⟩
  · intro i later t q found more smooth calm placed m
    obtain ⟨q',placed',judged⟩ := run_judged ran found more
    rw [placed] at placed'
    cases placed'
    rw [judged.ended,ends_foretold more smooth calm]

-- A context that is linked under another and a detached copy of it, each with a deadline and with a wait for its end;
-- then the other context is cancelled.
def twoWaits : List Step :=
  [.operate .new,.operate .new,.operate (.link 0 1),.operate (.timeout 0 50),.operate (.detach 0),.operate (.timeout 2 40),
    .await 0,.await 2,.operate (.advance 20),.operate (.cancel 1),.operate (.advance 40)]

-- The first wait is over with the cancel, the second at the deadline.
theorem twoWaits_agree : ∃ s c, run twoWaits = some s ∧ s.waits.map (·.ended) = [some 20,some 40] ∧ s.scene.held[0]? = some c ∧
    Agrees twoWaits s c :=
  ⟨_,_,rfl,by decide,rfl,deadlines_agree rfl (List.mem_of_getElem? (i := 0) rfl)⟩

end Waiting
end ServiceKit.Context
