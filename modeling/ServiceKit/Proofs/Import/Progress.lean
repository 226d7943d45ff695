import ServiceKit.Import.Rehearsal
import ServiceKit.Proofs.Import.Pool

namespace ServiceKit.Import
namespace Pool
variable {p : Setting σ} {s t : State σ} {rows : List RawRow} {outside : σ}

structure Starved (p : Setting σ) (s : State σ) : Prop where
  dead : ∀ phase ∈ s.workers, phase.isDead = true
  recorded : s.outcomes = []
  full : s.queue.length = p.capacity
  unread : s.unread ≠ []

theorem starved_stuck (starved : Starved p s) : ¬ ∃ t, Step p s t := by
  rintro ⟨t,next⟩
  have dead : ∀ {worker : Nat} {phase : Phase}, s.workers[worker]? = some phase → phase.isDead = true :=
    fun held => starved.dead _ (List.mem_of_getElem? held)
  cases step_iff_moved.mp next with
  | read _ room => exact absurd starved.full (Nat.ne_of_lt room)
  | take idle _ => cases dead idle
  | @call _ phase _ held made =>
    have gone := dead held
    cases phase with
    | dead _ _ => cases made
    | idle | finished | beginning _ | processing _ _ | committing _ _ | rollingBack _ _ _ | reporting _ => cases gone
  | report held _ => cases dead held
  | leave idle _ _ => cases dead idle
  | collect outcomes => cases outcomes.symm.trans starved.recorded

-- Where rows are left, a worker that is not gone can go on, or the reader can.
theorem worker_steps {worker : Nat} {phase : Phase} (sized : 0 < p.size) (held : s.workers[worker]? = some phase)
    (going : phase.isGone = false) (collected : s.outcomes = []) : ∃ t, Step p s t := by
  have room : 0 < p.capacity := Nat.mul_pos Nat.zero_lt_two sized
  cases phase with
  | finished | dead _ _ => cases going
  | idle =>
    cases queue : s.queue with
    | cons row rest => exact ⟨_,moved_step (.take held queue)⟩
    | nil =>
      cases unread : s.unread with
      | nil => exact ⟨_,moved_step (.leave held queue unread)⟩
      | cons row rest => exact ⟨_,moved_step (.read unread (by rw [queue]; exact room))⟩
  | beginning row | processing row tx | committing row tx | rollingBack row tx e =>
    exact ⟨_,moved_step (.call held rfl)⟩
  | reporting r => exact ⟨_,moved_step (.report held (by rw [collected]; exact room))⟩

theorem fed_steps (sized : 0 < p.size) (path : Reached p (.start p rows outside) s) (running : s.done = false)
    (fed : ¬ Starved p s) : ∃ t, Step p s t := by
  cases outcomes : s.outcomes with
  | cons r rest => exact ⟨_,moved_step (.collect outcomes)⟩
  | nil =>
    by_cases gone : ∀ phase ∈ s.workers, phase.isGone = true
    · cases unread : s.unread with
      | nil =>
        have ended : s.done = true := by simpa [State.done,State.allGone,outcomes,unread] using gone
        cases running.symm.trans ended
      | cons row rest =>
        have dead : ∀ phase ∈ s.workers, phase.isDead = true := by
          intro phase member
          cases alive : phase.isDead with
          | true => rfl
          | false =>
            have left := Phase.eq_finished (gone phase member) alive
            cases unread.symm.trans (reached_finished path (left ▸ member)).2
        by_cases room : s.queue.length < p.capacity
        · exact ⟨_,moved_step (.read unread room)⟩
        · have full : s.queue.length = p.capacity := Nat.le_antisymm (reached_room path).1 (Nat.not_lt.mp room)
          exact absurd ⟨dead,outcomes,full,by rw [unread]; exact List.cons_ne_nil _ _⟩ fed
    · obtain ⟨phase,some⟩ := Classical.not_forall.mp gone
      obtain ⟨member,going⟩ := Classical.not_imp.mp some
      obtain ⟨worker,held⟩ := List.mem_iff_getElem?.mp member
      exact worker_steps sized held (Bool.eq_false_iff.mpr going) outcomes

-- A run that has not returned can go on just if it is not starved.
theorem step_iff_fed (sized : 0 < p.size) (path : Reached p (.start p rows outside) s) (running : s.done = false) :
    (∃ t, Step p s t) ↔ ¬ Starved p s :=
  ⟨fun steps starved => starved_stuck starved steps,fed_steps sized path running⟩

def doomed : Setting Journal := ⟨[],.any,Script.seam ⟨[],[1],[],[],[]⟩,(Context.new .start).1,none,1⟩

def fourRows : List RawRow :=
  [⟨2,[("name",.string "A")]⟩,⟨3,[("name",.string "B")]⟩,⟨4,[("name",.string "C")]⟩,⟨5,[("name",.string "D")]⟩]

theorem fourRows_fed : (∃ t, Step doomed (.start doomed fourRows ⟨0,[]⟩) t) ↔
    ¬ Starved doomed (.start doomed fourRows ⟨0,[]⟩) :=
  step_iff_fed Nat.zero_lt_one .refl rfl

-- The first row dies with the worker, two wait in the channel, and the reader keeps waiting with the last.
theorem fourRows_stuck : ∃ s, Reached doomed (.start doomed fourRows ⟨0,[]⟩) s ∧ s.done = false ∧
    s.workers.all Phase.isGone = true ∧ ¬ ∃ t, Step doomed s t := by
  refine ⟨run doomed fourRows ⟨0,[]⟩,run_reached _ _ _,rfl,rfl,starved_stuck ?_⟩
  refine ⟨?_,rfl,rfl,?_⟩
  · intro phase member
    have dead : phase = .dead 0 "begin panicked" := List.mem_singleton.mp member
    rw [dead]
    rfl
  · have waiting : (run doomed fourRows ⟨0,[]⟩).unread = [⟨3,⟨5,[("name",.string "D")]⟩⟩] := rfl
    rw [waiting]
    exact List.cons_ne_nil _ _

theorem steady_fed (steady : p.seam.Steady) (sized : 0 < p.size) (path : Reached p (.start p rows outside) s) :
    ¬ Starved p s := by
  intro starved
  have size := reached_size path
  cases workers : s.workers with
  | nil =>
    rw [workers] at size
    exact absurd sized (size ▸ Nat.lt_irrefl 0)
  | cons phase rest =>
    have member : phase ∈ s.workers := by rw [workers]; exact List.mem_cons_self
    cases (reached_alive steady path phase member).symm.trans (starved.dead phase member)

end Pool

-- How many steps a worker can still take on its own, and its row after it.
def Phase.weight : Phase → Nat
  | .finished | .dead _ _ => 0
  | .idle => 1
  | .reporting _ => 3
  | .committing _ _ | .rollingBack _ _ _ => 4
  | .processing _ _ => 5
  | .beginning _ => 6

@[simp] theorem Phase.weight_idle : weight .idle = 1 := rfl
@[simp] theorem Phase.weight_finished : weight .finished = 0 := rfl
@[simp] theorem Phase.weight_reporting (r : Report) : weight (.reporting r) = 3 := rfl

theorem Phase.weight_ofRow (c : Catalog) (s : Shape) (r : Placed) : (ofRow c s r).weight ≤ 6 := by
  unfold ofRow
  dsimp only
  split
  · exact Nat.le_of_ble_eq_true rfl
  · split
    · exact Nat.le_refl 6
    · exact Nat.le_of_ble_eq_true rfl

theorem Worked.call_weight {seam : Seam σ} {outside : σ} {phase : Phase} {w : Worked σ}
    (made : call seam ctx span worker outside phase = some w) : w.phase.weight < phase.weight := by
  cases phase with
  | idle | finished | dead _ _ | reporting _ => cases made
  | beginning row | processing row tx | committing row tx | rollingBack row tx e =>
    simp only [call] at made
    split at made <;> cases made <;> exact Nat.lt_of_sub_pos (Nat.le_of_ble_eq_true rfl)

namespace Pool
variable {p : Setting σ} {s t : State σ} {rows : List RawRow} {outside : σ}

def State.weight (s : State σ) : Nat :=
  7 * s.unread.length + 6 * s.queue.length + s.workers.foldr (fun phase sum => phase.weight + sum) 0 +
    s.outcomes.length

theorem sum_set_eq {l : List α} (f : α → Nat) (held : l[i]? = some a) (b : α) :
    (l.set i b).foldr (fun a sum => f a + sum) 0 + f a = l.foldr (fun a sum => f a + sum) 0 + f b := by
  induction l generalizing i with
  | nil => cases held
  | cons head rest ih =>
    cases i with
    | zero =>
      cases held
      simp only [List.set_cons_zero,List.foldr_cons]
      omega
    | succ i =>
      have tail := ih held
      simp only [List.set_cons_succ,List.foldr_cons]
      omega

theorem step_weight (next : Step p s t) : t.weight < s.weight := by
  unfold State.weight
  cases step_iff_moved.mp next with
  | read unread _ => simp only [unread,List.length_cons,List.length_append,List.length_nil]; omega
  | @take _ row _ idle queue =>
    have changed := sum_set_eq Phase.weight idle (Phase.ofRow p.catalog p.shape row)
    have bound := Phase.weight_ofRow p.catalog p.shape row
    rw [Phase.weight_idle] at changed
    simp only [queue,List.length_cons]
    omega
  | @call _ _ w held made =>
    have changed := sum_set_eq Phase.weight held w.phase
    have less := Worked.call_weight made
    dsimp only
    omega
  | report held _ =>
    have changed := sum_set_eq Phase.weight held .idle
    rw [Phase.weight_idle,Phase.weight_reporting] at changed
    simp only [List.length_append,List.length_cons,List.length_nil]
    omega
  | leave idle _ _ =>
    have changed := sum_set_eq Phase.weight idle .finished
    rw [Phase.weight_idle,Phase.weight_finished] at changed
    dsimp only
    omega
  | collect outcomes => simp only [outcomes,List.length_cons]; omega

theorem start_weight (p : Setting σ) (rows : List RawRow) (outside : σ) :
    (State.start p rows outside).weight = 7 * rows.length + p.size := by
  have idle : ∀ n, (List.replicate n Phase.idle).foldr (fun phase sum => phase.weight + sum) 0 = n := by
    intro n
    induction n with
    | zero => rfl
    | succ n ih => rw [List.replicate_succ,List.foldr_cons,ih,Phase.weight_idle,Nat.add_comm]
  simp [State.weight,State.start,placed,idle]

theorem firstOf_none {as : List Action} (none_ : firstOf p s as = none) : ∀ a ∈ as, s.act p a = none := by
  induction as with
  | nil => intro a member; cases member
  | cons first rest ih =>
    unfold firstOf at none_
    split at none_
    · cases none_
    · next stuck =>
      intro a member
      rcases List.mem_cons.mp member with rfl | tail
      · exact stuck
      · exact ih none_ a tail

theorem mem_candidates {a : Action} (acted : s.act p a = some t) : a ∈ candidates s.workers.length := by
  have inside : ∀ {worker : Nat} {phase : Phase}, s.workers[worker]? = some phase → worker < s.workers.length :=
    fun held => (List.getElem?_eq_some_iff.mp held).1
  cases a with
  | read | collect => simp [candidates]
  | take worker =>
    simp only [State.act,State.take] at acted
    split at acted
    · next idle _ => simp [candidates,inside idle]
    · cases acted
  | call worker =>
    simp only [State.act,State.call,Option.bind_eq_bind,Option.bind_eq_some_iff] at acted
    obtain ⟨phase,held,_⟩ := acted
    simp [candidates,inside held]
  | report worker =>
    simp only [State.act,State.report] at acted
    split at acted
    · next held => simp [candidates,inside held]
    · cases acted
  | leave worker =>
    simp only [State.act,State.leave] at acted
    split at acted
    · next idle _ _ => simp [candidates,inside idle]
    · cases acted

theorem next?_none (size : s.workers.length = p.size) (stopped : next? p s = none) : ¬ ∃ t, Step p s t := by
  rintro ⟨t,a,acted⟩
  have tried := firstOf_none stopped a (size ▸ mem_candidates acted)
  cases tried.symm.trans acted

theorem runFor_stopped (p : Setting σ) (fuel : Nat) (s : State σ) (enough : s.weight < fuel) :
    next? p (runFor p fuel s) = none := by
  induction fuel generalizing s with
  | zero => cases enough
  | succ fuel ih =>
    unfold runFor
    split
    · next t moved =>
      have less := step_weight (firstOf_step moved)
      exact ih t (by omega)
    · next stuck => exact stuck

theorem run_stopped (p : Setting σ) (rows : List RawRow) (outside : σ) : ¬ ∃ t, Step p (run p rows outside) t := by
  refine next?_none (reached_size (run_reached p rows outside)) ?_
  refine runFor_stopped p _ _ ?_
  rw [start_weight]
  exact Nat.lt_succ_self _

theorem run_done_iff (sized : 0 < p.size) : (run p rows outside).done = true ↔ ¬ Starved p (run p rows outside) := by
  constructor
  · intro ended starved
    simp only [State.done,Bool.and_eq_true,List.isEmpty_iff] at ended
    exact starved.unread ended.2
  · intro fed
    cases ended : (run p rows outside).done with
    | true => rfl
    | false => exact absurd (fed_steps sized (run_reached p rows outside) ended fed) (run_stopped p rows outside)

end Pool

theorem Job.prepare_workers {j : Job} {f : Form.Upload} {kind : FileKind} (prepared : j.prepare = .ok (f,kind)) : 0 < j.workers := by
  have sized : j.workers ≠ 0 := by
    intro none_
    unfold prepare at prepared
    split at prepared
    · cases prepared
    · simp only [none_,if_true,bind,Except.bind] at prepared
      split at prepared
      · cases prepared
      · split at prepared <;> cases prepared
  exact Nat.pos_of_ne_zero sized

theorem Job.run_returns (d : Decoder) (c : Catalog) (shape : Shape) {seam : Seam σ} (steady : seam.Steady) (ctx : Context)
    (span : Option Span) (j : Job) (outside : σ) : (j.run d c shape seam ctx span outside).result.isSome = true := by
  unfold run
  split
  · rfl
  · next f kind prepared =>
    have sized : 0 < (j.setting c shape seam ctx span).size := prepare_workers prepared
    have fed := Pool.steady_fed steady sized (Pool.run_reached _ (RowSource.ofFile d kind j.sheet f.data).rows outside)
    exact (j.isSome_leave ..).trans ((Pool.run_done_iff sized).mpr fed)

theorem Script.bare_returns (d : Decoder) (c : Catalog) (shape : Shape) (script : Script) (ctx : Context) (span : Option Span)
    (j : Job) : (j.run d c shape script.bare ctx span ()).result.isSome = true :=
  j.run_returns d c shape (Seam.noTransaction_steady _) ctx span ()

end ServiceKit.Import
