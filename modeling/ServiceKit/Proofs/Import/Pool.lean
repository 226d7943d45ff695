import ServiceKit.Import.Pool

namespace ServiceKit.Import

namespace Phase

theorem place?_ofRow (c : Catalog) (s : Shape) (r : Placed) : (ofRow c s r).place? = some r.place := by
  unfold ofRow
  dsimp only
  split
  · rfl
  · split <;> rfl

theorem isGone_ofRow (c : Catalog) (s : Shape) (r : Placed) : (ofRow c s r).isGone = false := by
  unfold ofRow
  dsimp only
  split
  · rfl
  · split <;> rfl

def isDead : Phase → Bool
  | .dead .. => true
  | _ => false

theorem isDead_ofRow (c : Catalog) (s : Shape) (r : Placed) : (ofRow c s r).isDead = false := by
  unfold ofRow
  dsimp only
  split
  · rfl
  · split <;> rfl

theorem eq_finished {phase : Phase} (gone : phase.isGone = true) (alive : phase.isDead = false) :
    phase = .finished := by
  cases phase with
  | finished => rfl
  | dead _ _ => cases alive
  | idle | beginning _ | processing _ _ | committing _ _ | rollingBack _ _ _ | reporting _ => cases gone

def holds (among : Nat → Bool) (phase : Phase) : Bool := phase.place?.any among

@[simp] theorem holds_idle (among : Nat → Bool) : holds among .idle = false := rfl
@[simp] theorem holds_finished (among : Nat → Bool) : holds among .finished = false := rfl
@[simp] theorem holds_reporting (among : Nat → Bool) (r : Report) : holds among (.reporting r) = among r.place := rfl
@[simp] theorem holds_ofRow (among : Nat → Bool) (c : Catalog) (s : Shape) (r : Placed) :
    holds among (ofRow c s r) = among r.place := by
  rw [holds,place?_ofRow]
  rfl

theorem holds_place {phase : Phase} : holds (· == i) phase = true ↔ phase.place? = some i := by
  cases held : phase.place? <;> simp [holds,held]

end Phase

-- A seam whose beginnings, commits and rollbacks succeed or fail, but do not panic.
structure Seam.Steady (seam : Seam σ) : Prop where
  begin : ∀ s m, (seam.begin s).1 ≠ .panicked m
  commit : ∀ tx s m, (seam.commit tx s).1 ≠ .panicked m
  rollback : ∀ tx s m, (seam.rollback tx s).1 ≠ .panicked m

theorem Seam.noTransaction_steady (process : Context → Validation.Datum → Nat → σ → Processed × σ) :
    (Seam.noTransaction process).Steady := by
  refine ⟨?_,?_,?_⟩
  · intro s m panicked; cases panicked
  · intro tx s m panicked; cases panicked
  · intro tx s m panicked; cases panicked

namespace Worked

theorem call_place {seam : Seam σ} {outside : σ} {phase : Phase} {w : Worked σ} (made : call seam ctx span worker outside phase = some w) :
    phase.place? = some w.made.place ∧ w.phase.place? = some w.made.place ∧ w.made.worker = worker := by
  cases phase with
  | idle | finished | dead _ _ | reporting _ => cases made
  | beginning row | processing row tx | committing row tx | rollingBack row tx e =>
    simp only [call] at made
    split at made <;> cases made <;> exact ⟨rfl,rfl,rfl⟩

theorem call_alive {seam : Seam σ} {outside : σ} {phase : Phase} {w : Worked σ} (steady : seam.Steady)
    (made : call seam ctx span worker outside phase = some w) : w.phase.isDead = false := by
  cases phase with
  | idle | finished | dead _ _ | reporting _ => cases made
  | beginning row =>
    simp only [call] at made
    split at made <;> cases made
    · rfl
    · rfl
    · next panicked => exact absurd panicked (steady.begin _ _)
  | processing row tx =>
    simp only [call] at made
    split at made <;> cases made <;> rfl
  | committing row tx =>
    simp only [call] at made
    split at made <;> cases made
    · rfl
    · rfl
    · next panicked => exact absurd panicked (steady.commit _ _ _)
  | rollingBack row tx e =>
    simp only [call] at made
    split at made <;> cases made
    · rfl
    · rfl
    · next panicked => exact absurd panicked (steady.rollback _ _ _)

end Worked

namespace Pool
variable {p : Setting σ} {s t : State σ} {rows : List RawRow} {outside : σ}

-- The steps one by one: what enables each and what it changes.
inductive Moved (p : Setting σ) (s : State σ) : State σ → Prop where
  | read (unread : s.unread = row :: rest) (room : s.queue.length < p.capacity) :
      Moved p s { s with unread := rest,queue := s.queue ++ [row] }
  | take (idle : s.workers[worker]? = some .idle) (queue : s.queue = row :: rest) :
      Moved p s { s with queue := rest,workers := s.workers.set worker (Phase.ofRow p.catalog p.shape row),
                         taken := s.taken ++ [(row.place,worker)] }
  | call (held : s.workers[worker]? = some phase)
      (made : Worked.call p.seam p.context p.span worker s.outside phase = some w) :
      Moved p s { s with workers := s.workers.set worker w.phase,outside := w.outside,
                         calls := s.calls ++ [w.made],logs := s.logs ++ w.logs }
  | report (held : s.workers[worker]? = some (.reporting r)) (room : s.outcomes.length < p.capacity) :
      Moved p s { s with workers := s.workers.set worker .idle,outcomes := s.outcomes ++ [r],
                         ticks := s.ticks ++ [.row (if r.outcome.isFailed then "failed" else "ok")] }
  | leave (idle : s.workers[worker]? = some .idle) (queue : s.queue = []) (unread : s.unread = []) :
      Moved p s { s with workers := s.workers.set worker .finished,
                         logs := s.logs ++ [⟨.debug,"import worker finished",[("worker",.nat worker)],p.span⟩] }
  | collect (outcomes : s.outcomes = r :: rest) :
      Moved p s { s with outcomes := rest,recorded := s.recorded ++ [r] }

theorem act_moved {a : Action} (acted : s.act p a = some t) : Moved p s t := by
  cases a with
  | read =>
    simp only [State.act,State.read] at acted
    split at acted
    · next unread =>
      split at acted
      · next room => cases acted; exact .read unread room
      · cases acted
    · cases acted
  | take worker =>
    simp only [State.act,State.take] at acted
    split at acted
    · next idle queue => cases acted; exact .take idle queue
    · cases acted
  | call worker =>
    simp only [State.act,State.call,Option.bind_eq_bind,Option.bind_eq_some_iff] at acted
    obtain ⟨phase,held,w,made,acted⟩ := acted
    cases acted
    exact .call held made
  | report worker =>
    simp only [State.act,State.report] at acted
    split at acted
    · next held =>
      split at acted
      · next room => cases acted; exact .report held room
      · cases acted
    · cases acted
  | leave worker =>
    simp only [State.act,State.leave] at acted
    split at acted
    · next idle queue unread => cases acted; exact .leave idle queue unread
    · cases acted
  | collect =>
    simp only [State.act,State.collect] at acted
    split at acted
    · next outcomes => cases acted; exact .collect outcomes
    · cases acted

theorem moved_step (moved : Moved p s t) : Step p s t := by
  cases moved with
  | read unread room => exact ⟨.read,by simp only [State.act,State.read,unread,room,if_true]⟩
  | @take worker row rest idle queue => exact ⟨.take worker,by simp only [State.act,State.take,idle,queue]⟩
  | @call worker phase w held made =>
    exact ⟨.call worker,by simp only [State.act,State.call,held,made,Option.bind_eq_bind,Option.bind_some,pure]⟩
  | @report worker r held room =>
    exact ⟨.report worker,by simp only [State.act,State.report,held,room,if_true,State.become]⟩
  | @leave worker idle queue unread =>
    exact ⟨.leave worker,by simp only [State.act,State.leave,idle,queue,unread,State.become]⟩
  | collect outcomes => exact ⟨.collect,by simp only [State.act,State.collect,outcomes]⟩

theorem step_iff_moved : Step p s t ↔ Moved p s t := ⟨fun ⟨_,acted⟩ => act_moved acted,moved_step⟩

theorem reached_size (path : Reached p (.start p rows outside) s) : s.workers.length = p.size := by
  induction path with
  | refl => simp [State.start]
  | step _ next ih => cases step_iff_moved.mp next <;> simpa using ih

theorem reached_room (path : Reached p (.start p rows outside) s) :
    s.queue.length ≤ p.capacity ∧ s.outcomes.length ≤ p.capacity := by
  induction path with
  | refl => simp [State.start]
  | step _ next ih =>
    cases step_iff_moved.mp next with
    | read _ room => simpa using ⟨room,ih.2⟩
    | take _ queue =>
      rw [queue,List.length_cons] at ih
      exact ⟨Nat.le_of_succ_le ih.1,ih.2⟩
    | call | leave => exact ih
    | report _ room => simpa using ⟨ih.1,room⟩
    | collect outcomes =>
      rw [outcomes,List.length_cons] at ih
      exact ⟨ih.1,Nat.le_of_succ_le ih.2⟩

theorem getElem?_placed (rows : List RawRow) (i : Nat) : (placed rows)[i]? = rows[i]?.map (⟨i,·⟩) := by
  simp only [placed,List.getElem?_map,List.getElem?_zipIdx,Option.map_map,Nat.zero_add]
  rfl

theorem map_place_placed (rows : List RawRow) : (placed rows).map (·.place) = List.range rows.length := by
  apply List.ext_getElem?
  intro i
  simp only [List.getElem?_map,getElem?_placed,Option.map_map,Function.comp_def]
  cases h : rows[i]? <;> grind

theorem reached_finished (path : Reached p (.start p rows outside) s) (left : .finished ∈ s.workers) :
    s.queue = [] ∧ s.unread = [] := by
  induction path with
  | refl => cases List.eq_of_mem_replicate left
  | step _ next ih =>
    cases step_iff_moved.mp next with
    | read unread _ => cases unread.symm.trans (ih left).2
    | @take _ row _ _ queue =>
      rcases List.mem_or_eq_of_mem_set left with before | new
      · cases queue.symm.trans (ih before).1
      · have going := Phase.isGone_ofRow p.catalog p.shape row
        rw [← new] at going
        cases going
    | call _ made =>
      rcases List.mem_or_eq_of_mem_set left with before | new
      · exact ih before
      · have held := (Worked.call_place made).2.1
        rw [← new] at held
        cases held
    | report _ _ =>
      rcases List.mem_or_eq_of_mem_set left with before | new
      · exact ih before
      · cases new
    | leave _ queue unread => exact ⟨queue,unread⟩
    | collect _ => exact ih left

theorem reached_alive (steady : p.seam.Steady) (path : Reached p (.start p rows outside) s) :
    ∀ phase ∈ s.workers, phase.isDead = false := by
  induction path with
  | refl =>
    intro phase member
    rw [List.eq_of_mem_replicate member]
    rfl
  | step _ next ih =>
    intro phase member
    cases step_iff_moved.mp next with
    | read _ _ | collect _ => exact ih phase member
    | take _ _ =>
      rcases List.mem_or_eq_of_mem_set member with before | rfl
      · exact ih phase before
      · exact Phase.isDead_ofRow _ _ _
    | report _ _ | leave _ _ _ =>
      rcases List.mem_or_eq_of_mem_set member with before | rfl
      · exact ih phase before
      · rfl
    | call _ made =>
      rcases List.mem_or_eq_of_mem_set member with before | rfl
      · exact ih phase before
      · exact Worked.call_alive steady made

theorem done_ended (ended : s.done = true) :
    s.unread = [] ∧ s.outcomes = [] ∧ ∀ phase ∈ s.workers, phase.isGone = true := by
  simp only [State.done,State.allGone,Bool.and_eq_true,List.isEmpty_iff,List.all_eq_true] at ended
  exact ⟨ended.2,ended.1.2,ended.1.1⟩

theorem done_deserted (path : Reached p (.start p rows outside) s) (ended : s.done = true) (left : s.queue ≠ []) :
    s.workers ≠ [] ∧ ∀ phase ∈ s.workers, phase.isDead = true := by
  obtain ⟨_,_,gone⟩ := done_ended ended
  refine ⟨?_,?_⟩
  · intro none_
    have room := (reached_room path).1
    have size := reached_size path
    rw [none_] at size
    rw [Setting.capacity,← size] at room
    exact left (List.eq_nil_of_length_eq_zero (Nat.le_zero.mp room))
  · intro phase member
    cases alive : phase.isDead with
    | true => rfl
    | false =>
      have finished := Phase.eq_finished (gone phase member) alive
      exact absurd (reached_finished path (finished ▸ member)).1 left

theorem done_emptied (path : Reached p (.start p rows outside) s) (ended : s.done = true)
    (alive : ∀ phase ∈ s.workers, phase.isDead = false) : s.queue = [] := by
  apply Classical.byContradiction
  intro left
  obtain ⟨manned,dead⟩ := done_deserted path ended left
  obtain ⟨phase,member⟩ := List.exists_mem_of_ne_nil _ manned
  cases (alive phase member).symm.trans (dead phase member)

-- Once a run whose workers all live has ended, nothing is on its way any more.
theorem done_drained (path : Reached p (.start p rows outside) s) (ended : s.done = true)
    (alive : ∀ phase ∈ s.workers, phase.isDead = false) :
    s.unread = [] ∧ s.queue = [] ∧ s.outcomes = [] ∧ ∀ among, s.workers.countP (Phase.holds among) = 0 := by
  obtain ⟨unread,outcomes,gone⟩ := done_ended ended
  refine ⟨unread,done_emptied path ended alive,outcomes,?_⟩
  intro among
  rw [List.countP_eq_zero]
  intro phase member
  simp [Phase.eq_finished (gone phase member) (alive phase member)]

namespace State

def stations (s : State σ) (among : Nat → Bool) : Nat :=
  s.unread.countP (fun r => among r.place) + s.queue.countP (fun r => among r.place) +
    s.workers.countP (Phase.holds among) + s.outcomes.countP (fun r => among r.place) +
    s.recorded.countP (fun r => among r.place)

end State

theorem countP_set_eq {l : List α} (f : α → Bool) (held : l[i]? = some a) (b : α) :
    (l.set i b).countP f + (if f a then 1 else 0) = l.countP f + (if f b then 1 else 0) := by
  obtain ⟨bound,rfl⟩ := List.getElem?_eq_some_iff.mp held
  rw [List.countP_set bound]
  have counted : (if f l[i] then 1 else 0) ≤ l.countP f := by
    split
    · next holds => exact List.one_le_countP_iff.mpr ⟨_,List.getElem_mem bound,holds⟩
    · exact Nat.zero_le _
  omega

theorem moved_stations (moved : Moved p s t) (among : Nat → Bool) : t.stations among = s.stations among := by
  unfold State.stations
  cases moved with
  | read unread _ => simp only [unread,List.countP_cons,List.countP_append,List.countP_nil]; omega
  | @take worker row rest idle queue =>
    have counted := countP_set_eq (Phase.holds among) idle (Phase.ofRow p.catalog p.shape row)
    by_cases here : among row.place = true <;> simp [queue,here] at counted ⊢ <;> omega
  | @call worker phase w held made =>
    have counted := countP_set_eq (Phase.holds among) held w.phase
    obtain ⟨before,after,_⟩ := Worked.call_place made
    simp only [Phase.holds,before,after] at counted ⊢
    omega
  | @report worker r held _ =>
    have counted := countP_set_eq (Phase.holds among) held .idle
    by_cases here : among r.place = true <;> simp [here] at counted ⊢ <;> omega
  | leave idle _ _ =>
    have counted := countP_set_eq (Phase.holds among) idle .finished
    simp only [Phase.holds_idle,Phase.holds_finished,Bool.false_eq_true,if_false,Nat.add_zero] at counted
    rw [counted]
  | collect outcomes => simp only [outcomes,List.countP_cons,List.countP_append,List.countP_nil]; omega

theorem start_stations (p : Setting σ) (rows : List RawRow) (outside : σ) (among : Nat → Bool) :
    (State.start p rows outside).stations among = (List.range rows.length).countP among := by
  rw [← map_place_placed,List.countP_map]
  simp [State.stations,State.start,List.countP_replicate,Function.comp_def]

theorem reached_stations (path : Reached p (.start p rows outside) s) (among : Nat → Bool) :
    s.stations among = (List.range rows.length).countP among := by
  induction path with
  | refl => exact start_stations p rows outside among
  | step _ next ih => rw [moved_stations (step_iff_moved.mp next),ih]

theorem reached_station (path : Reached p (.start p rows outside) s) (i : Nat) :
    s.stations (· == i) = if i < rows.length then 1 else 0 :=
  (reached_stations path (· == i)).trans List.count_range

end Pool
end ServiceKit.Import
