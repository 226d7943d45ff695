import ServiceKit.Proofs.Import.Course
import ServiceKit.Proofs.Import.Summary

namespace ServiceKit.Import.Pool
variable {p : Setting σ} {s t : State σ} {rows : List RawRow} {outside : σ}

namespace State

def outcome? (s : State σ) (i : Nat) : Option RowOutcome := (s.recorded.find? (·.place == i)).map (·.outcome)

def counted (s : State σ) (n : Nat) (kind : RowOutcome → Bool) : Nat :=
  (List.range n).countP fun i => (s.outcome? i).any kind

end State

theorem moved_taken (moved : Moved p s t) (i : Nat) :
    t.taken.countP (·.1 == i) + (t.unread ++ t.queue).countP (·.place == i) =
      s.taken.countP (·.1 == i) + (s.unread ++ s.queue).countP (·.place == i) := by
  cases moved with
  | read unread _ =>
    simp only [unread,List.countP_append,List.countP_cons,List.countP_nil]
    omega
  | take _ queue =>
    simp only [queue,List.countP_append,List.countP_cons,List.countP_nil]
    omega
  | call _ _ | report _ _ | leave _ _ _ | collect _ => rfl

theorem reached_taken (path : Reached p (.start p rows outside) s) (i : Nat) :
    s.taken.countP (·.1 == i) + (s.unread ++ s.queue).countP (·.place == i) = if i < rows.length then 1 else 0 := by
  induction path with
  | refl =>
    have waiting := start_stations p rows outside (· == i)
    simpa [State.stations,State.start,List.countP_replicate,← List.count_eq_countP] using waiting
  | step _ next ih => rw [moved_taken (step_iff_moved.mp next),ih]

theorem reached_taker (path : Reached p (.start p rows outside) s) : ∀ e ∈ s.taken, e.2 < p.size := by
  induction path with
  | refl => intro e member; cases member
  | step before next ih =>
    cases step_iff_moved.mp next with
    | read _ _ | call _ _ | report _ _ | leave _ _ _ | collect _ => exact ih
    | take idle _ =>
      intro e member
      rcases List.mem_append.mp member with old | new
      · exact ih e old
      · rw [List.mem_singleton.mp new,← reached_size before]
        exact (List.getElem?_eq_some_iff.mp idle).1

theorem filter_once {l : List α} {f : α → Bool} (once : l.countP f = 1) : ∃ a, l.filter f = [a] ∧ a ∈ l ∧ f a = true := by
  rw [List.countP_eq_length_filter] at once
  obtain ⟨a,only⟩ := List.length_eq_one_iff.mp once
  have member : a ∈ l.filter f := by rw [only]; exact List.mem_singleton_self a
  exact ⟨a,only,List.mem_filter.mp member⟩

theorem mem_of_only {l : List α} {f : α → Bool} (only : l.filter f = [a]) : a ∈ l := by
  have member : a ∈ l.filter f := by rw [only]; exact List.mem_singleton_self a
  exact (List.mem_filter.mp member).1

theorem returned_ok {s : State σ} (returned : s.returns stop = some (.ok summary)) :
    s.done = true ∧ summary = Summary.ofOutcomes (s.recorded.map (·.outcome)) := by
  unfold State.returns at returned
  split at returned
  · next ended =>
    cases stop with
    | none => cases returned; exact ⟨ended,rfl⟩
    | some e => cases returned
  · cases returned

theorem done_recorded (path : Reached p (.start p rows outside) s) (ended : s.done = true)
    (alive : ∀ phase ∈ s.workers, phase.isDead = false) (i : Nat) :
    s.recorded.countP (·.place == i) = if i < rows.length then 1 else 0 := by
  obtain ⟨unread,queue,outcomes,idle⟩ := done_drained path ended alive
  have stations := reached_station path i
  simpa [State.stations,unread,queue,outcomes,idle] using stations

theorem done_taken (steady : p.seam.Steady) (path : Reached p (.start p rows outside) s) (ended : s.done = true)
    (i : Nat) : s.taken.countP (·.1 == i) = if i < rows.length then 1 else 0 := by
  obtain ⟨unread,queue,_,_⟩ := done_drained path ended (reached_alive steady path)
  have taken := reached_taken path i
  simpa [unread,queue] using taken

theorem done_perm (steady : p.seam.Steady) (path : Reached p (.start p rows outside) s) (ended : s.done = true) :
    (s.recorded.map (·.place)).Perm (List.range rows.length) := by
  rw [List.perm_iff_count]
  intro i
  rw [List.count_range,← done_recorded path ended (reached_alive steady path) i,List.count,List.countP_map]
  rfl

theorem reached_outcome? (path : Reached p (.start p rows outside) s) (member : r ∈ s.recorded) :
    s.outcome? r.place = some r.outcome := by
  have positive : 0 < s.recorded.countP (·.place == r.place) :=
    List.countP_pos_iff.mpr ⟨r,member,beq_self_eq_true r.place⟩
  have once : s.recorded.countP (·.place == r.place) = 1 := by
    have station := reached_station path r.place
    simp only [State.stations] at station
    split at station <;> omega
  obtain ⟨a,only,_⟩ := filter_once once
  have same : r ∈ s.recorded.filter (·.place == r.place) :=
    List.mem_filter.mpr ⟨member,beq_self_eq_true r.place⟩
  rw [only,List.mem_singleton] at same
  rw [State.outcome?,← List.head?_filter,only,← same]
  rfl

theorem done_counted (steady : p.seam.Steady) (path : Reached p (.start p rows outside) s) (ended : s.done = true)
    (kind : RowOutcome → Bool) : (s.recorded.map (·.outcome)).countP kind = s.counted rows.length kind := by
  have found : ∀ r ∈ s.recorded, kind r.outcome ↔ (s.outcome? r.place).any kind := by
    intro r member
    rw [reached_outcome? path member]
    rfl
  calc (s.recorded.map (·.outcome)).countP kind
      = s.recorded.countP fun r => (s.outcome? r.place).any kind := by
        rw [List.countP_map]
        exact List.countP_congr found
    _ = (s.recorded.map (·.place)).countP fun i => (s.outcome? i).any kind := by
        rw [List.countP_map]
        rfl
    _ = s.counted rows.length kind := (done_perm steady path ended).countP_eq _

-- What a summary says of the rows of a run.
structure Accounted (p : Setting σ) (rows : List RawRow) (s : State σ) (summary : Summary) : Prop where
  handled : ∀ i < rows.length, ∃ worker < p.size,
    s.taken.filter (·.1 == i) = [(i,worker)] ∧ ∀ c ∈ s.calls, c.place = i → c.worker = worker
  recorded : ∀ i raw, rows[i]? = some raw →
    ∃ o, s.recorded.filter (·.place == i) = [⟨i,o⟩] ∧ s.outcome? i = some o ∧ o.line = raw.line
  total : summary.total = rows.length
  failed : summary.failed = s.counted rows.length RowOutcome.isFailed
  bounded : summary.failed ≤ summary.total
  grouped : ∀ m, (summary.groups.get? m).isSome ↔ ∃ i < rows.length, (s.outcome? i).any (RowOutcome.failedWith m)
  listed : ∀ m samples, summary.groups.get? m = some samples →
    samples.length = min (s.counted rows.length (RowOutcome.failedWith m)) 10

theorem done_handled (steady : p.seam.Steady) (path : Reached p (.start p rows outside) s) (ended : s.done = true)
    (bound : i < rows.length) : ∃ worker < p.size,
      s.taken.filter (·.1 == i) = [(i,worker)] ∧ ∀ c ∈ s.calls, c.place = i → c.worker = worker := by
  have once := done_taken steady path ended i
  rw [if_pos bound] at once
  obtain ⟨⟨j,worker⟩,only,member,same⟩ := filter_once once
  have equal : j = i := by simpa using same
  subst equal
  refine ⟨worker,reached_taker path _ member,only,?_⟩
  intro c made here
  have taken := (reached_followed path).called c made
  have inside : (c.place,c.worker) ∈ s.taken.filter (·.1 == j) :=
    List.mem_filter.mpr ⟨taken,by simpa using here⟩
  rw [only,List.mem_singleton] at inside
  exact congrArg Prod.snd inside

theorem done_reported (steady : p.seam.Steady) (path : Reached p (.start p rows outside) s) (ended : s.done = true)
    (present : rows[i]? = some raw) :
    ∃ o, s.recorded.filter (·.place == i) = [⟨i,o⟩] ∧ s.outcome? i = some o ∧ o.line = raw.line := by
  have bound : i < rows.length := (List.getElem?_eq_some_iff.mp present).1
  have once := done_recorded path ended (reached_alive steady path) i
  rw [if_pos bound] at once
  obtain ⟨⟨j,o⟩,only,member,same⟩ := filter_once once
  have equal : j = i := by simpa using same
  subst equal
  refine ⟨o,only,reached_outcome? path member,?_⟩
  obtain ⟨raw',present',course⟩ := (reached_followed path).told _ (List.mem_append_right _ member)
  cases present.symm.trans present'
  exact course.line

-- A summary that a run returns accounts for each of its rows.
theorem returned_accounted (steady : p.seam.Steady) (path : Reached p (.start p rows outside) s)
    (returned : s.returns stop = some (.ok summary)) : Accounted p rows s summary := by
  obtain ⟨ended,equal⟩ := returned_ok returned
  subst equal
  have counted := done_counted steady path ended
  have length : (s.recorded.map (·.outcome)).length = rows.length := by
    have perm := (done_perm steady path ended).length_eq
    simpa using perm
  refine ⟨fun i bound => done_handled steady path ended bound,fun i raw present => done_reported steady path ended present,
    ?_,?_,?_,?_,?_⟩
  · rw [Summary.total_ofOutcomes,length]
  · rw [Summary.failed_ofOutcomes,counted]
  · rw [Summary.failed_ofOutcomes,Summary.total_ofOutcomes]
    exact List.countP_le_length
  · intro m
    rw [Summary.groups_ofOutcomes,Summary.isSome_listed,Summary.length_diagnoses,counted,decide_eq_true_iff,
      State.counted,List.countP_pos_iff]
    simp only [List.mem_range]
  · intro m samples found
    rw [Summary.groups_ofOutcomes] at found
    rw [Summary.length_listed found,Summary.length_diagnoses,counted]
    rfl

def soldOut : Setting Nat :=
  ⟨[],.any,.noTransaction fun _ _ _ n => (if n = 0 then .refused (.bare "sold out") else .accepted,n+1),
    (Context.new .start).1,none,2⟩

def soldOutRows : List RawRow := [⟨2,[("sku",.string "A")]⟩,⟨3,[("sku",.string "B")]⟩]

def soldOutSummary : Summary := ⟨[("sold out",[.object [("sku",.string "A")]])],2,1,0⟩

theorem soldOut_accounted : (run soldOut soldOutRows 0).returns none = some (.ok soldOutSummary) ∧
    Accounted soldOut soldOutRows (run soldOut soldOutRows 0) soldOutSummary := by
  have returned : (run soldOut soldOutRows 0).returns none = some (.ok soldOutSummary) := rfl
  exact ⟨returned,returned_accounted (Seam.noTransaction_steady _) (run_reached _ _ _) returned⟩

end ServiceKit.Import.Pool
