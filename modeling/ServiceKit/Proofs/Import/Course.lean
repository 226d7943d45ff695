import ServiceKit.Proofs.Import.Pool

namespace ServiceKit.Import
open Validation

def askedFor (calls : List SeamCall) (i : Nat) : List Asked := (calls.filter (·.place == i)).map (·.asked)

theorem askedFor_same (calls : List SeamCall) (c : SeamCall) :
    askedFor (calls ++ [c]) c.place = askedFor calls c.place ++ [c.asked] := by
  simp [askedFor,List.filter_append]

theorem askedFor_other (calls : List SeamCall) {c : SeamCall} (other : c.place ≠ i) :
    askedFor (calls ++ [c]) i = askedFor calls i := by
  simp [askedFor,List.filter_append,other]

structure Fit (c : Catalog) (shape : Shape) (r : Placed) (row : GoodRow) : Prop where
  place : row.place = r.place
  line : row.line = r.row.line
  decoded : Record.fromJson c shape r.row.toJson = .ok row.datum
  valid : validateIn shape.rootName row.datum .create = []
  value : row.value = row.datum.toJson.sorted

def Processed.error? : Processed → Option Envelope
  | .accepted => none
  | .refused f => some f.toEnvelope
  | .panicked m => some (.internal ("row processor panicked: " ++ m))

namespace Pool
variable {p : Setting σ} {s t : State σ} {rows : List RawRow} {outside : σ}

-- What was asked for a row so far, and what its worker is doing with it.
inductive Course (p : Setting σ) (r : Placed) : List Asked → Phase → Prop where
  | unfit (unfit : ∀ row, ¬ Fit p.catalog p.shape r row) : Course p r [] (.failed r.place r.row.line e)
  | beginning (fit : Fit p.catalog p.shape r row) : Course p r [] (.beginning row)
  | unbegun (fit : Fit p.catalog p.shape r row) :
      Course p r [.begun (.failed m)] (.transactionFailed "begin" row m)
  | processing (fit : Fit p.catalog p.shape r row) : Course p r [.begun (.returned tx)] (.processing row tx)
  | committing (fit : Fit p.catalog p.shape r row) :
      Course p r [.begun (.returned tx),.processed p.context row.datum tx .accepted] (.committing row tx)
  | committed (fit : Fit p.catalog p.shape r row) :
      Course p r [.begun (.returned tx),.processed p.context row.datum tx .accepted,.committed tx (.returned ())]
        (.reporting ⟨row.place,row.line,none⟩)
  | uncommitted (fit : Fit p.catalog p.shape r row) :
      Course p r [.begun (.returned tx),.processed p.context row.datum tx .accepted,.committed tx (.failed m)]
        (.transactionFailed "commit" row m)
  | rollingBack (fit : Fit p.catalog p.shape r row) (error : answer.error? = some e) :
      Course p r [.begun (.returned tx),.processed p.context row.datum tx answer] (.rollingBack row tx e)
  | rolledBack (fit : Fit p.catalog p.shape r row) (error : answer.error? = some e) (undone : Called Unit) :
      Course p r [.begun (.returned tx),.processed p.context row.datum tx answer,.rolledBack tx undone]
        (.rolledBack row e)
  | died (asked : List Asked) : Course p r asked (.dead r.place m)

theorem course_ofRow (p : Setting σ) (r : Placed) : Course p r [] (Phase.ofRow p.catalog p.shape r) := by
  unfold Phase.ofRow
  dsimp only
  split
  · next undecoded =>
    refine .unfit ?_
    intro row fit
    cases undecoded.symm.trans fit.decoded
  · next datum decoded =>
    split
    · next valid => exact .beginning ⟨rfl,rfl,decoded,valid,rfl⟩
    · next invalid =>
      refine .unfit ?_
      intro row fit
      have same : row.datum = datum := Except.ok.inj (fit.decoded.symm.trans decoded)
      exact invalid (same ▸ fit.valid)

theorem Course.call {asked : List Asked} {phase : Phase} {worker : Nat} {behind : σ} {w : Worked σ}
    (course : Course p r asked phase) (made : Worked.call p.seam p.context p.span worker behind phase = some w) :
    Course p r (asked ++ [w.made.asked]) w.phase := by
  cases course with
  | unfit _ | unbegun _ | committed _ | uncommitted _ | died _ => cases made
  | rolledBack _ _ _ => cases made
  | beginning fit =>
    simp only [Worked.call] at made
    split at made <;> cases made
    · next returned => rw [returned]; exact .processing fit
    · next failed => rw [failed]; exact .unbegun fit
    · exact fit.place ▸ .died _
  | processing fit =>
    simp only [Worked.call] at made
    split at made <;> cases made
    · next accepted => rw [accepted]; exact .committing fit
    · next refused => exact .rollingBack fit (by rw [refused]; rfl)
    · next panicked => exact .rollingBack fit (by rw [panicked]; rfl)
  | committing fit =>
    simp only [Worked.call] at made
    split at made <;> cases made
    · next returned => rw [returned]; exact .committed fit
    · next failed => rw [failed]; exact .uncommitted fit
    · exact fit.place ▸ .died _
  | rollingBack fit error =>
    simp only [Worked.call] at made
    split at made <;> cases made
    · exact .rolledBack fit error _
    · exact .rolledBack fit error _
    · exact fit.place ▸ .died _

theorem Course.line (course : Course p r asked (.reporting report)) : report.outcome.line = r.row.line := by
  cases course with
  | unfit _ => rfl
  | unbegun fit | committed fit | uncommitted fit => exact fit.line
  | rolledBack fit _ _ => exact fit.line

theorem alone {worker : Nat} {phase : Phase} (once : s.stations (· == i) ≤ 1) (held : s.workers[worker]? = some phase)
    (here : phase.place? = some i) :
    (∀ r ∈ s.unread ++ s.queue, r.place ≠ i) ∧ (∀ r ∈ s.outcomes ++ s.recorded, r.place ≠ i) ∧
      ∀ (other : Nat) (phase' : Phase),
        s.workers[other]? = some phase' → phase'.place? = some i → other = worker := by
  simp only [State.stations] at once
  have holds : Phase.holds (· == i) phase = true := Phase.holds_place.mpr here
  have counted := countP_set_eq (Phase.holds (· == i)) held .idle
  simp only [holds,Phase.holds_idle,Bool.false_eq_true,if_true,if_false,Nat.add_zero] at counted
  refine ⟨?_,?_,?_⟩
  · intro r member same
    have found : 0 < (s.unread ++ s.queue).countP (·.place == i) :=
      List.countP_pos_iff.mpr ⟨r,member,by simpa using same⟩
    rw [List.countP_append] at found
    omega
  · intro r member same
    have found : 0 < (s.outcomes ++ s.recorded).countP (·.place == i) :=
      List.countP_pos_iff.mpr ⟨r,member,by simpa using same⟩
    rw [List.countP_append] at found
    omega
  · intro other phase' there same
    apply Classical.byContradiction
    intro different
    have kept : (s.workers.set worker .idle)[other]? = some phase' := by
      rw [List.getElem?_set_ne (Ne.symm different),there]
    have found : 0 < (s.workers.set worker .idle).countP (Phase.holds (· == i)) :=
      List.countP_pos_iff.mpr ⟨phase',List.mem_of_getElem? kept,Phase.holds_place.mpr same⟩
    omega

-- Where each row stands, what was asked for it so far.
structure Followed (p : Setting σ) (rows : List RawRow) (s : State σ) : Prop where
  waiting : ∀ r ∈ s.unread ++ s.queue, rows[r.place]? = some r.row ∧ askedFor s.calls r.place = []
  held : ∀ worker phase i, s.workers[worker]? = some phase → phase.place? = some i →
    (i,worker) ∈ s.taken ∧ ∃ raw, rows[i]? = some raw ∧ Course p ⟨i,raw⟩ (askedFor s.calls i) phase
  told : ∀ r ∈ s.outcomes ++ s.recorded,
    ∃ raw, rows[r.place]? = some raw ∧ Course p ⟨r.place,raw⟩ (askedFor s.calls r.place) (.reporting r)
  called : ∀ c ∈ s.calls, (c.place,c.worker) ∈ s.taken

theorem start_followed (p : Setting σ) (rows : List RawRow) (outside : σ) :
    Followed p rows (.start p rows outside) := by
  refine ⟨?_,?_,by simp [State.start],by simp [State.start]⟩
  · intro r member
    have inside : r ∈ placed rows := by simpa [State.start] using member
    obtain ⟨i,found⟩ := List.mem_iff_getElem?.mp inside
    rw [getElem?_placed] at found
    obtain ⟨raw,present,rfl⟩ := Option.map_eq_some_iff.mp found
    exact ⟨present,rfl⟩
  · intro worker phase i held here
    have idle : phase = .idle := List.eq_of_mem_replicate (List.mem_of_getElem? held)
    subst idle
    cases here

theorem held_set {workers : List Phase} (held : (workers.set worker new)[other]? = some phase) :
    (other = worker ∧ phase = new) ∨ workers[other]? = some phase := by
  by_cases same : other = worker
  · subst same
    have bound := (List.getElem?_eq_some_iff.mp held).1
    rw [List.length_set] at bound
    rw [List.getElem?_set_self bound] at held
    exact .inl ⟨rfl,(Option.some.inj held).symm⟩
  · rw [List.getElem?_set_ne (Ne.symm same)] at held
    exact .inr held

theorem Followed.take (followed : Followed p rows s) (queue : s.queue = row :: rest) (worker : Nat) :
    Followed p rows { s with queue := rest,workers := s.workers.set worker (Phase.ofRow p.catalog p.shape row),
                             taken := s.taken ++ [(row.place,worker)] } := by
  obtain ⟨waiting,held,told,called⟩ := followed
  obtain ⟨present,unasked⟩ := waiting row (by simp [queue])
  refine ⟨?_,?_,told,?_⟩
  · intro r member
    refine waiting r ?_
    simp only [queue,List.mem_append,List.mem_cons] at member ⊢
    grind
  · intro other phase i holding here
    rcases held_set holding with ⟨rfl,rfl⟩ | before
    · rw [Phase.place?_ofRow] at here
      cases here
      refine ⟨by simp,row.row,present,?_⟩
      rw [unasked]
      exact course_ofRow p row
    · obtain ⟨taken,course⟩ := held other phase i before here
      exact ⟨List.mem_append_left _ taken,course⟩
  · intro c member
    exact List.mem_append_left _ (called c member)

theorem Followed.call {worker : Nat} {phase : Phase} {w : Worked σ} (followed : Followed p rows s)
    (once : ∀ i, s.stations (· == i) ≤ 1) (holding : s.workers[worker]? = some phase)
    (made : Worked.call p.seam p.context p.span worker s.outside phase = some w) :
    Followed p rows { s with workers := s.workers.set worker w.phase,outside := w.outside,
                             calls := s.calls ++ [w.made],logs := s.logs ++ w.logs } := by
  obtain ⟨waiting,held,told,called⟩ := followed
  obtain ⟨before,after,by_⟩ := Worked.call_place made
  obtain ⟨notWaiting,notTold,onlyHere⟩ := alone (once w.made.place) holding before
  obtain ⟨taken,raw,present,course⟩ := held worker phase _ holding before
  refine ⟨?_,?_,?_,?_⟩
  · intro r member
    rw [askedFor_other s.calls (Ne.symm (notWaiting r member))]
    exact waiting r member
  · intro other phase' i there here
    by_cases same : i = w.made.place
    · subst same
      have equal : other = worker ∧ phase' = w.phase := by
        rcases held_set there with new | unchanged
        · exact new
        · have equal := onlyHere other phase' unchanged here
          subst equal
          rw [List.getElem?_set_self (List.getElem?_eq_some_iff.mp holding).1] at there
          exact ⟨rfl,(Option.some.inj there).symm⟩
      obtain ⟨rfl,rfl⟩ := equal
      refine ⟨taken,raw,present,?_⟩
      rw [askedFor_same]
      exact course.call made
    · rcases held_set there with ⟨_,rfl⟩ | unchanged
      · exact absurd (Option.some.inj (here.symm.trans after)) same
      · rw [askedFor_other s.calls (Ne.symm same)]
        exact held other phase' i unchanged here
  · intro r member
    rw [askedFor_other s.calls (Ne.symm (notTold r member))]
    exact told r member
  · intro c member
    rcases List.mem_append.mp member with old | new
    · exact called c old
    · rw [List.mem_singleton.mp new,by_]
      exact taken

theorem Followed.report {worker : Nat} {r : Report} (followed : Followed p rows s)
    (holding : s.workers[worker]? = some (.reporting r)) (ticks : List Tick) :
    Followed p rows { s with workers := s.workers.set worker .idle,outcomes := s.outcomes ++ [r],ticks := ticks } := by
  obtain ⟨waiting,held,told,called⟩ := followed
  refine ⟨waiting,?_,?_,called⟩
  · intro other phase i there here
    rcases held_set there with ⟨rfl,rfl⟩ | before
    · cases here
    · exact held other phase i before here
  · intro r' member
    simp only [List.mem_append,List.mem_singleton] at member
    rcases member with (old | rfl) | old
    · exact told r' (List.mem_append_left _ old)
    · exact (held worker _ r'.place holding rfl).2
    · exact told r' (List.mem_append_right _ old)

theorem Followed.leave (followed : Followed p rows s) (worker : Nat) (logs : List LogEvent) :
    Followed p rows { s with workers := s.workers.set worker .finished,logs := logs } := by
  obtain ⟨waiting,held,told,called⟩ := followed
  refine ⟨waiting,?_,told,called⟩
  intro other phase i there here
  rcases held_set there with ⟨rfl,rfl⟩ | before
  · cases here
  · exact held other phase i before here

theorem moved_followed (followed : Followed p rows s) (once : ∀ i, s.stations (· == i) ≤ 1) (moved : Moved p s t) :
    Followed p rows t := by
  cases moved with
  | read unread _ =>
    refine ⟨?_,followed.held,followed.told,followed.called⟩
    intro r member
    refine followed.waiting r ?_
    simp only [unread,List.mem_append,List.mem_cons] at member ⊢
    grind
  | take _ queue => exact followed.take queue _
  | call holding made => exact followed.call once holding made
  | report holding _ => exact followed.report holding _
  | leave _ _ _ => exact followed.leave _ _
  | collect outcomes =>
    refine ⟨followed.waiting,followed.held,?_,followed.called⟩
    intro r member
    refine followed.told r ?_
    simp only [outcomes,List.mem_append,List.mem_cons] at member ⊢
    grind

theorem reached_followed (path : Reached p (.start p rows outside) s) : Followed p rows s := by
  induction path with
  | refl => exact start_followed p rows outside
  | step before next ih =>
    refine moved_followed ih ?_ (step_iff_moved.mp next)
    intro i
    rw [reached_station before]
    split <;> omega

end Pool
end ServiceKit.Import
