import Mathlib.Data.List.Perm.Basic
import ServiceKit.Proofs.Import.Progress
import ServiceKit.Proofs.Import.Transactions

namespace ServiceKit.Import

-- The outcome that a worker's row is bound for, where rows are judged by what they decode to.
def Phase.due (judge : Validation.Datum → Processed) : Phase → Option RowOutcome
  | .beginning row | .processing row _ =>
    some ⟨row.line,(judge row.datum).error?.map fun e => { e with data := some (e.data.getD row.value) }⟩
  | .committing row _ => some ⟨row.line,none⟩
  | .rollingBack row _ e => some ⟨row.line,some { e with data := some (e.data.getD row.value) }⟩
  | .reporting r => some r.outcome
  | .idle | .finished | .dead _ _ => none

def verdict (c : Catalog) (shape : Shape) (judge : Validation.Datum → Processed) (raw : RawRow) : RowOutcome :=
  ((Phase.ofRow c shape ⟨0,raw⟩).due judge).getD ⟨raw.line,none⟩

theorem Phase.due_ofRow (c : Catalog) (shape : Shape) (judge : Validation.Datum → Processed) (r : Placed) :
    (ofRow c shape r).due judge = some (verdict c shape judge r.row) := by
  unfold verdict ofRow
  dsimp only
  split
  · rfl
  · split <;> rfl

-- A seam that begins and commits all transactions, and processes a row by what it decodes to alone.
structure Seam.Judges (seam : Seam σ) (judge : Validation.Datum → Processed) : Prop where
  begin : ∀ s, ∃ tx, (seam.begin s).1 = .returned tx
  process : ∀ ctx d tx worker s, (seam.process ctx d tx worker s).1 = judge d
  commit : ∀ tx s, (seam.commit tx s).1 = .returned ()
  rollback : ∀ tx s m, (seam.rollback tx s).1 ≠ .panicked m

theorem Seam.Judges.steady {seam : Seam σ} (judges : seam.Judges judge) : seam.Steady := by
  refine ⟨?_,?_,judges.rollback⟩
  · intro s m panicked
    obtain ⟨tx,begun⟩ := judges.begin s
    cases begun.symm.trans panicked
  · intro tx s m panicked
    cases (judges.commit tx s).symm.trans panicked

theorem Worked.call_due {seam : Seam σ} {outside : σ} {phase : Phase} {w : Worked σ} (judges : seam.Judges judge)
    (made : call seam ctx span worker outside phase = some w) : w.phase.due judge = phase.due judge := by
  cases phase with
  | idle | finished | dead _ _ | reporting _ => cases made
  | beginning row =>
    simp only [call] at made
    obtain ⟨tx,begun⟩ := judges.begin outside
    rw [begun] at made
    cases made
    rfl
  | processing row tx =>
    simp only [call] at made
    have judged := judges.process ctx row.datum tx worker outside
    split at made <;> cases made
    · next accepted => simp only [Phase.due,← judged,accepted,Processed.error?,Option.map_none]
    · next refused => simp only [Phase.due,← judged,refused,Processed.error?,Option.map_some]
    · next panicked => simp only [Phase.due,← judged,panicked,Processed.error?,Option.map_some]
  | committing row tx =>
    simp only [call] at made
    rw [judges.commit tx outside] at made
    cases made
    rfl
  | rollingBack row tx e =>
    simp only [call] at made
    split at made <;> cases made
    · rw [Pool.error_rolledBack]; rfl
    · rw [Pool.error_rolledBack]; rfl
    · next panicked => exact absurd panicked (judges.rollback _ _ _)

namespace Pool
variable {p : Setting σ} {s t : State σ} {rows : List RawRow} {outside : σ} {judge : Validation.Datum → Processed}

-- The rows in the hands of workers are bound for their verdicts, and those reported have got them.
structure Bound (p : Setting σ) (judge : Validation.Datum → Processed) (rows : List RawRow) (s : State σ) : Prop where
  held : ∀ phase ∈ s.workers, ∀ i raw, phase.place? = some i → rows[i]? = some raw →
    phase.isDead = false → phase.due judge = some (verdict p.catalog p.shape judge raw)
  told : ∀ r ∈ s.outcomes ++ s.recorded, ∀ raw, rows[r.place]? = some raw →
    r.outcome = verdict p.catalog p.shape judge raw

theorem moved_bound (judges : p.seam.Judges judge) (followed : Followed p rows s) (bound : Bound p judge rows s)
    (moved : Moved p s t) : Bound p judge rows t := by
  obtain ⟨held,told⟩ := bound
  cases moved with
  | read _ _ => exact ⟨held,told⟩
  | @take worker row rest idle queue =>
    refine ⟨?_,told⟩
    intro phase member i raw here present alive
    rcases List.mem_or_eq_of_mem_set member with before | rfl
    · exact held phase before i raw here present alive
    · rw [Phase.place?_ofRow] at here
      cases here
      have waiting := (followed.waiting row (by simp [queue])).1
      cases waiting.symm.trans present
      exact Phase.due_ofRow _ _ _ _
  | @call worker before w holding made =>
    refine ⟨?_,told⟩
    intro phase member i raw here present alive
    rcases List.mem_or_eq_of_mem_set member with old | rfl
    · exact held phase old i raw here present alive
    · obtain ⟨was,now,_⟩ := Worked.call_place made
      cases now.symm.trans here
      have unchanged : before.isDead = false := by
        cases before <;> first | rfl | cases made
      rw [Worked.call_due judges made]
      exact held before (List.mem_of_getElem? holding) _ raw was present unchanged
  | @report worker r holding _ =>
    refine ⟨?_,?_⟩
    · intro phase member i raw here present alive
      rcases List.mem_or_eq_of_mem_set member with old | rfl
      · exact held phase old i raw here present alive
      · cases here
    · intro r' member raw present
      simp only [List.mem_append,List.mem_singleton] at member
      rcases member with (old | rfl) | old
      · exact told r' (List.mem_append_left _ old) raw present
      · exact Option.some.inj (held _ (List.mem_of_getElem? holding) _ raw rfl present rfl)
      · exact told r' (List.mem_append_right _ old) raw present
  | leave _ _ _ =>
    refine ⟨?_,told⟩
    intro phase member i raw here present alive
    rcases List.mem_or_eq_of_mem_set member with old | rfl
    · exact held phase old i raw here present alive
    · cases here
  | collect outcomes =>
    refine ⟨held,?_⟩
    intro r member raw present
    refine told r ?_ raw present
    simp only [outcomes,List.mem_append,List.mem_cons] at member ⊢
    grind

theorem reached_bound (judges : p.seam.Judges judge) (path : Reached p (.start p rows outside) s) :
    Bound p judge rows s := by
  induction path with
  | refl =>
    refine ⟨?_,by simp [State.start]⟩
    intro phase member i raw here
    rw [List.eq_of_mem_replicate member] at here
    cases here
  | step before next ih => exact moved_bound judges (reached_followed before) ih (step_iff_moved.mp next)

def State.Judged (s : State σ) (rows : List RawRow) (verdict : RawRow → RowOutcome) : Prop :=
  ∀ i raw, rows[i]? = some raw → s.outcome? i = some (verdict raw)

theorem done_judged (judges : p.seam.Judges judge) (path : Reached p (.start p rows outside) s)
    (ended : s.done = true) : s.Judged rows (verdict p.catalog p.shape judge) := by
  intro i raw present
  obtain ⟨o,only,found,_⟩ := done_reported judges.steady path ended present
  have member : ⟨i,o⟩ ∈ s.recorded := mem_of_only only
  have told := (reached_bound judges path).told _ (List.mem_append_right _ member) raw present
  exact found.trans (congrArg some told)

variable {worth : RawRow → RowOutcome}

theorem judged_places (path : Reached p (.start p rows outside) s) (judged : s.Judged rows worth) :
    (s.recorded.map (·.place)).Perm (List.range rows.length) := by
  rw [List.perm_iff_count]
  intro i
  rw [List.count_range,List.count,List.countP_map]
  have station := reached_station path i
  simp only [State.stations] at station
  by_cases bound : i < rows.length
  · have found : (s.outcome? i).isSome = true := by rw [judged i _ (List.getElem?_eq_getElem bound)]; rfl
    rw [State.outcome?,Option.isSome_map,List.find?_isSome] at found
    have positive : 0 < s.recorded.countP (·.place == i) := List.countP_pos_iff.mpr (by simpa using found)
    simp only [Function.comp_def,if_pos bound] at station ⊢
    omega
  · simp only [Function.comp_def,if_neg bound] at station ⊢
    omega

theorem judged_recorded (path : Reached p (.start p rows outside) s) (judged : s.Judged rows worth)
    (member : r ∈ s.recorded) : ∃ raw, rows[r.place]? = some raw ∧ r.outcome = worth raw := by
  have bound : r.place < rows.length :=
    List.mem_range.mp ((judged_places path judged).mem_iff.mp (List.mem_map_of_mem member))
  have present := List.getElem?_eq_getElem bound
  exact ⟨_,present,Option.some.inj ((reached_outcome? path member).symm.trans (judged _ _ present))⟩

theorem judged_perm (path : Reached p (.start p rows outside) s) (judged : s.Judged rows worth) :
    (s.recorded.map (·.outcome)).Perm (rows.map worth) := by
  have told : (s.recorded.map (·.outcome)).map some = (s.recorded.map (·.place)).map fun i => rows[i]?.map worth := by
    rw [List.map_map,List.map_map]
    refine List.map_congr_left ?_
    intro r member
    obtain ⟨raw,present,same⟩ := judged_recorded path judged member
    simp only [Function.comp_def,present,Option.map_some,same]
  have all : (List.range rows.length).map (fun i => rows[i]?.map worth) = (rows.map worth).map some := by
    apply List.ext_getElem?
    intro i
    simp only [List.getElem?_map]
    by_cases bound : i < rows.length
    · rw [List.getElem?_range bound,Option.map_some,List.getElem?_eq_getElem bound]
      rfl
    · rw [List.getElem?_eq_none_iff.mpr (by simpa using bound),List.getElem?_eq_none_iff.mpr (Nat.not_lt.mp bound)]
      rfl
  rw [← List.map_perm_map_iff fun _ _ => Option.some.inj,told,← all]
  exact (judged_places path judged).map _

theorem filterMap_sublist_map (f : α → Option β) (g : α → γ) (l : List α) :
    (l.filterMap fun a => (f a).map fun _ => g a).Sublist (l.map g) := by
  induction l with
  | nil => exact .slnil
  | cons a rest ih =>
    cases kept : f a with
    | none => simpa [kept] using ih.cons (g a)
    | some b => simpa [kept] using ih.cons_cons (g a)

-- Samples of a message that come from rows of their own, each of which failed with it.
def Sampled (rows : List RawRow) (worth : RawRow → RowOutcome) (m : String) (samples : List Json) : Prop :=
  ∃ picked : List (Nat × Json), picked.map (·.2) = samples ∧ (picked.map (·.1)).Nodup ∧
    ∀ e ∈ picked, ∃ raw, rows[e.1]? = some raw ∧ (worth raw).diagnosis m = some e.2

theorem judged_sampled (path : Reached p (.start p rows outside) s) (judged : s.Judged rows worth)
    (found : (Summary.ofOutcomes (s.recorded.map (·.outcome))).groups.get? m = some samples) :
    Sampled rows worth m samples := by
  let marked := s.recorded.filterMap fun r => (r.outcome.diagnosis m).map ((r.place,·))
  refine ⟨marked.take previewLimit,?_,?_,?_⟩
  · have all : (s.recorded.map (·.outcome)).filterMap (RowOutcome.diagnosis m) = marked.map (·.2) := by
      rw [List.filterMap_map,List.map_filterMap]
      refine List.filterMap_congr ?_
      intro r _
      simp [Option.map_map,Function.comp_def]
    rw [Summary.groups_ofOutcomes,Summary.listed,all] at found
    split at found
    · cases found
    · rw [List.map_take]
      exact Option.some.inj found
  · rw [List.map_take]
    refine List.Nodup.sublist (List.take_sublist _ _) ?_
    rw [List.map_filterMap]
    simp only [Option.map_map,Function.comp_def]
    have distinct : (s.recorded.map (·.place)).Nodup := (judged_places path judged).nodup_iff.mpr List.nodup_range
    exact distinct.sublist (filterMap_sublist_map _ _ _)
  · intro e member
    obtain ⟨r,recorded,shown⟩ := List.mem_filterMap.mp (List.mem_of_mem_take member)
    obtain ⟨d,diagnosed,rfl⟩ := Option.map_eq_some_iff.mp shown
    obtain ⟨raw,present,same⟩ := judged_recorded path judged recorded
    exact ⟨raw,present,same ▸ diagnosed⟩

def failures (rows : List RawRow) (worth : RawRow → RowOutcome) (m : String) : Nat :=
  rows.countP fun raw => (worth raw).failedWith m

theorem perm_failures {os : List RowOutcome} (perm : os.Perm (rows.map worth)) (m : String) :
    (os.filterMap (RowOutcome.diagnosis m)).length = failures rows worth m := by
  rw [Summary.length_diagnoses,perm.countP_eq,List.countP_map]
  rfl

theorem failures_pos (rows : List RawRow) (worth : RawRow → RowOutcome) (m : String) :
    0 < failures rows worth m ↔ ∃ raw ∈ rows, (worth raw).failedWith m = true := List.countP_pos_iff

-- What a summary says of rows with verdicts. A message is listed iff a row fails with it, with the diagnoses of all rows
-- that do while these are few, and else with those of ten of them.
structure Told (rows : List RawRow) (worth : RawRow → RowOutcome) (a : Summary) : Prop where
  total : a.total = rows.length
  failed : a.failed = rows.countP fun raw => (worth raw).isFailed
  listed : ∀ m, (a.groups.get? m).isSome = true ↔ ∃ raw ∈ rows, (worth raw).failedWith m = true
  few : ∀ m, 0 < failures rows worth m → failures rows worth m ≤ 10 →
    ∃ xs, a.groups.get? m = some xs ∧ xs.Perm (rows.filterMap fun raw => (worth raw).diagnosis m)
  many : ∀ m, 10 < failures rows worth m →
    ∃ xs, a.groups.get? m = some xs ∧ xs.length = 10 ∧ Sampled rows worth m xs

-- What the summaries of two runs over the same rows have in common.
structure Agree (rows : List RawRow) (worth : RawRow → RowOutcome) (a b : Summary) : Prop where
  first : Told rows worth a
  second : Told rows worth b
  total : a.total = b.total
  failed : a.failed = b.failed
  messages : ∀ m, (a.groups.get? m).isSome = (b.groups.get? m).isSome
  lengths : ∀ m xs ys, a.groups.get? m = some xs → b.groups.get? m = some ys → xs.length = ys.length
  whole : ∀ m xs ys, a.groups.get? m = some xs → b.groups.get? m = some ys →
    failures rows worth m ≤ 10 → xs.Perm ys
  picked : ∀ m xs ys, a.groups.get? m = some xs → b.groups.get? m = some ys → 10 < failures rows worth m →
    xs.length = 10 ∧ ys.length = 10 ∧ Sampled rows worth m xs ∧ Sampled rows worth m ys

theorem listed_whole {samples : List Json} (few : samples.length ≤ 10) (found : Summary.listed samples = some shown) :
    shown = samples := by
  unfold Summary.listed at found
  split at found
  · cases found
  · have whole : samples.take previewLimit = samples := List.take_of_length_le few
    exact (Option.some.inj found).symm.trans whole

def Setting.sized (p : Setting σ) (n : Nat) : Setting σ := { p with size := n }

theorem returned_told {a : Summary} (path : Reached p (.start p rows outside) s) (judged : s.Judged rows worth)
    (returned : s.returns stop = some (.ok a)) : Told rows worth a := by
  obtain ⟨_,rfl⟩ := returned_ok returned
  have perm := judged_perm path judged
  have listed : ∀ m, ((Summary.ofOutcomes (s.recorded.map (·.outcome))).groups.get? m).isSome = true ↔
      0 < failures rows worth m := by
    intro m
    rw [Summary.groups_ofOutcomes,Summary.isSome_listed,perm_failures perm,decide_eq_true_iff]
  refine ⟨?_,?_,fun m => (listed m).trans (failures_pos rows worth m),?_,?_⟩
  · rw [Summary.total_ofOutcomes,perm.length_eq,List.length_map]
  · rw [Summary.failed_ofOutcomes,perm.countP_eq,List.countP_map]
    rfl
  · intro m failing few
    obtain ⟨xs,found⟩ := Option.isSome_iff_exists.mp ((listed m).mpr failing)
    refine ⟨xs,found,?_⟩
    rw [Summary.groups_ofOutcomes] at found
    rw [listed_whole (by rwa [perm_failures perm]) found]
    have diagnoses : (rows.map worth).filterMap (RowOutcome.diagnosis m) =
        rows.filterMap fun raw => (worth raw).diagnosis m := List.filterMap_map
    rw [← diagnoses]
    exact perm.filterMap _
  · intro m many
    obtain ⟨xs,found⟩ := Option.isSome_iff_exists.mp ((listed m).mpr (Nat.zero_lt_of_lt many))
    refine ⟨xs,found,?_,judged_sampled path judged found⟩
    rw [Summary.groups_ofOutcomes] at found
    rw [Summary.length_listed found,perm_failures perm,previewLimit]
    omega

theorem Told.agree {a b : Summary} (first : Told rows worth a) (second : Told rows worth b) :
    Agree rows worth a b := by
  have messages : ∀ m, (a.groups.get? m).isSome = (b.groups.get? m).isSome := fun m =>
    Bool.eq_iff_iff.mpr ((first.listed m).trans (second.listed m).symm)
  have positive : ∀ {m xs}, a.groups.get? m = some xs → 0 < failures rows worth m := by
    intro m xs found
    exact (failures_pos rows worth m).mpr ((first.listed m).mp (by rw [found]; rfl))
  have whole : ∀ m xs ys, a.groups.get? m = some xs → b.groups.get? m = some ys →
      failures rows worth m ≤ 10 → xs.Perm ys := by
    intro m xs ys found found' few
    obtain ⟨_,listed,perm⟩ := first.few m (positive found) few
    obtain ⟨_,listed',perm'⟩ := second.few m (positive found) few
    cases found.symm.trans listed
    cases found'.symm.trans listed'
    exact perm.trans perm'.symm
  have picked : ∀ m xs ys, a.groups.get? m = some xs → b.groups.get? m = some ys → 10 < failures rows worth m →
      xs.length = 10 ∧ ys.length = 10 ∧ Sampled rows worth m xs ∧ Sampled rows worth m ys := by
    intro m xs ys found found' many
    obtain ⟨_,listed,full,sampled⟩ := first.many m many
    obtain ⟨_,listed',full',sampled'⟩ := second.many m many
    cases found.symm.trans listed
    cases found'.symm.trans listed'
    exact ⟨full,full',sampled,sampled'⟩
  refine ⟨first,second,first.total.trans second.total.symm,first.failed.trans second.failed.symm,messages,?_,whole,picked⟩
  intro m xs ys found found'
  by_cases few : failures rows worth m ≤ 10
  · exact (whole m xs ys found found' few).length_eq
  · obtain ⟨full,full',_⟩ := picked m xs ys found found' (Nat.lt_of_not_le few)
    rw [full,full']

-- Two runs of a job whose rows have the same outcomes in both return summaries that agree.
theorem returned_agree {m n : Nat} {outside' : σ} {a b : Summary}
    (first : Reached (p.sized m) (.start (p.sized m) rows outside) s) (judged : s.Judged rows worth)
    (returned : s.returns stop = some (.ok a))
    (second : Reached (p.sized n) (.start (p.sized n) rows outside') t) (judged' : t.Judged rows worth)
    (returned' : t.returns stop = some (.ok b)) : Agree rows worth a b :=
  (returned_told first judged returned).agree (returned_told second judged' returned')

theorem done_returns {s : State σ} (ended : s.done = true) :
    s.returns none = some (.ok (Summary.ofOutcomes (s.recorded.map (·.outcome)))) := by
  simp only [State.returns,ended,if_true]

def emptyShop : Setting Unit :=
  ⟨[],.any,.noTransaction fun _ _ _ u => (.refused (.bare "sold out"),u),(Context.new .start).1,none,1⟩

def elevenRows : List RawRow := (List.range 11).map fun i => ⟨i + 2,[("sku",.nat i)]⟩

theorem emptyShop_judges : emptyShop.seam.Judges fun _ => .refused (.bare "sold out") :=
  ⟨fun _ => ⟨0,rfl⟩,fun _ _ _ _ _ => rfl,fun _ _ => rfl,(Seam.noTransaction_steady _).rollback⟩

theorem emptyShop_done {n : Nat} (sized : 0 < n) : (run (emptyShop.sized n) elevenRows ()).done = true :=
  (run_done_iff sized).mpr (steady_fed emptyShop_judges.steady sized (run_reached _ _ _))

def soldOutAll : RawRow → RowOutcome := verdict [] .any fun _ => .refused (.bare "sold out")

theorem emptyShop_judged {n : Nat} (sized : 0 < n) : (run (emptyShop.sized n) elevenRows ()).Judged elevenRows soldOutAll :=
  done_judged (p := emptyShop.sized n) emptyShop_judges (run_reached _ _ _) (emptyShop_done sized)

-- One worker and three, and one row more than is shown.
theorem emptyShop_agree : ∃ a b,
    (run (emptyShop.sized 1) elevenRows ()).returns none = some (.ok a) ∧
    (run (emptyShop.sized 3) elevenRows ()).returns none = some (.ok b) ∧
    (run (emptyShop.sized 1) elevenRows ()).Judged elevenRows soldOutAll ∧
    (run (emptyShop.sized 3) elevenRows ()).Judged elevenRows soldOutAll ∧
    failures elevenRows soldOutAll "sold out" = 11 ∧ Agree elevenRows soldOutAll a b := by
  have one : 0 < 1 := by decide
  have three : 0 < 3 := by decide
  have returned := done_returns (emptyShop_done one)
  have returned' := done_returns (emptyShop_done three)
  have judged := emptyShop_judged one
  have judged' := emptyShop_judged three
  refine ⟨_,_,returned,returned',judged,judged',by decide +kernel,?_⟩
  exact returned_agree (run_reached _ _ _) judged returned (run_reached _ _ _) judged' returned'

end Pool
end ServiceKit.Import
