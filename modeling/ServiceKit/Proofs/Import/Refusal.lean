import ServiceKit.Import.Rehearsal
import ServiceKit.Import.Workbook
import ServiceKit.Proofs.Import.Course
import ServiceKit.Proofs.Import.Accounting
import ServiceKit.Proofs.Import.Reading

namespace ServiceKit.Import
namespace Pool
variable {p : Setting σ} {s t : State σ} {rows : List RawRow} {outside : σ}

theorem Course.call_fit {asked : List Asked} {phase : Phase} {worker : Nat} {behind : σ} {w : Worked σ}
    (course : Course p r asked phase) (made : Worked.call p.seam p.context p.span worker behind phase = some w) :
    ∃ row, Fit p.catalog p.shape r row := by
  cases course with
  | unfit _ | unbegun _ | committed _ | uncommitted _ | died _ => cases made
  | rolledBack _ _ _ => cases made
  | beginning fit | processing fit | committing fit | rollingBack fit _ => exact ⟨_,fit⟩

theorem reached_fit (path : Reached p (.start p rows outside) s) :
    ∀ c ∈ s.calls, ∃ raw, rows[c.place]? = some raw ∧ ∃ row, Fit p.catalog p.shape ⟨c.place,raw⟩ row := by
  induction path with
  | refl => intro c member; cases member
  | step before next ih =>
    cases step_iff_moved.mp next with
    | read _ _ | take _ _ | report _ _ | leave _ _ _ | collect _ => exact ih
    | call held made =>
      intro c member
      rcases List.mem_append.mp member with old | new
      · exact ih c old
      · cases List.mem_singleton.mp new
        obtain ⟨_,raw,present,course⟩ := (reached_followed before).held _ _ _ held (Worked.call_place made).1
        exact ⟨raw,present,course.call_fit made⟩

theorem reached_dead (path : Reached p (.start p rows outside) s) (uncalled : s.calls = []) :
    ∀ phase ∈ s.workers, phase.isDead = false := by
  induction path with
  | refl =>
    intro phase member
    rw [List.eq_of_mem_replicate member]
    rfl
  | step _ next ih =>
    cases step_iff_moved.mp next with
    | read _ _ | collect _ => exact ih uncalled
    | call _ _ => simp at uncalled
    | take _ _ =>
      intro phase member
      rcases List.mem_or_eq_of_mem_set member with old | rfl
      · exact ih uncalled phase old
      · exact Phase.isDead_ofRow _ _ _
    | report _ _ | leave _ _ _ =>
      intro phase member
      rcases List.mem_or_eq_of_mem_set member with old | rfl
      · exact ih uncalled phase old
      · rfl

theorem Course.unfit_of_unasked (course : Course p r [] (.reporting report)) :
    ∀ row, ¬ Fit p.catalog p.shape r row := by
  cases course with
  | unfit unfit => exact unfit

-- Whoever takes part, at the end of a run some call was made iff some row is fit.
theorem done_called (path : Reached p (.start p rows outside) s) (ended : s.done = true) :
    s.calls ≠ [] ↔ ∃ i raw, rows[i]? = some raw ∧ ∃ row, Fit p.catalog p.shape ⟨i,raw⟩ row := by
  constructor
  · intro called
    obtain ⟨c,member⟩ := List.exists_mem_of_ne_nil _ called
    obtain ⟨raw,present,fit⟩ := reached_fit path c member
    exact ⟨c.place,raw,present,fit⟩
  · rintro ⟨i,raw,present,row,fit⟩ uncalled
    have once := done_recorded path ended (reached_dead path uncalled) i
    rw [if_pos (List.getElem?_eq_some_iff.mp present).1] at once
    obtain ⟨r,member,here⟩ := List.countP_pos_iff.mp (Nat.lt_of_lt_of_eq Nat.zero_lt_one once.symm)
    have same : r.place = i := by simpa using here
    subst same
    obtain ⟨raw',present',course⟩ := (reached_followed path).told r (List.mem_append_right _ member)
    cases present.symm.trans present'
    rw [uncalled] at course
    exact course.unfit_of_unasked row fit

end Pool

namespace Job
variable {d : Decoder} {c : Catalog} {shape : Shape} {seam : Seam σ} {ctx : Context} {span : Option Span} {j : Job} {outside : σ}

theorem leave_error {kind : FileKind} {failure : Option ImportError} {s : Pool.State σ}
    (failed : (j.leave ctx span f kind failure millis s).result = some (.error e)) :
    failure = some e ∧ (j.leave ctx span f kind failure millis s).notice = none := by
  unfold leave Pool.State.returns at failed ⊢
  cases ended : s.done with
  | false => rw [ended] at failed; cases failed
  | true =>
    cases failure with
    | none => rw [ended] at failed; cases failed
    | some e' => rw [ended] at failed; cases failed; exact ⟨rfl,rfl⟩

def FitBefore (c : Catalog) (shape : Shape) (t : Table) : Prop :=
  ∃ i raw, t.rows[i]? = some raw ∧ ∃ row, Fit c shape ⟨i,raw⟩ row

-- An import that fails says nothing, and has made calls iff its file is one that is read row by row, and a row that is fit
-- stands before what made it fail.
theorem failed_called {ran : Ran σ} (leaves : j.Leaves d c shape seam ctx span outside ran)
    (failed : ran.result = some (.error e)) :
    ran.notice = none ∧ (ran.calls ≠ [] ↔
      ∃ f t, j.prepare = .ok (f,.csv) ∧ Table.ofCsv f.data = .ok t ∧ t.failure = some e ∧ FitBefore c shape t) := by
  cases leaves with
  | refused refusal =>
    refine ⟨rfl,fun called => absurd rfl called,?_⟩
    rintro ⟨f,_,prepared,_⟩
    cases refusal.symm.trans prepared
  | @ended f kind s prepared path ended millis =>
    obtain ⟨stopped,silent⟩ := leave_error failed
    refine ⟨silent,?_⟩
    rw [leave_calls,Pool.done_called path ended]
    constructor
    · rintro ⟨i,raw,present,fit⟩
      obtain ⟨rfl,t,table,stop,same⟩ := Table.rows_of_stopped stopped (List.mem_of_getElem? present)
      exact ⟨f,t,prepared,table,stop,i,raw,same ▸ present,fit⟩
    · rintro ⟨f',t,prepared',table,stop,i,raw,present,fit⟩
      cases prepared.symm.trans prepared'
      refine ⟨i,raw,?_,fit⟩
      rw [Table.ofFile_table,Table.ofFile,table]
      exact present

def spoiledFile : Text.Bytes := [115,107,117,10,65,10,255,10]

def spoiledJob : Job := { Job.new with file := some ⟨"file",some "stock.csv",some "text/csv",spoiledFile⟩,workers := 1 }

def calm : Seam Journal := Script.seam ⟨[],[],[],[],[]⟩

def desk : Context := (Context.new .start).1

def spoiled : ImportError :=
  .csv "CSV parse error: record 2 (line 3, field: 0, byte: 6): invalid utf-8: invalid UTF-8 in field 0 near byte index 0"

theorem spoiledFile_rows : RowSource.ofFile Workbook.plain .csv none spoiledFile = ⟨[⟨2,[("sku",.string "A")]⟩],some spoiled⟩ := by
  decide +kernel

def spoiledRun : Ran Journal := spoiledJob.run Workbook.plain [] .any calm desk none ⟨0,[]⟩

theorem spoiledRun_eq : spoiledRun = spoiledJob.leave desk none ⟨"file",some "stock.csv",some "text/csv",spoiledFile⟩ .csv
    (some spoiled) 0 (Pool.run (spoiledJob.setting [] .any calm desk none) [⟨2,[("sku",.string "A")]⟩] ⟨0,[]⟩) := by
  have prepared : spoiledJob.prepare = .ok (⟨"file",some "stock.csv",some "text/csv",spoiledFile⟩,.csv) := rfl
  unfold spoiledRun run
  rw [prepared]
  dsimp only
  rw [show RowSource.ofFile Workbook.plain .csv spoiledJob.sheet spoiledFile = _ from spoiledFile_rows]

theorem spoiledJob_called : spoiledRun.result = some (.error spoiled) ∧ spoiledRun.notice = none ∧ (spoiledRun.calls ≠ [] ↔
    ∃ f t, spoiledJob.prepare = .ok (f,.csv) ∧ Table.ofCsv f.data = .ok t ∧ t.failure = some spoiled ∧ FitBefore [] .any t) := by
  have failed : spoiledRun.result = some (.error spoiled) := by rw [spoiledRun_eq]; rfl
  have leaves : spoiledJob.Leaves Workbook.plain [] .any calm desk none ⟨0,[]⟩ spoiledRun :=
    run_leaves (congrArg Option.isSome failed)
  exact ⟨failed,failed_called leaves failed⟩

-- The good row is committed, and the run returns the error all the same.
theorem spoiledJob_commits : spoiledRun.result = some (.error spoiled) ∧
    spoiledRun.outside.lines = ["begin 1",Script.processed desk (.object [("sku",.string "A")]) 0,"commit 1"] := by
  rw [spoiledRun_eq]
  refine ⟨rfl,?_⟩
  decide +kernel

end Job
end ServiceKit.Import
