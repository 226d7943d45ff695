import ServiceKit.Import.Workbook
import ServiceKit.Proofs.Import.Accounting
import ServiceKit.Proofs.Import.Progress
import ServiceKit.Proofs.Import.Reading

namespace ServiceKit.Import.Pool
variable {p : Setting σ} {s t : State σ} {rows : List RawRow} {outside : σ}

theorem gone_holds {workers : List Phase} (gone : ∀ phase ∈ workers, phase.isGone = true) :
    workers.countP (Phase.holds fun _ => true) = workers.countP Phase.isDead := by
  refine List.countP_congr ?_
  intro phase member
  have gone := gone phase member
  cases phase with
  | finished | dead _ _ => rfl
  | idle | beginning _ | processing _ _ | committing _ _ | rollingBack _ _ _ | reporting _ => cases gone

structure Balanced (rows : Nat) (s : State σ) (summary : Summary) : Prop where
  balance : summary.total + s.workers.countP Phase.isDead + s.queue.length = rows
  deserted : s.queue ≠ [] → ∀ phase ∈ s.workers, phase.isDead = true
  counted : summary.succeeded + summary.failed = summary.total
  complete : summary.total = rows ↔ ∀ phase ∈ s.workers, phase.isDead = false

theorem done_balanced (path : Reached p (.start p rows outside) s) (ended : s.done = true) :
    Balanced rows.length s (Summary.ofOutcomes (s.recorded.map (·.outcome))) := by
  obtain ⟨unread,outcomes,gone⟩ := done_ended ended
  have balance : s.recorded.length + s.workers.countP Phase.isDead + s.queue.length = rows.length := by
    have stations := reached_stations path fun _ => true
    simp only [State.stations,List.countP_true,List.length_range,unread,outcomes,List.length_nil,gone_holds gone]
      at stations
    omega
  have total : (Summary.ofOutcomes (s.recorded.map (·.outcome))).total = s.recorded.length := by
    rw [Summary.total_ofOutcomes,List.length_map]
  have bounded : (Summary.ofOutcomes (s.recorded.map (·.outcome))).failed ≤ s.recorded.length := by
    rw [← total,Summary.failed_ofOutcomes,Summary.total_ofOutcomes]
    exact List.countP_le_length
  refine ⟨?_,?_,?_,?_⟩
  · rw [total]
    exact balance
  · intro left
    exact (done_deserted path ended left).2
  · rw [Summary.succeeded,total]
    omega
  · rw [total]
    constructor
    · intro all phase member
      have none_ : s.workers.countP Phase.isDead = 0 := by omega
      simpa using List.countP_eq_zero.mp none_ phase member
    · intro alive
      have none_ : s.workers.countP Phase.isDead = 0 := by
        rw [List.countP_eq_zero]
        intro phase member
        simp [alive phase member]
      rw [done_emptied path ended alive,none_] at balance
      exact balance

-- A summary that is returned leaves out the rows that died with a worker, and those left to nobody.
theorem returned_balanced {d : Decoder} {kind : FileKind} {sheet : Option String} {bs : Text.Bytes}
    (path : Reached p (.start p (RowSource.ofFile d kind sheet bs).rows outside) s)
    (returned : s.returns (RowSource.ofFile d kind sheet bs).failure = some (.ok summary)) :
    ∃ t, Table.ofFile d kind sheet bs = .ok t ∧ t.failure = none ∧ Balanced t.dataRows s summary := by
  have read : (RowSource.ofFile d kind sheet bs).failure = none := by
    unfold State.returns at returned
    split at returned
    · cases stop : (RowSource.ofFile d kind sheet bs).failure with
      | none => rfl
      | some e => rw [stop] at returned; cases returned
    · cases returned
  obtain ⟨ended,rfl⟩ := returned_ok returned
  obtain ⟨t,table,whole,same⟩ := Table.rows_of_read read
  refine ⟨t,table,whole,?_⟩
  rw [← Table.length_rows,← same]
  exact done_balanced path ended

-- A file of two rows, read by one worker whose first transaction panics at its beginning.
def stockFile : Text.Bytes := [115,107,117,10,65,10,66,10]

theorem stockFile_rows : RowSource.ofFile Workbook.plain .csv none stockFile =
    ⟨[⟨2,[("sku",.string "A")]⟩,⟨3,[("sku",.string "B")]⟩],none⟩ := by decide +kernel

theorem stockFile_balanced :
    (run doomed (RowSource.ofFile Workbook.plain .csv none stockFile).rows ⟨0,[]⟩).returns
      (RowSource.ofFile Workbook.plain .csv none stockFile).failure =
        some (.ok ⟨[],0,0,0⟩) ∧
      ∃ t, Table.ofFile Workbook.plain .csv none stockFile = .ok t ∧ t.failure = none ∧
        Balanced t.dataRows (run doomed (RowSource.ofFile Workbook.plain .csv none stockFile).rows ⟨0,[]⟩) ⟨[],0,0,0⟩ := by
  have returned : (run doomed (RowSource.ofFile Workbook.plain .csv none stockFile).rows ⟨0,[]⟩).returns
      (RowSource.ofFile Workbook.plain .csv none stockFile).failure = some (.ok ⟨[],0,0,0⟩) := by
    rw [stockFile_rows]
    rfl
  exact ⟨returned,returned_balanced (run_reached _ _ _) returned⟩

def stockJob : Job := { Job.new with file := some ⟨"file",some "stock.csv",some "text/csv",stockFile⟩,workers := 1 }

-- Both rows are lost, one with the worker and one in the channel, and the summary says that there were none.
theorem stockJob_lost :
    (stockJob.run Workbook.plain [] .any doomed.seam doomed.context none ⟨0,[]⟩).result = some (.ok ⟨[],0,0,0⟩) ∧
      ∃ t, Table.ofFile Workbook.plain .csv none stockFile = .ok t ∧ t.failure = none ∧ t.dataRows = 2 := by
  have prepared : stockJob.prepare = .ok (⟨"file",some "stock.csv",some "text/csv",stockFile⟩,.csv) := rfl
  refine ⟨?_,?_⟩
  · unfold Job.run
    rw [prepared]
    dsimp only
    rw [show RowSource.ofFile Workbook.plain .csv stockJob.sheet stockFile = _ from stockFile_rows]
    rfl
  · obtain ⟨t,table,whole,same⟩ := Table.rows_of_read (congrArg RowSource.failure stockFile_rows)
    refine ⟨t,table,whole,?_⟩
    rw [← Table.length_rows,← same,stockFile_rows]
    rfl

end ServiceKit.Import.Pool
