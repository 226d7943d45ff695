import ServiceKit.Proofs.Import.Accounting

namespace ServiceKit.Import
open Validation

namespace Asked

def finalises : Asked → Bool
  | .committed _ _ | .rolledBack _ _ => true
  | _ => false

def isCommitted : Asked → Bool
  | .committed _ (.returned _) => true
  | _ => false

def isRolledBack : Asked → Bool
  | .rolledBack _ (.returned _) => true
  | _ => false

end Asked

namespace Pool
variable {p : Setting σ} {s t : State σ} {rows : List RawRow} {outside : σ}

-- What was asked for a row that has an outcome, and how the outcome follows from it.
structure Settled (asked : List Asked) (o : RowOutcome) : Prop where
  finalised : ∀ tx, .begun (.returned tx) ∈ asked → asked.countP Asked.finalises = 1
  committed : ∀ tx, .begun (.returned tx) ∈ asked →
    ((∃ answer, .committed tx answer ∈ asked) ↔ ∃ ctx d, .processed ctx d tx .accepted ∈ asked)
  rolledBack : ∀ tx, .begun (.returned tx) ∈ asked →
    ((∃ answer, .rolledBack tx answer ∈ asked) ↔ ¬ ∃ ctx d, .processed ctx d tx .accepted ∈ asked)
  succeeded : o.isFailed = false ↔ asked.any Asked.isCommitted
  -- A rollback that fails leaves the error as it is.
  error : ∀ ctx d tx verdict e, .processed ctx d tx verdict ∈ asked → verdict.error? = some e →
    o.error = some { e with data := some (e.data.getD d.toJson.sorted) }

theorem refused_of_error {verdict : Processed} (error : verdict.error? = some e) : verdict ≠ .accepted := by
  intro accepted
  subst accepted
  cases error

-- The processor's own error reaches the outcome, with the row as its data unless it has some.
theorem error_rolledBack (row : GoodRow) (e : Envelope) :
    Phase.rolledBack row e = .reporting ⟨row.place,row.line,some { e with data := some (e.data.getD row.value) }⟩ := by
  unfold Phase.rolledBack
  cases e with
  | mk _ _ _ _ data => cases data <;> rfl

theorem settled_committed (context : Context) (d : Datum) (tx : TransactionId) {o : RowOutcome} {answer : Called Unit}
    (agrees : o.isFailed = false ↔ ∃ a, answer = .returned a) :
    Settled [.begun (.returned tx),.processed context d tx .accepted,.committed tx answer] o := by
  refine ⟨fun _ _ => rfl,?_,?_,?_,?_⟩
  · intro tx _
    simp
  · intro tx begun
    simpa using begun
  · rw [agrees]
    cases answer <;> simp [Asked.isCommitted]
  · intro ctx d tx verdict e processed error
    have accepted : verdict = .accepted := by simp at processed; exact processed.2.2.2
    exact absurd accepted (refused_of_error error)

theorem settled_rolledBack (context : Context) {row : GoodRow} (tx : TransactionId) {verdict : Processed}
    (error : verdict.error? = some e) (answer : Called Unit) (value : row.value = row.datum.toJson.sorted) :
    Settled [.begun (.returned tx),.processed context row.datum tx verdict,.rolledBack tx answer]
      ⟨row.line,some { e with data := some (e.data.getD row.value) }⟩ := by
  have refused := refused_of_error error
  refine ⟨fun _ _ => rfl,?_,?_,?_,?_⟩
  · intro tx _
    simp [Ne.symm refused]
  · intro tx begun
    simpa [Ne.symm refused] using begun
  · simp [RowOutcome.isFailed,Asked.isCommitted]
  · intro ctx d tx' verdict' e' processed error'
    obtain ⟨_,rfl,_,rfl⟩ : ctx = context ∧ d = row.datum ∧ tx' = tx ∧ verdict' = verdict := by simpa using processed
    cases error.symm.trans error'
    rw [value]

theorem Course.settled {asked : List Asked} (course : Course p r asked (.reporting report)) :
    Settled asked report.outcome := by
  generalize ending : Phase.reporting report = phase at course
  cases course with
  | beginning _ | processing _ | committing _ | rollingBack _ _ | died _ => cases ending
  | unfit _ => cases ending; constructor <;> simp [RowOutcome.isFailed]
  | unbegun _ => cases ending; constructor <;> simp [RowOutcome.isFailed,Asked.isCommitted]
  | committed _ => cases ending; exact settled_committed _ _ _ (by simp [RowOutcome.isFailed])
  | uncommitted _ => cases ending; exact settled_committed _ _ _ (by simp [RowOutcome.isFailed])
  | rolledBack fit error _ =>
    rw [error_rolledBack] at ending
    cases ending
    exact settled_rolledBack _ _ error _ fit.value

theorem reached_settled (path : Reached p (.start p rows outside) s) {o : Report} (member : o ∈ s.outcomes ++ s.recorded) :
    Settled (askedFor s.calls o.place) o.outcome := by
  obtain ⟨_,_,course⟩ := (reached_followed path).told o member
  exact course.settled

end Pool
end ServiceKit.Import
