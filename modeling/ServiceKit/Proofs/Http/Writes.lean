import ServiceKit.Http.Writer.History
import ServiceKit.Proofs.Runs

namespace ServiceKit.Writer.History
variable {calls past : List Call} {call : Call} {w : Writer} {c : Content}

theorem first_iff : First calls c ↔ calls.findSome? Call.content? = some c := by
  rw [List.findSome?_eq_some_iff]
  constructor
  · rintro ⟨before,later,split,unwritten⟩
    exact ⟨before,.write c,later,split,rfl,unwritten⟩
  · rintro ⟨before,call,later,split,content,unwritten⟩
    cases call with
    | write c' =>
      cases content
      exact ⟨before,later,split,unwritten⟩
    | isWritten | status => cases content

theorem unwritten_iff : Unwritten calls ↔ calls.findSome? Call.content? = none :=
  List.findSome?_eq_none_iff.symm

theorem unwritten_iff_not_first : Unwritten calls ↔ ¬ ∃ c, First calls c := by
  simp only [unwritten_iff,first_iff,← Option.ne_none_iff_exists',Classical.not_not]

theorem write_empty (c : Content) : empty.write c = (.ok (),⟨some (.ofContent c)⟩) := by
  cases c <;> rfl

theorem write_taken {r : Response} (c : Content) : (Writer.mk (some r)).write c = (.error .alreadyWritten,⟨some r⟩) := by
  cases c <;> rfl

theorem act_response (w : Writer) (call : Call) :
    (act w call).2.response = w.response.or (call.content?.map .ofContent) := by
  obtain ⟨response⟩ := w
  cases call with
  | write c =>
    cases response with
    | none => exact congrArg (Writer.response ∘ Prod.snd) (write_empty c)
    | some r => exact congrArg (Writer.response ∘ Prod.snd) (write_taken c)
  | isWritten | status => exact (Option.or_none ..).symm

theorem calls_response (w : Writer) (calls : List Call) :
    (calls.foldl (fun w c => (act w c).2) w).response =
      w.response.or ((calls.findSome? Call.content?).map .ofContent) := by
  rw [List.map_findSome?]
  exact foldl_first act_response w calls

theorem after_response (calls : List Call) :
    (after calls).response = (calls.findSome? Call.content?).map .ofContent := calls_response .empty calls

theorem after_first (first : First calls c) : after calls = ⟨some (.ofContent c)⟩ := by
  have response := after_response calls
  rw [first_iff.mp first] at response
  exact congrArg Writer.mk response

theorem after_unwritten (unwritten : Unwritten calls) : after calls = .empty := by
  have response := after_response calls
  rw [unwritten_iff.mp unwritten] at response
  exact congrArg Writer.mk response

theorem after_isSome (calls : List Call) : (after calls).response.isSome = true ↔ ∃ c, First calls c := by
  simp only [after_response,Option.isSome_map,Option.isSome_iff_exists,first_iff]

theorem after_concat (calls : List Call) (call : Call) : after (calls ++ [call]) = (act (after calls) call).2 := by
  simp [after]

theorem act_right (past : List Call) (call : Call) : Right past call (act (after past) call).1 := by
  cases call with
  | write c =>
    by_cases taken : ∃ c', First past c'
    · obtain ⟨c',first⟩ := taken
      rw [after_first first,act,write_taken]
      exact .again first
    · have unwritten := unwritten_iff_not_first.mpr taken
      rw [after_unwritten unwritten,act,write_empty]
      exact .first unwritten
  | isWritten => exact .isWritten (after_isSome past)
  | status =>
    refine .status fun n => ?_
    simp only [status?,after_response,Option.map_map,Option.map_eq_some_iff,first_iff,Function.comp]

theorem answers_eq (calls : List Call) (w : Writer) (i : Nat) : (answers w calls)[i]? =
    (calls[i]?).map fun c => (act ((calls.take i).foldl (fun w c => (act w c).2) w) c).1 := by
  induction calls generalizing w i with
  | nil => rfl
  | cons c rest ih =>
    cases i with
    | zero => rfl
    | succ i => simpa [answers] using ih (act w c).2 i

-- Only the first write is taken, and it is what every later question is answered by and what comes out in the end.
theorem answers_single (calls : List Call) :
    (∀ i call, calls[i]? = some call → ∃ answer, (answers .empty calls)[i]? = some answer ∧
      Right (calls.take i) call answer) ∧
    (∀ past c call, First past c → after (past ++ [call]) = after past) ∧
    (∀ c, First calls c → (after calls).finish = .ofContent c) ∧
    (Unwritten calls → (after calls).finish = .ofEnvelope (.internal "no response written")) ∧
    ((after calls).response = none ↔ Unwritten calls) := by
  refine ⟨?_,?_,?_,?_,?_⟩
  · intro i call found
    refine ⟨_,?_,act_right (calls.take i) call⟩
    rw [answers_eq,found]
    rfl
  · intro past c call first
    have held := after_first first
    have kept := act_response (after past) call
    rw [held,Option.some_or] at kept
    rw [after_concat,held]
    exact congrArg Writer.mk kept
  · intro c first
    rw [after_first first]
    rfl
  · intro unwritten
    rw [after_unwritten unwritten]
    rfl
  · rw [after_response,Option.map_eq_none_iff,unwritten_iff]

example : (after [.status,.write (.unencodable 200),.write (.text 504 "timeout"),.isWritten]).finish.status = 500 := by
  decide

end ServiceKit.Writer.History
