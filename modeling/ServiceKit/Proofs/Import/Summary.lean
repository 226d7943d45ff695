import ServiceKit.Import.Summary
import ServiceKit.Proofs.Keyed

namespace ServiceKit.Import
namespace Groups

def Sorted (g : Groups) : Prop := g.Pairwise fun a b => a.1 < b.1

def joined (old : Option (List Json)) (sample : Json) : List Json :=
  match old with
  | none => [sample]
  | some samples => if samples.length < previewLimit then samples ++ [sample] else samples

theorem puts_add (message : String) (sample : Json) :
    Keyed.Puts message (fun old => joined old sample) (add message sample) := by
  refine Keyed.puts_of_compared rfl ?_
  intro m samples rest
  rw [add]
  by_cases same : m = message
  · simp only [same,if_true,joined]
  · rw [if_neg same,if_neg (Ne.symm same),joined]

theorem sorted_add {g : Groups} (sorted : Sorted g) (message : String) (sample : Json) :
    Sorted (add message sample g) := (puts_add message sample).sorted sorted

theorem get?_add {g : Groups} (sorted : Sorted g) (message : String) (sample : Json) (k : String) :
    get? (add message sample g) k = if k = message then some (joined (get? g message) sample) else get? g k :=
  (puts_add message sample).get?_put sorted k

end Groups

def RowOutcome.diagnosis (message : String) (o : RowOutcome) : Option Json :=
  match o.error with
  | some e => if e.message = message then some (e.data.getD .null) else none
  | none => none

def RowOutcome.failedWith (message : String) (o : RowOutcome) : Bool := o.error.any fun e => e.message == message

theorem RowOutcome.isSome_diagnosis (message : String) (o : RowOutcome) :
    (o.diagnosis message).isSome = o.failedWith message := by
  unfold diagnosis failedWith
  cases o.error with
  | none => rfl
  | some e => by_cases same : e.message = message <;> simp [same]

namespace Summary

def listed (samples : List Json) : Option (List Json) :=
  if samples.isEmpty then none else some (samples.take previewLimit)

theorem joined_listed (samples : List Json) (more : Json) :
    some (Groups.joined (listed samples) more) = listed (samples ++ [more]) := by
  unfold listed
  cases samples with
  | nil => rfl
  | cons first rest =>
    have shown : (first :: rest ++ [more]).isEmpty = false := rfl
    simp only [shown,List.isEmpty_cons,Bool.false_eq_true,if_false,Groups.joined,List.length_take]
    by_cases room : (first :: rest).length < previewLimit
    · rw [if_pos (by omega),List.take_of_length_le (by omega),
        List.take_of_length_le (by simp only [List.length_append,List.length_cons,List.length_nil] at room ⊢; omega)]
    · rw [if_neg (by omega),List.take_append_of_le_length (by omega)]

theorem total_foldl (os : List RowOutcome) (s : Summary) : (os.foldl record s).total = s.total + os.length := by
  induction os generalizing s with
  | nil => rfl
  | cons o rest ih =>
    have one : (s.record o).total = s.total + 1 := by unfold record; split <;> rfl
    rw [List.foldl_cons,ih,one,List.length_cons]
    omega

theorem failed_foldl (os : List RowOutcome) (s : Summary) :
    (os.foldl record s).failed = s.failed + os.countP RowOutcome.isFailed := by
  induction os generalizing s with
  | nil => rfl
  | cons o rest ih =>
    rw [List.foldl_cons,ih,List.countP_cons]
    cases failed : o.error with
    | none => simp [record,RowOutcome.isFailed,failed]
    | some e =>
      simp [record,RowOutcome.isFailed,failed]
      omega

def Lists (s : Summary) (os : List RowOutcome) : Prop :=
  s.groups.Sorted ∧ ∀ m, s.groups.get? m = listed (os.filterMap (RowOutcome.diagnosis m))

theorem record_lists {s : Summary} (lists : Lists s os) (o : RowOutcome) : Lists (s.record o) (os ++ [o]) := by
  obtain ⟨sorted,groups⟩ := lists
  unfold record
  cases failed : o.error with
  | none =>
    refine ⟨sorted,?_⟩
    intro m
    have unlisted : o.diagnosis m = none := by simp [RowOutcome.diagnosis,failed]
    simpa [List.filterMap_append,unlisted] using groups m
  | some e =>
    refine ⟨Groups.sorted_add sorted _ _,?_⟩
    intro m
    dsimp only
    rw [Groups.get?_add sorted]
    by_cases same : m = e.message
    · subst same
      have sample : o.diagnosis e.message = some (e.data.getD .null) := by simp [RowOutcome.diagnosis,failed]
      rw [if_pos rfl,groups,joined_listed,List.filterMap_append]
      simp only [List.filterMap_cons,sample,List.filterMap_nil]
    · have unlisted : o.diagnosis m = none := by simp [RowOutcome.diagnosis,failed,Ne.symm same]
      rw [if_neg same,groups,List.filterMap_append]
      simp only [List.filterMap_cons,unlisted,List.filterMap_nil,List.append_nil]

theorem foldl_lists {s : Summary} (lists : Lists s before) (os : List RowOutcome) :
    Lists (os.foldl record s) (before ++ os) := by
  induction os generalizing s before with
  | nil => simpa using lists
  | cons o rest ih => simpa using ih (record_lists lists o)

theorem total_ofOutcomes (os : List RowOutcome) : (ofOutcomes os).total = os.length := by
  rw [ofOutcomes,total_foldl]
  exact Nat.zero_add _

theorem failed_ofOutcomes (os : List RowOutcome) : (ofOutcomes os).failed = os.countP RowOutcome.isFailed := by
  rw [ofOutcomes,failed_foldl]
  exact Nat.zero_add _

-- Each group lists the first diagnoses of its message, in the order of the outcomes.
theorem groups_ofOutcomes (os : List RowOutcome) (m : String) :
    (ofOutcomes os).groups.get? m = listed (os.filterMap (RowOutcome.diagnosis m)) := by
  have start : Lists empty [] := ⟨List.Pairwise.nil,fun _ => rfl⟩
  exact (foldl_lists start os).2 m

theorem length_diagnoses (os : List RowOutcome) (m : String) :
    (os.filterMap (RowOutcome.diagnosis m)).length = os.countP (RowOutcome.failedWith m) := by
  rw [List.length_filterMap_eq_countP]
  simp only [RowOutcome.isSome_diagnosis]

theorem length_listed {samples : List Json} (found : listed samples = some shown) :
    shown.length = min samples.length previewLimit := by
  unfold listed at found
  split at found
  · cases found
  · cases found; rw [List.length_take,Nat.min_comm]

theorem isSome_listed (samples : List Json) : (listed samples).isSome = decide (0 < samples.length) := by
  cases samples <;> rfl

end Summary
end ServiceKit.Import
