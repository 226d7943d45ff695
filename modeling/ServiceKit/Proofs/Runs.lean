import Mathlib.Data.List.Induction

namespace ServiceKit
variable {σ α : Type*} {step : σ → α → Option σ} {start s t : σ} {as : List α} {a b : α}
  {kind kind' : σ → α → Prop}

theorem foldlM_concat (step : σ → α → Option σ) (start : σ) (as : List α) (a : α) :
    (as ++ [a]).foldlM step start = (as.foldlM step start).bind (step · a) := by
  simp [List.foldlM_append]

-- What holds at the start and is kept by each step of a run holds at the end; a step knows the run before it.
theorem run_induction {P : List α → σ → Prop} (first : P [] start)
    (kept : ∀ as s a t, as.foldlM step start = some s → P as s → step s a = some t → P (as ++ [a]) t)
    (ran : as.foldlM step start = some s) : P as s := by
  induction as using List.reverseRecOn generalizing s with
  | nil =>
    cases ran
    exact first
  | append_singleton as a ih =>
    rw [foldlM_concat] at ran
    obtain ⟨t,before,moved⟩ := Option.bind_eq_some_iff.mp ran
    exact kept as t a s before (ih before) moved

-- A step of the kind was taken, at the state that the steps before it had led to.
def Happened (step : σ → α → Option σ) (start : σ) (kind : σ → α → Prop) (as : List α) : Prop :=
  ∃ before a later s, as = before ++ a :: later ∧ before.foldlM step start = some s ∧ kind s a

theorem concat_split {before later : List α} : as ++ [a] = before ++ b :: later ↔
    (later = [] ∧ before = as ∧ b = a) ∨ ∃ rest, later = rest ++ [a] ∧ as = before ++ b :: rest := by
  constructor
  · intro split
    rcases List.eq_nil_or_concat later with rfl | ⟨rest,last,rfl⟩
    · obtain ⟨rfl,same⟩ := List.append_inj' split rfl
      cases same
      exact .inl ⟨rfl,rfl,rfl⟩
    · have split : as ++ [a] = (before ++ b :: rest) ++ [last] := by simpa using split
      obtain ⟨rfl,same⟩ := List.append_inj' split rfl
      cases same
      exact .inr ⟨rest,List.concat_eq_append ..,rfl⟩
  · rintro (⟨rfl,rfl,rfl⟩ | ⟨rest,rfl,rfl⟩)
    · rfl
    · simp

theorem happened_nil : ¬ Happened step start kind [] := by
  rintro ⟨before,a,later,_,split,_⟩
  cases before <;> cases split

theorem happened_concat (ran : as.foldlM step start = some s) :
    Happened step start kind (as ++ [a]) ↔ Happened step start kind as ∨ kind s a := by
  constructor
  · rintro ⟨before,b,later,s',split,ran',happens⟩
    rcases concat_split.mp split with ⟨_,rfl,rfl⟩ | ⟨rest,_,rfl⟩
    · rw [ran] at ran'
      cases ran'
      exact .inr happens
    · exact .inl ⟨before,b,rest,s',rfl,ran',happens⟩
  · rintro (⟨before,b,later,s',rfl,ran',happens⟩ | happens)
    · exact ⟨before,b,later ++ [a],s',by simp,ran',happens⟩
    · exact ⟨as,a,[],s,rfl,ran,happens⟩

section
variable {γ : Type*} {advance : σ → α → σ} {part : σ → Option γ} {effect : α → Option γ}

theorem foldl_first (kept : ∀ s a, part (advance s a) = (part s).or (effect a)) (s : σ) (as : List α) :
    part (as.foldl advance s) = (part s).or (as.findSome? effect) := by
  induction as generalizing s with
  | nil => exact (Option.or_none ..).symm
  | cons a as ih =>
    rw [List.foldl_cons,ih,kept,Option.or_assoc,List.findSome?_cons]
    cases effect a <;> rfl

theorem foldl_last (kept : ∀ s a, part (advance s a) = (effect a).or (part s)) (s : σ) (as : List α) :
    part (as.foldl advance s) = ((as.filterMap effect).getLast?).or (part s) := by
  induction as generalizing s with
  | nil => rfl
  | cons a as ih =>
    rw [List.foldl_cons,ih,kept]
    cases found : effect a with
    | none => rw [List.filterMap_cons_none found,Option.none_or]
    | some c =>
      rw [List.filterMap_cons_some found,List.getLast?_cons]
      cases (as.filterMap effect).getLast? <;> rfl

end

end ServiceKit
