import Mathlib.Data.List.Basic
import ServiceKit.Json

namespace ServiceKit.Keyed
variable {β : Type} {key : String} {value : Option β → β} {put : List (String × β) → List (String × β)}
  {entries others : List (String × β)} {e : String × β} {k : String}

def Sorted (entries : List (String × β)) : Prop := entries.Pairwise fun a b => a.1 < b.1

-- What putting a value under a key does: an entry that is there is told to the value, a new one takes its place.
structure Puts (key : String) (value : Option β → β) (put : List (String × β) → List (String × β)) : Prop where
  empty : put [] = [(key,value none)]
  here : ∀ old rest, put ((key,old) :: rest) = (key,value (some old)) :: rest
  before : ∀ k old rest, key < k → put ((k,old) :: rest) = (key,value none) :: (k,old) :: rest
  after : ∀ k old rest, k < key → put ((k,old) :: rest) = (k,old) :: put rest

theorem key_cases (a b : String) : a = b ∨ a < b ∨ b < a := by
  by_cases less : a < b
  · exact .inr (.inl less)
  by_cases more : b < a
  · exact .inr (.inr more)
  · exact .inl (String.le_antisymm (String.not_lt.mp more) (String.not_lt.mp less))

theorem puts_of_compared (empty : put [] = [(key,value none)])
    (compared : ∀ k old rest, put ((k,old) :: rest) =
      if key = k then (key,value (some old)) :: rest
      else if key < k then (key,value none) :: (k,old) :: rest
      else (k,old) :: put rest) : Puts key value put where
  empty := empty
  here old rest := by rw [compared,if_pos rfl]
  before k old rest less := by
    have other : key ≠ k := fun same => String.lt_irrefl _ (same ▸ less)
    rw [compared,if_neg other,if_pos less]
  after k old rest more := by
    have other : key ≠ k := fun same => String.lt_irrefl _ (same ▸ more)
    rw [compared,if_neg other,if_neg (String.lt_asymm more)]

theorem Puts.mem (puts : Puts key value put) (member : e ∈ put entries) : e.1 = key ∨ e ∈ entries := by
  induction entries with
  | nil =>
    rw [puts.empty,List.mem_singleton] at member
    exact .inl (congrArg Prod.fst member)
  | cons first rest ih =>
    obtain ⟨k,old⟩ := first
    rcases key_cases key k with rfl | less | more
    · rw [puts.here,List.mem_cons] at member
      rcases member with rfl | inside
      · exact .inl rfl
      · exact .inr (List.mem_cons_of_mem _ inside)
    · rw [puts.before _ _ rest less,List.mem_cons] at member
      rcases member with rfl | inside
      · exact .inl rfl
      · exact .inr inside
    · rw [puts.after _ _ rest more,List.mem_cons] at member
      rcases member with rfl | inside
      · exact .inr List.mem_cons_self
      · exact (ih inside).imp_right (List.mem_cons_of_mem _)

theorem Puts.sorted (puts : Puts key value put) (sorted : Sorted entries) : Sorted (put entries) := by
  induction entries with
  | nil =>
    rw [puts.empty]
    exact List.pairwise_singleton _ _
  | cons first rest ih =>
    obtain ⟨k,old⟩ := first
    obtain ⟨below,tail⟩ := List.pairwise_cons.mp sorted
    rcases key_cases key k with rfl | less | more
    · rw [puts.here]
      exact List.pairwise_cons.mpr ⟨below,tail⟩
    · rw [puts.before _ _ rest less]
      refine List.pairwise_cons.mpr ⟨?_,sorted⟩
      intro e inside
      rcases List.mem_cons.mp inside with rfl | later
      · exact less
      · exact String.lt_trans less (below e later)
    · rw [puts.after _ _ rest more]
      refine List.pairwise_cons.mpr ⟨?_,ih tail⟩
      intro e inside
      rcases puts.mem inside with same | old
      · rw [same]
        exact more
      · exact below e old

theorem Puts.perm (puts : Puts key value put) (absent : key ∉ entries.map (·.1)) :
    (put entries).Perm ((key,value none) :: entries) := by
  induction entries with
  | nil => rw [puts.empty]
  | cons first rest ih =>
    rw [List.map_cons,List.mem_cons,not_or] at absent
    rcases key_cases key first.1 with same | less | more
    · exact absurd same absent.1
    · rw [puts.before _ _ rest less]
    · rw [puts.after _ _ rest more]
      exact ((ih absent.2).cons first).trans (.swap ..)

def get? (k : String) (entries : List (String × β)) : Option β := (entries.find? fun e => e.1 == k).map (·.2)

theorem get?_cons_same (k : String) (v : β) (rest : List (String × β)) : get? k ((k,v) :: rest) = some v := by
  simp [get?]

theorem get?_cons_other (rest : List (String × β)) (other : e.1 ≠ k) : get? k (e :: rest) = get? k rest := by
  simp [get?,other]

theorem get?_of_less (less : ∀ e ∈ entries, k < e.1) : get? k entries = none := by
  induction entries with
  | nil => rfl
  | cons first rest ih =>
    obtain ⟨here,later⟩ := List.forall_mem_cons.mp less
    have other : first.1 ≠ k := fun same => String.lt_irrefl k (same ▸ here)
    rw [get?_cons_other rest other]
    exact ih later

theorem Puts.get?_put (puts : Puts key value put) (sorted : Sorted entries) (k : String) :
    get? k (put entries) = if k = key then some (value (get? key entries)) else get? k entries := by
  induction entries with
  | nil =>
    rw [puts.empty]
    split
    · next same => rw [same,get?_cons_same]; rfl
    · next other => exact get?_cons_other [] (Ne.symm other)
  | cons first rest ih =>
    obtain ⟨m,old⟩ := first
    obtain ⟨below,tail⟩ := List.pairwise_cons.mp sorted
    rcases key_cases key m with rfl | less | more
    · rw [puts.here]
      split
      · next same => rw [same,get?_cons_same,get?_cons_same]
      · next other => rw [get?_cons_other _ (Ne.symm other),get?_cons_other _ (Ne.symm other)]
    · have absent : get? key ((m,old) :: rest) = none :=
        get?_of_less (List.forall_mem_cons.mpr ⟨less,fun e inside => String.lt_trans less (below e inside)⟩)
      rw [puts.before _ _ rest less]
      split
      · next same => rw [same,get?_cons_same,absent]
      · next other => exact get?_cons_other _ (Ne.symm other)
    · have apart : m ≠ key := fun same => String.lt_irrefl key (same ▸ more)
      rw [puts.after _ _ rest more]
      by_cases here : k = m
      · rw [here,if_neg apart,get?_cons_same,get?_cons_same]
      · rw [get?_cons_other _ (Ne.symm here),ih tail,get?_cons_other _ apart,get?_cons_other _ (Ne.symm here)]

theorem mem_keys_iff : k ∈ entries.map (·.1) ↔ (get? k entries).isSome := by
  simp [get?,List.find?_isSome]

theorem get?_of_mem (sorted : Sorted entries) (member : e ∈ entries) : get? e.1 entries = some e.2 := by
  induction entries with
  | nil => cases member
  | cons first rest ih =>
    obtain ⟨below,tail⟩ := List.pairwise_cons.mp sorted
    rcases List.mem_cons.mp member with rfl | later
    · exact get?_cons_same _ _ _
    · rw [get?_cons_other rest fun same => String.lt_irrefl _ (same ▸ below e later)]
      exact ih tail later

theorem Sorted.nodup (sorted : Sorted entries) : (entries.map (·.1)).Nodup := by
  refine List.pairwise_map.mpr (sorted.imp ?_)
  intro a b less same
  exact String.lt_irrefl _ (same ▸ less)

section Built
variable (put : String × β → List (String × β) → List (String × β)) (puts : ∀ e, Puts e.1 (fun _ => e.2) (put e))
include puts

theorem sorted_foldl (sorted : Sorted entries) : Sorted (others.foldl (fun built e => put e built) entries) := by
  induction others generalizing entries with
  | nil => exact sorted
  | cons e others ih => exact ih ((puts e).sorted sorted)

theorem perm_foldl (apart : ((entries ++ others).map (·.1)).Nodup) :
    (others.foldl (fun built e => put e built) entries).Perm (entries ++ others) := by
  induction others generalizing entries with
  | nil => rw [List.append_nil]; rfl
  | cons e others ih =>
    have absent : e.1 ∉ entries.map (·.1) := by
      intro inside
      rw [List.map_append,List.map_cons] at apart
      exact (List.nodup_append.mp apart).2.2 _ inside _ List.mem_cons_self rfl
    have added : (put e entries ++ others).Perm (entries ++ e :: others) :=
      (((puts e).perm absent).append_right others).trans List.perm_middle.symm
    exact (ih ((added.map (·.1)).nodup_iff.mpr apart)).trans added

theorem perm_built (apart : (entries.map (·.1)).Nodup) : (entries.foldl (fun built e => put e built) []).Perm entries := by
  have all : (([] ++ entries).map Prod.fst).Nodup := apart
  exact perm_foldl put puts all

end Built

end ServiceKit.Keyed

namespace ServiceKit

theorem Members.puts_insert (key : String) (value : Json) : Keyed.Puts key (fun _ => value) (Members.insert key value) :=
  Keyed.puts_of_compared rfl fun _ _ _ => rfl

theorem Members.perm_ofPairs {pairs : Members} (apart : (pairs.map (·.1)).Nodup) : (ofPairs pairs).Perm pairs :=
  Keyed.perm_built (fun e => insert e.1 e.2) (fun e => puts_insert e.1 e.2) apart

theorem Members.sorted_ofPairs (pairs : Members) : Keyed.Sorted (ofPairs pairs) :=
  Keyed.sorted_foldl (fun e => insert e.1 e.2) (fun e => puts_insert e.1 e.2) .nil

theorem Members.ofPairs_sorted {ms : Members} (sorted : Keyed.Sorted ms) : ofPairs ms = ms :=
  (perm_ofPairs sorted.nodup).eq_of_pairwise (fun _ _ _ _ less more => absurd more (String.lt_asymm less))
    (sorted_ofPairs ms) sorted

end ServiceKit
