import Mathlib.Data.List.Basic
import Mathlib.Data.List.Induction
import ServiceKit.Server.App

namespace ServiceKit.Server.Lookup
variable {α : Type} {method path : String} {table : List (Entry α)} {e b : Entry α} {params : Http.Params}

def matching (path : String) (table : List (Entry α)) : List (Entry α) :=
  table.filter fun e => (e.pattern.matchPath path).isSome

-- The entry at a place among the matching ones is ahead of all others of its method: none has more
-- literals, and none before it as many.
structure Ahead (method path : String) (table : List (Entry α)) (i : Nat) (e : Entry α) (params : Http.Params) : Prop where
  placed : (matching path table)[i]? = some e
  named : e.method = method
  captured : e.pattern.matchPath path = some params
  most : ∀ f ∈ matching path table, f.method = method → f.pattern.literals ≤ e.pattern.literals
  first : ∀ j < i, ∀ f, (matching path table)[j]? = some f → f.method = method → f.pattern.literals < e.pattern.literals

theorem matching_register (path : String) (table : List (Entry α)) (e : Entry α) : matching path (table ++ [e]) =
    matching path table ++ if (e.pattern.matchPath path).isSome then [e] else [] := by
  simp only [matching,List.filter_append,List.filter_cons,List.filter_nil]

def Leads (method path : String) (table : List (Entry α)) : Option (Entry α × Http.Params) → Prop
  | none => ∀ f ∈ matching path table, f.method ≠ method
  | some (e,params) => ∃ i, Ahead method path table i e params

-- An entry that is ahead stays so when a further entry of its method has no more literals.
theorem Ahead.register (ahead : Ahead method path table i b params)
    (behind : (e.pattern.matchPath path).isSome → e.method = method → e.pattern.literals ≤ b.pattern.literals) :
    Ahead method path (table ++ [e]) i b params := by
  obtain ⟨placed,same,captured,most,first⟩ := ahead
  have bound : i < (matching path table).length := (List.getElem?_eq_some_iff.mp placed).1
  refine ⟨?_,same,captured,?_,?_⟩
  · rw [matching_register,List.getElem?_append_left bound,placed]
  · intro f member
    rw [matching_register,List.mem_append] at member
    rcases member with old | new
    · exact most f old
    · split at new
      · rename_i fits
        cases List.mem_singleton.mp new
        exact behind fits
      · cases new
  · intro j less f found
    rw [matching_register,List.getElem?_append_left (Nat.lt_trans less bound)] at found
    exact first j less f found

theorem ahead_new (fits : e.pattern.matchPath path = some params)
    (more : ∀ f ∈ matching path table, f.method = e.method → f.pattern.literals < e.pattern.literals) :
    Ahead e.method path (table ++ [e]) (matching path table).length e params := by
  have registered : matching path (table ++ [e]) = matching path table ++ [e] := by
    rw [matching_register,fits]
    rfl
  refine ⟨?_,rfl,fits,?_,?_⟩
  · rw [registered,List.getElem?_concat_length]
  · intro f member same
    rw [registered,List.mem_append] at member
    rcases member with old | new
    · exact Nat.le_of_lt (more f old same)
    · cases List.mem_singleton.mp new
      exact Nat.le_refl _
  · intro j less f found same
    rw [registered,List.getElem?_append_left less] at found
    exact more f (List.mem_of_getElem? found) same

theorem best_register (method path : String) (table : List (Entry α)) (e : Entry α) :
    best method path (table ++ [e]) =
      match e.pattern.matchPath path with
      | none => best method path table
      | some params => if e.method = method then better (best method path table) e params else best method path table := by
  rw [best,List.foldl_append]
  rfl

theorem Leads.keep {acc : Option (Entry α × Http.Params)} (leads : Leads method path table acc)
    (apart : (e.pattern.matchPath path).isSome → e.method ≠ method) : Leads method path (table ++ [e]) acc := by
  cases acc with
  | none =>
    intro f member
    rw [matching_register,List.mem_append] at member
    rcases member with old | new
    · exact leads f old
    · split at new
      · rename_i fits
        cases List.mem_singleton.mp new
        exact apart fits
      · cases new
  | some found =>
    obtain ⟨i,ahead⟩ := leads
    exact ⟨i,ahead.register fun fits same => absurd same (apart fits)⟩

theorem Leads.weigh {acc : Option (Entry α × Http.Params)} (leads : Leads e.method path table acc)
    (fits : e.pattern.matchPath path = some params) : Leads e.method path (table ++ [e]) (better acc e params) := by
  cases acc with
  | none => exact ⟨_,ahead_new fits fun f member same => absurd same (leads f member)⟩
  | some found =>
    obtain ⟨b,captured⟩ := found
    obtain ⟨i,ahead⟩ := leads
    by_cases more : b.pattern.literals < e.pattern.literals
    · rw [better,if_pos more]
      exact ⟨_,ahead_new fits fun f member same => Nat.lt_of_le_of_lt (ahead.most f member same) more⟩
    · rw [better,if_neg more]
      exact ⟨i,ahead.register fun _ _ => Nat.le_of_not_lt more⟩

theorem leads_best (method path : String) (table : List (Entry α)) :
    Leads method path table (best method path table) := by
  induction table using List.reverseRecOn with
  | nil => simp [best,Leads,matching]
  | append_singleton table e ih =>
    rw [best_register]
    split
    · rename_i unfit
      exact ih.keep fun fits => by simp [unfit] at fits
    · rename_i params fits
      split
      · rename_i same
        cases same
        exact ih.weigh fits
      · rename_i other
        exact ih.keep fun _ => other

structure Firsts (all once : List String) : Prop where
  mem : ∀ m, m ∈ once ↔ m ∈ all
  ordered : once.Pairwise fun a b => all.idxOf a < all.idxOf b

theorem Firsts.concat {all once : List String} (firsts : Firsts all once) (m : String) :
    Firsts (all ++ [m]) (if once.contains m then once else once ++ [m]) := by
  obtain ⟨mem,ordered⟩ := firsts
  have kept : once.Pairwise fun a b => (all ++ [m]).idxOf a < (all ++ [m]).idxOf b := by
    refine ordered.imp_of_mem ?_
    intro a b inA inB less
    rwa [List.idxOf_append_of_mem ((mem a).mp inA),List.idxOf_append_of_mem ((mem b).mp inB)]
  split
  · rename_i known
    have known : m ∈ all := (mem m).mp (List.contains_iff_mem.mp known)
    refine ⟨?_,kept⟩
    intro a
    simp only [mem,List.mem_append,List.mem_singleton]
    constructor
    · exact .inl
    · rintro (old | rfl)
      · exact old
      · exact known
  · rename_i unknown
    have unknown : m ∉ all := fun old => unknown (List.contains_iff_mem.mpr ((mem m).mpr old))
    refine ⟨?_,?_⟩
    · intro a
      simp only [mem,List.mem_append,List.mem_singleton]
    · refine List.pairwise_append.mpr ⟨kept,List.pairwise_singleton _ _,?_⟩
      intro a inA b inB
      cases List.mem_singleton.mp inB
      have old := (mem a).mp inA
      rw [List.idxOf_append_of_mem old,List.idxOf_append_of_notMem unknown]
      exact Nat.lt_of_lt_of_le (List.idxOf_lt_length_of_mem old) (Nat.le_add_right _ _)

theorem methods_register (path : String) (table : List (Entry α)) (e : Entry α) :
    methods path (table ++ [e]) =
      if (e.pattern.matchPath path).isSome && !(methods path table).contains e.method then methods path table ++ [e.method]
      else methods path table := by
  rw [methods,List.foldl_append]
  rfl

theorem firsts_methods (path : String) (table : List (Entry α)) :
    Firsts ((matching path table).map (·.method)) (methods path table) := by
  induction table using List.reverseRecOn with
  | nil => exact ⟨by simp [methods,matching],List.Pairwise.nil⟩
  | append_singleton table e ih =>
    rw [matching_register,methods_register]
    cases (e.pattern.matchPath path).isSome with
    | false => simpa using ih
    | true =>
      have next := ih.concat e.method
      rw [List.map_append]
      cases known : (methods path table).contains e.method with
      | false | true =>
        rw [known] at next
        exact next

theorem Ahead.unique {j : Nat} {f : Entry α} {captures : Http.Params} (one : Ahead method path table i e params)
    (other : Ahead method path table j f captures) : e = f ∧ params = captures := by
  have places : i = j := by
    rcases Nat.lt_trichotomy i j with before | same | after
    · have less := other.first i before e one.placed one.named
      have more := one.most f (List.mem_of_getElem? other.placed) other.named
      omega
    · exact same
    · have less := one.first j after f other.placed other.named
      have more := other.most e (List.mem_of_getElem? one.placed) one.named
      omega
  subst places
  have same : e = f := Option.some.inj (one.placed.symm.trans other.placed)
  subst same
  exact ⟨rfl,Option.some.inj (one.captured.symm.trans other.captured)⟩

theorem best_some_iff :
    best method path table = some (e,params) ↔ ∃ i, Ahead method path table i e params := by
  have leads := leads_best method path table
  cases found : best method path table with
  | none =>
    rw [found] at leads
    constructor
    · intro some; cases some
    · rintro ⟨i,ahead⟩
      exact absurd ahead.named (leads e (List.mem_of_getElem? ahead.placed))
  | some winner =>
    obtain ⟨f,captures⟩ := winner
    rw [found] at leads
    obtain ⟨j,other⟩ := leads
    constructor
    · intro same
      cases same
      exact ⟨j,other⟩
    · rintro ⟨i,ahead⟩
      obtain ⟨rfl,rfl⟩ := ahead.unique other
      rfl

theorem best_none_iff : best method path table = none ↔ ∀ e ∈ matching path table, e.method ≠ method := by
  have leads := leads_best method path table
  cases found : best method path table with
  | none =>
    rw [found] at leads
    exact ⟨fun _ => leads,fun _ => rfl⟩
  | some winner =>
    rw [found] at leads
    obtain ⟨i,ahead⟩ := leads
    constructor
    · intro none; cases none
    · intro apart
      exact absurd ahead.named (apart winner.1 (List.mem_of_getElem? ahead.placed))

theorem methods_nil_iff : methods path table = [] ↔ matching path table = [] := by
  have mem := (firsts_methods path table).mem
  rw [← List.map_eq_nil_iff (f := Entry.method)]
  constructor
  · intro none
    refine List.eq_nil_iff_forall_not_mem.mpr fun m met => ?_
    have listed := (mem m).mpr met
    rw [none] at listed
    cases listed
  · intro none
    refine List.eq_nil_iff_forall_not_mem.mpr fun m listed => ?_
    have met := (mem m).mp listed
    rw [none] at met
    cases met

theorem of_found_iff :
    Lookup.of method path table = .found e params ↔ best method path table = some (e,params) := by
  unfold Lookup.of
  cases best method path table with
  | some winner => simp [Prod.ext_iff]
  | none => cases methods path table <;> simp

theorem of_methodNotAllowed_iff {allowed : List String} : Lookup.of method path table = .methodNotAllowed allowed ↔
    best method path table = none ∧ methods path table = allowed ∧ allowed ≠ [] := by
  unfold Lookup.of
  cases best method path table with
  | some winner => simp
  | none =>
    cases methods path table with
    | nil => simp [eq_comm]
    | cons m rest =>
      simp only [Lookup.methodNotAllowed.injEq,true_and]
      constructor
      · rintro rfl
        exact ⟨rfl,List.cons_ne_nil m rest⟩
      · exact And.left

theorem of_notFound_iff : Lookup.of method path table = .notFound ↔
    best method path table = none ∧ methods path table = [] := by
  unfold Lookup.of
  cases best method path table with
  | some winner => simp
  | none => cases methods path table <;> simp

theorem found_iff : (∃ e params, Lookup.of method path table = .found e params) ↔
    ∃ e ∈ matching path table, e.method = method := by
  constructor
  · rintro ⟨e,params,found⟩
    obtain ⟨i,ahead⟩ := best_some_iff.mp (of_found_iff.mp found)
    exact ⟨e,List.mem_of_getElem? ahead.placed,ahead.named⟩
  · rintro ⟨e,member,named⟩
    have some : best method path table ≠ none := fun none => best_none_iff.mp none e member named
    obtain ⟨⟨f,captures⟩,found⟩ := Option.ne_none_iff_exists'.mp some
    exact ⟨f,captures,of_found_iff.mpr found⟩

theorem mem_of_found (found : Lookup.of method path table = .found e params) : e ∈ table := by
  obtain ⟨i,ahead⟩ := best_some_iff.mp (of_found_iff.mp found)
  exact List.mem_of_mem_filter (List.mem_of_getElem? ahead.placed)

theorem notAllowed_iff : (∃ allowed, Lookup.of method path table = .methodNotAllowed allowed) ↔
    matching path table ≠ [] ∧ ∀ e ∈ matching path table, e.method ≠ method := by
  simp only [of_methodNotAllowed_iff,best_none_iff]
  constructor
  · rintro ⟨_,apart,rfl,listed⟩
    exact ⟨mt methods_nil_iff.mpr listed,apart⟩
  · rintro ⟨matched,apart⟩
    exact ⟨_,apart,rfl,mt methods_nil_iff.mp matched⟩

theorem notFound_iff : Lookup.of method path table = .notFound ↔ matching path table = [] := by
  rw [of_notFound_iff,best_none_iff,methods_nil_iff]
  constructor
  · exact And.right
  · intro none
    rw [none]
    exact ⟨fun e member => absurd member (List.not_mem_nil),rfl⟩

theorem allowed_listed {allowed : List String} (listed : Lookup.of method path table = .methodNotAllowed allowed) :
    (∀ m, m ∈ allowed ↔ ∃ e params, Lookup.of m path table = .found e params) ∧
      allowed.Pairwise fun a b =>
        ((matching path table).map (·.method)).idxOf a < ((matching path table).map (·.method)).idxOf b := by
  obtain ⟨_,rfl,_⟩ := of_methodNotAllowed_iff.mp listed
  obtain ⟨mem,ordered⟩ := firsts_methods path table
  refine ⟨?_,ordered⟩
  intro m
  rw [mem,found_iff,List.mem_map]

theorem register_table (table entries : List (Entry Target)) : (App.register table entries).1 = table ++ entries := by
  induction entries generalizing table with
  | nil => exact (List.append_nil _).symm
  | cons e rest ih =>
    rw [App.register]
    dsimp only
    rw [ih,List.append_assoc]
    rfl

-- The look-up in a table of any registrations is exact. It finds the entry that is ahead among the
-- matching ones of the method; without one of them it lists the methods for which it would find any, in
-- the order of their first registration; and where nothing matches, nothing is found for any method.
theorem lookup_exact (entries : List (Entry Target)) (method path : String) :
    let table := (App.register [] entries).1
    let found (m : String) := ∃ e params, Lookup.of m path table = .found e params
    table = entries ∧ (found method ↔ ∃ e ∈ matching path table, e.method = method) ∧
      (∀ e params, Lookup.of method path table = .found e params ↔ ∃ i, Ahead method path table i e params) ∧
      ((∃ allowed, Lookup.of method path table = .methodNotAllowed allowed) ↔
        matching path table ≠ [] ∧ ∀ e ∈ matching path table, e.method ≠ method) ∧
      (∀ allowed, Lookup.of method path table = .methodNotAllowed allowed →
        allowed.Nodup ∧ (∀ m, m ∈ allowed ↔ found m) ∧ allowed.Pairwise fun a b =>
          ((matching path table).map (·.method)).idxOf a < ((matching path table).map (·.method)).idxOf b) ∧
      (Lookup.of method path table = .notFound ↔ matching path table = []) ∧
      (Lookup.of method path table = .notFound → ∀ m, Lookup.of m path table = .notFound) := by
  intro table found
  refine ⟨register_table [] entries,found_iff,?_,notAllowed_iff,?_,notFound_iff,?_⟩
  · intro e params
    rw [of_found_iff,best_some_iff]
  · intro allowed listed
    obtain ⟨mem,ordered⟩ := allowed_listed listed
    refine ⟨ordered.imp ?_,mem,ordered⟩
    rintro a b less rfl
    exact Nat.lt_irrefl _ less
  · intro none m
    exact notFound_iff.mpr (notFound_iff.mp none)

end ServiceKit.Server.Lookup
