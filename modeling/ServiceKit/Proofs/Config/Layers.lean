import ServiceKit.Config.Loader
import ServiceKit.Proofs.Keyed
import ServiceKit.Proofs.Outcome
import ServiceKit.Proofs.Text.Bytes
import ServiceKit.Proofs.Text.Utf8

namespace ServiceKit
namespace Config
open Outcome

variable {base mid c c' : Config} {vs others : Variables} {v : String × String} {e : ConfigError} {k k' : Key}
  {s name : String}

theorem Key.ofVariable?_varName (k : Key) : ofVariable? k.varName = some k := by
  have every : ∀ k ∈ all, ofVariable? k.varName = some k := by decide
  exact every k (mem_all k)

theorem Key.ofVariable?_iff : ofVariable? name = some k ↔ k.varName = name := by
  constructor
  · intro known
    have found := List.find?_some known
    exact eq_of_beq found
  · rintro rfl
    exact ofVariable?_varName k

theorem Key.varName_inj (same : k.varName = k'.varName) : k = k' :=
  Option.some.inj ((ofVariable?_varName k).symm.trans (ofVariable?_iff.mpr same.symm))

theorem Variables.puts_insert (name value : String) : Keyed.Puts name (fun _ => value) (insert name value) := by
  refine Keyed.puts_of_compared rfl ?_
  intro n v rest
  rw [insert]
  simp only [eq_comm]

theorem Variables.sorted_sorted (vs : Variables) : Keyed.Sorted (sorted vs) :=
  Keyed.sorted_foldl (fun v => insert v.1 v.2) (fun v => puts_insert v.1 v.2) .nil

theorem Variables.sorted_perm (distinct : (vs.map (·.1)).Nodup) : (sorted vs).Perm vs :=
  Keyed.perm_built (fun v => insert v.1 v.2) (fun v => puts_insert v.1 v.2) distinct

structure Overrides (base : Config) (vs : Variables) (c : Config) : Prop where
  given : ∀ {k s}, (k.varName,s) ∈ vs → k.kind.ofText? s = some (c k)
  kept : ∀ {k}, (∀ s, (k.varName,s) ∉ vs) → c k = base k

def Bad (vs : Variables) (k : Key) : Prop := ∃ s, (k.varName,s) ∈ vs ∧ k.kind.ofText? s = none

structure FirstBad (vs : Variables) (k : Key) : Prop where
  bad : Bad vs k
  least : ∀ k', Bad vs k' → Text.utf8 k.varName ≤ Text.utf8 k'.varName

theorem Overrides.unique (overrides : Overrides base vs c) (overrides' : Overrides base vs c') : c = c' := by
  funext k
  by_cases named : ∃ s, (k.varName,s) ∈ vs
  · obtain ⟨s,member⟩ := named
    exact Option.some.inj ((overrides.given member).symm.trans (overrides'.given member))
  · have absent := not_exists.mp named
    exact (overrides.kept absent).trans (overrides'.kept absent).symm

theorem Overrides.not_bad (overrides : Overrides base vs c) : ¬ Bad vs k := by
  rintro ⟨s,member,none⟩
  cases none.symm.trans (overrides.given member)

theorem FirstBad.unique (first : FirstBad vs k) (first' : FirstBad vs k') : k = k' := by
  have least := first.least k' first'.bad
  have least' := first'.least k first.bad
  exact Key.varName_inj (String.le_antisymm ((Text.utf8_le ..).mp least) ((Text.utf8_le ..).mp least'))

theorem setVariable_bad (base : Config) (none : k.kind.ofText? s = none) :
    setVariable base (k.varName,s) = .error (.badVariable k.varName k.kind.expected) := by
  simp only [setVariable,Key.ofVariable?_varName,none]

theorem setVariable_set (base : Config) {value : k.kind.Value} (stands : k.kind.ofText? s = some value) :
    setVariable base (k.varName,s) = .ok (base.set k value) := by
  simp only [setVariable,Key.ofVariable?_varName,stands]

theorem setVariable_ok (set : setVariable base v = .ok c) : Overrides base [v] c := by
  obtain ⟨name,s⟩ := v
  cases known : Key.ofVariable? name with
  | none =>
    simp only [setVariable,known] at set
    cases set
    refine ⟨?_,fun _ => rfl⟩
    intro k s member
    cases List.mem_singleton.mp member
    cases known.symm.trans k.ofVariable?_varName
  | some k =>
    obtain rfl := Key.ofVariable?_iff.mp known
    cases stands : k.kind.ofText? s with
    | none =>
      rw [setVariable_bad base stands] at set
      cases set
    | some value =>
      rw [setVariable_set base stands] at set
      cases set
      constructor
      · intro k' s' member
        obtain ⟨same,rfl⟩ := Prod.mk.inj (List.mem_singleton.mp member)
        obtain rfl := Key.varName_inj same
        rw [stands,set_same]
      · intro k' absent
        exact set_other _ _ fun same => absent s (same ▸ List.mem_singleton_self _)

theorem setVariable_error (failed : setVariable base v = .error e) : ∃ k : Key, k.varName = v.1 ∧
    k.kind.ofText? v.2 = none ∧ e = .badVariable k.varName k.kind.expected := by
  obtain ⟨name,s⟩ := v
  cases known : Key.ofVariable? name with
  | none =>
    simp only [setVariable,known] at failed
    cases failed
  | some k =>
    obtain rfl := Key.ofVariable?_iff.mp known
    cases stands : k.kind.ofText? s with
    | none =>
      rw [setVariable_bad base stands] at failed
      cases failed
      exact ⟨k,rfl,stands,rfl⟩
    | some value =>
      rw [setVariable_set base stands] at failed
      cases failed

theorem Overrides.cons (first : Overrides base [v] mid) (rest : Overrides mid vs c)
    (absent : v.1 ∉ vs.map (·.1)) : Overrides base (v :: vs) c := by
  constructor
  · intro k s member
    rcases List.mem_cons.mp member with rfl | later
    · rw [rest.kept fun s inside => absent (List.mem_map.mpr ⟨_,inside,rfl⟩)]
      exact first.given (List.mem_singleton_self _)
    · exact rest.given later
  · intro k outside
    rw [rest.kept fun s inside => outside s (List.mem_cons_of_mem _ inside)]
    exact first.kept fun s now => outside s (List.mem_singleton.mp now ▸ List.mem_cons_self)

theorem foldlM_ok (distinct : (vs.map (·.1)).Nodup) (done : vs.foldlM setVariable base = .ok c) :
    Overrides base vs c := by
  induction vs generalizing base with
  | nil =>
    cases done
    exact ⟨nofun,fun _ => rfl⟩
  | cons v vs ih =>
    obtain ⟨absent,distinct⟩ := List.nodup_cons.mp distinct
    rw [List.foldlM_cons] at done
    obtain ⟨mid,set,done⟩ := bind_ok.mp done
    exact (setVariable_ok set).cons (ih distinct done) absent

-- Of variables in the order of their names, the first that is bad ends the fold.
theorem foldlM_error (sorted : Keyed.Sorted vs) (failed : vs.foldlM setVariable base = .error e) :
    ∃ k, FirstBad vs k ∧ e = .badVariable k.varName k.kind.expected := by
  induction vs generalizing base with
  | nil => cases failed
  | cons v vs ih =>
    obtain ⟨below,sorted⟩ := List.pairwise_cons.mp sorted
    rw [List.foldlM_cons] at failed
    rcases bind_error.mp failed with now | ⟨mid,set,later⟩
    · obtain ⟨k,same,none,rfl⟩ := setVariable_error now
      refine ⟨k,⟨⟨v.2,?_,none⟩,?_⟩,rfl⟩
      · rw [same]
        exact List.mem_cons_self
      · rintro k' ⟨s,member,_⟩
        rw [Text.utf8_le]
        rcases List.mem_cons.mp member with rfl | inside
        · exact same ▸ String.le_refl _
        · exact same ▸ String.not_lt.mp (String.lt_asymm (below _ inside))
    · obtain ⟨k,⟨⟨s,member,none⟩,least⟩,rfl⟩ := ih sorted later
      refine ⟨k,⟨⟨s,List.mem_cons_of_mem _ member,none⟩,?_⟩,rfl⟩
      rintro k' ⟨s',member',none'⟩
      rcases List.mem_cons.mp member' with rfl | inside
      · exact absurd ⟨s',List.mem_singleton_self _,none'⟩ (setVariable_ok set).not_bad
      · exact least k' ⟨s',inside,none'⟩

def Alike (vs others : Variables) : Prop := ∀ (k : Key) (s : String), (k.varName,s) ∈ vs ↔ (k.varName,s) ∈ others

theorem Overrides.congr (alike : Alike vs others) (overrides : Overrides base vs c) : Overrides base others c :=
  ⟨fun member => overrides.given ((alike ..).mpr member),
    fun absent => overrides.kept fun s member => absent s ((alike ..).mp member)⟩

theorem Bad.congr (alike : Alike vs others) : Bad vs k ↔ Bad others k :=
  exists_congr fun s => and_congr_left' (alike k s)

theorem FirstBad.congr (alike : Alike vs others) (first : FirstBad vs k) : FirstBad others k :=
  ⟨(Bad.congr alike).mp first.bad,fun k' bad => first.least k' ((Bad.congr alike).mpr bad)⟩

section Distinct
variable (distinct : (vs.map (·.1)).Nodup)
include distinct

theorem alike_sorted : Alike (Variables.sorted vs) vs := fun _ _ => (Variables.sorted_perm distinct).mem_iff

theorem overrides_of_ok (done : loadUnvalidated base vs = .ok c) : Overrides base vs c := by
  have apart := ((Variables.sorted_perm distinct).map (·.1)).nodup_iff.mpr distinct
  exact (foldlM_ok apart done).congr (alike_sorted distinct)

theorem firstBad_of_error (failed : loadUnvalidated base vs = .error e) :
    ∃ k, FirstBad vs k ∧ e = .badVariable k.varName k.kind.expected := by
  obtain ⟨k,first,told⟩ := foldlM_error (Variables.sorted_sorted vs) failed
  exact ⟨k,first.congr (alike_sorted distinct),told⟩

theorem loadUnvalidated_ok : loadUnvalidated base vs = .ok c ↔ Overrides base vs c := by
  refine ⟨overrides_of_ok distinct,?_⟩
  intro overrides
  cases loaded : loadUnvalidated base vs with
  | ok c' => rw [(overrides_of_ok distinct loaded).unique overrides]
  | error e =>
    obtain ⟨k,first,_⟩ := firstBad_of_error distinct loaded
    exact absurd first.bad overrides.not_bad

theorem loadUnvalidated_error : loadUnvalidated base vs = .error e ↔
    ∃ k, FirstBad vs k ∧ e = .badVariable k.varName k.kind.expected := by
  refine ⟨firstBad_of_error distinct,?_⟩
  rintro ⟨k,first,rfl⟩
  cases loaded : loadUnvalidated base vs with
  | ok c => exact absurd first.bad (overrides_of_ok distinct loaded).not_bad
  | error e =>
    obtain ⟨k',first',rfl⟩ := firstBad_of_error distinct loaded
    rw [first'.unique first]

theorem loadUnvalidated_fails : (∃ e, loadUnvalidated base vs = .error e) ↔ ∃ k, Bad vs k := by
  constructor
  · rintro ⟨e,failed⟩
    obtain ⟨k,first,_⟩ := firstBad_of_error distinct failed
    exact ⟨k,first.bad⟩
  · rintro ⟨k,bad⟩
    cases loaded : loadUnvalidated base vs with
    | ok c => exact absurd bad (overrides_of_ok distinct loaded).not_bad
    | error e => exact ⟨e,rfl⟩

theorem loadUnvalidated_congr (distinct' : (others.map (·.1)).Nodup) (alike : Alike vs others) :
    loadUnvalidated base others = loadUnvalidated base vs := by
  cases loaded : loadUnvalidated base vs with
  | ok c => exact (loadUnvalidated_ok distinct').mpr ((overrides_of_ok distinct loaded).congr alike)
  | error e =>
    obtain ⟨k,first,told⟩ := firstBad_of_error distinct loaded
    exact (loadUnvalidated_error distinct').mpr ⟨k,first.congr alike,told⟩

theorem loadUnvalidated_perm (perm : others.Perm vs) : loadUnvalidated base others = loadUnvalidated base vs :=
  loadUnvalidated_congr distinct ((perm.map (·.1)).nodup_iff.mpr distinct) fun _ _ => perm.mem_iff.symm

theorem loadUnvalidated_filter :
    loadUnvalidated base (vs.filter fun v => (Key.ofVariable? v.1).isSome) = loadUnvalidated base vs := by
  refine loadUnvalidated_congr distinct (distinct.sublist (List.filter_sublist.map _)) ?_
  intro k s
  rw [List.mem_filter,Key.ofVariable?_varName]
  exact (and_iff_left rfl).symm

end Distinct

def Kind.Unset : (k : Kind) → k.Value → Prop
  | .optional,v => v = none
  | .text,_ | .number _,_ | .flag,_ | .format,_ => False

theorem Kind.unset_iff {kind : Kind} {value : kind.Value} (optional : kind = .optional)
    (stands : kind.ofText? s = some value) : kind.Unset value ↔ Text.allBlank s = true := by
  subst optional
  obtain rfl : optionalText s = value := Option.some.inj stands
  rw [Unset,optionalText,Text.trim_isEmpty]
  split
  · next blank => exact iff_of_true rfl blank
  · next some => exact iff_of_false nofun some

theorem validate_ok : c.validate = .ok () ↔ ∀ f, ¬ Fault.Holds c f := by
  have every (f : Fault) : f ∈ Fault.all := by cases f <;> decide
  unfold validate fault?
  split
  · next f found =>
    have holds := List.find?_some found
    exact iff_of_false nofun fun none => none f (of_decide_eq_true holds)
  · next none =>
    refine iff_of_true rfl fun f => ?_
    exact of_decide_eq_false (by simpa using List.find?_eq_none.mp none f (every f))

theorem load_eq (loaded : loadUnvalidated base vs = .ok c) : load base vs = (c.validate >>= fun _ => .ok c) := by
  rw [load,loaded]
  rfl

theorem load_error (failed : loadUnvalidated base vs = .error e) : load base vs = .error e := by
  rw [load,failed]
  rfl

theorem load_ok : load base vs = .ok c ↔ loadUnvalidated base vs = .ok c ∧ ∀ f, ¬ Fault.Holds c f := by
  cases loaded : loadUnvalidated base vs with
  | error e => exact iff_of_false (by rw [load_error loaded]; nofun) (fun h => nomatch h.1)
  | ok c' =>
    rw [load_eq loaded,bind_ok]
    constructor
    · rintro ⟨⟨⟩,passed,⟨⟩⟩
      exact ⟨rfl,validate_ok.mp passed⟩
    · rintro ⟨⟨⟩,sound⟩
      exact ⟨(),validate_ok.mpr sound,rfl⟩

theorem load_fails (loaded : loadUnvalidated base vs = .ok c) :
    (∃ e, load base vs = .error e) ↔ ∃ f, Fault.Holds c f := by
  constructor
  · rintro ⟨e,failed⟩
    by_contra sound
    rw [load_ok.mpr ⟨loaded,not_exists.mp sound⟩] at failed
    cases failed
  · rintro ⟨f,holds⟩
    cases result : load base vs with
    | error e => exact ⟨e,rfl⟩
    | ok c' =>
      obtain ⟨loaded',sound⟩ := load_ok.mp result
      cases loaded.symm.trans loaded'
      exact absurd holds (sound f)

theorem load_files (loaded : load base vs = .ok c) : (c .certFile).isSome = (c .keyFile).isSome := by
  have sound := (load_ok.mp loaded).2 .tlsFiles
  exact Decidable.not_not.mp sound

-- Variables with distinct names lie over any base: neither their order nor those that no setting knows matter; they fail
-- iff one of them stands for no value of its setting, by the first name of these; else each setting takes its variable's
-- value (a blank one unsets an optional text) or stays. Loading fails over that only where the outcome has a fault, and
-- never gives one of the two files alone.
theorem Loader.load_layers (l : Loader) (distinct : (l.chosen.map (·.1)).Nodup) :
    (∀ vs, vs.Perm l.chosen → (l.withVariables vs).loadUnvalidated = l.loadUnvalidated) ∧
      (l.withVariables (l.chosen.filter fun v => (Key.ofVariable? v.1).isSome)).loadUnvalidated = l.loadUnvalidated ∧
      ((∃ e, l.loadUnvalidated = .error e) ↔ ∃ k, Bad l.chosen k) ∧
      (∀ e, l.loadUnvalidated = .error e ↔
        ∃ k, FirstBad l.chosen k ∧ e = .badVariable k.varName k.kind.expected) ∧
      (∀ c, l.loadUnvalidated = .ok c ↔ Overrides l.base l.chosen c) ∧
      (∀ c (k : Key) s, l.loadUnvalidated = .ok c → (k.varName,s) ∈ l.chosen → k.kind = .optional →
        (k.kind.Unset (c k) ↔ Text.allBlank s = true)) ∧
      (∀ e, l.loadUnvalidated = .error e → l.load = .error e) ∧
      (∀ c, l.loadUnvalidated = .ok c → ((∃ e, l.load = .error e) ↔ ∃ f, Fault.Holds c f)) ∧
      ∀ c, l.load = .ok c → l.loadUnvalidated = .ok c ∧ (c .certFile).isSome = (c .keyFile).isSome := by
  refine ⟨fun _ => loadUnvalidated_perm distinct,loadUnvalidated_filter distinct,loadUnvalidated_fails distinct,
    fun _ => loadUnvalidated_error distinct,fun _ => loadUnvalidated_ok distinct,?_,fun _ => load_error,
    fun _ => load_fails,fun c loaded => ⟨(load_ok.mp loaded).1,load_files loaded⟩⟩
  intro c k s loaded member optional
  exact Kind.unset_iff optional ((overrides_of_ok distinct loaded).given member)

def twoBad : Variables := [("APP_PORT","eighty"),("PATH","/bin"),("API_TIMEOUT","soon")]

theorem twoBad_reported : (twoBad.map (·.1)).Nodup ∧ (Loader.start.withVariables twoBad).loadUnvalidated =
    .error (.badVariable "API_TIMEOUT" "expected integer") := by
  have distinct : (twoBad.map (·.1)).Nodup := by decide
  have least : ∀ name ∈ twoBad.map (·.1), "API_TIMEOUT" ≤ name := by decide
  obtain ⟨_,_,_,failing,_⟩ := (Loader.start.withVariables twoBad).load_layers distinct
  refine ⟨distinct,(failing _).mpr ⟨.apiTimeout,⟨⟨"soon",by decide,by decide +kernel⟩,?_⟩,rfl⟩⟩
  rintro k ⟨s,member,_⟩
  exact (Text.utf8_le ..).mpr (least _ (List.mem_map.mpr ⟨_,member,rfl⟩))

end Config
end ServiceKit
