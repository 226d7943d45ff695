import ServiceKit.Validation.Walk

namespace ServiceKit.Validation

-- A call is active where every field on the way to it is dived into and none is left alone. A boxed
-- value is no other than the value itself.
inductive Active (mode : Mode) : Datum → Place → Call → Prop where
  | rule {form fields i field v k r} (declared : fields[i]? = some (field,v))
      (awake : ¬ (field.skipIfNull = true ∧ mode = .update ∧ v.inspect.null = true))
      (asked : field.checks[k]? = some (.rule r)) :
      Active mode (.record form fields) [i,k] ⟨[.field field.label],r,v⟩
  | dive {form fields i field v k place c} (declared : fields[i]? = some (field,v))
      (awake : ¬ (field.skipIfNull = true ∧ mode = .update ∧ v.inspect.null = true))
      (asked : field.checks[k]? = some .dive) (inside : Active mode v place c) :
      Active mode (.record form fields) (i :: k :: place) (c.under (.field field.label))
  | item {items i v place c} (found : items[i]? = some v) (inside : Active mode v place c) :
      Active mode (.list items) (i :: place) (c.under (.index i))
  | optional {v place c} (inside : Active mode v place c) : Active mode (.optional (some v)) place c
  | nullable {v place c} (inside : Active mode v place c) : Active mode (.nullable (some v)) place c

variable {mode : Mode} {v : Datum} {field : Field} {s : Site} {sites : List Site}

theorem skipped_iff : field.skipped mode v = true ↔ field.skipIfNull = true ∧ mode = .update ∧ v.inspect.null = true := by
  simp [Field.skipped,and_assoc]

theorem numbered_nil (sitesOf : Nat → α → List Site) (i : Nat) : numbered sitesOf i [] = [] := rfl

theorem numbered_cons (sitesOf : Nat → α → List Site) (i : Nat) (a : α) (rest : List α) :
    numbered sitesOf i (a :: rest) = sitesOf i a ++ numbered sitesOf (i + 1) rest := by
  simp [numbered,List.zipIdx_cons]

theorem mem_numbered {sitesOf : Nat → α → List Site} {parts : List α} :
    s ∈ numbered sitesOf 0 parts ↔ ∃ i a, parts[i]? = some a ∧ s ∈ sitesOf i a := by
  simp only [numbered,List.mem_flatMap,Prod.exists,List.mem_zipIdx_iff_getElem?]
  exact exists_comm

theorem sitesOfItems_eq (items : List Datum) (mode : Mode) (i : Nat) : sitesOfItems items mode i =
    numbered (fun i v => (v.sites mode).map (.under i (.index i))) i items := by
  induction items generalizing i with
  | nil => rw [sitesOfItems,numbered_nil]
  | cons v rest ih => rw [sitesOfItems,ih,numbered_cons]

theorem sitesOfFields_eq (fields : List (Field × Datum)) (mode : Mode) (i : Nat) : sitesOfFields fields mode i =
    numbered (fun i p => sitesOfField p.1 p.2 (p.2.sites mode) mode i) i fields := by
  induction fields generalizing i with
  | nil => rw [sitesOfFields,numbered_nil]
  | cons first rest ih => rw [sitesOfFields,ih,numbered_cons]

theorem mem_sitesOfField {nested : List Site} {i : Nat} : s ∈ sitesOfField field v nested mode i ↔
    field.skipped mode v = false ∧ ∃ k check, field.checks[k]? = some check ∧
      ∃ t ∈ sitesOfCheck v nested k check, s = t.under i (.field field.label) := by
  unfold sitesOfField
  cases skipped : field.skipped mode v with
  | true => simp
  | false =>
    simp only [Bool.false_eq_true,if_false,List.mem_map,mem_numbered,true_and]
    constructor
    · rintro ⟨t,⟨k,check,asked,inside⟩,rfl⟩
      exact ⟨k,check,asked,t,inside,rfl⟩
    · rintro ⟨k,check,asked,t,inside,rfl⟩
      exact ⟨t,⟨k,check,asked,inside⟩,rfl⟩

def Datum.parts : Datum → List Datum
  | .record _ fields => fields.map (·.2)
  | .list items => items
  | .optional (some v) | .nullable (some v) => [v]
  | _ => []

theorem Datum.sizeOf_parts {w : Datum} (inside : w ∈ v.parts) : sizeOf w < sizeOf v := by
  cases v with
  | record form fields =>
    obtain ⟨⟨field,w'⟩,member,rfl⟩ := List.mem_map.mp inside
    have smaller := List.sizeOf_lt_of_mem member
    simp only [Datum.record.sizeOf_spec,Prod.mk.sizeOf_spec] at smaller ⊢
    omega
  | list items =>
    have smaller : sizeOf w < sizeOf items := List.sizeOf_lt_of_mem inside
    simp only [Datum.list.sizeOf_spec]
    omega
  | optional value | nullable value =>
    cases value with
    | none => cases inside
    | some w' =>
      cases List.mem_singleton.mp inside
      simp
      omega
  | text _ | int _ | real _ | flag _ | any _ | dictionary _ => cases inside

theorem Datum.induction {motive : Datum → Prop} (step : ∀ v : Datum, (∀ w ∈ v.parts, motive w) → motive v) (v : Datum) :
    motive v :=
  step v fun w _ => Datum.induction step w
termination_by sizeOf v
decreasing_by exact Datum.sizeOf_parts ‹_›

theorem active_of_mem (inside : s ∈ v.sites mode) : Active mode v s.place s.call := by
  induction v using Datum.induction generalizing s with
  | step v ih =>
    cases v with
    | record form fields =>
      rw [Datum.sites,sitesOfFields_eq,mem_numbered] at inside
      obtain ⟨i,⟨field,w⟩,declared,inside⟩ := inside
      obtain ⟨skipped,k,check,asked,t,inside,rfl⟩ := mem_sitesOfField.mp inside
      have awake := mt skipped_iff.mpr (Bool.eq_false_iff.mp skipped)
      cases check with
      | rule r =>
        cases List.mem_singleton.mp inside
        exact .rule declared awake asked
      | dive =>
        obtain ⟨u,nested,rfl⟩ := List.mem_map.mp inside
        have part : w ∈ (Datum.record form fields).parts := List.mem_map_of_mem (f := (·.2)) (List.mem_of_getElem? declared)
        exact .dive declared awake asked (ih w part nested)
    | list items =>
      rw [Datum.sites,sitesOfItems_eq,mem_numbered] at inside
      obtain ⟨i,w,found,inside⟩ := inside
      obtain ⟨t,nested,rfl⟩ := List.mem_map.mp inside
      exact .item found (ih w (List.mem_of_getElem? found) nested)
    | optional value | nullable value =>
      cases value with
      | none => simp [Datum.sites] at inside
      | some w =>
        rw [Datum.sites] at inside
        have active := ih w (List.mem_singleton_self w) inside
        first | exact .optional active | exact .nullable active
    | text _ | int _ | real _ | flag _ | any _ | dictionary _ => simp [Datum.sites] at inside

theorem mem_of_active {place : Place} {c : Call} (active : Active mode v place c) : ⟨place,c⟩ ∈ v.sites mode := by
  induction active with
  | @rule form fields i field v k r declared awake asked =>
    rw [Datum.sites,sitesOfFields_eq,mem_numbered]
    have skipped := Bool.eq_false_iff.mpr (mt skipped_iff.mp awake)
    exact ⟨i,(field,v),declared,mem_sitesOfField.mpr ⟨skipped,k,.rule r,asked,_,List.mem_singleton_self _,rfl⟩⟩
  | @dive form fields i field v k place c declared awake asked _ ih =>
    rw [Datum.sites,sitesOfFields_eq,mem_numbered]
    have skipped := Bool.eq_false_iff.mpr (mt skipped_iff.mp awake)
    exact ⟨i,(field,v),declared,mem_sitesOfField.mpr ⟨skipped,k,.dive,asked,_,List.mem_map_of_mem ih,rfl⟩⟩
  | @item items i v place c found _ ih =>
    rw [Datum.sites,sitesOfItems_eq,mem_numbered]
    exact ⟨i,v,found,List.mem_map_of_mem ih⟩
  | optional _ ih | nullable _ ih =>
    rw [Datum.sites]
    exact ih

def Ordered (sites : List Site) : Prop := sites.Pairwise fun s t => s.place < t.place

theorem Ordered.map (ordered : Ordered sites) {f : Site → Site} (i : Nat) (place : ∀ s, (f s).place = i :: s.place) :
    Ordered (sites.map f) := by
  refine List.pairwise_map.mpr (ordered.imp ?_)
  intro s t less
  rw [place,place]
  exact List.cons_lt_cons_iff.mpr (.inr ⟨rfl,less⟩)

-- Parts whose sites begin with the number of the part stand in the order of their numbers.
theorem ordered_numbered {sitesOf : Nat → α → List Site} {parts : List α} (i : Nat)
    (inner : ∀ j, ∀ a ∈ parts, Ordered (sitesOf j a))
    (first : ∀ j a, ∀ s ∈ sitesOf j a, ∃ rest, s.place = j :: rest) : Ordered (numbered sitesOf i parts) := by
  refine List.pairwise_flatMap.mpr ⟨?_,?_⟩
  · intro p member
    exact inner p.2 p.1 (List.fst_mem_of_mem_zipIdx member)
  · have numbers : (parts.zipIdx i).Pairwise fun p q => p.2 < q.2 := by
      rw [← List.pairwise_map,List.zipIdx_map_snd]
      exact List.pairwise_lt_range'
    refine numbers.imp ?_
    intro p q less s inS t inT
    obtain ⟨_,placeS⟩ := first p.2 p.1 s inS
    obtain ⟨_,placeT⟩ := first q.2 q.1 t inT
    rw [placeS,placeT]
    exact List.cons_lt_cons_iff.mpr (.inl less)

theorem ordered_sitesOfCheck (nested : Ordered sites) (k : Nat) (check : Check) :
    Ordered (sitesOfCheck v sites k check) := by
  cases check with
  | rule r => exact List.pairwise_singleton _ _
  | dive => exact nested.map k fun _ => rfl

theorem ordered_sitesOfField (nested : Ordered sites) (field : Field) (v : Datum) (mode : Mode) (i : Nat) :
    Ordered (sitesOfField field v sites mode i) := by
  unfold sitesOfField
  split
  · exact List.Pairwise.nil
  · refine Ordered.map (ordered_numbered 0 (fun k check _ => ordered_sitesOfCheck nested k check) ?_) i fun _ => rfl
    intro k check s inside
    cases check with
    | rule r => exact ⟨[],congrArg Site.place (List.mem_singleton.mp inside)⟩
    | dive =>
      obtain ⟨t,_,rfl⟩ := List.mem_map.mp inside
      exact ⟨t.place,rfl⟩

theorem ordered_sites (v : Datum) (mode : Mode) : Ordered (v.sites mode) := by
  induction v using Datum.induction with
  | step v ih =>
    cases v with
    | record form fields =>
      rw [Datum.sites,sitesOfFields_eq]
      refine ordered_numbered 0 ?_ ?_
      · intro i p member
        exact ordered_sitesOfField (ih p.2 (List.mem_map_of_mem member)) p.1 p.2 mode i
      · intro i p s inside
        obtain ⟨_,_,_,_,t,_,rfl⟩ := mem_sitesOfField.mp inside
        exact ⟨t.place,rfl⟩
    | list items =>
      rw [Datum.sites,sitesOfItems_eq]
      refine ordered_numbered 0 ?_ ?_
      · intro i w member
        exact (ih w member).map i fun _ => rfl
      · intro i w s inside
        obtain ⟨t,_,rfl⟩ := List.mem_map.mp inside
        exact ⟨t.place,rfl⟩
    | optional value | nullable value =>
      cases value with
      | none => simp [Datum.sites,Ordered]
      | some w =>
        rw [Datum.sites]
        exact ih w (List.mem_singleton_self w)
    | text _ | int _ | real _ | flag _ | any _ | dictionary _ => simp [Datum.sites,Ordered]

def reported (path : String) (sites : List Site) : List FieldError :=
  (sites.filter fun s => !s.call.holds).map fun s => s.call.error path

theorem reported_append (path : String) (sites more : List Site) :
    reported path (sites ++ more) = reported path sites ++ reported path more := by
  rw [reported,List.filter_append,List.map_append]
  rfl

theorem reported_under (path : String) (i : Nat) (step : PathStep) (sites : List Site) :
    reported path (sites.map (.under i step)) = reported (renderStep path step) sites := by
  simp only [reported,List.filter_map,List.map_map]
  rfl

theorem reported_after (path : String) (k : Nat) (sites : List Site) :
    reported path (sites.map (.after k)) = reported path sites := by
  simp only [reported,List.filter_map,List.map_map]
  rfl

theorem reported_rule (path : String) (r : Rule) (v : Datum) (k : Nat) :
    reported path (sitesOfCheck v sites k (.rule r)) = if r.holds v.inspect then [] else [⟨path,r.tag,v.toJson⟩] := by
  cases held : r.holds v.inspect <;> simp [reported,sitesOfCheck,Call.holds,Call.error,renderSteps,held]

-- The checks of a field one after another, if each adds the errors of its own sites.
theorem foldl_checks {step : List FieldError → Check → List FieldError} {path : String}
    (one : ∀ k check errors, step errors check = errors ++ reported path (sitesOfCheck v sites k check))
    (checks : List Check) (k : Nat) (errors : List FieldError) :
    checks.foldl step errors = errors ++ reported path (numbered (sitesOfCheck v sites) k checks) := by
  induction checks generalizing k errors with
  | nil => simp [numbered_nil,reported]
  | cons check rest ih =>
    rw [List.foldl_cons,ih (k + 1),one k check,numbered_cons,reported_append,List.append_assoc]

def Datum.Walked (mode : Mode) (v : Datum) : Prop :=
  ∀ path errors, v.check path mode errors = errors ++ reported path (v.sites mode)

theorem checkItems_eq {items : List Datum} (walked : ∀ w ∈ items, w.Walked mode) (path : String) (i : Nat)
    (errors : List FieldError) :
    checkItems items path mode i errors = errors ++ reported path (sitesOfItems items mode i) := by
  induction items generalizing i errors with
  | nil => simp [checkItems,sitesOfItems,reported]
  | cons v rest ih =>
    have others := ih fun w member => walked w (List.mem_cons_of_mem v member)
    rw [checkItems,sitesOfItems,others,walked v List.mem_cons_self,reported_append,reported_under,List.append_assoc]
    rfl

theorem checkFields_eq {fields : List (Field × Datum)} (walked : ∀ p ∈ fields, p.2.Walked mode) (path : String)
    (i : Nat) (errors : List FieldError) :
    checkFields fields path mode errors = errors ++ reported path (sitesOfFields fields mode i) := by
  induction fields generalizing i errors with
  | nil => simp [checkFields,sitesOfFields,reported]
  | cons first rest ih =>
    obtain ⟨field,v⟩ := first
    have others := ih fun p member => walked p (List.mem_cons_of_mem _ member)
    rw [checkFields,others (i + 1),sitesOfFields,reported_append,← List.append_assoc,sitesOfField]
    congr 1
    split
    · exact (List.append_nil _).symm
    · rw [reported_under]
      refine foldl_checks ?_ field.checks 0 errors
      intro k check errors
      cases check with
      | dive => exact (walked (field,v) List.mem_cons_self _ _).trans (by rw [sitesOfCheck,reported_after]; rfl)
      | rule r =>
        rw [reported_rule]
        dsimp only
        split
        · exact (List.append_nil _).symm
        · rfl

theorem walked (v : Datum) (mode : Mode) : v.Walked mode := by
  induction v using Datum.induction with
  | step v ih =>
    intro path errors
    cases v with
    | record form fields =>
      rw [Datum.check,Datum.sites]
      exact checkFields_eq (fun p member => ih p.2 (List.mem_map_of_mem member)) path 0 errors
    | list items =>
      rw [Datum.check,Datum.sites]
      exact checkItems_eq ih path 0 errors
    | optional value | nullable value =>
      cases value with
      | none => simp [Datum.check,Datum.sites,reported]
      | some w =>
        rw [Datum.check,Datum.sites]
        exact ih w (List.mem_singleton_self w) path errors
    | text _ | int _ | real _ | flag _ | any _ | dictionary _ => simp [Datum.check,Datum.sites,reported]

def Datum.failing (v : Datum) (mode : Mode) : List Site := (v.sites mode).filter fun s => !s.call.holds

theorem mem_failing : s ∈ v.failing mode ↔ Active mode v s.place s.call ∧ s.call.holds = false := by
  rw [Datum.failing,List.mem_filter,Bool.not_eq_true']
  exact and_congr_left fun _ => ⟨active_of_mem,mem_of_active⟩

theorem check_eq (v : Datum) (path : String) (mode : Mode) (errors : List FieldError) :
    v.check path mode errors = errors ++ (v.failing mode).map fun s => s.call.error path :=
  walked v mode path errors

-- Validation is exact: the active calls of a value, each at one place and in the order of their places,
-- are the ones whose failures are reported, and nothing else is.
theorem validateIn_exact (name : String) (v : Datum) (mode : Mode) :
    (∀ place c, (⟨place,c⟩ : Site) ∈ v.sites mode ↔ Active mode v place c) ∧
      (v.sites mode).Pairwise (fun s t => s.place < t.place) ∧
      validateIn name v mode = ((v.sites mode).filter fun s => !s.call.rule.holds s.call.value.inspect).map (fun s =>
        ⟨renderSteps name s.call.steps,s.call.rule.tag,s.call.value.toJson⟩) ∧
      (validateIn name v mode = [] ↔ ∀ place c, Active mode v place c → c.rule.holds c.value.inspect = true) := by
  have listed : ∀ place c, (⟨place,c⟩ : Site) ∈ v.sites mode ↔ Active mode v place c :=
    fun _ _ => ⟨active_of_mem,mem_of_active⟩
  have errors : validateIn name v mode = reported name (v.sites mode) := walked v mode name []
  refine ⟨listed,ordered_sites v mode,errors,?_⟩
  rw [errors,reported,List.map_eq_nil_iff,List.filter_eq_nil_iff]
  constructor
  · intro none place c active
    simpa [Call.holds] using none ⟨place,c⟩ (mem_of_active active)
  · intro all s inside
    have held := all s.place s.call (active_of_mem inside)
    simp [Call.holds,held]

example : validateIn "Town" (.record .named
      [(.plain "streets" [.dive,.rule .email],
        .list [.record .named [(.plain "name" [.rule .required],.text "")]])]) .create =
    [⟨"Town.streets[0].name","required",.string ""⟩,
     ⟨"Town.streets","email",.array [.object [("name",.string "")]]⟩] := by decide +kernel

end ServiceKit.Validation
