import ServiceKit.Proofs.Validation.Paths

namespace ServiceKit.Validation
variable {mode : Mode} {catalog : Catalog} {place : Place} {c : Call} {steps : List PathStep}

def Datum.labels : Datum → List String
  | .record _ fields => fields.map (·.1.label)
  | _ => []

-- No label is empty, neither of the value nor of any inside it.
inductive Labelled : Datum → Prop where
  | intro {v} (named : ∀ label ∈ v.labels, label ≠ "") (inside : ∀ w ∈ v.parts, Labelled w) : Labelled v

variable {v : Datum}

theorem Labelled.leaf (bare : v.parts = []) : Labelled v := by
  refine .intro ?_ (by simp [bare])
  cases v with
  | record form fields =>
    rw [List.map_eq_nil_iff.mp bare]
    exact nofun
  | _ => exact nofun

theorem labelled_of_conforms (named : ∀ t ∈ catalog, ∀ label ∈ t.labels, label ≠ "") {s : Shape}
    (conforms : Conforms catalog s v) : Labelled v := by
  induction conforms with
  | text | choice _ | int _ | real | flag | any | dictionary | absent | null => exact .leaf rfl
  | present _ ih | valid _ ih => exact .intro nofun (List.forall_mem_singleton.mpr ih)
  | list _ ih => exact .intro nofun ih
  | @record name fields t declared same _ ih =>
    refine .intro ?_ ?_
    · have labels : (Datum.record t.form fields).labels = t.labels := by
        simpa [Datum.labels,RecordType.labels,Function.comp_def] using congrArg (List.map Field.label) same
      rw [labels]
      exact named t (List.mem_of_find?_eq_some declared)
    · intro w member
      obtain ⟨p,listed,rfl⟩ := List.mem_map.mp member
      obtain ⟨i,bound,rfl⟩ := List.getElem_of_mem listed
      have length : fields.length = t.fields.length := by simpa using congrArg List.length same
      exact ih i _ _ (List.getElem?_eq_getElem (length ▸ bound)) (List.getElem?_eq_getElem bound)

def PathStep.Named : PathStep → Prop
  | .field label => label ≠ ""
  | .index _ => True

theorem Labelled.field {form : Form} {fields : List (Field × Datum)} {i : Nat} {field : Field} {w : Datum}
    (labelled : Labelled (.record form fields)) (declared : fields[i]? = some (field,w)) :
    field.label ≠ "" ∧ Labelled w := by
  obtain ⟨named,inside⟩ := labelled
  have member := List.mem_of_getElem? declared
  exact ⟨named _ (List.mem_map.mpr ⟨_,member,rfl⟩),inside w (List.mem_map.mpr ⟨_,member,rfl⟩)⟩

theorem Active.named (active : Active mode v place c) (labelled : Labelled v) :
    c.steps ≠ [] ∧ ∀ step ∈ c.steps, step.Named := by
  induction active with
  | rule declared _ _ =>
    exact ⟨List.cons_ne_nil _ _,List.forall_mem_singleton.mpr (labelled.field declared).1⟩
  | dive declared _ _ _ ih =>
    obtain ⟨named,inside⟩ := labelled.field declared
    exact ⟨List.cons_ne_nil _ _,List.forall_mem_cons.mpr ⟨named,(ih inside).2⟩⟩
  | item found _ ih =>
    obtain ⟨_,inside⟩ := labelled
    exact ⟨List.cons_ne_nil _ _,List.forall_mem_cons.mpr ⟨trivial,(ih (inside _ (List.mem_of_getElem? found))).2⟩⟩
  | optional _ ih | nullable _ ih =>
    obtain ⟨_,inside⟩ := labelled
    exact ih (inside _ (List.mem_singleton_self _))

structure Finding where
  suffix : String
  tag : String
  value : Json
deriving DecidableEq, Repr

def Call.finding (c : Call) : Finding := ⟨pathText c.steps,c.rule.tag,c.value.toJson⟩

-- A suffix that begins a path: without the point that parts it from what stands before.
def withoutPoint (suffix : String) : String :=
  match suffix.toList with
  | '.' :: rest => String.ofList rest
  | _ => suffix

theorem withoutPoint_field (label rest : String) : withoutPoint ("." ++ label ++ rest) = label ++ rest := by
  simp [withoutPoint]

theorem withoutPoint_index (i : Nat) (rest : String) :
    withoutPoint ("[" ++ toString i ++ "]" ++ rest) = "[" ++ toString i ++ "]" ++ rest := by
  simp [withoutPoint]

theorem renderSteps_empty (begun : steps ≠ []) (named : ∀ step ∈ steps, step.Named) :
    renderSteps "" steps = withoutPoint (pathText steps) := by
  cases steps with
  | nil => exact absurd rfl begun
  | cons step rest =>
    have unfolded : renderSteps "" (step :: rest) = renderSteps (renderStep "" step) rest := rfl
    cases step with
    | field label =>
      have label_ : renderStep "" (.field label) = label := rfl
      rw [unfolded,label_,renderSteps_eq (named _ List.mem_cons_self),pathText,PathStep.text,withoutPoint_field]
    | index i =>
      have bracket : renderStep "" (.index i) = "[" ++ toString i ++ "]" := by simp [renderStep,indexed]
      have begun : "[" ++ toString i ++ "]" ≠ "" := by simp
      rw [unfolded,bracket,renderSteps_eq begun,pathText,PathStep.text,withoutPoint_index]

theorem pathText_begins (begun : steps ≠ []) :
    ∃ first rest, (pathText steps).toList = first :: rest ∧ (first = '.' ∨ first = '[') := by
  cases steps with
  | nil => exact absurd rfl begun
  | cons step rest =>
    refine ⟨step.piece.1,step.piece.2 ++ (pathText rest).toList,?_,?_⟩
    · rw [pathText,String.toList_append,text_piece,List.cons_append]
    · cases step with
      | field _ => exact .inl rfl
      | index _ => exact .inr rfl

-- A walk finds the same wherever it begins.
theorem check_uniform (labelled : Labelled v) (mode : Mode) : ∃ findings : List Finding,
    (∀ f, f ∈ findings ↔ ∃ place c, Active mode v place c ∧ c.holds = false ∧ f = c.finding) ∧
      (∀ f ∈ findings, ∃ first rest, f.suffix.toList = first :: rest ∧ (first = '.' ∨ first = '[')) ∧
      (∀ path ≠ "", ∀ errors, v.check path mode errors =
        errors ++ findings.map fun f => ⟨path ++ f.suffix,f.tag,f.value⟩) ∧
      ∀ errors, v.check "" mode errors =
        errors ++ findings.map fun f => ⟨withoutPoint f.suffix,f.tag,f.value⟩ := by
  have named : ∀ s ∈ v.failing mode, s.call.steps ≠ [] ∧ ∀ step ∈ s.call.steps, step.Named :=
    fun s inside => (mem_failing.mp inside).1.named labelled
  refine ⟨(v.failing mode).map fun s => s.call.finding,?_,?_,?_,?_⟩
  · intro f
    rw [List.mem_map]
    constructor
    · rintro ⟨s,inside,rfl⟩
      obtain ⟨active,fails⟩ := mem_failing.mp inside
      exact ⟨s.place,s.call,active,fails,rfl⟩
    · rintro ⟨place,c,active,fails,rfl⟩
      exact ⟨⟨place,c⟩,mem_failing.mpr ⟨active,fails⟩,rfl⟩
  · intro f found
    obtain ⟨s,inside,rfl⟩ := List.mem_map.mp found
    exact pathText_begins (named s inside).1
  · intro path begun errors
    rw [check_eq,List.map_map]
    refine congrArg (errors ++ ·) (List.map_congr_left fun s _ => ?_)
    rw [Call.error,renderSteps_eq begun]
    rfl
  · intro errors
    rw [check_eq,List.map_map]
    refine congrArg (errors ++ ·) (List.map_congr_left fun s inside => ?_)
    have path := renderSteps_empty (named s inside).1 (named s inside).2
    rw [Call.error,path]
    rfl

def nameless : Datum := branch "" [branch "" [] none] none

theorem nameless_labelled : Labelled nameless := by
  have leaf : Conforms Samples.catalog (.record "Tree") (branch "" [] none) := branch_conforms nofun .absent
  have conforms : Conforms Samples.catalog (.record "Tree") nameless := branch_conforms (by simpa using leaf) .absent
  exact labelled_of_conforms (fun t member label listed => ((samples_mirrored.1 t member).plain label listed).1) conforms

theorem nameless_uniform : Labelled nameless ∧
    (nameless.check "Tree" .create []).map (·.field) = ["Tree.name","Tree.children[0].name"] ∧
    (nameless.check "" .create []).map (·.field) = ["name","children[0].name"] ∧ ∃ findings : List Finding,
    (∀ f, f ∈ findings ↔ ∃ place c, Active .create nameless place c ∧ c.holds = false ∧ f = c.finding) ∧
      (∀ f ∈ findings, ∃ first rest, f.suffix.toList = first :: rest ∧ (first = '.' ∨ first = '[')) ∧
      (∀ path ≠ "", ∀ errors, nameless.check path .create errors =
        errors ++ findings.map fun f => ⟨path ++ f.suffix,f.tag,f.value⟩) ∧
      ∀ errors, nameless.check "" .create errors =
        errors ++ findings.map fun f => ⟨withoutPoint f.suffix,f.tag,f.value⟩ :=
  ⟨nameless_labelled,by decide +kernel,by decide +kernel,check_uniform nameless_labelled .create⟩

end ServiceKit.Validation
