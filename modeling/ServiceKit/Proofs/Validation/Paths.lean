import ServiceKit.Proofs.Validation.Exactness
import ServiceKit.Record.Conformance
import ServiceKit.Record.Samples

namespace ServiceKit.Validation

variable {mode : Mode} {v : Datum} {catalog : Catalog} {step : PathStep} {steps : List PathStep}

theorem renderStep_eq {path : String} (begun : path ≠ "") (step : PathStep) :
    renderStep path step = path ++ step.text := by
  cases step with
  | field label => simp [renderStep,join,PathStep.text,begun,String.append_assoc]
  | index i => simp [renderStep,indexed,PathStep.text,String.append_assoc]

theorem renderSteps_eq {path : String} (begun : path ≠ "") (steps : List PathStep) :
    renderSteps path steps = path ++ pathText steps := by
  induction steps generalizing path with
  | nil => simp [renderSteps,pathText]
  | cons step rest ih =>
    have further : path ++ step.text ≠ "" := by simp [begun]
    have rendered : renderSteps path (step :: rest) = renderSteps (renderStep path step) rest := rfl
    rw [rendered,renderStep_eq begun,ih further,pathText,String.append_assoc]

def PathStep.Plain : PathStep → Prop
  | .field label => PlainLabel label
  | .index _ => True

def PathStep.piece : PathStep → Char × List Char
  | .field label => ('.',label.toList)
  | .index i => ('[',(toString i).toList ++ [']'])

theorem text_piece (step : PathStep) : step.text.toList = step.piece.1 :: step.piece.2 := by
  cases step <;> simp [PathStep.text,PathStep.piece]

theorem pieces_append {label : List Char} (plain : ∀ c ∈ label, beginsStep c = false) (rest : List Char) :
    pieces (label ++ rest) = (label ++ (pieces rest).1,(pieces rest).2) := by
  induction label with
  | nil => rfl
  | cons c label ih =>
    have tail := ih fun d member => plain d (List.mem_cons_of_mem c member)
    simp [pieces,tail,plain c List.mem_cons_self]

theorem isDigit_of_mem_toString {i : Nat} {c : Char} (member : c ∈ (toString i).toList) : c.isDigit = true := by
  rw [Nat.toString_eq_repr,Nat.repr,String.toList_ofList] at member
  exact Nat.isDigit_of_mem_toDigits (by decide) (by decide) member

theorem piece_begins (step : PathStep) : beginsStep step.piece.1 = true := by cases step <;> rfl

theorem piece_goesOn (plain : step.Plain) : ∀ c ∈ step.piece.2, beginsStep c = false := by
  cases step with
  | field label => exact plain.2
  | index i =>
    intro c member
    rcases List.mem_append.mp member with digit | last
    · have isDigit := isDigit_of_mem_toString digit
      cases found : beginsStep c with
      | false => rfl
      | true =>
        rcases Bool.or_eq_true_iff.mp found with point | bracket
        · rw [eq_of_beq point] at isDigit; cases isDigit
        · rw [eq_of_beq bracket] at isDigit; cases isDigit
    · cases List.mem_singleton.mp last
      rfl

theorem pieces_pathText (plain : ∀ step ∈ steps, step.Plain) :
    pieces (pathText steps).toList = ([],steps.map PathStep.piece) := by
  induction steps with
  | nil => rfl
  | cons step rest ih =>
    have tail := ih fun other member => plain other (List.mem_cons_of_mem step member)
    have goesOn := piece_goesOn (plain step List.mem_cons_self)
    rw [pathText,String.toList_append,text_piece,List.cons_append,pieces,pieces_append goesOn,tail]
    simp [piece_begins]

theorem readIndex_toString (i : Nat) : readIndex (toString i).toList = some i := by
  have digits : (toString i).toList = Nat.toDigits 10 i := by
    rw [Nat.toString_eq_repr,Nat.repr,String.toList_ofList]
  have decimal : (toString i).toList.all Char.isDigit = true :=
    List.all_eq_true.mpr fun c member => isDigit_of_mem_toString member
  have some_ : (toString i).toList.isEmpty = false := by
    rw [digits,List.isEmpty_eq_false_iff]
    exact Nat.toDigits_ne_nil
  rw [readIndex,some_,decimal,digits,Nat.ofDigitChars_toDigits (by decide) (by decide)]
  rfl

theorem readStep_piece (plain : step.Plain) : readStep step.piece = some step := by
  cases step with
  | field label =>
    have some_ : label.toList.isEmpty = false := by
      simpa using plain.1
    simp [PathStep.piece,readStep,some_]
  | index i =>
    have last : ((toString i).toList ++ [']']).getLast? = some ']' := by simp
    simp only [PathStep.piece,readStep,last,if_true,List.dropLast_concat,readIndex_toString,Option.map_some]

theorem readSteps_pathText (plain : ∀ step ∈ steps, step.Plain) : readSteps (pathText steps).toList = some steps := by
  have each : (steps.map PathStep.piece).mapM readStep = some steps := by
    induction steps with
    | nil => rfl
    | cons step rest ih =>
      have tail := ih fun other member => plain other (List.mem_cons_of_mem step member)
      simp [readStep_piece (plain step List.mem_cons_self),tail]
  rw [readSteps,pieces_pathText plain]
  exact each

theorem resolve_pathText (plain : ∀ step ∈ steps, step.Plain) (name : String) (j : Json) :
    resolve name (name ++ pathText steps) j = follow steps j := by
  have rest : (name ++ pathText steps).toList.drop name.toList.length = (pathText steps).toList := by simp
  have begins : name.toList.isPrefixOf (name ++ pathText steps).toList = true := by simp
  rw [resolve,if_pos begins,rest,readSteps_pathText plain,Option.bind_some]

theorem follow_cons (step : PathStep) (steps : List PathStep) (j : Json) :
    follow (step :: steps) j = (follow [step] j).bind (follow steps) := by
  cases step <;> cases j <;> simp [follow]

theorem itemsJson_eq (items : List Datum) : Datum.itemsJson items = items.map Datum.toJson := by
  induction items with
  | nil => rfl
  | cons v rest ih => rw [Datum.itemsJson,ih,List.map_cons]

theorem writtenJson_eq (fields : List (Field × Datum)) : Datum.writtenJson fields =
    (fields.filter fun p => !p.1.omits p.2.toJson).map fun p => (p.1.key,p.2.toJson) := by
  induction fields with
  | nil => rfl
  | cons first rest ih =>
    obtain ⟨field,v⟩ := first
    rw [Datum.writtenJson,ih,List.filter_cons]
    cases field.omits v.toJson <;> rfl

section Fields

variable {t : RecordType} {fields : List (Field × Datum)} {i : Nat} {field : Field}

theorem labels_eq (same : fields.map (·.1) = t.fields.map (·.field)) : fields.map (·.1.label) = t.labels := by
  have mapped := congrArg (List.map Field.label) same
  simpa [RecordType.labels,Function.comp_def] using mapped

theorem label_plain (wired : t.Wired) (same : fields.map (·.1) = t.fields.map (·.field))
    (declared : fields[i]? = some (field,v)) : PlainLabel field.label := by
  refine wired.plain _ ?_
  rw [← labels_eq same]
  exact List.mem_map.mpr ⟨(field,v),List.mem_of_getElem? declared,rfl⟩

theorem fieldType_at (same : fields.map (·.1) = t.fields.map (·.field)) (declared : fields[i]? = some (field,v)) :
    ∃ f, t.fields[i]? = some f := by
  have length : fields.length = t.fields.length := by simpa using congrArg List.length same
  exact ⟨_,List.getElem?_eq_getElem (length ▸ (List.getElem?_eq_some_iff.mp declared).1)⟩

theorem split_at (declared : fields[i]? = some (field,v)) :
    fields = fields.take i ++ (field,v) :: fields.drop (i + 1) := by
  obtain ⟨bound,found⟩ := List.getElem?_eq_some_iff.mp declared
  rw [← found,← List.drop_eq_getElem_cons bound,List.take_append_drop]

theorem named_follows (declared : fields[i]? = some (field,v)) (told : Told .named fields i field v) :
    follow [.field field.label] (Datum.record .named fields).toJson = some v.toJson := by
  obtain ⟨writes,key,last⟩ := told
  have absent : field.label ∉ (Datum.writtenJson (fields.drop (i + 1))).map (·.1) := by
    rw [writtenJson_eq,List.map_map]
    intro member
    obtain ⟨p,listed,same⟩ := List.mem_map.mp member
    obtain ⟨later,written⟩ := List.mem_filter.mp listed
    exact last p later (by simpa [Field.Writes] using written) same
  have parts : Datum.writtenJson fields =
      Datum.writtenJson (fields.take i) ++ (field.label,v.toJson) :: Datum.writtenJson (fields.drop (i + 1)) := by
    have kept : field.omits v.toJson = false := writes
    conv => lhs; rw [split_at declared]
    simp [writtenJson_eq,List.filter_append,kept,key]
  simp [follow,Datum.toJson,parts,Members.get?_ofPairs_last absent]

theorem tuple_follows (declared : fields[i]? = some (field,v)) (number : field.label = toString i)
    (told : Told .tuple fields i field v) :
    follow [.field field.label] (Datum.record .tuple fields).toJson = some v.toJson := by
  obtain ⟨several,written⟩ := told
  have bound := (List.getElem?_eq_some_iff.mp declared).1
  have kept : (fields.take (i + 1)).filter (fun p => !p.1.omits p.2.toJson) = fields.take (i + 1) :=
    List.filter_eq_self.mpr fun p member => by simpa [Field.Writes] using written p member
  have value : (Datum.writtenJson fields)[i]? = some (field.key,v.toJson) := by
    conv => lhs; rw [← List.take_append_drop (i + 1) fields]
    rw [writtenJson_eq,List.filter_append,kept,List.map_append,List.getElem?_append_left (by simp; omega)]
    simp [declared]
  have array : (Datum.record .tuple fields).toJson = .array ((Datum.writtenJson fields).map (·.2)) := by
    cases fields with
    | nil => rfl
    | cons first rest =>
      cases rest with
      | nil => exact absurd rfl several
      | cons second rest => rfl
  simp only [array,follow,number,readIndex_toString,Option.bind_some,List.getElem?_map,value,Option.map_some]

theorem field_follows (wired : t.Wired) (same : fields.map (·.1) = t.fields.map (·.field))
    (declared : fields[i]? = some (field,v)) (told : Told t.form fields i field v) :
    follow [.field field.label] (Datum.record t.form fields).toJson = some v.toJson := by
  cases form : t.form with
  | named => exact named_follows declared (form ▸ told)
  | tuple =>
    have number : field.label = toString i := by
      have found := congrArg (·[i]?) ((labels_eq same).trans (wired.placed form))
      simp only [List.getElem?_map,declared,Option.map_some] at found
      obtain ⟨k,placed,text⟩ := Option.map_eq_some_iff.mp found.symm
      obtain ⟨_,rfl⟩ := List.getElem?_eq_some_iff.mp placed
      simpa using text.symm
    exact tuple_follows declared number (form ▸ told)
  | unit =>
    rw [form] at told
    exact told.elim

theorem told_of_mirrored (wired : t.Wired) (mirrored : t.Mirrored)
    (same : fields.map (·.1) = t.fields.map (·.field)) (declared : fields[i]? = some (field,v)) :
    Told t.form fields i field v := by
  have each : ∀ p ∈ fields, p.1.key = p.1.label ∧ p.1.Writes p.2 := by
    intro p member
    have listed : p.1 ∈ t.fields.map (·.field) := by
      rw [← same]
      exact List.mem_map_of_mem member
    obtain ⟨f,known,is⟩ := List.mem_map.mp listed
    obtain ⟨key,never⟩ := mirrored.written f known
    rw [is] at key never
    exact ⟨key,by simp [Field.Writes,Field.omits,never,Omission.never]⟩
  have length : fields.length = t.fields.length := by simpa using congrArg List.length same
  cases form : t.form with
  | named =>
    obtain ⟨key,writes⟩ := each _ (List.mem_of_getElem? declared)
    refine ⟨writes,key,fun p later _ => ?_⟩
    have apart := mirrored.apart
    rw [← labels_eq same,split_at declared,List.map_append,List.map_cons] at apart
    have absent := (List.nodup_cons.mp (List.nodup_append.mp apart).2.1).1
    rw [(each p (List.mem_of_mem_drop later)).1]
    exact fun equal => absent (List.mem_map.mpr ⟨p,later,equal⟩)
  | tuple => exact ⟨length ▸ mirrored.several form,fun p member => (each p (List.mem_of_mem_take member)).2⟩
  | unit =>
    rw [wired.empty form] at same
    simp [List.map_eq_nil_iff.mp same] at declared

end Fields

theorem active_plain (wired : catalog.Wired) {s : Shape} {place : Place} {c : Call} (conforms : Conforms catalog s v)
    (active : Active mode v place c) : ∀ step ∈ c.steps, step.Plain := by
  induction active generalizing s with
  | rule declared _ _ =>
    cases conforms with
    | record known same _ =>
      exact List.forall_mem_singleton.mpr (label_plain (wired _ (List.mem_of_find?_eq_some known)) same declared)
  | dive declared _ _ _ ih =>
    cases conforms with
    | record known same inside =>
      have plain := label_plain (wired _ (List.mem_of_find?_eq_some known)) same declared
      obtain ⟨f,beside⟩ := fieldType_at same declared
      exact List.forall_mem_cons.mpr ⟨plain,ih (inside _ _ _ beside declared)⟩
  | item found _ ih =>
    cases conforms with
    | list inside => exact List.forall_mem_cons.mpr ⟨trivial,ih (inside _ (List.mem_of_getElem? found))⟩
  | optional _ ih =>
    cases conforms with
    | present inside => exact ih inside
  | nullable _ ih =>
    cases conforms with
    | valid inside => exact ih inside

theorem active_follows (wired : catalog.Wired) {s : Shape} {place : Place} {c : Call} (conforms : Conforms catalog s v)
    (active : Active mode v place c) (legible : Legible v place) : follow c.steps v.toJson = some c.value.toJson := by
  induction active generalizing s with
  | rule declared _ _ =>
    cases conforms with
    | record known same _ =>
      cases legible with
      | field found told _ =>
        cases declared.symm.trans found
        exact field_follows (wired _ (List.mem_of_find?_eq_some known)) same declared told
  | dive declared _ _ _ ih =>
    cases conforms with
    | record known same inside =>
      cases legible with
      | field found told deeper =>
        cases declared.symm.trans found
        have follows := field_follows (wired _ (List.mem_of_find?_eq_some known)) same declared told
        obtain ⟨f,beside⟩ := fieldType_at same declared
        rw [Call.under,follow_cons,follows]
        exact ih (inside _ _ _ beside declared) deeper
  | item found _ ih =>
    cases conforms with
    | list inside =>
      cases legible with
      | item there deeper =>
        cases found.symm.trans there
        rw [Call.under,follow_cons,Datum.toJson,itemsJson_eq]
        simp [follow,found,ih (inside _ (List.mem_of_getElem? found)) deeper]
  | optional _ ih =>
    cases conforms with
    | present inside =>
      cases legible with
      | optional deeper =>
        rw [Datum.toJson]
        exact ih inside deeper
      | here =>
        rw [Datum.toJson]
        exact ih inside .here
  | nullable _ ih =>
    cases conforms with
    | valid inside =>
      cases legible with
      | nullable deeper =>
        rw [Datum.toJson]
        exact ih inside deeper
      | here =>
        rw [Datum.toJson]
        exact ih inside .here

theorem legible_of_mirrored (wired : catalog.Wired) (mirrored : catalog.Mirrored) {s : Shape} {place : Place} {c : Call}
    (conforms : Conforms catalog s v) (active : Active mode v place c) : Legible v place := by
  induction active generalizing s with
  | rule declared _ _ =>
    cases conforms with
    | record known same _ =>
      have listed := List.mem_of_find?_eq_some known
      exact .field declared (told_of_mirrored (wired _ listed) (mirrored _ listed) same declared) .here
  | dive declared _ _ _ ih =>
    cases conforms with
    | record known same inside =>
      have listed := List.mem_of_find?_eq_some known
      obtain ⟨f,beside⟩ := fieldType_at same declared
      exact .field declared (told_of_mirrored (wired _ listed) (mirrored _ listed) same declared)
        (ih (inside _ _ _ beside declared))
  | item found _ ih =>
    cases conforms with
    | list inside => exact .item found (ih (inside _ (List.mem_of_getElem? found)))
  | optional _ ih =>
    cases conforms with
    | present inside => exact .optional (ih inside)
  | nullable _ ih =>
    cases conforms with
    | valid inside => exact .nullable (ih inside)

theorem error_active {name : String} {e : FieldError} (reported_ : e ∈ validateIn name v mode) :
    ∃ place c, Active mode v place c ∧ c.holds = false ∧ e = c.error name := by
  rw [validateIn,walked v mode name [],List.nil_append,reported] at reported_
  obtain ⟨s,inside,rfl⟩ := List.mem_map.mp reported_
  obtain ⟨member,fails⟩ := List.mem_filter.mp inside
  exact ⟨s.place,s.call,active_of_mem member,by simpa using fails,rfl⟩

-- Where there is something to report the value has records inside, and the name of its type is that of a record type.
theorem rootName_ne (wired : catalog.Wired) {s : Shape} {place : Place} {c : Call} (conforms : Conforms catalog s v)
    (active : Active mode v place c) : s.rootName ≠ "" := by
  induction active generalizing s with
  | rule _ _ _ | dive _ _ _ _ _ =>
    cases conforms with
    | @record name _ t known _ _ =>
      have named : t.name = name := by simpa using List.find?_some known
      rw [Shape.rootName,← named]
      exact (wired t (List.mem_of_find?_eq_some known)).named
  | item found _ ih =>
    cases conforms with
    | list inside =>
      have named := ih (inside _ (List.mem_of_getElem? found))
      exact named
  | optional _ ih =>
    cases conforms with
    | present inside =>
      have named := ih inside
      exact named
  | nullable _ ih =>
    cases conforms with
    | valid inside =>
      have named := ih inside
      exact named

-- A path is made of labels. Where the fields that it passes are told under theirs it leads to the value of the error.
theorem errors_resolve (wired : catalog.Wired) {s : Shape} (conforms : Conforms catalog s v) :
    (∀ e ∈ validateIn s.rootName v mode, ∃ place c, Active mode v place c ∧ c.holds = false ∧
      e = c.error s.rootName) ∧
    ∀ place c, Active mode v place c →
      (c.error s.rootName).field = s.rootName ++ pathText c.steps ∧
      (Legible v place → follow c.steps v.toJson = some c.value.toJson ∧
        resolve s.rootName (c.error s.rootName).field v.toJson = some (c.error s.rootName).value) ∧
      (catalog.Mirrored → Legible v place) := by
  refine ⟨fun e => error_active,fun place c active => ?_⟩
  have path : (c.error s.rootName).field = s.rootName ++ pathText c.steps :=
    renderSteps_eq (rootName_ne wired conforms active) c.steps
  refine ⟨path,fun legible => ?_,fun mirrored => legible_of_mirrored wired mirrored conforms active⟩
  have follows := active_follows wired conforms active legible
  refine ⟨follows,?_⟩
  rw [path,resolve_pathText (active_plain wired conforms active)]
  exact follows

def branch (name : String) (children : List Datum) (left : Option Datum) : Datum :=
  .record .named
    [(.plain "name" [.rule .required,.rule (.max (Samples.bound 5))],.text name),
     (.plain "children" [.dive],.list children),(.plain "left" [.dive],.optional left)]

theorem branch_conforms {name : String} {children : List Datum} {left : Option Datum}
    (below : ∀ v ∈ children, Conforms Samples.catalog (.record "Tree") v)
    (beside : Conforms Samples.catalog (.optional (.record "Tree")) (.optional left)) :
    Conforms Samples.catalog (.record "Tree") (branch name children left) := by
  refine .record (t := Samples.tree) (by decide) rfl ?_
  intro i f p field value
  match i with
  | 0 => cases field; cases value; exact .text
  | 1 => cases field; cases value; exact .list below
  | 2 => cases field; cases value; exact beside
  | _ + 3 => cases field

def crooked : Datum := branch "root" [branch "twig" [branch "" [] none] none] none

theorem samples_mirrored : Samples.catalog.Wired ∧ Samples.catalog.Mirrored := by decide +kernel

theorem crooked_resolves : Samples.catalog.Wired ∧ Conforms Samples.catalog (.record "Tree") crooked ∧
    (⟨"Tree.children[0].children[0].name","required",.string ""⟩ : FieldError) ∈ validateIn "Tree" crooked .create ∧
    resolve "Tree" "Tree.children[0].children[0].name" crooked.toJson = some (.string "") := by
  have leaf : Conforms Samples.catalog (.record "Tree") (branch "" [] none) := branch_conforms nofun .absent
  have twig : Conforms Samples.catalog (.record "Tree") (branch "twig" [branch "" [] none] none) :=
    branch_conforms (by simpa using leaf) .absent
  have conforms : Conforms Samples.catalog (.record "Tree") crooked := branch_conforms (by simpa using twig) .absent
  have failing : (⟨"Tree.children[0].children[0].name","required",.string ""⟩ : FieldError) ∈
      validateIn "Tree" crooked .create := by decide +kernel
  obtain ⟨wired,mirrored⟩ := samples_mirrored
  obtain ⟨place,c,active,_,is⟩ := (errors_resolve wired conforms).1 _ failing
  obtain ⟨_,leads,legible⟩ := (errors_resolve wired conforms).2 place c active
  have resolved := (leads (legible mirrored)).2
  rw [← is] at resolved
  exact ⟨wired,conforms,failing,resolved⟩

-- Three types of one field that are not written as they are labelled: under another key, as the field alone, and
-- without the field where it is null.
def renamed : RecordType := ⟨"Renamed",.named,[⟨⟨"in",[.rule .required],false,"out",.never⟩,.text,false⟩]⟩

def wrapped : RecordType := ⟨"Wrapped",.tuple,[⟨.plain "0" [.rule .required],.text,false⟩]⟩

def sparse : RecordType :=
  ⟨"Sparse",.named,[⟨⟨"note",[.rule .required],false,"note",.among [.null]⟩,.optional .text,false⟩]⟩

def filled (t : RecordType) (v : Datum) : Datum := .record t.form (t.fields.map fun f => (f.field,v))

theorem filled_conforms {t : RecordType} (declared : catalog.type? t.name = some t)
    (inside : ∀ f ∈ t.fields, Conforms catalog f.shape v) : Conforms catalog (.record t.name) (filled t v) := by
  refine .record declared (by simp [Function.comp_def]) ?_
  intro i f p field value
  simp only [List.getElem?_map,field,Option.map_some,Option.some.injEq] at value
  subst value
  exact inside f (List.mem_of_getElem? field)

theorem unlabelled_astray : Catalog.Wired [renamed,wrapped,sparse] ∧
    ∀ t ∈ [(renamed,Datum.text "","Renamed.in"),(wrapped,.text "","Wrapped.0"),(sparse,.optional none,"Sparse.note")],
      Conforms [renamed,wrapped,sparse] (.record t.1.name) (filled t.1 t.2.1) ∧
      validateIn t.1.name (filled t.1 t.2.1) .create = [⟨t.2.2,"required",t.2.1.toJson⟩] ∧
      resolve t.1.name t.2.2 (filled t.1 t.2.1).toJson = none := by
  refine ⟨by decide +kernel,?_⟩
  simp only [List.forall_mem_cons]
  refine ⟨⟨filled_conforms rfl ?_,by decide +kernel,by decide +kernel⟩,
    ⟨filled_conforms rfl ?_,by decide +kernel,by decide +kernel⟩,
    ⟨filled_conforms rfl ?_,by decide +kernel,by decide +kernel⟩,nofun⟩
  · exact List.forall_mem_singleton.mpr .text
  · exact List.forall_mem_singleton.mpr .text
  · exact List.forall_mem_singleton.mpr .absent

end ServiceKit.Validation
