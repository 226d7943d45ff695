import ServiceKit.Proofs.Derive.Entries
import ServiceKit.Proofs.Derive.Rules
import ServiceKit.Derive.Expansion

namespace ServiceKit.Derive

-- The entries of the attributes that give rules, in order: how many of these there are and what else stands around them
-- does not matter.
inductive Holds : List Attribute → List Entry → Prop
  | none : Holds [] []
  | other {a as es} (other : Attribute.named a "validate" = false) (later : Holds as es) : Holds (a :: as) es
  | validate {a as es here} (own : Attribute.named a "validate" = true) (read : Attribute.entries a = .ok here)
      (later : Holds as es) : Holds (a :: as) (here ++ es)

variable {as bs : List Attribute} {es : List Entry} {r : FieldRules} {f : Refusal}

theorem run_holds (holds : Holds as es) (r : FieldRules) :
    (as.filter fun a => a.named "validate").foldlM FieldRules.addAttribute r = es.foldlM FieldRules.step r := by
  induction holds generalizing r with
  | none => rfl
  | other other _ ih =>
    simp only [List.filter_cons,other,Bool.false_eq_true,if_false]
    exact ih r
  | validate own read _ ih =>
    simp only [List.filter_cons,own,if_true,List.foldlM_cons,List.foldlM_append,FieldRules.addAttribute,read]
    exact bind_congr ih

theorem ofAttributes_ok (holds : Holds as es) : FieldRules.ofAttributes as = .ok r ↔ Ruled es r := by
  rw [FieldRules.ofAttributes,run_holds holds,run_ok]

theorem ofAttributes_error (holds : Holds as es) : FieldRules.ofAttributes as = .error f ↔ FirstFault es f := by
  rw [FieldRules.ofAttributes,run_holds holds,run_error]

theorem ofAttributes_same (one : Holds as es) (other : Holds bs es) :
    FieldRules.ofAttributes as = FieldRules.ofAttributes bs := by
  rw [FieldRules.ofAttributes,run_holds one,FieldRules.ofAttributes,run_holds other]

def others (as : List Attribute) : List Attribute := as.filter fun a => !a.named "validate"

def Field.Regrouped (f g : Field) : Prop :=
  g.name = f.name ∧ others g.attributes = others f.attributes ∧ ∃ es, Holds f.attributes es ∧ Holds g.attributes es

def RecordType.Regrouped (r s : RecordType) : Prop :=
  s.name = r.name ∧ s.attributes = r.attributes ∧ s.generics = r.generics ∧
    List.Forall₂ Field.Regrouped r.fields s.fields

theorem named_apart {a : Attribute} (named : a.named "serde" = true) : a.named "validate" = false := by
  have own : (Entry.path a).name? = some "serde" := by simpa [Attribute.named,Path.named] using named
  rw [Attribute.named,Path.named,own]
  rfl

theorem setting_others (key : String) (as : List Attribute) : setting key (others as) = setting key as := by
  unfold setting others
  rw [List.filter_filter]
  congr 1
  refine List.filter_congr fun a _ => ?_
  cases named : a.named "serde" with
  | false => rfl
  | true => rw [named_apart named]; rfl

theorem block?_regrouped {f g : Field} (same : f.Regrouped g) (convention : Option String) (place : Nat) :
    Derived.block? convention g place = Derived.block? convention f place := by
  obtain ⟨name,apart,es,one,other⟩ := same
  have label : Derived.label convention g place = Derived.label convention f place := by
    unfold Derived.label
    rw [name,← setting_others "rename" g.attributes,apart,setting_others]
  unfold Derived.block?
  rw [name,label,ofAttributes_same other one]

theorem blocksOf_regrouped {fs gs : List Field} (same : List.Forall₂ Field.Regrouped fs gs) (convention : Option String)
    (place : Nat) : Derived.blocksOf convention place gs = Derived.blocksOf convention place fs := by
  induction same generalizing place with
  | nil => rfl
  | cons first _ ih => rw [Derived.blocksOf,Derived.blocksOf,block?_regrouped first,ih]

theorem ofDeclaration_regrouped {r s : RecordType} (same : r.Regrouped s) :
    Derived.ofDeclaration (.record s) = Derived.ofDeclaration (.record r) := by
  obtain ⟨name,attributes,generics,fields⟩ := same
  unfold Derived.ofDeclaration
  dsimp only
  rw [name,attributes,generics,blocksOf_regrouped fields]

-- Entries that are read one by one are read the same between commas, with or without a last one. Spread in order over any
-- number of attributes, with others in between, they give a field the rules that they ask for, in order, and let it be
-- left out iff one of them says so; or else the fault of the first entry that is refused. So the derived check of a record
-- stays as it is, or its fault does, when the entries of each field are spread otherwise.
theorem rules_regrouped :
    (∀ p body es, Entry.Listed body es → Attribute.entries (.list p body) = .ok es) ∧
    (∀ as es, Holds as es →
      (∀ r, FieldRules.ofAttributes as = .ok r ↔ Ruled es r) ∧
      (∀ f, FieldRules.ofAttributes as = .error f ↔ FirstFault es f) ∧
      ∀ bs, Holds bs es → FieldRules.ofAttributes bs = FieldRules.ofAttributes as) ∧
    ∀ r s : RecordType, r.Regrouped s → Derived.ofDeclaration (.record s) = Derived.ofDeclaration (.record r) := by
  refine ⟨fun p _ _ listed => Entry.entries_listed p listed,?_,fun _ _ same => ofDeclaration_regrouped same⟩
  intro as es holds
  exact ⟨fun _ => ofAttributes_ok holds,fun _ => ofAttributes_error holds,fun _ other => ofAttributes_same other holds⟩

namespace Shade

-- A field's entries as they are written: a number under two signs, words between a tab and blanks, and a rule that is
-- not known.
def required : Tokens := [.word "required"]
def above : Tokens := [.word "gt",.mark '=' false,.mark '-' true,.mark '-' false,.literal "5" (.number "5")]
def colours : Tokens := [.word "oneof",.mark '=' false,.literal "\" red\\tblue \"" (.text " red\tblue ")]
def optional : Tokens := [.word "skip_if_null"]
def shiny : Tokens := [.word "shiny"]

def body : Tokens :=
  required ++ .mark ',' false :: (above ++ .mark ',' false :: (colours ++ .mark ',' false :: optional))

def start : Tokens := required ++ .mark ',' false :: (above ++ .mark ',' false :: [])

def rest : Tokens := colours ++ .mark ',' false :: optional

def entries : List Entry :=
  [.bare ⟨false,["required"]⟩,.valued ⟨false,["gt"]⟩ (.minus (.minus (.number "5"))),
   .valued ⟨false,["oneof"]⟩ (.text " red\tblue "),.bare ⟨false,["skip_if_null"]⟩]

def given (body : Tokens) : Attribute := .list ⟨false,["validate"]⟩ body

def kept : Attribute := .list ⟨false,["serde"]⟩ [.word "default"]

def together : Field := ⟨some "shade",[kept,given body]⟩

def apart : Field := ⟨some "shade",[given start,kept,given [],given rest]⟩

def spoiled : List Attribute := [given (shiny ++ .mark ',' false :: []),given rest]

def record (f : Field) : RecordType := ⟨"Coat",[],⟨[],[]⟩,[f]⟩

theorem body_listed : Entry.Listed body entries := .more rfl (.more rfl (.more rfl (.last rfl)))

theorem start_listed : Entry.Listed start (entries.take 2) := .more rfl (.more rfl .none)

theorem rest_listed : Entry.Listed rest (entries.drop 2) := .more rfl (.last rfl)

theorem record_regrouped (one : Holds together.attributes entries) (other : Holds apart.attributes entries) :
    (record together).Regrouped (record apart) := ⟨rfl,rfl,rfl,.cons ⟨rfl,rfl,entries,one,other⟩ .nil⟩

end Shade

open Shade in
theorem shade_regrouped :
    (Holds together.attributes entries ∧ Holds apart.attributes entries ∧ (record together).Regrouped (record apart) ∧
      Holds spoiled (.bare ⟨false,["shiny"]⟩ :: entries.drop 2)) ∧
    FieldRules.ofAttributes apart.attributes =
      .ok ⟨[.required,.bound "gt" ⟨0x4014000000000000⟩,.oneOf ["red","blue"]],true⟩ ∧
    FieldRules.ofAttributes apart.attributes = FieldRules.ofAttributes together.attributes ∧
    FieldRules.ofAttributes spoiled = .error (.named "unknown validation rule \x60shiny\x60") ∧
    Derived.ofDeclaration (.record (record apart)) = Derived.ofDeclaration (.record (record together)) := by
  obtain ⟨commas,grouped,derived⟩ := rules_regrouped
  have one : Holds together.attributes entries := .other rfl (.validate rfl (commas _ _ _ body_listed) .none)
  have other : Holds apart.attributes entries :=
    .validate rfl (commas _ _ _ start_listed) <| .other rfl <| .validate rfl (commas _ _ _ .none) <|
    .validate rfl (commas _ _ _ rest_listed) .none
  have faulty : Holds spoiled (.bare ⟨false,["shiny"]⟩ :: entries.drop 2) :=
    .validate rfl (commas _ _ _ (.more rfl .none)) (.validate rfl (commas _ _ _ rest_listed) .none)
  have same := record_regrouped one other
  refine ⟨⟨one,other,same,faulty⟩,((grouped _ _ other).1 _).mpr ?_,(grouped _ _ one).2.2 _ other,
    ((grouped _ _ faulty).2.1 _).mpr ?_,derived _ _ same⟩
  · have five : Numeral (.minus (.minus (.number "5"))) ⟨0x4014000000000000⟩ := bound_ok.mp (by decide +kernel)
    have colours : Worded " red\tblue ".toList ["red","blue"] := words_iff.mp (by decide +kernel)
    exact ⟨[.rule .required,.rule (.bound "gt" _),.rule (.oneOf _),.skip],
      .cons (.required rfl) (.cons (.bound rfl (by decide) five) (.cons (.oneOf rfl colours) (.cons (.skip rfl) .nil))),
      rfl,by decide⟩
  · have unknown : "shiny" ∉ bareNames := by decide
    exact ⟨[],_,entries.drop 2,rfl,nofun,.bareUnknown rfl unknown⟩

end ServiceKit.Derive
