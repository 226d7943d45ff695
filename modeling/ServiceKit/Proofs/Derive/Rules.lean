import ServiceKit.Derive.Attribute
import ServiceKit.Proofs.Outcome
import Mathlib.Data.List.Forall2

namespace ServiceKit.Derive
open Outcome

def Word (w : List Char) : Prop := w ≠ [] ∧ ∀ c ∈ w, Text.isBlank c = false

-- A text cut up into its words: each is as long as it can be, and what lies outside of them is white space.
inductive Worded : List Char → List String → Prop
  | nil : Worded [] []
  | blank {c cs ws} (blank : Text.isBlank c = true) (later : Worded cs ws) : Worded (c :: cs) ws
  | word {w cs ws} (word : Word w) (ends : ∀ c ∈ cs.head?, Text.isBlank c = true) (later : Worded cs ws) :
      Worded (w ++ cs) (String.ofList w :: ws)

variable {w cs : List Char} {ws : List String}

theorem closeWord_word (word : Word w) (ws : List String) : closeWord (w,ws) = String.ofList w :: ws := by
  cases w with
  | nil => exact absurd rfl word.1
  | cons c w => rfl

theorem addChar_blank {c : Char} (blank : Text.isBlank c = true) (ws : List Char × List String) :
    addChar c ws = ([],closeWord ws) := if_pos blank

theorem addChar_word {c : Char} (solid : Text.isBlank c = false) (ws : List Char × List String) :
    addChar c ws = (c :: ws.1,ws.2) := if_neg (Bool.eq_false_iff.mp solid)

theorem foldr_word (word : ∀ c ∈ w, Text.isBlank c = false) (ws : List Char × List String) :
    w.foldr addChar ws = (w ++ ws.1,ws.2) := by
  induction w with
  | nil => rfl
  | cons c w ih =>
    obtain ⟨first,rest⟩ := List.forall_mem_cons.mp word
    rw [List.foldr_cons,ih rest,addChar_word first]
    rfl

theorem worded_close (solid : ∀ c ∈ w, Text.isBlank c = false) (ends : ∀ c ∈ cs.head?, Text.isBlank c = true)
    (later : Worded cs ws) : Worded (w ++ cs) (closeWord (w,ws)) := by
  cases w with
  | nil => exact later
  | cons c w => exact .word ⟨nofun,solid⟩ ends later

theorem foldr_worded (cs : List Char) : ∃ rest, cs = (cs.foldr addChar ([],[])).1 ++ rest ∧
    (∀ c ∈ (cs.foldr addChar ([],[])).1, Text.isBlank c = false) ∧ (∀ c ∈ rest.head?, Text.isBlank c = true) ∧
    Worded rest (cs.foldr addChar ([],[])).2 := by
  induction cs with
  | nil => exact ⟨[],rfl,nofun,nofun,.nil⟩
  | cons c cs ih =>
    obtain ⟨rest,whole,solid,ends,later⟩ := ih
    rw [List.foldr_cons]
    cases kind : Text.isBlank c with
    | true =>
      rw [addChar_blank kind]
      refine ⟨c :: cs,rfl,nofun,fun d first => Option.some.inj first ▸ kind,.blank kind ?_⟩
      have closed := worded_close solid ends later
      rwa [← whole] at closed
    | false =>
      rw [addChar_word kind]
      exact ⟨rest,congrArg (c :: ·) whole,List.forall_mem_cons.mpr ⟨kind,solid⟩,ends,later⟩

theorem Worded.close (worded : Worded cs ws) : closeWord (cs.foldr addChar ([],[])) = ws := by
  induction worded with
  | nil => rfl
  | blank blank later ih => rw [List.foldr_cons,addChar_blank blank,← ih]; rfl
  | @word w cs ws word ends later ih =>
    -- Behind a word no other one is open: white space or the end stands there.
    have state : cs.foldr addChar ([],[]) = ([],ws) := by
      cases cs with
      | nil => exact congrArg (Prod.mk []) ih
      | cons c cs =>
        rw [List.foldr_cons,addChar_blank (ends c rfl)] at ih ⊢
        exact congrArg (Prod.mk []) ih
    rw [List.foldr_append,foldr_word word.2,state,List.append_nil,closeWord_word word]

theorem words_iff {s : String} : words s = ws ↔ Worded s.toList ws := by
  constructor
  · rintro rfl
    obtain ⟨rest,whole,solid,ends,later⟩ := foldr_worded s.toList
    have closed := worded_close solid ends later
    rwa [← whole] at closed
  · exact Worded.close

inductive Numeral : Value → Binary64 → Prop
  | number {digits x} (read : Binary64.readText (Text.trim digits) = some x) : Numeral (.number digits) x
  | text {s x} (read : Binary64.readText (Text.trim s) = some x) : Numeral (.text s) x
  | minus {v x} (numeral : Numeral v x) : Numeral (.minus v) x.negate

inductive Demand where
  | rule (r : FieldRule)
  | skip
deriving DecidableEq

namespace Demand

def rule? : Demand → Option FieldRule
  | .rule r => some r
  | .skip => none

def onto (d : Demand) (r : FieldRules) : FieldRules :=
  match d with
  | .rule x => r.add x
  | .skip => { r with skipIfNull := true }

end Demand

def bareNames : List String := ["required","email","dive","skip_if_null"]

namespace Entry

inductive Asks : Entry → Demand → Prop
  | required {p} (own : p.name? = some "required") : Asks (.bare p) (.rule .required)
  | email {p} (own : p.name? = some "email") : Asks (.bare p) (.rule .email)
  | dive {p} (own : p.name? = some "dive") : Asks (.bare p) (.rule .dive)
  | skip {p} (own : p.name? = some "skip_if_null") : Asks (.bare p) .skip
  | bound {p tag v x} (own : p.name? = some tag) (known : tag ∈ boundTags) (numeral : Numeral v x) :
      Asks (.valued p v) (.rule (.bound tag x))
  | oneOf {p s ws} (own : p.name? = some "oneof") (worded : Worded s.toList ws) :
      Asks (.valued p (.text s)) (.rule (.oneOf ws))

inductive Refused : Entry → Refusal → Prop
  | list {p body} : Refused (.list p body) (.named "expected \x60rule\x60 or \x60rule = value\x60")
  | bareNameless {p} (nameless : p.name? = none) : Refused (.bare p) (.named "expected identifier")
  | valuedNameless {p v} (nameless : p.name? = none) : Refused (.valued p v) (.named "expected identifier")
  | bareUnknown {p n} (own : p.name? = some n) (unknown : n ∉ bareNames) :
      Refused (.bare p) (.named ("unknown validation rule \x60" ++ n ++ "\x60"))
  | valuedUnknown {p n v} (own : p.name? = some n) (unknown : n ∉ boundTags) (other : n ≠ "oneof") :
      Refused (.valued p v) (.named ("unknown validation rule \x60" ++ n ++ "\x60"))
  | noNumeral {p tag v} (own : p.name? = some tag) (known : tag ∈ boundTags) (none : ∀ x, ¬ Numeral v x) :
      Refused (.valued p v) (.named "expected a number")
  | noText {p v} (own : p.name? = some "oneof") (none : ∀ s, v ≠ .text s) :
      Refused (.valued p v) (.named "expected string literal")

end Entry

variable {e : Entry} {d : Demand} {f : Refusal} {v : Value} {x : Binary64} {p : Path} {n : String} {r : FieldRules}
  {es before later : List Entry} {ds : List Demand}

theorem numeral_number {digits : String} : Numeral (.number digits) x ↔ Binary64.readText (Text.trim digits) = some x :=
  ⟨fun | .number read => read,.number⟩

theorem numeral_text {s : String} : Numeral (.text s) x ↔ Binary64.readText (Text.trim s) = some x :=
  ⟨fun | .text read => read,.text⟩

theorem bound_ok : bound v = .ok x ↔ Numeral v x := by
  induction v generalizing x with
  | number digits =>
    rw [numeral_number,bound]
    cases Binary64.readText (Text.trim digits) <;> simp
  | text s =>
    rw [numeral_text,bound]
    cases Binary64.readText (Text.trim s) <;> simp
  | minus v ih =>
    rw [bound,map_ok]
    constructor
    · rintro ⟨y,inner,rfl⟩
      exact .minus (ih.mp inner)
    · rintro ⟨numeral⟩
      exact ⟨_,ih.mpr ‹_›,rfl⟩
  | other => exact ⟨nofun,nofun⟩

theorem bound_error (failed : bound v = .error f) : f = .named "expected a number" := by
  induction v with
  | number digits | text digits =>
    unfold bound at failed
    split at failed
    · cases failed
    · cases failed
      rfl
  | minus v ih => exact ih (map_error.mp failed)
  | other =>
    cases failed
    rfl

namespace FieldRules

theorem step_bare (own : p.name? = some n) : step r (.bare p) = r.addBare n := by rw [step,own]

theorem step_valued (own : p.name? = some n) : step r (.valued p v) = r.addValued n v := by rw [step,own]

theorem addValued_bound (known : n ∈ boundTags) :
    r.addValued n v = (bound v).map fun b => r.add (.bound n b) := if_pos (List.contains_iff_mem.mpr known)

theorem addValued_oneOf : r.addValued "oneof" v = (options v).map fun os => r.add (.oneOf os) := by
  rw [addValued,if_neg (by decide),if_pos rfl]

theorem addValued_unknown (unknown : n ∉ boundTags) (other : n ≠ "oneof") :
    r.addValued n v = .error (unknownRule n) := by
  rw [addValued,if_neg (by simpa using unknown),if_neg other]

theorem addBare_unknown (unknown : n ∉ bareNames) : r.addBare n = .error (unknownRule n) := by
  unfold addBare
  split
  case h_5 => rfl
  all_goals exact absurd (by decide) unknown

theorem step_asks (asks : e.Asks d) : step r e = .ok (d.onto r) := by
  cases asks with
  | required own | email own | dive own | skip own => exact step_bare own
  | bound own known numeral =>
    rw [step_valued own,addValued_bound known,bound_ok.mpr numeral]
    rfl
  | oneOf own worded =>
    rw [step_valued own,addValued_oneOf,options,words_iff.mpr worded]
    rfl

theorem step_refused (refused : e.Refused f) : step r e = .error f := by
  cases refused with
  | list => rfl
  | bareNameless nameless | valuedNameless nameless =>
    rw [step,nameless]
    rfl
  | bareUnknown own unknown => exact (step_bare own).trans (addBare_unknown unknown)
  | valuedUnknown own unknown other => exact (step_valued own).trans (addValued_unknown unknown other)
  | @noNumeral p tag v own known none =>
    rw [step_valued own,addValued_bound known]
    cases read : bound v with
    | ok x => exact absurd (bound_ok.mp read) (none x)
    | error f => rw [bound_error read]; rfl
  | @noText p v own none =>
    rw [step_valued own,addValued_oneOf]
    cases v with
    | text s => exact absurd rfl (none s)
    | number _ | minus _ | other => rfl

end FieldRules

theorem Entry.asks_or_refused (e : Entry) : (∃ d, e.Asks d) ∨ ∃ f, e.Refused f := by
  cases e with
  | list p body => exact .inr ⟨_,.list⟩
  | bare p =>
    cases own : p.name? with
    | none => exact .inr ⟨_,.bareNameless own⟩
    | some n =>
      by_cases known : n ∈ bareNames
      · simp only [bareNames,List.mem_cons,List.not_mem_nil,or_false] at known
        rcases known with rfl | rfl | rfl | rfl
        · exact .inl ⟨_,.required own⟩
        · exact .inl ⟨_,.email own⟩
        · exact .inl ⟨_,.dive own⟩
        · exact .inl ⟨_,.skip own⟩
      · exact .inr ⟨_,.bareUnknown own known⟩
  | valued p v =>
    cases own : p.name? with
    | none => exact .inr ⟨_,.valuedNameless own⟩
    | some n =>
      by_cases known : n ∈ boundTags
      · by_cases numeral : ∃ x, Numeral v x
        · exact .inl ⟨_,.bound own known numeral.choose_spec⟩
        · exact .inr ⟨_,.noNumeral own known (not_exists.mp numeral)⟩
      · by_cases other : n = "oneof"
        · subst other
          cases v with
          | text s => exact .inl ⟨_,.oneOf own (words_iff.mp rfl)⟩
          | number _ | minus _ | other => exact .inr ⟨_,.noText own nofun⟩
        · exact .inr ⟨_,.valuedUnknown own known other⟩

-- The rules that are asked for, in order, and whether the field may be left out, which any entry may ask for.
def Ruled (es : List Entry) (r : FieldRules) : Prop :=
  ∃ ds, List.Forall₂ Entry.Asks es ds ∧ r.rules = ds.filterMap Demand.rule? ∧ (r.skipIfNull = true ↔ .skip ∈ ds)

def FirstFault (es : List Entry) (f : Refusal) : Prop :=
  ∃ before e later, es = before ++ e :: later ∧ (∀ b ∈ before, ∃ d, b.Asks d) ∧ e.Refused f

theorem onto_rules (ds : List Demand) (r : FieldRules) :
    (ds.foldl (fun r d => d.onto r) r).rules = r.rules ++ ds.filterMap Demand.rule? := by
  induction ds generalizing r with
  | nil => simp
  | cons d ds ih =>
    rw [List.foldl_cons,ih]
    cases d with
    | rule x => simp [Demand.onto,Demand.rule?,FieldRules.add]
    | skip => rfl

theorem onto_skip (ds : List Demand) (r : FieldRules) :
    (ds.foldl (fun r d => d.onto r) r).skipIfNull = true ↔ r.skipIfNull = true ∨ .skip ∈ ds := by
  induction ds generalizing r with
  | nil => simp
  | cons d ds ih =>
    rw [List.foldl_cons,ih]
    cases d with
    | rule x => simp [Demand.onto,FieldRules.add]
    | skip => simp [Demand.onto]

theorem run_asked (asked : List.Forall₂ Entry.Asks es ds) (r : FieldRules) :
    es.foldlM FieldRules.step r = .ok (ds.foldl (fun r d => d.onto r) r) := by
  induction asked generalizing r with
  | nil => rfl
  | cons asks _ ih =>
    rw [List.foldlM_cons,FieldRules.step_asks asks]
    exact ih _

theorem run_refused (asked : ∀ b ∈ before, ∃ d, b.Asks d) (refused : e.Refused f) (r : FieldRules) :
    (before ++ e :: later).foldlM FieldRules.step r = .error f := by
  induction before generalizing r with
  | nil =>
    rw [List.nil_append,List.foldlM_cons,FieldRules.step_refused refused]
    rfl
  | cons b before ih =>
    obtain ⟨⟨d,asks⟩,others⟩ := List.forall_mem_cons.mp asked
    rw [List.cons_append,List.foldlM_cons,FieldRules.step_asks asks]
    exact ih others _

theorem asked_or_refused (es : List Entry) : (∃ ds, List.Forall₂ Entry.Asks es ds) ∨ ∃ f, FirstFault es f := by
  induction es with
  | nil => exact .inl ⟨[],.nil⟩
  | cons e es ih =>
    rcases e.asks_or_refused with ⟨d,asks⟩ | ⟨f,refused⟩
    · rcases ih with ⟨ds,asked⟩ | ⟨f,before,b,later,rfl,asked,refused⟩
      · exact .inl ⟨d :: ds,.cons asks asked⟩
      · exact .inr ⟨f,e :: before,b,later,rfl,List.forall_mem_cons.mpr ⟨⟨d,asks⟩,asked⟩,refused⟩
    · exact .inr ⟨f,[],e,es,rfl,nofun,refused⟩

theorem run_fault (fault : FirstFault es f) (r : FieldRules) : es.foldlM FieldRules.step r = .error f := by
  obtain ⟨before,e,later,rfl,asked,refused⟩ := fault
  exact run_refused asked refused r

theorem run_ok : es.foldlM FieldRules.step .empty = .ok r ↔ Ruled es r := by
  constructor
  · intro ran
    rcases asked_or_refused es with ⟨ds,asked⟩ | ⟨f,fault⟩
    · rw [run_asked asked] at ran
      cases ran
      exact ⟨ds,asked,onto_rules ds .empty,(onto_skip ds .empty).trans (or_iff_right Bool.false_ne_true)⟩
    · rw [run_fault fault] at ran
      cases ran
  · rintro ⟨ds,asked,rules,skip⟩
    rw [run_asked asked]
    have both := (onto_skip ds .empty).trans ((or_iff_right Bool.false_ne_true).trans skip.symm)
    exact congrArg Except.ok (FieldRules.ext ((onto_rules ds .empty).trans rules.symm) (Bool.eq_iff_iff.mpr both))

theorem run_error : es.foldlM FieldRules.step .empty = .error f ↔ FirstFault es f := by
  refine ⟨fun ran => ?_,fun fault => run_fault fault _⟩
  rcases asked_or_refused es with ⟨ds,asked⟩ | ⟨f',fault⟩
  · rw [run_asked asked] at ran
    cases ran
  · rw [run_fault fault] at ran
    cases ran
    exact fault

end ServiceKit.Derive
