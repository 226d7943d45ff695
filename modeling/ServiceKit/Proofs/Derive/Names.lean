import ServiceKit.Derive.Expansion
import ServiceKit.Proofs.Outcome
import ServiceKit.Proofs.Text.Bytes

namespace ServiceKit.Derive
open Text
variable {cs : List Char} {field : String} {key : String} {as : List Attribute}

inductive Convention where
  | lower | upper | pascal | camel | snake | screamingSnake | kebab | screamingKebab
deriving DecidableEq, Repr

namespace Convention

def word : Convention → String
  | .lower => "lowercase"
  | .upper => "UPPERCASE"
  | .pascal => "PascalCase"
  | .camel => "camelCase"
  | .snake => "snake_case"
  | .screamingSnake => "SCREAMING_SNAKE_CASE"
  | .kebab => "kebab-case"
  | .screamingKebab => "SCREAMING-KEBAB-CASE"

def scan (pending : Bool) : List Char → List Char
  | [] => []
  | c :: cs => if c = '_' then scan true cs else (if pending then upperAscii c else c) :: scan false cs

def dash (c : Char) : Char := if c = '_' then '-' else c

def apply : Convention → List Char → List Char
  | .lower,cs | .snake,cs => cs
  | .upper,cs | .screamingSnake,cs => cs.map upperAscii
  | .pascal,cs => scan true cs
  | .camel,cs => (scan true cs).modifyHead lowerAscii
  | .kebab,cs => cs.map dash
  | .screamingKebab,cs => (cs.map dash).map upperAscii

end Convention

def nameChar (c : Char) : Bool := (decide ('a' ≤ c) && decide (c ≤ 'z')) || isDigit c || c == '_'

theorem nameChar_small {c : Char} (plain : nameChar c = true) : c.toNat < 128 := by
  simp only [nameChar,isDigit,Bool.or_eq_true,Bool.and_eq_true,decide_eq_true_eq,beq_iff_eq] at plain
  rcases plain with (⟨_,most⟩ | ⟨_,most⟩) | rfl
  · exact Nat.lt_of_le_of_lt most (by decide)
  · exact Nat.lt_of_le_of_lt most (by decide)
  · decide

theorem upperChar_plain {c : Char} (ascii : c.toNat < 128) : upperChar c = [upperAscii c] := if_pos ascii

theorem lowerChar_plain {c : Char} (ascii : c.toNat < 128) : lowerChar c = [lowerAscii c] := if_pos ascii

theorem lowerAscii_plain {c : Char} (plain : nameChar c = true) : lowerAscii c = c := by
  have each : nameChar c = true → lowerAscii c = c := ascii_forall c (nameChar_small plain) (by decide)
  exact each plain

theorem upperAscii_small {c : Char} (ascii : c.toNat < 128) : (upperAscii c).toNat < 128 :=
  ascii_forall c ascii (by decide)

theorem flatMap_upper (ascii : ∀ c ∈ cs, c.toNat < 128) : cs.flatMap upperChar = cs.map upperAscii := by
  induction cs with
  | nil => rfl
  | cons c cs ih =>
    obtain ⟨first,rest⟩ := List.forall_mem_cons.mp ascii
    rw [List.flatMap_cons,List.map_cons,upperChar_plain first,ih rest]
    rfl

theorem toUpper_plain (ascii : ∀ c ∈ field.toList, c.toNat < 128) :
    toUpper field = String.ofList (field.toList.map upperAscii) := congrArg String.ofList (flatMap_upper ascii)

theorem lowerFrom_plain (passed : List Char) (plain : ∀ c ∈ cs, nameChar c = true) : lowerFrom passed cs = cs := by
  induction cs generalizing passed with
  | nil => rfl
  | cons c cs ih =>
    obtain ⟨first,rest⟩ := List.forall_mem_cons.mp plain
    have other : c ≠ capitalSigma := by
      rintro rfl
      exact absurd first (by decide)
    simp only [lowerFrom,if_neg other,lowerChar_plain (nameChar_small first),lowerAscii_plain first,ih _ rest,
      List.singleton_append]

-- The words between underscores, each with a capital, are what the scan makes of the whole: it is inside the first word
-- or before it.
theorem words_scan (ascii : ∀ c ∈ cs, c.toNat < 128) : ∃ piece more, splitAll '_' cs = piece :: more ∧
    Convention.scan false cs = piece ++ (more.map capitalized).flatten ∧
    Convention.scan true cs = capitalized piece ++ (more.map capitalized).flatten := by
  induction cs with
  | nil => exact ⟨[],[],rfl,rfl,rfl⟩
  | cons c cs ih =>
    obtain ⟨first,rest⟩ := List.forall_mem_cons.mp ascii
    obtain ⟨piece,more,split,inside,before⟩ := ih rest
    by_cases mark : c = '_'
    · refine ⟨[],piece :: more,(splitAll_cons split).trans (if_pos mark),?_,?_⟩
      · simp only [Convention.scan,if_pos mark,before,List.map_cons,List.flatten_cons,List.nil_append]
      · simp only [Convention.scan,if_pos mark,before,List.map_cons,List.flatten_cons,capitalized,List.nil_append]
    · refine ⟨c :: piece,more,(splitAll_cons split).trans (if_neg mark),?_,?_⟩
      · simp only [Convention.scan,if_neg mark,inside,Bool.false_eq_true,if_false,List.cons_append]
      · simp only [Convention.scan,if_neg mark,inside,if_true,capitalized,upperChar_plain first,List.cons_append,
          List.nil_append]

theorem pascal_eq_scan (ascii : ∀ c ∈ cs, c.toNat < 128) : pascal cs = Convention.scan true cs := by
  obtain ⟨piece,more,split,_,before⟩ := words_scan ascii
  rw [pascal,split,before]
  rfl

theorem scan_small (pending : Bool) (ascii : ∀ c ∈ cs, c.toNat < 128) :
    ∀ c ∈ Convention.scan pending cs, c.toNat < 128 := by
  induction cs generalizing pending with
  | nil => exact nofun
  | cons c cs ih =>
    obtain ⟨first,rest⟩ := List.forall_mem_cons.mp ascii
    rw [Convention.scan]
    split
    · exact ih true rest
    · refine List.forall_mem_cons.mpr ⟨?_,ih false rest⟩
      split
      · exact upperAscii_small first
      · exact first

theorem uncapitalized_plain (ascii : ∀ c ∈ cs, c.toNat < 128) : uncapitalized cs = cs.modifyHead lowerAscii := by
  cases cs with
  | nil => rfl
  | cons c cs =>
    rw [uncapitalized,lowerChar_plain (ascii c List.mem_cons_self)]
    rfl

theorem dash_small {c : Char} (ascii : c.toNat < 128) : (Convention.dash c).toNat < 128 := by
  unfold Convention.dash
  split
  · decide
  · exact ascii

theorem dashed_eq (field : String) : dashed field = String.ofList (field.toList.map Convention.dash) := rfl

theorem rename_apply (k : Convention) (plain : ∀ c ∈ field.toList, nameChar c = true) :
    rename k.word field = String.ofList (k.apply field.toList) := by
  have ascii : ∀ c ∈ field.toList, c.toNat < 128 := fun c mem => nameChar_small (plain c mem)
  cases k with
  | lower => exact congrArg String.ofList (lowerFrom_plain [] plain)
  | snake => exact String.ofList_toList.symm
  | upper | screamingSnake => exact toUpper_plain ascii
  | pascal => exact congrArg String.ofList (pascal_eq_scan ascii)
  | camel =>
    show String.ofList (uncapitalized (pascal field.toList)) = _
    rw [pascal_eq_scan ascii,uncapitalized_plain (scan_small true ascii)]
    rfl
  | kebab => exact dashed_eq field
  | screamingKebab =>
    show toUpper (dashed field) = _
    have dashes : ∀ c ∈ (dashed field).toList, c.toNat < 128 := by
      rw [dashed_eq,String.toList_ofList]
      intro c mem
      obtain ⟨d,inside,rfl⟩ := List.mem_map.mp mem
      exact dash_small (ascii d inside)
    rw [toUpper_plain dashes,dashed_eq,String.toList_ofList]
    rfl

section
variable {α β : Type} {names : α → Option (List β)} {name? : α → Option β} {xs : List α} {ns : List β}

def gather (names : α → Option (List β)) : List α → Option (List β)
  | [] => some []
  | x :: xs => (names x).bind fun ns => (gather names xs).map (ns ++ ·)

theorem findSome?_gather (agree : ∀ x ns, names x = some ns → name? x = ns.head?) (all : gather names xs = some ns) :
    xs.findSome? name? = ns.head? := by
  induction xs generalizing ns with
  | nil =>
    cases all
    rfl
  | cons x xs ih =>
    obtain ⟨first,here,rest⟩ := Option.bind_eq_some_iff.mp all
    obtain ⟨later,there,rfl⟩ := Option.map_eq_some_iff.mp rest
    rw [List.findSome?_cons,agree x first here,ih there,List.head?_append]
    cases first.head? <;> rfl

end

def Entry.apart : Entry → Option (List String)
  | .valued p (.text s) =>
    if p.named "deserialize" then some [s] else if p.named "serialize" then some [] else none
  | _ => none

def Entry.names (key : String) (e : Entry) : Option (List String) :=
  if e.path.named key then
    match e with
    | .valued _ (.text s) => some [s]
    | .list _ body => (Entry.readAll (body.length + 1) body).toOption.bind (gather Entry.apart)
    | _ => none
  else some []

def names (key : String) (as : List Attribute) : Option (List String) :=
  gather (fun a => (Attribute.entries a).toOption.bind (gather (Entry.names key))) (as.filter fun a => a.named "serde")

def Entry.name? (key : String) : Entry → Option String
  | .valued p v => if p.named key then textOf? v else none
  | .list p body => if p.named key then readingName body else none
  | .bare _ => none

theorem settingIn_eq (key : String) (es : List Entry) : settingIn key es = es.findSome? (Entry.name? key) := by
  induction es with
  | nil => rfl
  | cons e es ih =>
    cases e with
    | bare p => exact ih
    | valued p v =>
      by_cases keyed : p.named key
      · cases text : textOf? v with
        | none => simp [settingIn,Entry.name?,keyed,text,ih]
        | some s => simp [settingIn,Entry.name?,keyed,text]
      · simp [settingIn,Entry.name?,keyed,ih]
    | list p body =>
      by_cases keyed : p.named key
      · cases read : readingName body with
        | none => simp [settingIn,Entry.name?,keyed,read,ih]
        | some s => simp [settingIn,Entry.name?,keyed,read]
      · simp [settingIn,Entry.name?,keyed,ih]

theorem readingName_gather {body : Tokens} {ns : List String}
    (all : (Entry.readAll (body.length + 1) body).toOption.bind (gather Entry.apart) = some ns) :
    readingName body = ns.head? := by
  obtain ⟨es,read,given⟩ := Option.bind_eq_some_iff.mp all
  unfold readingName
  cases entries : Entry.readAll (body.length + 1) body with
  | error e => simp [entries,Except.toOption] at read
  | ok es' =>
    have same : es' = es := by simpa [entries,Except.toOption] using read
    rw [same]
    refine findSome?_gather ?_ given
    intro e ms here
    unfold Entry.apart at here
    split at here
    · next p s =>
      split at here
      · next reading =>
        cases here
        simp [reading,textOf?]
      · next other =>
        split at here
        · cases here
          simp [other]
        · cases here
    · cases here

theorem entryName_eq (key : String) (e : Entry) (ns : List String) (given : e.names key = some ns) :
    e.name? key = ns.head? := by
  unfold Entry.names at given
  split at given
  · next keyed =>
    cases e with
    | bare p => cases given
    | valued p v =>
      have here : p.named key = true := keyed
      cases v with
      | text s =>
        cases given
        simp [Entry.name?,here,textOf?]
      | number _ | minus _ | other => cases given
    | list p body =>
      have here : p.named key = true := keyed
      simpa [Entry.name?,here] using readingName_gather given
  · next other =>
    cases given
    cases e with
    | bare p => rfl
    | valued p v | list p body =>
      have there : ¬ p.named key = true := other
      simp [Entry.name?,there]

-- Of well-formed attributes the search takes the first name that is given for reading.
theorem setting_names {ns : List String} (given : names key as = some ns) : setting key as = ns.head? := by
  refine findSome?_gather ?_ given
  intro a ms here
  obtain ⟨es,read,given⟩ := Option.bind_eq_some_iff.mp here
  cases entries : Attribute.entries a with
  | error e => simp [entries,Except.toOption] at read
  | ok es' =>
    have same : es' = es := by simpa [entries,Except.toOption] using read
    show settingIn key es' = ms.head?
    rw [same,settingIn_eq]
    exact findSome?_gather (entryName_eq key) given

example : names "rename" [.list ⟨false,["serde"]⟩
    [.word "rename",.group .paren [.word "serialize",.mark '=' false,.literal "\"out\"" (.text "out")],.mark ',' false,
     .word "rename",.mark '=' false,.literal "\"in\"" (.text "in")]] = some ["in"] := rfl

open Derived
variable {convention : Option String} {f : Field} {place : Nat} {fs : List Field} {b : Block} {bs : List Block}

theorem block?_eq (made : block? convention f place = .ok (some b)) :
    b.member = f.name.getD (toString place) ∧ b.label = label convention f place := by
  obtain ⟨rules,_,made⟩ := Outcome.bind_ok.mp made
  split at made
  · split at made <;> cases made
  · split at made
    · cases made
      exact ⟨rfl,rfl⟩
    · cases made

theorem mem_blocksOf (made : blocksOf convention place fs = .ok bs) (mem : b ∈ bs) :
    ∃ i f, fs[i]? = some f ∧ b.member = f.name.getD (toString (place + i)) ∧ b.label = label convention f (place + i) := by
  induction fs generalizing place bs with
  | nil =>
    cases made
    cases mem
  | cons f fs ih =>
    obtain ⟨first,here,made⟩ := Outcome.bind_ok.mp made
    obtain ⟨later,there,made⟩ := Outcome.bind_ok.mp made
    cases made
    rcases List.mem_append.mp mem with mem | mem
    · rw [Option.mem_toList] at mem
      cases mem
      obtain ⟨member,labelled⟩ := block?_eq here
      exact ⟨0,f,rfl,member,labelled⟩
    · obtain ⟨i,f',found,member,labelled⟩ := ih there mem
      rw [Nat.add_assoc,Nat.add_comm 1 i] at member labelled
      exact ⟨i + 1,f',found,member,labelled⟩

def checked (place : Nat) (f : Field) (rules : FieldRules) : Option (String × FieldRules) :=
  if rules.rules.isEmpty then none else some (f.name.getD (toString place),rules)

theorem block?_checked {b : Option Block} (made : block? convention f place = .ok b) : ∃ rules,
    FieldRules.ofAttributes f.attributes = .ok rules ∧ b.map (fun b => (b.member,b.rules)) = checked place f rules := by
  obtain ⟨rules,own,made⟩ := Outcome.bind_ok.mp made
  refine ⟨rules,own,?_⟩
  unfold checked
  split at made
  · next none =>
    rw [if_pos none]
    split at made <;> cases made
    rfl
  · next some =>
    rw [if_neg some]
    split at made <;> cases made
    rfl

theorem blocksOf_checked (made : blocksOf convention place fs = .ok bs) : ∃ rules,
    List.Forall₂ (fun f r => FieldRules.ofAttributes f.attributes = .ok r) fs rules ∧
      bs.map (fun b => (b.member,b.rules)) = ((fs.zip rules).zipIdx place).filterMap fun x => checked x.2 x.1.1 x.1.2 := by
  induction fs generalizing place bs with
  | nil =>
    cases made
    exact ⟨[],.nil,rfl⟩
  | cons f fs ih =>
    obtain ⟨first,here,made⟩ := Outcome.bind_ok.mp made
    obtain ⟨later,there,made⟩ := Outcome.bind_ok.mp made
    cases made
    obtain ⟨rules,own,block⟩ := block?_checked here
    obtain ⟨others,each,blocks⟩ := ih there
    refine ⟨rules :: others,.cons own each,?_⟩
    rw [List.map_append,blocks,List.zip_cons_cons,List.zipIdx_cons,List.filterMap_cons,← block]
    cases first <;> rfl

-- What a field with a name is called outside: by the first name that its attributes give, or else by its own name under
-- the convention of the record, or else by its own name.
def outerName (given conventions : List String) (own : String) : String :=
  match given,conventions with
  | name :: _,_ => name
  | [],convention :: _ => rename convention own
  | [],[] => own

theorem label_names {n : String} {given conventions : List String} (named : f.name = some n)
    (field : names "rename" f.attributes = some given) (record : convention = conventions.head?) (place : Nat) :
    label convention f place = outerName given conventions (unraw n) := by
  simp only [label,named,setting_names field,record]
  cases given with
  | cons name rest => rfl
  | nil => cases conventions <;> rfl

-- The conventions name plain fields as one pass over their characters does; the fields with rules are checked by them, in
-- order, and every named field under the name that its attributes and those of its record give it for reading.
theorem blocks_named :
    (∀ (k : Convention) (field : String), (∀ c ∈ field.toList, nameChar c = true) →
      rename k.word field = String.ofList (k.apply field.toList)) ∧
    ∀ (r : RecordType) d, Derived.ofDeclaration (.record r) = .ok d →
      (∃ rules, List.Forall₂ (fun f own => FieldRules.ofAttributes f.attributes = .ok own) r.fields rules ∧
        d.blocks.map (fun b => (b.member,b.rules)) =
          (r.fields.zip rules).zipIdx.filterMap fun x => checked x.2 x.1.1 x.1.2) ∧
      ∀ b ∈ d.blocks, ∃ (i : Nat) (f : Field),
        r.fields[i]? = some f ∧ b.member = f.name.getD (toString i) ∧ ∀ n given conventions, f.name = some n →
          names "rename" f.attributes = some given → names "rename_all" r.attributes = some conventions →
          b.label = outerName given conventions (unraw n) := by
  refine ⟨fun k field plain => rename_apply k plain,?_⟩
  intro r d made
  simp only [Derived.ofDeclaration] at made
  cases blocks : blocksOf (setting "rename_all" r.attributes) 0 r.fields with
  | error e => rw [blocks] at made; cases made
  | ok bs =>
    rw [blocks] at made
    cases made
    refine ⟨blocksOf_checked blocks,?_⟩
    intro b mem
    obtain ⟨i,f,found,member,labelled⟩ := mem_blocksOf blocks mem
    rw [Nat.zero_add] at member labelled
    refine ⟨i,f,found,member,?_⟩
    intro n given conventions named field record
    rw [labelled]
    exact label_names named field (setting_names record) i

end ServiceKit.Derive
