import ServiceKit.Derive.Declaration
import ServiceKit.Derive.Naming
import ServiceKit.Derive.Lexer
import ServiceKit.Text.Quoted

namespace ServiceKit.Derive

-- What is checked of one field: where it is, under which name it fails, by which rules, and whether
-- an update may leave it out.
structure Block where
  member : String
  label : String
  rules : FieldRules
deriving DecidableEq, Repr

structure Derived where
  name : String
  generics : Generics
  blocks : List Block

namespace Derived

def unraw (n : String) : String :=
  match n.toList with
  | 'r' :: '#' :: rest => String.ofList rest
  | _ => n

def label (convention : Option String) (f : Field) (place : Nat) : String :=
  match f.name with
  | none => toString place
  | some n => (setting "rename" f.attributes).getD (convention.elim (unraw n) fun c => rename c (unraw n))

def isFiniteRule : FieldRule → Bool
  | .bound _ b => b.isFinite
  | _ => true

-- The block of a field; none if it has no rules. A bound must be finite to be written.
def block? (convention : Option String) (f : Field) (place : Nat) : Except Refusal (Option Block) := do
  let rules ← FieldRules.ofAttributes f.attributes
  if rules.rules.isEmpty then
    if rules.skipIfNull then throw (.named "\x60skip_if_null\x60 needs at least one other rule") else return none
  else if rules.rules.all isFiniteRule then
    return some ⟨f.name.getD (toString place),label convention f place,rules⟩
  else throw (.panic "assertion failed: f.is_finite()")

def blocksOf (convention : Option String) : Nat → List Field → Except Refusal (List Block)
  | _,[] => .ok []
  | place,f :: rest => do
    let b ← block? convention f place
    return b.toList ++ (← blocksOf convention (place + 1) rest)

def ofDeclaration : Declaration → Except Refusal Derived
  | .other => .error (.named "Validate can only be derived for structs")
  | .record r => (blocksOf (setting "rename_all" r.attributes) 0 r.fields).map fun bs => ⟨r.name,r.generics,bs⟩

def spaced (parts : List String) : String := String.intercalate " " (parts.filter fun p => !p.isEmpty)

def rooted (names : List String) : String := spaced (names.flatMap fun n => ["::",n])

def core (names : List String) : String := rooted ("trellis_core" :: "validate" :: names)

def rulesFunction (n : String) : String := core ["rules",n]

def literalChar (c : Char) : List Char := if c = '\'' then [c] else Text.showChar c

def textLiteral (s : String) : String := String.ofList ('"' :: (s.toList.flatMap literalChar ++ ['"']))

def numberLiteral (b : Binary64) : String :=
  (if b.isNegative then "- " else "") ++ Binary64.Layout.plain.text b.abs ++ "f64"

def predicate : FieldRule → String
  | .bound tag b => rulesFunction tag ++ " (__value , " ++ numberLiteral b ++ ")"
  | .oneOf os => rulesFunction "oneof" ++ " (__value , & [" ++ String.intercalate " , " (os.map textLiteral) ++ "])"
  | r => rulesFunction r.tag ++ " (__value)"

def check : FieldRule → String
  | .dive => core ["Validate","validate_fields"] ++ " (__value , & __field , __mode , __errors) ;"
  | r => "if ! " ++ predicate r ++ " \x7b __errors . push (" ++ core ["FieldError","new"] ++ " (__field . clone () , " ++
      textLiteral r.tag ++ " , " ++ rulesFunction "field_value" ++ " (__value) ,)) ; \x7d"

def blockText (b : Block) : String :=
  let checks := "let __field = " ++ rulesFunction "join" ++ " (__path , " ++ textLiteral b.label ++ ") ; " ++
    String.intercalate " " (b.rules.rules.map check)
  let guarded := if b.rules.skipIfNull then
      "if ! (__mode . is_update () && " ++ rulesFunction "is_null" ++ " (__value)) \x7b " ++ checks ++ " \x7d"
    else checks
  "\x7b let __value = & self . " ++ b.member ++ " ; " ++ guarded ++ " \x7d"

def declared (p : Parameter) : Tokens :=
  p.before ++ p.name ++ (if p.bounds.isEmpty then [] else .mark ':' false :: p.bounds)

def angled (part : Parameter → Tokens) (ps : List Parameter) : Tokens :=
  if ps.isEmpty then []
  else
    let lifetimes := ps.filter fun p => p.kind == .lifetime
    let others := ps.filter fun p => p.kind != .lifetime
    let written (p : Parameter) : Tokens := part p ++ (if p.comma then [.mark ',' false] else [])
    let rec rest (ended : Bool) : List Parameter → Tokens
      | [] => []
      | p :: more => (if ended then [] else [.mark ',' false]) ++ written p ++ rest true more
    .mark '<' false :: (lifetimes.flatMap written ++
      rest ((lifetimes.getLast?.map (·.comma)).getD true) others ++ [.mark '>' false])

def tokensText (ts : Tokens) : String := Token.printAll (Token.settleAll false ts)

def functionText (path mode errors body : String) : String :=
  spaced ["fn validate_fields (& self ,",path,": & str ,",mode,":",core ["ValidationMode"],",",errors,": & mut",
    core ["ValidationErrors"],",) \x7b",body,"\x7d"]

def text (d : Derived) : String :=
  spaced ["impl",tokensText (angled declared d.generics.parameters),core ["Validate"],"for",d.name,
    tokensText (angled (·.name) d.generics.parameters),
    if d.generics.conditions.isEmpty then "" else "where " ++ tokensText d.generics.conditions,
    "\x7b const NAME : & 'static str =",textLiteral d.name,";",
    if d.blocks.isEmpty then functionText "_" "_" "_" ""
    else functionText "__path" "__mode" "__errors" (spaced (d.blocks.map blockText)),"\x7d"]

end Derived

def derive (source : String) : Except Refusal String := do
  let some ts := tokensOf? source | throw .form
  return (← Derived.ofDeclaration (← declaration ts)).text

def attributesOf (source : String) : Except Refusal (List Attribute) := do
  let some ts := tokensOf? source | throw .form
  match ← attributes ts with
  | (as,[]) => return as
  | _ => throw .form

end ServiceKit.Derive
