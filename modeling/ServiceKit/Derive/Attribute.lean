import ServiceKit.Derive.Syntax
import ServiceKit.Binary64.Text
import ServiceKit.Text.Blank
import ServiceKit.Text.Split

namespace ServiceKit.Derive

inductive Entry where
  | bare (p : Path)
  | list (p : Path) (body : Tokens)
  | valued (p : Path) (v : Value)
deriving Repr

namespace Entry

def path : Entry → Path
  | .bare p => p
  | .list p _ => p
  | .valued p _ => p

def value (ts : Tokens) : Reading Value :=
  match expression ts with
  | some r => .ok r
  | none => .error .form

def outerPath : Tokens → Reading Path
  | .word "unsafe" :: rest => .ok (⟨false,["unsafe"]⟩,rest)
  | ts => Derive.path ts

def read (ts : Tokens) : Reading Entry :=
  match outerPath ts with
  | .error e => .error e
  | .ok (p,.group _ body :: rest) => .ok (.list p body,rest)
  | .ok (p,.mark '=' _ :: rest) => (value rest).map fun (v,rest) => (.valued p v,rest)
  | .ok (p,rest) => .ok (.bare p,rest)

def readAll : Nat → Tokens → Except Refusal (List Entry)
  | _,[] => .ok []
  | 0,_ => .error .form
  | fuel + 1,ts => do
    let (e,rest) ← read ts
    match rest with
    | [] => return [e]
    | .mark ',' _ :: rest => return e :: (← readAll fuel rest)
    | _ => throw .form

end Entry

abbrev Attribute := Entry

namespace Attribute

def named (a : Attribute) (n : String) : Bool := (Entry.path a).named n

def entries : Attribute → Except Refusal (List Entry)
  | .list _ body => Entry.readAll (body.length + 1) body
  | _ => .error .form

def readAll : Nat → Tokens → Reading (List Attribute)
  | fuel + 1,.mark '#' _ :: ts =>
    match ts with
    | .group .bracket body :: rest =>
      match Entry.read body with
      | .error e => .error e
      | .ok (_,_ :: _) => .error .form
      | .ok (e,[]) => (readAll fuel rest).map fun (more,rest) => (e :: more,rest)
    | _ => .error .form
  | _,ts => .ok ([],ts)

end Attribute

def attributes (ts : Tokens) : Reading (List Attribute) := Attribute.readAll (ts.length + 1) ts

inductive FieldRule where
  | required
  | bound (tag : String) (b : Binary64)
  | email
  | oneOf (options : List String)
  | dive
deriving DecidableEq, Repr

def FieldRule.tag : FieldRule → String
  | .required => "required"
  | .bound tag _ => tag
  | .email => "email"
  | .oneOf _ => "oneof"
  | .dive => "dive"

@[ext]
structure FieldRules where
  rules : List FieldRule
  skipIfNull : Bool
deriving DecidableEq, Repr

def boundTags : List String := ["gt","gte","lt","lte","min","max"]

def bound : Value → Except Refusal Binary64
  | .number digits | .text digits =>
    match Binary64.readText (Text.trim digits) with
    | some x => .ok x
    | none => .error (.named "expected a number")
  | .minus v => (bound v).map Binary64.negate
  | .other => .error (.named "expected a number")

def closeWord : List Char × List String → List String
  | ([],ws) => ws
  | (w,ws) => String.ofList w :: ws

def addChar (c : Char) (ws : List Char × List String) : List Char × List String :=
  if Text.isBlank c then ([],closeWord ws) else (c :: ws.1,ws.2)

def words (s : String) : List String := closeWord (s.toList.foldr addChar ([],[]))

def options : Value → Except Refusal (List String)
  | .text s => .ok (words s)
  | _ => .error (.named "expected string literal")

def unknownRule (n : String) : Refusal := .named ("unknown validation rule \x60" ++ n ++ "\x60")

namespace FieldRules

def empty : FieldRules := ⟨[],false⟩

def add (r : FieldRules) (rule : FieldRule) : FieldRules := { r with rules := r.rules ++ [rule] }

def addBare (r : FieldRules) : String → Except Refusal FieldRules
  | "required" => .ok (r.add .required)
  | "email" => .ok (r.add .email)
  | "dive" => .ok (r.add .dive)
  | "skip_if_null" => .ok { r with skipIfNull := true }
  | n => .error (unknownRule n)

def addValued (r : FieldRules) (n : String) (v : Value) : Except Refusal FieldRules :=
  if boundTags.contains n then (bound v).map fun b => r.add (.bound n b)
  else if n = "oneof" then (options v).map fun os => r.add (.oneOf os)
  else .error (unknownRule n)

def step (r : FieldRules) : Entry → Except Refusal FieldRules
  | .bare p =>
    match p.name? with
    | some n => r.addBare n
    | none => .error expectedName
  | .valued p v =>
    match p.name? with
    | some n => r.addValued n v
    | none => .error expectedName
  | .list .. => .error (.named "expected \x60rule\x60 or \x60rule = value\x60")

def addAttribute (r : FieldRules) (a : Attribute) : Except Refusal FieldRules := do
  (← a.entries).foldlM step r

def ofAttributes (as : List Attribute) : Except Refusal FieldRules :=
  (as.filter fun a => a.named "validate").foldlM addAttribute empty

end FieldRules

def textOf? : Value → Option String
  | .text s => some s
  | _ => none

-- The name that reading goes by, where names for reading and writing are given apart.
def readingName (body : Tokens) : Option String :=
  match Entry.readAll (body.length + 1) body with
  | .error _ => none
  | .ok es => es.findSome? fun
    | .valued p v => if p.named "deserialize" then textOf? v else none
    | _ => none

def settingIn (key : String) : List Entry → Option String
  | [] => none
  | .valued p v :: rest =>
    if p.named key then
      match textOf? v with
      | some s => some s
      | none => settingIn key rest
    else settingIn key rest
  | .list p body :: rest =>
    if p.named key then (readingName body).or (settingIn key rest) else settingIn key rest
  | _ :: rest => settingIn key rest

-- What a serialisation attribute sets for a key; an attribute that does not read is passed over.
def setting (key : String) (as : List Attribute) : Option String :=
  (as.filter fun a => a.named "serde").findSome? fun a =>
    match a.entries with
    | .ok es => settingIn key es
    | .error _ => none

end ServiceKit.Derive
