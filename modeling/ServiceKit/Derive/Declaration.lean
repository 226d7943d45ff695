import ServiceKit.Derive.Attribute

namespace ServiceKit.Derive

inductive ParameterKind where
  | lifetime | type | constant
deriving DecidableEq, Repr

-- A parameter of a type: its name, and what is written before and after it where it is declared. The
-- last part tells whether a comma follows it.
structure Parameter where
  kind : ParameterKind
  name : Tokens
  before : Tokens
  bounds : Tokens
  comma : Bool

structure Generics where
  parameters : List Parameter
  conditions : Tokens

def upTo (stops : List Char) : Nat → Tokens → Tokens × Tokens
  | _,[] => ([],[])
  | depth,t :: rest =>
    let skip (depth : Nat) : Tokens × Tokens :=
      let (part,rest) := upTo stops depth rest
      (t :: part,rest)
    match t,rest with
    | .mark '-' true,.mark '>' j :: rest =>
      let (part,rest) := upTo stops depth rest
      (t :: .mark '>' j :: part,rest)
    | .mark c _,_ =>
      if depth = 0 ∧ stops.contains c then ([],t :: rest)
      else if c = '<' then skip (depth + 1)
      else if c = '>' then skip (depth - 1)
      else skip depth
    | _,_ => skip depth

def attributeTokens : Tokens → Tokens × Tokens
  | .mark '#' j :: .group d body :: rest =>
    let (part,rest) := attributeTokens rest
    (.mark '#' j :: .group d body :: part,rest)
  | ts => ([],ts)

def parameter (ts : Tokens) : Option (Parameter × Tokens) :=
  let (attrs,ts) := attributeTokens ts
  let bounded (ts : Tokens) : Tokens × Tokens :=
    match ts with
    | .mark ':' _ :: rest => upTo [',','=','>'] 0 rest
    | rest => ([],rest)
  let afterDefault (ts : Tokens) : Tokens :=
    match ts with
    | .mark '=' _ :: rest => (upTo [',','>'] 0 rest).2
    | rest => rest
  let finish (kind : ParameterKind) (name before bounds ts : Tokens) : Option (Parameter × Tokens) :=
    match ts with
    | .mark ',' _ :: rest => some (⟨kind,name,before,bounds,true⟩,rest)
    | .mark '>' _ :: _ => some (⟨kind,name,before,bounds,false⟩,ts)
    | _ => none
  match ts with
  | .mark '\'' j :: .word w :: rest =>
    let (bounds,rest) := bounded rest
    finish .lifetime [.mark '\'' j,.word w] attrs bounds rest
  | .word "const" :: .word w :: rest =>
    if keywords.contains w then none
    else
      let (bounds,rest) := bounded rest
      if bounds.isEmpty then none
      else finish .constant [.word w] (attrs ++ [.word "const"]) bounds (afterDefault rest)
  | .word w :: rest =>
    if keywords.contains w then none
    else
      let (bounds,rest) := bounded rest
      finish .type [.word w] attrs bounds (afterDefault rest)
  | _ => none

def parameters : Nat → Tokens → Option (List Parameter × Tokens)
  | 0,_ => none
  | fuel + 1,ts =>
    match ts with
    | .mark '>' _ :: rest => some ([],rest)
    | ts => (parameter ts).bind fun (p,rest) =>
      (parameters fuel rest).map fun (ps,rest) => (p :: ps,rest)

def generics (ts : Tokens) : Reading (List Parameter) :=
  match ts with
  | .mark '<' _ :: rest =>
    match parameters (rest.length + 1) rest with
    | some r => .ok r
    | none => .error .form
  | rest => .ok ([],rest)

def isBodyStart : Token → Bool
  | .group .brace _ => true
  | .mark ';' _ => true
  | _ => false

def conditions : Tokens → Tokens × Tokens
  | .word "where" :: rest => (rest.takeWhile fun t => !isBodyStart t,rest.dropWhile fun t => !isBodyStart t)
  | rest => ([],rest)

def conditionsRead : Nat → Tokens → Bool
  | _,[] => true
  | 0,_ => false
  | fuel + 1,ts =>
    match typeEnd (ts.length + 1) ts with
    | some (.mark ':' _ :: rest) => conditionsRead fuel ((upTo [','] 0 rest).2.drop 1)
    | _ => false

def wellConditioned (ts : Tokens) : Bool := conditionsRead (ts.length + 1) ts

structure Field where
  name : Option String
  attributes : List Attribute

def visibility : Tokens → Tokens
  | .word "pub" :: .group .paren (.word "crate" :: _) :: rest | .word "pub" :: .group .paren (.word "super" :: _) :: rest
  | .word "pub" :: .group .paren (.word "self" :: _) :: rest | .word "pub" :: .group .paren (.word "in" :: _) :: rest
  | .word "pub" :: rest => rest
  | rest => rest

def typed (ts : Tokens) : Reading Unit :=
  match typeEnd (ts.length + 1) ts with
  | some rest => .ok ((),rest)
  | none => .error .form

def namedField (ts : Tokens) : Reading Field :=
  match attributes ts with
  | .error e => .error e
  | .ok (as,rest) =>
    match name (visibility rest) with
    | .error e => .error e
    | .ok (n,.mark ':' _ :: rest) => (typed rest).map fun (_,rest) => (⟨some n,as⟩,rest)
    | .ok _ => .error .form

def placedField (ts : Tokens) : Reading Field :=
  match attributes ts with
  | .error e => .error e
  | .ok (as,rest) => (typed (visibility rest)).map fun (_,rest) => (⟨none,as⟩,rest)

def separated (part : Tokens → Reading α) : Nat → Tokens → Except Refusal (List α)
  | _,[] => .ok []
  | 0,_ => .error .form
  | fuel + 1,ts =>
    match part ts with
    | .error e => .error e
    | .ok (x,[]) => .ok [x]
    | .ok (x,.mark ',' _ :: rest) => (separated part fuel rest).map (x :: ·)
    | .ok _ => .error .form

def fieldsOf (part : Tokens → Reading Field) (body : Tokens) : Except Refusal (List Field) :=
  separated part (body.length + 1) body

structure RecordType where
  name : String
  attributes : List Attribute
  generics : Generics
  fields : List Field

inductive Declaration where
  | record (r : RecordType)
  | other

def variant (ts : Tokens) : Reading Unit :=
  match attributes ts with
  | .error e => .error e
  | .ok (_,rest) =>
    match name (visibility rest) with
    | .error e => .error e
    | .ok (_,rest) =>
      let body : Except Refusal Tokens := match rest with
        | .group .brace body :: rest => (fieldsOf namedField body).map fun _ => rest
        | .group .paren body :: rest => (fieldsOf placedField body).map fun _ => rest
        | rest => .ok rest
      match body with
      | .error e => .error e
      | .ok (.mark '=' _ :: rest) => (Entry.value rest).map fun (_,rest) => ((),rest)
      | .ok rest => .ok ((),rest)

def recordBody (ts : Tokens) : Except Refusal (Tokens × List Field) :=
  match conditions ts,ts with
  | (where_,[.group .brace body]),_ => (fieldsOf namedField body).map fun fs => (where_,fs)
  | (where_,[.mark ';' _]),_ => .ok (where_,[])
  | _,.group .paren body :: rest =>
    match fieldsOf placedField body,conditions rest with
    | .error e,_ => .error e
    | .ok fs,(where_,[.mark ';' _]) => .ok (where_,fs)
    | .ok _,_ => .error .form
  | _,_ => .error .form

def headed (ts : Tokens) : Reading (String × List Parameter) :=
  match name ts with
  | .error e => .error e
  | .ok (n,rest) => (generics rest).map fun (ps,rest) => ((n,ps),rest)

def otherBody (read : Tokens → Except Refusal Unit) (ts : Tokens) : Except Refusal Declaration :=
  match headed ts with
  | .error e => .error e
  | .ok (_,rest) =>
    match conditions rest with
    | (where_,[.group .brace body]) =>
      if wellConditioned where_ then (read body).map fun _ => .other else .error .form
    | _ => .error .form

def declaration (ts : Tokens) : Except Refusal Declaration :=
  match attributes ts with
  | .error e => .error e
  | .ok (as,rest) =>
    match visibility rest with
    | .word "struct" :: rest =>
      match headed rest with
      | .error e => .error e
      | .ok ((n,ps),rest) =>
        match recordBody rest with
        | .error e => .error e
        | .ok (where_,fs) => if wellConditioned where_ then .ok (.record ⟨n,as,⟨ps,where_⟩,fs⟩) else .error .form
    | .word "enum" :: rest => otherBody (fun body => (separated variant (body.length + 1) body).map fun _ => ()) rest
    | .word "union" :: rest => otherBody (fun body => (fieldsOf namedField body).map fun _ => ()) rest
    | _ => .error .form

end ServiceKit.Derive
