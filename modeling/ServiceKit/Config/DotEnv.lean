import ServiceKit.Text.Ascii
import ServiceKit.Text.Blank

namespace ServiceKit.Config.DotEnv

inductive Mode where
  | complete | escape | strong | strongEscape | weak | weakEscape | blank
deriving DecidableEq, Repr

def opening (c : Char) : Mode :=
  if c = '\\' then .escape else if c = '"' then .weak else if c = '\'' then .strong else .complete

def Mode.next : Mode → Char → Mode
  | .blank,c => opening c
  | .escape,_ => .complete
  | .complete,c => if Text.isBlank c && c != '\n' && c != '\r' then .blank else opening c
  | .weak,c => if c = '\\' then .weakEscape else if c = '"' then .complete else .weak
  | .weakEscape,_ => .weak
  | .strong,c => if c = '\\' then .strongEscape else if c = '\'' then .complete else .strong
  | .strongEscape,_ => .strong

-- The mode at the end of a physical line, or the part of the line before a comment.
def scan : Mode → List Char → Mode ⊕ List Char
  | m,[] => .inl m
  | m,c :: cs =>
    if m = .blank ∧ c = '#' then .inr []
    else match scan (m.next c) cs with
      | .inl end_ => .inl end_
      | .inr before => .inr (c :: before)

def physical (cs : List Char) : List (List Char) :=
  match cs with
  | [] => []
  | c :: rest =>
    if c = '\n' then [c] :: physical rest
    else match physical rest with
      | [] => [[c]]
      | line :: lines => (c :: line) :: lines

def chompEnd (cs : List Char) : List Char :=
  match cs.reverse with
  | '\n' :: '\r' :: rest => rest.reverse
  | '\n' :: rest => rest.reverse
  | _ => cs

def isComment (cs : List Char) : Bool := (Text.trimLeft cs).head? == some '#'

def logical (before : List Char) (m : Mode) : List (List Char) → List (Option (List Char))
  | [] => if m = .complete then [] else [none]
  | line :: lines =>
    if isComment (before ++ line) then some [] :: logical [] .complete lines
    else match scan m line with
      | .inr kept => some (before ++ kept) :: logical [] .complete lines
      | .inl m =>
        if m = .complete then some (chompEnd (before ++ line)) :: logical [] .complete lines
        else logical (before ++ line) m lines

abbrev Lookup := String → Option String

inductive Substitution where
  | none
  | block (name : List Char)
  | braces (name : List Char)
deriving DecidableEq, Repr

structure ValueState where
  strong : Bool
  weak : Bool
  escaped : Bool
  ended : Bool
  substitution : Substitution
  out : List Char
deriving DecidableEq, Repr

namespace ValueState

def start : ValueState := ⟨false,false,false,false,.none,[]⟩

def push (s : ValueState) (c : Char) : ValueState := { s with out := c :: s.out }

def substitute (lookup : Lookup) (s : ValueState) (name : List Char) : ValueState :=
  { s with substitution := .none,out := ((lookup (String.ofList name)).getD "").toList.reverse ++ s.out }

def isNameChar (c : Char) : Bool := Text.isAlnum c || (decide (c.toNat > 127) && !Text.isBlank c)

def escape (s : ValueState) (c : Char) : Option ValueState :=
  let s := { s with escaped := false }
  if ['\\','\'','"','$',' '].contains c then some (s.push c)
  else if c = 'n' then some (s.push '\n')
  else none

def plain (s : ValueState) (c : Char) : ValueState :=
  if c = '$' then { s with substitution := .block [] }
  else if s.weak then
    if c = '"' then { s with weak := false }
    else if c = '\\' then { s with escaped := true }
    else s.push c
  else if c = '\'' then { s with strong := true }
  else if c = '"' then { s with weak := true }
  else if c = '\\' then { s with escaped := true }
  else if c = ' ' ∨ c = '\t' then { s with ended := true }
  else s.push c

def inName (lookup : Lookup) (s : ValueState) (c : Char) : ValueState :=
  match s.substitution with
  | .none => s
  | .block name =>
    if isNameChar c then { s with substitution := .block (name ++ [c]) }
    else if c = '\x7b' ∧ name = [] then { s with substitution := .braces [] }
    else
      let s := s.substitute lookup name
      if c = '$' then { s with substitution := .block [] } else s.push c
  | .braces name =>
    if isNameChar c then { s with substitution := .braces (name ++ [c]) }
    else if c = '\x7d' then s.substitute lookup name
    else { s with substitution := .braces (name ++ [c]) }

def finish (lookup : Lookup) (s : ValueState) : Option (List Char) :=
  match s.substitution with
  | .braces _ => none
  | .block name => if s.strong || s.weak then none else some (s.substitute lookup name).out.reverse
  | .none => if s.strong || s.weak then none else some (s.substitute lookup []).out.reverse

def run (lookup : Lookup) (s : ValueState) : List Char → Option (List Char)
  | [] => s.finish lookup
  | c :: cs =>
    if s.ended then
      if c = ' ' ∨ c = '\t' then run lookup s cs
      else if c = '#' then s.finish lookup
      else none
    else if s.escaped then
      match s.escape c with
      | none => none
      | some s => run lookup s cs
    else if s.strong then run lookup (if c = '\'' then { s with strong := false } else s.push c) cs
    else if s.substitution ≠ .none then run lookup (s.inName lookup c) cs
    else run lookup (s.plain c) cs

end ValueState

def isKeyStart (c : Char) : Bool := (Text.isAlnum c && !Text.isDigit c) || c == '_'
def isKeyChar (c : Char) : Bool := Text.isAlnum c || c == '_' || c == '.'

def key (cs : List Char) : Option (String × List Char) :=
  match cs with
  | [] => none
  | c :: _ =>
    if isKeyStart c then
      let name := cs.takeWhile isKeyChar
      some (String.ofList name,Text.trimLeft (cs.drop name.length))
    else none

def equals : List Char → Option (List Char)
  | '=' :: cs => some (Text.trimLeft cs)
  | _ => none

-- A leading `export` is a mark of its own unless it is itself assigned to.
def assigned (cs : List Char) : Option (String × List Char) := do
  let (name,rest) ← key cs
  if name = "export" then
    match equals rest with
    | some value => some (name,value)
    | none => do
      let (name,rest) ← key rest
      some (name,← equals rest)
  else some (name,← equals rest)

def assignment (lookup : Lookup) (line : List Char) : Option (Option (String × String)) :=
  match Text.trimLeft (Text.trimRight line) with
  | [] => some none
  | '#' :: _ => some none
  | cs => do
    let (name,value) ← assigned cs
    if value.isEmpty || value.head? == some '#' then some (some (name,""))
    else some (some (name,String.ofList (← ValueState.start.run lookup value)))

def find (vs : List (String × String)) (name : String) : Option String := (vs.find? fun v => v.1 == name).map (·.2)

def apply (env : List (String × String)) (seen : List (String × String)) :
    List (Option (List Char)) → Option (List (String × String))
  | [] => some env
  | none :: _ => none
  | some line :: lines =>
    match assignment (fun name => (find env name).or (find seen name)) line with
    | none => none
    | some none => apply env seen lines
    | some (some (name,value)) =>
      apply (if (find env name).isSome then env else env ++ [(name,value)]) ((name,value) :: seen) lines

def load (env : List (String × String)) (file : String) : Option (List (String × String)) :=
  let cs := match file.toList with
    | '\ufeff' :: rest => rest
    | cs => cs
  apply env [] (logical [] .complete (physical cs))

end ServiceKit.Config.DotEnv
