import ServiceKit.Text.Ascii
import ServiceKit.Text.Blank
import ServiceKit.Text.Split
import ServiceKit.Text.Utf8

namespace ServiceKit.Import

inductive MarkupEvent where
  | opens (name : String) (attributes : List (String × String))
  | closes (name : String)
  | text (s : String)
deriving DecidableEq, Repr

namespace Markup

def codePoint? (base : Nat) (cs : List Char) : Option Char :=
  let digit (c : Char) : Option Nat :=
    if Text.isDigit c then some (Text.digitValue c)
    else if 'a' ≤ c ∧ c ≤ 'f' then some (c.toNat - 87)
    else if 'A' ≤ c ∧ c ≤ 'F' then some (c.toNat - 55)
    else none
  do
    if cs.isEmpty then none
    else
      let ds ← cs.mapM digit
      if ds.any fun d => decide (base ≤ d) then none
      else
        let n := ds.foldl (fun n d => base * n + d) 0
        if n.isValidChar && n != 0 then some (Char.ofNat n) else none

def entity? (name : List Char) : Option Char :=
  match name with
  | '#' :: 'x' :: ds => codePoint? 16 ds
  | '#' :: ds => codePoint? 10 ds
  | _ =>
    match String.ofList name with
    | "lt" => some '<'
    | "gt" => some '>'
    | "amp" => some '&'
    | "quot" => some '"'
    | "apos" => some '\''
    | _ => none

-- A text with its entities replaced; none if one is unknown.
def unescape : Nat → List Char → Option (List Char)
  | 0,_ => some []
  | _,[] => some []
  | fuel + 1,c :: cs =>
    if c = '&' then do
      let (name,rest) ← Text.splitOnce ';' cs
      let e ← entity? name
      return e :: (← unescape fuel rest)
    else return c :: (← unescape fuel cs)

def readable (cs : List Char) : Option String := (unescape (cs.length + 1) cs).map String.ofList

def localName (cs : List Char) : String :=
  match Text.splitOnce ':' cs with
  | some (_,rest) => String.ofList rest
  | none => String.ofList cs

def attributes : Nat → List Char → Option (List (String × String))
  | 0,_ => some []
  | fuel + 1,cs =>
    match Text.trimLeft cs with
    | [] => some []
    | cs => do
      let (name,rest) ← Text.splitOnce '=' cs
      match Text.trimLeft rest with
      | q :: rest =>
        if q = '"' ∨ q = '\'' then do
          let (value,rest) ← Text.splitOnce q rest
          return (String.ofList (Text.trimRight name),← readable value) :: (← attributes fuel rest)
        else none
      | [] => none

def tagEnd : Option Char → List Char → Option (List Char × List Char)
  | _,[] => none
  | some q,c :: cs => (tagEnd (if c = q then none else some q) cs).map fun (a,b) => (c :: a,b)
  | none,c :: cs =>
    if c = '>' then some ([],cs)
    else (tagEnd (if c = '"' ∨ c = '\'' then some c else none) cs).map fun (a,b) => (c :: a,b)

def after (mark : List Char) : List Char → Option (List Char)
  | [] => none
  | c :: cs => match Text.afterStart mark (c :: cs) with
    | some rest => some rest
    | none => after mark cs

def openTag (inside : List Char) : Option (List MarkupEvent) := do
  let closed := inside.getLast? == some '/'
  let inside := if closed then inside.dropLast else inside
  let name := inside.takeWhile fun c => !Text.isBlank c
  let attrs ← attributes (inside.length + 1) (inside.drop name.length)
  let name := localName name
  return .opens name attrs :: (if closed then [.closes name] else [])

def events : Nat → List Char → Option (List MarkupEvent)
  | 0,_ => none
  | _,[] => some []
  | fuel + 1,'<' :: cs =>
    match cs with
    | '?' :: rest => do events fuel (← after "?>".toList rest)
    | '!' :: '-' :: '-' :: rest => do events fuel (← after "-->".toList rest)
    | '!' :: rest => do events fuel (← after ">".toList rest)
    | '/' :: rest => do
      let (name,rest) ← tagEnd none rest
      return .closes (localName (Text.trimRight name)) :: (← events fuel rest)
    | rest => do
      let (inside,rest) ← tagEnd none rest
      return (← openTag inside) ++ (← events fuel rest)
  | fuel + 1,cs => do
    let words := cs.takeWhile (· != '<')
    return .text (← readable words) :: (← events fuel (cs.drop words.length))

def read (bs : Text.Bytes) : Option (List MarkupEvent) := do
  let s ← Text.ofUtf8? bs
  let cs := match s.toList with
    | '\ufeff' :: rest => rest
    | cs => cs
  events (cs.length + 1) cs

end Markup
end ServiceKit.Import
