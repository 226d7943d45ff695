import ServiceKit.Http.Token
import ServiceKit.Text.Split

namespace ServiceKit.Http

structure MediaType where
  essence : String
  params : List (String × String)
  text : String
deriving DecidableEq, Repr

namespace MediaType

-- A parameter's value in the source: how it reads, how it is written, and what follows the parameter.
structure Value where
  value : List Char
  written : List Char
  rest : List Char

def quotedChar (c : Char) : Bool := decide (31 < c.toNat) && c.toNat != 127

-- A value in quotes. The first character counts even if it is a quote.
def quotedValue : Bool → List Char → Option (List Char × List Char)
  | _,[] => none
  | first,c :: rest =>
    if c = '"' ∧ ¬first then some ([],rest)
    else if quotedChar c then (quotedValue false rest).map fun (v,r) => (c :: v,r)
    else none

def afterQuoted : List Char → Option (List Char × List Char)
  | [] => some ([],[])
  | ';' :: rest => some ([';'],rest)
  | ' ' :: rest => (afterQuoted rest).map fun (w,r) => (' ' :: w,r)
  | _ => none

def readValue (cs : List Char) : Option Value :=
  match cs with
  | '"' :: rest => do
    let (v,rest) ← quotedValue true rest
    let (w,rest) ← afterQuoted rest
    return ⟨v,w,rest⟩
  | _ =>
    let v := cs.takeWhile isTokenChar
    match cs.dropWhile isTokenChar with
    | [] => some ⟨v,[],[]⟩
    | ';' :: rest => if v.isEmpty then none else some ⟨v,[';'],rest⟩
    | _ => none

structure Param where
  blanks : List Char
  name : List Char
  value : List Char
  quoted : Bool
  after : List Char

def readParams : Nat → List Char → Option (List Param × List Char)
  | 0,_ => none
  | fuel + 1,cs =>
    let blanks := cs.takeWhile (· == ' ')
    match cs.dropWhile (· == ' ') with
    | [] => some ([],blanks)
    | cs =>
      let name := cs.takeWhile isTokenChar
      match cs.dropWhile isTokenChar with
      | '=' :: rest =>
        if name.isEmpty then none
        else do
          let v ← readValue rest
          let (more,left) ← readParams fuel v.rest
          return (⟨blanks,name,v.value,rest.head? == some '"',v.written⟩ :: more,left)
      | _ => none

def lower (cs : List Char) : List Char := cs.map Text.lowerAscii

def Param.normal (p : Param) : Param :=
  let name := lower p.name
  { p with name := name,value := if name = "charset".toList then lower p.value else p.value }

def Param.text (p : Param) : List Char :=
  let quote : List Char := if p.quoted then ['"'] else []
  p.blanks ++ p.name ++ '=' :: (quote ++ p.value ++ quote ++ p.after)

def parse (s : String) : Option MediaType :=
  if s = "*/*" then some ⟨"*/*",[],"*/*"⟩
  else
    let cs := s.toList
    let top := cs.takeWhile isTokenChar
    match cs.dropWhile isTokenChar with
    | '/' :: rest =>
      if top.isEmpty then none
      else
        let sub := rest.takeWhile isTokenChar
        let essence := lower (top ++ '/' :: sub)
        match rest.dropWhile isTokenChar with
        | [] => some ⟨String.ofList essence,[],String.ofList essence⟩
        | ';' :: rest =>
          if sub.isEmpty then none
          else do
            let (params,left) ← readParams (rest.length + 1) rest
            if params.isEmpty then return ⟨String.ofList essence,[],String.ofList essence⟩
            else
              let params := params.map Param.normal
              return ⟨String.ofList essence,
                params.map fun p => (String.ofList p.name,String.ofList p.value),
                String.ofList (essence ++ ';' :: (params.flatMap Param.text ++ left))⟩
        | _ => none
    | _ => none

def param? (m : MediaType) (name : String) : Option String := (m.params.find? fun p => p.1 == name).map (·.2)

def subtype (m : MediaType) : String :=
  let sub := ((m.essence.toList.dropWhile (· != '/')).drop 1)
  match sub.reverse.dropWhile (· != '+') with
  | [] => String.ofList sub
  | [_] => String.ofList sub
  | _ :: before => String.ofList before.reverse

def type (m : MediaType) : String := String.ofList (m.essence.toList.takeWhile (· != '/'))

end MediaType
end ServiceKit.Http
