import ServiceKit.Text.Ascii
import ServiceKit.Text.Split

namespace ServiceKit.Net

structure HostV4 where
  octets : List Nat
deriving DecidableEq, Repr

structure HostV6 where
  groups : List Nat
deriving DecidableEq, Repr

inductive Host where
  | v4 (h : HostV4)
  | v6 (h : HostV6)
deriving DecidableEq, Repr

structure Address where
  host : Host
  scope : Nat
  port : Nat
deriving DecidableEq, Repr

def HostV4.text (h : HostV4) : String := String.intercalate "." (h.octets.map toString)

def hex (n : Nat) : String := String.ofList (Nat.toDigits 16 n)

def hexGroups (gs : List Nat) : String := String.intercalate ":" (gs.map hex)

def zeros (gs : List Nat) : Nat := (gs.takeWhile (· == 0)).length

-- Place and length of the first among the longest runs of zero groups.
def longestZeros : Nat → List Nat → Nat × Nat
  | _,[] => (0,0)
  | i,g :: gs =>
    let rest := longestZeros (i + 1) gs
    if zeros (g :: gs) ≥ rest.2 ∧ zeros (g :: gs) > 0 then (i,zeros (g :: gs)) else rest

def HostV6.text (h : HostV6) : String :=
  match h.groups with
  | [0,0,0,0,0,0xffff,a,b] =>
    "::ffff:" ++ HostV4.text ⟨[a / 256,a % 256,b / 256,b % 256]⟩
  | gs =>
    let (place,length) := longestZeros 0 gs
    if length > 1 then hexGroups (gs.take place) ++ "::" ++ hexGroups (gs.drop (place + length))
    else hexGroups gs

def Host.text : Host → String
  | .v4 h => h.text
  | .v6 h => h.text

def Address.text (a : Address) : String :=
  match a.host with
  | .v4 h => h.text ++ ":" ++ toString a.port
  | .v6 h =>
    "[" ++ h.text ++ (if a.scope = 0 then "" else "%" ++ toString a.scope) ++ "]:" ++ toString a.port

abbrev Rest := List Char

def octet : Rest → Option (Nat × Rest)
  | cs =>
    let digits := cs.takeWhile Text.isDigit
    let value := Text.digitsValue digits
    if digits.isEmpty || digits.length > 3 || value > 255 || (digits.length > 1 && digits.head? == some '0') then none
    else some (value,cs.drop digits.length)

def expect (c : Char) : Rest → Option Rest
  | d :: rest => if c = d then some rest else none
  | [] => none

def hostV4 (cs : Rest) : Option (HostV4 × Rest) := do
  let (a,cs) ← octet cs
  let (b,cs) ← octet (← expect '.' cs)
  let (c,cs) ← octet (← expect '.' cs)
  let (d,cs) ← octet (← expect '.' cs)
  some (⟨[a,b,c,d]⟩,cs)

def group (cs : Rest) : Option (Nat × Rest) :=
  let digits := cs.takeWhile fun c => (Text.hexValue c).isSome
  if digits.isEmpty || digits.length > 4 then none
  else some (digits.foldl (fun n c => 16 * n + (Text.hexValue c).getD 0) 0,cs.drop digits.length)

def afterColon (first : Bool) (cs : Rest) : Option Rest := if first then some cs else expect ':' cs

-- Groups up to a limit, and whether the last two were written as a host of version 4.
def groups : Nat → Bool → Rest → List Nat × Bool × Rest
  | 0,_,cs => ([],false,cs)
  | limit + 1,first,cs =>
    match afterColon first cs with
    | none => ([],false,cs)
    | some after =>
      match (if limit > 0 then hostV4 after else none) with
      | some (⟨[a,b,c,d]⟩,rest) => ([256 * a + b,256 * c + d],true,rest)
      | _ =>
        match group after with
        | none => ([],false,cs)
        | some (g,rest) =>
          let (gs,mapped,rest) := groups limit false rest
          (g :: gs,mapped,rest)

def hostV6 (cs : Rest) : Option (HostV6 × Rest) :=
  match groups 8 true cs with
  | (head,mapped,rest) =>
    if head.length = 8 then some (⟨head⟩,rest)
    else if mapped then none
    else do
      let rest ← expect ':' (← expect ':' rest)
      let (back,_,rest) := groups (8 - (head.length + 1)) true rest
      some (⟨head ++ List.replicate (8 - head.length - back.length) 0 ++ back⟩,rest)

def number (limit : Nat) (cs : Rest) : Option (Nat × Rest) :=
  let digits := cs.takeWhile Text.isDigit
  if digits.isEmpty || Text.digitsValue digits > limit then none
  else some (Text.digitsValue digits,cs.drop digits.length)

def Host.ofText? (s : String) : Option Host :=
  match hostV4 s.toList with
  | some (h,[]) => some (.v4 h)
  | _ => match hostV6 s.toList with
    | some (h,[]) => some (.v6 h)
    | _ => none

def portAfter (cs : Rest) : Option Nat := do
  let (port,rest) ← number 65535 (← expect ':' cs)
  if rest.isEmpty then some port else none

def scopeOf : Rest → Option (Nat × Rest)
  | '%' :: cs => number 4294967295 cs
  | cs => some (0,cs)

def Address.ofText? (s : String) : Option Address :=
  match hostV4 s.toList with
  | some (h,rest) => (portAfter rest).map fun port => ⟨.v4 h,0,port⟩
  | none => do
    let (h,rest) ← hostV6 (← expect '[' s.toList)
    let (scope,rest) ← scopeOf rest
    let port ← portAfter (← expect ']' rest)
    some ⟨.v6 h,scope,port⟩

end ServiceKit.Net
