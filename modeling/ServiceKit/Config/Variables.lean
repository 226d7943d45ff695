import ServiceKit.Config.Setting

namespace ServiceKit.Config
open Observe (LogFormat)

def flag? (s : String) : Option Bool :=
  let word := Text.lowered (Text.trim s)
  if ["true","1","yes","on"].contains word then some true
  else if ["false","0","no","off"].contains word then some false
  else none

def number? (most : Nat) (s : String) : Option Nat :=
  (Observe.unsigned? (Text.trimChars s.toList)).bind fun n => if n ≤ most then some n else none

def optionalText (s : String) : Option String :=
  if (Text.trim s).isEmpty then none else some (Text.trim s)

namespace Kind

def ofText? : (k : Kind) → String → Option k.Value
  | .text,s => some s
  | .number most,s => number? most s
  | .flag,s => flag? s
  | .optional,s => some (optionalText s)
  | .format,s => (LogFormat.ofText s).toOption

def expected : Kind → String
  | .number _ => "expected integer"
  | .flag => "expected boolean"
  | .format => "expected 'json' or 'pretty'"
  | .text | .optional => "expected text"

end Kind

abbrev Variables := List (String × String)

namespace Variables

def insert (name value : String) : Variables → Variables
  | [] => [(name,value)]
  | (n,v) :: rest =>
    if n = name then (name,value) :: rest
    else if name < n then (name,value) :: (n,v) :: rest
    else (n,v) :: insert name value rest

def sorted (vs : Variables) : Variables := vs.foldl (fun acc v => insert v.1 v.2 acc) []

end Variables

def setVariable (c : Config) (v : String × String) : Except ConfigError Config :=
  match Key.ofVariable? v.1 with
  | none => .ok c
  | some k =>
    match k.kind.ofText? v.2 with
    | none => .error (.badVariable v.1 k.kind.expected)
    | some value => .ok (c.set k value)

def loadUnvalidated (base : Config) (vs : Variables) : Except ConfigError Config :=
  (Variables.sorted vs).foldlM setVariable base

def load (base : Config) (vs : Variables) : Except ConfigError Config := do
  let c ← loadUnvalidated base vs
  c.validate
  return c

end ServiceKit.Config
