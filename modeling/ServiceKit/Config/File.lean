import ServiceKit.Config.Document
import ServiceKit.Config.Variables

namespace ServiceKit.Config
open Observe (LogFormat)

def formatOf? : String → Option LogFormat
  | "json" => some .json
  | "pretty" => some .pretty
  | _ => none

def Kind.ofDocument? : (k : Kind) → Document → Option k.Value
  | .text,.text s => some s
  | .optional,.text s => some (some s)
  | .flag,.flag b => some b
  | .number most,.integer i => if 0 ≤ i ∧ i.toNat ≤ most then some i.toNat else none
  | .format,.text s => formatOf? s
  | .format,.table _ [(name,.table _ [])] => formatOf? name
  | _,_ => none

def setEntry (s : String) (c : Config) (e : String × Document) : Option Config := do
  let k ← Key.ofEntry? s e.1
  return c.set k (← k.kind.ofDocument? e.2)

def setListed (c : Config) (p : Key × Document) : Option Config := do
  return c.set p.1 (← p.1.kind.ofDocument? p.2)

def setSection (c : Config) (e : String × Document) : Option Config :=
  if Key.sections.contains e.1 then
    match e.2 with
    | .table _ entries => entries.foldlM (setEntry e.1) c
    | .array items | .tables items => ((Key.ofSection e.1).zip items).foldlM setListed c
    | _ => none
  else none

def ofFile (s : String) : Except ConfigError Config :=
  match Document.read s with
  | none => .error (.file "not a TOML document")
  | some entries =>
    match entries.foldlM setSection defaults with
    | none => .error (.file "not a configuration")
    | some c => .ok c

end ServiceKit.Config
