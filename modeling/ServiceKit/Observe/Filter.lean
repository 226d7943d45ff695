import ServiceKit.Observe.Log
import ServiceKit.Text.Ascii
import ServiceKit.Text.Blank
import ServiceKit.Text.Split

namespace ServiceKit.Observe

-- Off is none; a threshold lets its own level and everything graver pass.
abbrev Threshold := Option Level

namespace Level

def rank : ServiceKit.Level → Nat
  | .error => 1 | .warn => 2 | .info => 3 | .debug => 4 | .trace => 5

end Level

def Threshold.admits (t : Threshold) (level : ServiceKit.Level) : Bool :=
  (t.map fun top => decide (Level.rank level ≤ Level.rank top)).getD false

def Threshold.ofNat? : Nat → Option Threshold
  | 0 => some none
  | 1 => some (some .error)
  | 2 => some (some .warn)
  | 3 => some (some .info)
  | 4 => some (some .debug)
  | 5 => some (some .trace)
  | _ => none

def unsigned? (cs : List Char) : Option Nat :=
  let digits := match cs with
    | '+' :: rest => rest
    | _ => cs
  if digits.isEmpty || !digits.all Text.isDigit then none else some (Text.digitsValue digits)

def Threshold.ofName? (name : String) : Option Threshold :=
  match Text.lowered name with
  | "" | "error" => some (some .error)
  | "warn" => some (some .warn)
  | "info" => some (some .info)
  | "debug" => some (some .debug)
  | "trace" => some (some .trace)
  | "off" => some none
  | _ => none

def Threshold.ofText? (cs : List Char) : Option Threshold :=
  ((unsigned? cs).bind Threshold.ofNat?).or (Threshold.ofName? (String.ofList cs))

structure FieldMatch where
  name : String
  value : Option String
deriving DecidableEq, Repr

structure Directive where
  target : Option String
  span : Option String
  fields : List FieldMatch
  threshold : Threshold
deriving DecidableEq, Repr

namespace Directive

def fieldMatch (cs : List Char) : FieldMatch :=
  match Text.splitAll '=' cs with
  | name :: value :: _ => ⟨String.ofList name,some (String.ofList value)⟩
  | _ => ⟨String.ofList cs,none⟩

def levelPart : List Char → Option Threshold
  | [] => some (some .trace)
  | cs => Threshold.ofText? cs

def finish (target span : Option String) (fields : List FieldMatch) : List Char → Option Directive
  | [] => some ⟨target,span,fields,some .trace⟩
  | '=' :: level => (levelPart level).map fun t => ⟨target,span,fields,t⟩
  | _ => none

def spanFields (target span : Option String) (cs : List Char) : Option Directive := do
  let (inside,rest) ← Text.splitOnce '\x7d' cs
  let parts := Text.splitAll ',' inside
  if parts.any List.isEmpty then none
  else match rest with
    | ']' :: rest => finish target span (parts.map fieldMatch) rest
    | _ => none

def spanPart (target : Option String) (cs : List Char) : Option Directive :=
  let name := cs.takeWhile fun c => c != ']' && c != '\x7b'
  let text := String.ofList name
  match cs.drop name.length with
  | ']' :: rest => finish target (some text) [] rest
  | '\x7b' :: rest => spanFields target (if text.isEmpty then none else some text) rest
  | _ => none

def mayStart (c : Char) : Bool := c == '-' || c == ':' || c == '_' || Text.isAlnum c || decide (c.toNat > 127)

def ofText? (s : String) : Option Directive :=
  match Text.trimChars s.toList with
  | [] => none
  | '[' :: rest => spanPart none rest
  | c :: cs =>
    if !mayStart c then none
    else
      let name := (c :: cs).takeWhile fun c => c != '=' && c != '['
      let target := String.ofList name
      match (c :: cs).drop name.length with
      | '[' :: rest => spanPart (some target) rest
      | '=' :: level => finish (some target) none [] ('=' :: level)
      | _ =>
        match Threshold.ofText? name with
        | some t => some ⟨none,none,[],t⟩
        | none => some ⟨some target,none,[],some .trace⟩

def isStatic (d : Directive) : Bool := d.span.isNone && d.fields.all fun f => f.value.isNone

def concerns (d : Directive) (target : String) (fields : List String) : Bool :=
  (d.target.map fun t => Text.startsWith t.toList target.toList).getD true &&
    d.fields.all fun f => fields.contains f.name

def weight (d : Directive) : Nat × Nat :=
  ((d.target.map fun t => t.utf8ByteSize + 1).getD 0,d.fields.length)

def sameScope (d e : Directive) : Bool := d.target == e.target && d.fields == e.fields

-- Later directives replace earlier ones of the same scope.
def add (ds : List Directive) (d : Directive) : List Directive :=
  if ds.any (sameScope d) then ds.map fun e => if sameScope d e then d else e else ds ++ [d]

def heavier (d e : Directive) : Bool :=
  decide (e.weight.1 < d.weight.1) || (d.weight.1 == e.weight.1 && decide (e.weight.2 ≤ d.weight.2))

end Directive

structure Filter where
  directives : List Directive
deriving DecidableEq, Repr

namespace Filter

def ofText? (s : String) : Option Filter := do
  let parts := (Text.splitAll ',' s.toList).filter fun p => !p.isEmpty
  return ⟨← parts.mapM fun p => Directive.ofText? (String.ofList p)⟩

def admits (f : Filter) (level : ServiceKit.Level) (target : String) (fields : List String) : Bool :=
  let decisive := ((f.directives.filter Directive.isStatic).foldl Directive.add []).mergeSort Directive.heavier
  match decisive.find? fun d => d.concerns target fields with
  | some d => d.threshold.admits level
  | none => false

end Filter
end ServiceKit.Observe
