import ServiceKit.Derive.Token

namespace ServiceKit.Derive

abbrev Tokens := List Token
abbrev Extent := Tokens → Option Tokens

namespace Extent

def empty : Extent := some

def absent : Extent := fun _ => none

def andThen (f g : Extent) : Extent := fun ts => (f ts).bind g

def either (first yes no : Extent) : Extent := fun ts =>
  match first ts with
  | some rest => yes rest
  | none => no ts

def maybe (f : Extent) : Extent := either f empty empty

def many (first more : Extent) : Nat → Extent
  | 0 => absent
  | fuel + 1 => either first (andThen more (many first more fuel)) empty

def firstOf (fs : List Extent) : Extent := fs.foldr (fun f rest => either f empty rest) absent

def one (is : Token → Bool) : Extent
  | t :: rest => if is t then some rest else none
  | [] => none

def before (is : Token → Bool) : Extent
  | t :: rest => if is t then some (t :: rest) else none
  | [] => none

def past (is : Token → Bool) : Extent
  | t :: rest => if is t then some rest else past is rest
  | [] => none

def marks : List Char → Extent
  | [],ts => some ts
  | c :: cs,.mark d joint :: rest => if c = d ∧ (joint = true ∨ cs = []) then marks cs rest else none
  | _ :: _,_ => none

def ended : Extent
  | [] => some []
  | .mark ',' joint :: rest => some (.mark ',' joint :: rest)
  | _ => none

-- The arguments up to the closing angle bracket; `depth` counts the open ones.
def angles : Nat → Extent
  | _,[] => none
  | depth,.mark '-' true :: .mark '>' _ :: rest => angles depth rest
  | depth,.mark '<' _ :: rest => angles (depth + 1) rest
  | depth,.mark '>' _ :: rest => if depth ≤ 1 then some rest else angles (depth - 1) rest
  | depth,_ :: rest => angles depth rest

end Extent
end ServiceKit.Derive
