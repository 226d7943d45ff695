import ServiceKit.Validation.Rule

namespace ServiceKit.Validation

inductive Check where
  | rule (r : Rule)
  | dive
deriving DecidableEq, Repr

-- Which values of a field its record is written without, by their JSON.
inductive Omission where
  | always
  | among (values : List Json)
deriving DecidableEq, Repr

def Omission.never : Omission := .among []

-- Errors call a field by its label, as whoever sends a record does; its record is written with it under its key.
structure Field where
  label : String
  checks : List Check
  skipIfNull : Bool
  key : String
  omission : Omission
deriving DecidableEq, Repr

def Field.plain (label : String) (checks : List Check) : Field := ⟨label,checks,false,label,.never⟩

def Field.omits (field : Field) (j : Json) : Bool :=
  match field.omission with
  | .always => true
  | .among values => decide (j ∈ values)

inductive Form where
  | named
  | tuple
  | unit
deriving DecidableEq, Repr

inductive Datum where
  | text (s : String)
  | int (i : Int)
  | real (x : Binary64)
  | flag (b : Bool)
  | list (items : List Datum)
  | optional (value : Option Datum)
  | nullable (value : Option Datum)
  | any (j : Json)
  | dictionary (entries : List (String × String))
  | record (form : Form) (fields : List (Field × Datum))
deriving Repr, Inhabited

namespace Datum

def inspect : Datum → Inspection
  | .text s => .ofText s
  | .int i => .ofInt i
  | .real x => .ofNumber x
  | .flag _ => .ofFlag
  | .list items => .ofSize items.length
  | .optional none | .nullable none => .absent
  | .optional (some v) | .nullable (some v) => v.inspect.wrapped
  | .any j => .ofJson j
  | .dictionary _ | .record .. => .ofFlag

mutual
def toJson : Datum → Json
  | .text s => .string s
  | .int i => .int i
  | .real x => .float x
  | .flag b => .bool b
  | .list items => .array (itemsJson items)
  | .optional none | .nullable none => .null
  | .optional (some v) | .nullable (some v) => v.toJson
  | .any j => j
  | .dictionary entries => .object (Members.ofPairs (entries.map fun e => (e.1,.string e.2)))
  | .record .named fields => .object (Members.ofPairs (writtenJson fields))
  | .record .tuple [(_,v)] => v.toJson
  | .record .tuple fields => .array ((writtenJson fields).map (·.2))
  | .record .unit _ => .null
def itemsJson : List Datum → List Json
  | [] => []
  | v :: rest => v.toJson :: itemsJson rest
def writtenJson : List (Field × Datum) → List (String × Json)
  | [] => []
  | (field,v) :: rest =>
    if field.omits v.toJson then writtenJson rest else (field.key,v.toJson) :: writtenJson rest
end

end Datum
end ServiceKit.Validation
