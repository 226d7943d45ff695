import ServiceKit.Text.Quoted
import ServiceKit.Validation.Walk
import ServiceKit.Json.Printer

namespace ServiceKit
open Validation

inductive IntKind where
  | i32 | i64 | u8 | u16 | u32 | u64
deriving DecidableEq, Repr

def IntKind.name : IntKind → String
  | .i32 => "i32" | .i64 => "i64" | .u8 => "u8" | .u16 => "u16" | .u32 => "u32" | .u64 => "u64"

def IntKind.least : IntKind → Int
  | .i32 => -(Nat.pow 2 31 : Nat)
  | .i64 => -(Nat.pow 2 63 : Nat)
  | _ => 0

def IntKind.greatest : IntKind → Int
  | .i32 => (Nat.pow 2 31 : Nat) - 1 | .i64 => (Nat.pow 2 63 : Nat) - 1
  | .u8 => (Nat.pow 2 8 : Nat) - 1 | .u16 => (Nat.pow 2 16 : Nat) - 1 | .u32 => (Nat.pow 2 32 : Nat) - 1
  | .u64 => (Nat.pow 2 64 : Nat) - 1

def IntKind.fits (k : IntKind) (i : Int) : Bool := decide (k.least ≤ i) && decide (i ≤ k.greatest)

inductive Shape where
  | text
  | int (kind : IntKind)
  | real
  | flag
  | any
  | dictionary
  | choice (options : List String)
  | optional (inner : Shape)
  | nullable (inner : Shape)
  | list (inner : Shape)
  | record (name : String)
deriving DecidableEq, Repr, Inhabited

structure FieldType where
  field : Field
  shape : Shape
  defaulted : Bool
deriving DecidableEq, Repr

structure RecordType where
  name : String
  form : Form
  fields : List FieldType
deriving DecidableEq, Repr

abbrev Catalog := List RecordType

def Catalog.type? (c : Catalog) (name : String) : Option RecordType := c.find? fun t => t.name == name

def Shape.rootName : Shape → String
  | .record name => name
  | .optional s | .nullable s | .list s => s.rootName
  | .any => "Value"
  | .dictionary => "Map"
  | _ => "String"

def Shape.default : Shape → Datum
  | .text | .choice _ => .text ""
  | .int _ => .int 0
  | .real => .real (Binary64.zero false)
  | .flag => .flag false
  | .any | .record _ => .any .null
  | .dictionary => .dictionary []
  | .optional _ => .optional none
  | .nullable _ => .nullable none
  | .list _ => .list []

def RecordType.described (t : RecordType) : String :=
  match t.form with
  | .named => "struct " ++ t.name
  | .tuple => "tuple struct " ++ t.name
  | .unit => "unit struct " ++ t.name

def elements (n : Nat) : String := if n = 1 then "1 element" else s!"{n} elements"

def RecordType.describedLength (t : RecordType) : String := s!"{t.described} with {elements t.fields.length}"

def Shape.expects (c : Catalog) : Shape → String
  | .text | .choice _ => "a string"
  | .int k => k.name
  | .real => "f64"
  | .flag => "a boolean"
  | .any => "any valid JSON value"
  | .dictionary => "a map"
  | .optional _ | .nullable _ => "option"
  | .list _ => "a sequence"
  | .record name => match c.type? name with
    | some t => t.described
    | none => "struct " ++ name

inductive Found where
  | flag (b : Bool)
  | number (n : Number)
  | text (s : String)
  | null
  | sequence
  | map
deriving DecidableEq, Repr

def Found.words : Found → String
  | .flag b => s!"boolean `{b}`"
  | .number (.int i) => s!"integer `{i}`"
  | .number (.float x) => s!"floating point `{Binary64.Layout.json.text x}`"
  | .text s => "string " ++ Text.quote s
  | .null => "null"
  | .sequence => "sequence"
  | .map => "map"

inductive Mismatch where
  | type (found : Found) (expected : String)
  | value (found : Found) (expected : String)
  | length (n : Nat) (expected : String)
  | missing (field : String)
  | duplicate (field : String)
  | variant (name : String) (options : List String)
  | emptyInteger
  | invalidDigit
  | tooLarge
  | tooSmall
  | emptyReal
  | invalidReal
  | notBoolean
deriving DecidableEq, Repr

def oneOfWords : List String → String
  | [] => "there are no variants"
  | [a] => s!"expected `{a}`"
  | [a,b] => s!"expected `{a}` or `{b}`"
  | many => "expected one of " ++ String.intercalate ", " (many.map fun a => s!"`{a}`")

def Mismatch.message : Mismatch → String
  | .type found expected => s!"invalid type: {found.words}, expected {expected}"
  | .value found expected => s!"invalid value: {found.words}, expected {expected}"
  | .length n expected => s!"invalid length {n}, expected {expected}"
  | .missing field => s!"missing field `{field}`"
  | .duplicate field => s!"duplicate field `{field}`"
  | .variant name options => s!"unknown variant `{name}`, " ++ oneOfWords options
  | .emptyInteger => "cannot parse integer from empty string"
  | .invalidDigit => "invalid digit found in string"
  | .tooLarge => "number too large to fit in target type"
  | .tooSmall => "number too small to fit in target type"
  | .emptyReal => "cannot parse float from empty string"
  | .invalidReal => "invalid float literal"
  | .notBoolean => "provided string was not `true` or `false`"

def Shape.ofNumber (c : Catalog) (s : Shape) (n : Number) : Except Mismatch Datum :=
  match s,n with
  | .int k,.int i => if k.fits i then .ok (.int i) else .error (.value (.number n) k.name)
  | .real,n => .ok (.real n.toBinary64)
  | s,n => .error (.type (.number n) (s.expects c))

-- The fields that were given, in the order of the type; one that is missing takes its default, and an
-- optional one is absent.
def RecordType.complete (t : RecordType) (given : List (String × Datum)) : Except Mismatch Datum :=
  return .record t.form (← t.fields.mapM fun f =>
    match given.find? fun g => g.1 == f.field.label with
    | some (_,v) => .ok (f.field,v)
    | none =>
      if f.defaulted then .ok (f.field,f.shape.default)
      else match f.shape with
        | .optional _ | .nullable _ => .ok (f.field,f.shape.default)
        | _ => .error (.missing f.field.label))

def RecordType.field? (t : RecordType) (label : String) : Option FieldType :=
  t.fields.find? fun f => f.field.label == label

end ServiceKit
