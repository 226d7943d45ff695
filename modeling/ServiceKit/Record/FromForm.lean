import ServiceKit.Form.Urlencoded
import ServiceKit.Record.Shape

namespace ServiceKit.Record
open Validation

-- An optional sign and digits, read from the left: the first fault in the text counts.
def readInt (k : IntKind) (s : String) : Except Mismatch Int :=
  match s.toList with
  | [] => .error .emptyInteger
  | ['+'] | ['-'] => .error .invalidDigit
  | '+' :: ds => digits false 0 ds
  | '-' :: ds => if k.least < 0 then digits true 0 ds else .error .invalidDigit
  | ds => digits false 0 ds
where
  digits (negative : Bool) (n : Nat) : List Char → Except Mismatch Int
    | [] => .ok (if negative then -n else n)
    | d :: ds =>
      if Text.isDigit d then
        let m := 10 * n + Text.digitValue d
        let i : Int := if negative then -m else m
        if k.fits i then digits negative m ds
        else .error (if negative then .tooSmall else .tooLarge)
      else .error .invalidDigit

def readReal (s : String) : Except Mismatch Binary64 :=
  if s.isEmpty then .error .emptyReal
  else match Binary64.readText s with
    | some x => .ok x
    | none => .error .invalidReal

def ofPart (c : Catalog) (text : String) : Shape → Except Mismatch Datum
  | .text => .ok (.text text)
  | .int k => do return .int (← readInt k text)
  | .real => do return .real (← readReal text)
  | .flag =>
    if text = "true" then .ok (.flag true)
    else if text = "false" then .ok (.flag false)
    else .error .notBoolean
  | .any => .ok (.any (.string text))
  | .choice options => if options.contains text then .ok (.text text) else .error (.variant text options)
  | .optional inner => do return .optional (some (← ofPart c text inner))
  | .nullable inner => do return .nullable (some (← ofPart c text inner))
  | s => .error (.type (.text text) (s.expects c))

def ofNamed (c : Catalog) (t : RecordType) :
    List (String × String) → List (String × Datum) → Except Mismatch (List (String × Datum))
  | [],given => .ok given
  | (k,v) :: rest,given =>
    match t.field? k with
    | none => ofNamed c t rest given
    | some f =>
      if given.any fun g => g.1 == k then .error (.duplicate k)
      else do
        let d ← ofPart c v f.shape
        ofNamed c t rest (given ++ [(k,d)])

def ofParts (c : Catalog) (t : RecordType) (i : Nat) :
    List FieldType → List String → Except Mismatch (List (Field × Datum) × List String)
  | [],parts => .ok ([],parts)
  | f :: fs,p :: parts => do
    let v ← ofPart c p f.shape
    let (rest,left) ← ofParts c t (i + 1) fs parts
    return ((f.field,v) :: rest,left)
  | f :: fs,[] => do
    if f.defaulted then
      let (rest,left) ← ofParts c t (i + 1) fs []
      return ((f.field,f.shape.default) :: rest,left)
    else .error (.length i t.describedLength)

def ofPair (c : Catalog) (t : RecordType) (p : String × String) : Except Mismatch Datum := do
  let (fields,left) ← ofParts c t 0 t.fields [p.1,p.2]
  if left.isEmpty then return .record t.form fields
  else .error (.length 2 (elements (2 - left.length) ++ " in sequence"))

def ofPairs (c : Catalog) (pairs : List (String × String)) : Shape → Except Mismatch Datum
  | .any => .ok (.any (.object (Members.ofPairs (pairs.map fun p => (p.1,.string p.2)))))
  | .dictionary =>
    let members := Members.ofPairs (pairs.map fun p => (p.1,.string p.2))
    .ok (.dictionary (members.map fun m => (m.1,m.2.text?.getD "")))
  | .list (.record name) =>
    match c.type? name with
    | some t => do return .list (← pairs.mapM (ofPair c t))
    | none => .error (.type .map "a sequence")
  | .record name =>
    match c.type? name with
    | some t =>
      match t.form with
      | .named => do t.complete (← ofNamed c t pairs [])
      | _ => .error (.type .map t.described)
    | none => .error (.type .map name)
  | s => .error (.type .map (s.expects c))

end ServiceKit.Record
