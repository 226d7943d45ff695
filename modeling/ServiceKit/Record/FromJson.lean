import ServiceKit.Record.Shape

namespace ServiceKit.Record
open Validation

def found : Json → Found
  | .null => .null
  | .bool b => .flag b
  | .number n => .number n
  | .string s => .text s
  | .array _ => .sequence
  | .object _ => .map

def mismatch (c : Catalog) (s : Shape) (j : Json) : Except Mismatch α := .error (.type (found j) (s.expects c))

mutual
def ofJson (c : Catalog) : Nat → Shape → Json → Except Mismatch Datum
  | 0,s,j => mismatch c s j
  | fuel + 1,s,j =>
    match s,j with
    | .text,.string t => .ok (.text t)
    | .int _,.number n | .real,.number n => s.ofNumber c n
    | .flag,.bool b => .ok (.flag b)
    | .any,j => .ok (.any j)
    | .dictionary,.object ms => do
      return .dictionary (← ms.mapM fun m =>
        match m.2 with
        | .string t => .ok (m.1,t)
        | other => .error (.type (found other) "a string"))
    | .choice options,.string t =>
      if options.contains t then .ok (.text t) else .error (.variant t options)
    | .choice _,j => .error (.type (found j) "string or map")
    | .optional _,.null => .ok (.optional none)
    | .optional inner,j => do return .optional (some (← ofJson c fuel inner j))
    | .nullable _,.null => .ok (.nullable none)
    | .nullable inner,j => do return .nullable (some (← ofJson c fuel inner j))
    | .list inner,.array items => do return .list (← ofItems c fuel inner items)
    | .record name,j =>
      match c.type? name with
      | none => mismatch c s j
      | some t =>
        match t.form,t.fields,j with
        | .unit,_,.null => .ok (.record .unit [])
        | .tuple,[f],j => do return .record .tuple [(f.field,← ofJson c fuel f.shape j)]
        | .named,_,.object ms => do t.complete (← ofMembers c fuel t ms)
        | .named,fields,.array items | .tuple,fields,.array items => do
          return .record t.form (← ofFields c fuel t items.length 0 fields items)
        | _,_,j => mismatch c s j
    | s,j => mismatch c s j
def ofItems (c : Catalog) : Nat → Shape → List Json → Except Mismatch (List Datum)
  | 0,s,_ => mismatch c s .null
  | _ + 1,_,[] => .ok []
  | fuel + 1,s,j :: rest => do return (← ofJson c fuel s j) :: (← ofItems c fuel s rest)
def ofMembers (c : Catalog) : Nat → RecordType → List (String × Json) → Except Mismatch (List (String × Datum))
  | 0,t,_ => mismatch c (.record t.name) .null
  | _ + 1,_,[] => .ok []
  | fuel + 1,t,(k,j) :: rest =>
    match t.field? k with
    | some f => do return (k,← ofJson c fuel f.shape j) :: (← ofMembers c fuel t rest)
    | none => ofMembers c fuel t rest
def ofFields (c : Catalog) : Nat → RecordType → Nat → Nat → List FieldType → List Json →
    Except Mismatch (List (Field × Datum))
  | 0,t,_,_,_,_ => mismatch c (.record t.name) .null
  | _ + 1,_,_,_,[],[] => .ok []
  | _ + 1,_,total,_,[],_ :: _ => .error (.length total "fewer elements in array")
  | fuel + 1,t,total,i,f :: fs,j :: js => do
    return (f.field,← ofJson c fuel f.shape j) :: (← ofFields c fuel t total (i + 1) fs js)
  | fuel + 1,t,total,i,f :: fs,[] => do
    if f.defaulted then return (f.field,f.shape.default) :: (← ofFields c fuel t total (i + 1) fs [])
    else .error (.length i t.describedLength)
end

mutual
def weight : Json → Nat
  | .array items => weightItems items + 2
  | .object ms => weightMembers ms + 2
  | _ => 1
def weightItems : List Json → Nat
  | [] => 0
  | j :: rest => weight j + weightItems rest + 1
def weightMembers : List (String × Json) → Nat
  | [] => 0
  | (_,j) :: rest => weight j + weightMembers rest + 1
end

def fromJson (c : Catalog) (s : Shape) (j : Json) : Except Mismatch Datum :=
  ofJson c (8 * (weight j + 16)) s j

end ServiceKit.Record
