import ServiceKit.Json.Reader
import ServiceKit.Record.Shape

namespace ServiceKit.Record
open Json (Reader)
open Json.Reader Validation

def fail (m : Mismatch) : Reader α := Json.Reader.data m.message

def lift (r : Except Mismatch α) : Reader α :=
  match r with
  | .ok a => pure a
  | .error m => fail m

def unexpected (expected : String) : Reader α := do
  match ← peek with
  | some 110 => eat; word (bytesOf "ull"); fail (.type .null expected)
  | some 116 => eat; word (bytesOf "rue"); fail (.type (.flag true) expected)
  | some 102 => eat; word (bytesOf "alse"); fail (.type (.flag false) expected)
  | some 45 => eat; fail (.type (.number (← unsigned false)) expected)
  | some 34 => eat; fail (.type (.text (← stringBody)) expected)
  | some 91 => fail (.type .sequence expected)
  | some 123 => fail (.type .map expected)
  | some b => if isDigitByte b then fail (.type (.number (← unsigned true)) expected) else ahead .expectedValue
  | none => ahead .expectedValue

def number (c : Catalog) (s : Shape) : Reader Datum := placed do
  match ← blanks with
  | none => ahead .endInValue
  | some 45 => do eat; lift (s.ofNumber c (← unsigned false))
  | some b => if isDigitByte b then do lift (s.ofNumber c (← unsigned true)) else unexpected (s.expects c)

def text (expected : String) : Reader String := placed do
  match ← blanks with
  | none => ahead .endInValue
  | some 34 => eat; stringBody
  | some _ => unexpected expected

def flag : Reader Datum := placed do
  match ← blanks with
  | none => ahead .endInValue
  | some 116 => eat; word (bytesOf "rue"); return .flag true
  | some 102 => eat; word (bytesOf "alse"); return .flag false
  | some _ => unexpected "a boolean"

def variant (options : List String) : Reader Datum := do
  match ← blanks with
  | none => ahead .endInValue
  | some 34 => placed do
    eat
    let name ← stringBody
    if options.contains name then return .text name else fail (.variant name options)
  | some 123 =>
    eat
    match ← blanks with
    | some 34 => pure ()
    | _ => ahead .expectedValue
    let name ← key
    if !options.contains name then placed (fail (.variant name options))
    colon
    match ← blanks with
    | some 110 => eat; word (bytesOf "ull")
    | none => ahead .endInValue
    | some _ => placed (unexpected "unit")
    match ← blanks with
    | some 125 => eat; return .text name
    | some _ => here .expectedValue
    | none => here .endInObject
  | some _ => ahead .expectedValue

def entries : Nat → Bool → Reader (List (String × String))
  | 0,_ => ahead .endInValue
  | fuel + 1,first => do
    if ← moreMembers first then
      let k ← key
      colon
      let v ← text "a string"
      return (k,v) :: (← entries fuel false)
    else return []

def dictionary (fuel depth : Nat) : Reader Datum := placed do
  match ← blanks with
  | none => ahead .endInValue
  | some 123 =>
    if depth ≤ 1 then ahead .tooDeep
    else
      eat
      let pairs ← andThen (entries fuel true) endObject
      let members := Members.ofPairs (pairs.map fun e => (e.1,.string e.2))
      return .dictionary (members.map fun m => (m.1,m.2.text?.getD ""))
  | some _ => unexpected "a map"

mutual
def decode (c : Catalog) : Nat → Nat → Shape → Reader Datum
  | 0,_,_ => ahead .endInValue
  | fuel + 1,depth,s =>
    match s with
    | .text => do return .text (← text "a string")
    | .int _ | .real => number c s
    | .flag => flag
    | .any => do return .any (← value fuel depth)
    | .dictionary => dictionary fuel depth
    | .choice options => variant options
    | .optional inner => do
      match ← blanks with
      | some 110 => eat; word (bytesOf "ull"); return .optional none
      | _ => return .optional (some (← decode c fuel depth inner))
    | .nullable inner => do
      match ← blanks with
      | some 110 => eat; word (bytesOf "ull"); return .nullable none
      | _ => return .nullable (some (← decode c fuel depth inner))
    | .list inner => placed do
      match ← blanks with
      | none => ahead .endInValue
      | some 91 =>
        if depth ≤ 1 then ahead .tooDeep
        else
          eat
          andThen (do return .list (← decodeItems c fuel (depth - 1) inner true)) endList
      | some _ => unexpected "a sequence"
    | .record name =>
      match c.type? name with
      | none => ahead .expectedValue
      | some ⟨_,.tuple,[f]⟩ => do return .record .tuple [(f.field,← decode c fuel depth f.shape)]
      | some t => placed do
        match ← blanks,t.form with
        | none,_ => ahead .endInValue
        | some 110,.unit => eat; word (bytesOf "ull"); return .record .unit []
        | some 123,.named =>
          if depth ≤ 1 then ahead .tooDeep
          else
            eat
            andThen (do lift (t.complete (← decodeMembers c fuel (depth - 1) t true []))) endObject
        | some 91,.named | some 91,.tuple =>
          if depth ≤ 1 then ahead .tooDeep
          else
            eat
            andThen (do return .record t.form (← decodeFields c fuel (depth - 1) t 0 t.fields)) endList
        | some _,_ => unexpected t.described
def decodeItems (c : Catalog) : Nat → Nat → Shape → Bool → Reader (List Datum)
  | 0,_,_,_ => ahead .endInValue
  | fuel + 1,depth,s,first => do
    if ← moreItems first then
      let v ← decode c fuel depth s
      return v :: (← decodeItems c fuel depth s false)
    else return []
-- Members by name, in any order; names that the type does not know are skipped.
def decodeMembers (c : Catalog) : Nat → Nat → RecordType → Bool → List (String × Datum) →
    Reader (List (String × Datum))
  | 0,_,_,_,_ => ahead .endInValue
  | fuel + 1,depth,t,first,given => do
    if ← moreMembers first then
      let k ← key
      match t.field? k with
      | some f =>
        if given.any fun g => g.1 == k then fail (.duplicate k)
        else
          colon
          let v ← decode c fuel depth f.shape
          decodeMembers c fuel depth t false (given ++ [(k,v)])
      | none =>
        colon
        skip
        decodeMembers c fuel depth t false given
    else return given
def decodeFields (c : Catalog) : Nat → Nat → RecordType → Nat → List FieldType → Reader (List (Field × Datum))
  | 0,_,_,_,_ => ahead .endInValue
  | _ + 1,_,_,_,[] => return []
  | fuel + 1,depth,t,i,f :: rest => do
    if ← moreItems (i == 0) then
      let v ← decode c fuel depth f.shape
      return (f.field,v) :: (← decodeFields c fuel depth t (i + 1) rest)
    else if f.defaulted then
      return (f.field,f.shape.default) :: (← decodeFields c fuel depth t (i + 1) rest)
    else fail (.length i t.describedLength)
end

def ofBytes (c : Catalog) (s : Shape) (bs : Text.Bytes) : Except Json.ReadError Datum :=
  (document (decode c (8 * (bs.length + 8)) depthLimit s)).run bs

def ofText (c : Catalog) (s : Shape) (text : String) : Except Json.ReadError Datum :=
  ofBytes c s (Text.utf8 text)

end ServiceKit.Record
