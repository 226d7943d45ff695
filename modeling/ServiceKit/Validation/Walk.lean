import ServiceKit.Validation.Datum

namespace ServiceKit.Validation

inductive Mode where
  | create
  | update
deriving DecidableEq, Repr

structure FieldError where
  field : String
  tag : String
  value : Json
deriving DecidableEq, Repr

def FieldError.toJson (e : FieldError) : Json :=
  .object [("field",.string e.field),("tag",.string e.tag),("value",e.value)]

def describe (errors : List FieldError) : String :=
  String.intercalate "; " (errors.map fun e => s!"{e.field} failed on '{e.tag}'")

def errorsJson (errors : List FieldError) : Json := .array (errors.map FieldError.toJson)

def join (path label : String) : String := if path.isEmpty then label else path ++ "." ++ label

def indexed (path : String) (i : Nat) : String := path ++ "[" ++ toString i ++ "]"

def Field.skipped (field : Field) (mode : Mode) (v : Datum) : Bool :=
  field.skipIfNull && mode == .update && v.inspect.null

mutual
def Datum.check (v : Datum) (path : String) (mode : Mode) (errors : List FieldError) : List FieldError :=
  match v with
  | .record _ fields => checkFields fields path mode errors
  | .list items => checkItems items path mode 0 errors
  | .optional (some v) | .nullable (some v) => v.check path mode errors
  | _ => errors
def checkItems (items : List Datum) (path : String) (mode : Mode) (i : Nat) (errors : List FieldError) :
    List FieldError :=
  match items with
  | [] => errors
  | v :: rest => checkItems rest path mode (i + 1) (v.check (indexed path i) mode errors)
def checkFields (fields : List (Field × Datum)) (path : String) (mode : Mode) (errors : List FieldError) :
    List FieldError :=
  match fields with
  | [] => errors
  | (field,v) :: rest =>
    let step (errors : List FieldError) : Check → List FieldError
      | .dive => v.check (join path field.label) mode errors
      | .rule r =>
        if r.holds v.inspect then errors
        else errors ++ [⟨join path field.label,r.tag,v.toJson⟩]
    checkFields rest path mode (if field.skipped mode v then errors else field.checks.foldl step errors)
end

def validateIn (name : String) (v : Datum) (mode : Mode) : List FieldError := v.check name mode []

inductive PathStep where
  | field (label : String)
  | index (i : Nat)
deriving DecidableEq, Repr

structure Call where
  steps : List PathStep
  rule : Rule
  value : Datum

def Call.holds (c : Call) : Bool := c.rule.holds c.value.inspect

def renderStep (path : String) : PathStep → String
  | .field label => join path label
  | .index i => indexed path i

def renderSteps (path : String) (steps : List PathStep) : String := steps.foldl renderStep path

def Call.under (step : PathStep) (c : Call) : Call := { c with steps := step :: c.steps }

-- Where a call stands: for each field on the way its number in the record and the number of the check
-- among the field's checks, and for each item its index.
abbrev Place := List Nat

structure Site where
  place : Place
  call : Call

def Site.under (i : Nat) (step : PathStep) (s : Site) : Site := ⟨i :: s.place,s.call.under step⟩

def Site.after (k : Nat) (s : Site) : Site := { s with place := k :: s.place }

def numbered (sitesOf : Nat → α → List Site) (i : Nat) (parts : List α) : List Site :=
  (parts.zipIdx i).flatMap fun p => sitesOf p.2 p.1

-- The sites of one check of a field: its own, or those of the field's value for a dive.
def sitesOfCheck (v : Datum) (nested : List Site) (k : Nat) : Check → List Site
  | .rule r => [⟨[k],⟨[],r,v⟩⟩]
  | .dive => nested.map (.after k)

def sitesOfField (field : Field) (v : Datum) (nested : List Site) (mode : Mode) (i : Nat) : List Site :=
  if field.skipped mode v then []
  else (numbered (sitesOfCheck v nested) 0 field.checks).map (.under i (.field field.label))

mutual
def Datum.sites (v : Datum) (mode : Mode) : List Site :=
  match v with
  | .record _ fields => sitesOfFields fields mode 0
  | .list items => sitesOfItems items mode 0
  | .optional (some v) | .nullable (some v) => v.sites mode
  | _ => []
def sitesOfItems (items : List Datum) (mode : Mode) (i : Nat) : List Site :=
  match items with
  | [] => []
  | v :: rest => (v.sites mode).map (.under i (.index i)) ++ sitesOfItems rest mode (i + 1)
def sitesOfFields (fields : List (Field × Datum)) (mode : Mode) (i : Nat) : List Site :=
  match fields with
  | [] => []
  | (field,v) :: rest => sitesOfField field v (v.sites mode) mode i ++ sitesOfFields rest mode (i + 1)
end

def Call.error (path : String) (c : Call) : FieldError :=
  ⟨renderSteps path c.steps,c.rule.tag,c.value.toJson⟩

def readIndex (digits : List Char) : Option Nat :=
  if digits.isEmpty || !digits.all Char.isDigit then none else some (Nat.ofDigitChars 10 digits 0)

-- The value that steps lead to; in an array a label stands for a number.
def follow : List PathStep → Json → Option Json
  | [],j => some j
  | .field label :: rest,.object ms => (Members.get? ms label).bind (follow rest)
  | .field label :: rest,.array items => ((readIndex label.toList).bind (items[·]?)).bind (follow rest)
  | .index i :: rest,.array items => items[i]?.bind (follow rest)
  | _ :: _,_ => none

end ServiceKit.Validation
