import ServiceKit.Validation.Walk

namespace ServiceKit.Validation

def PathStep.text : PathStep → String
  | .field label => "." ++ label
  | .index i => "[" ++ toString i ++ "]"

def pathText : List PathStep → String
  | [] => ""
  | step :: rest => step.text ++ pathText rest

def beginsStep (c : Char) : Bool := c == '.' || c == '['

def PlainLabel (label : String) : Prop := label ≠ "" ∧ ∀ c ∈ label.toList, beginsStep c = false

instance (label : String) : Decidable (PlainLabel label) :=
  @instDecidableAnd _ _ _ (List.decidableBAll _ label.toList)

-- What stands before the first step, and each step as the character that begins it and what follows.
def pieces : List Char → List Char × List (Char × List Char)
  | [] => ([],[])
  | c :: rest =>
    let (head,more) := pieces rest
    if beginsStep c then ([],(c,head) :: more) else (c :: head,more)

def readStep : Char × List Char → Option PathStep
  | ('.',label) => if label.isEmpty then none else some (.field (String.ofList label))
  | ('[',body) => if body.getLast? = some ']' then (readIndex body.dropLast).map .index else none
  | _ => none

def readSteps (cs : List Char) : Option (List PathStep) :=
  match pieces cs with
  | ([],steps) => steps.mapM readStep
  | _ => none

def resolve (name path : String) (j : Json) : Option Json :=
  if name.toList.isPrefixOf path.toList then
    (readSteps (path.toList.drop name.toList.length)).bind fun steps => follow steps j
  else none

end ServiceKit.Validation
