import ServiceKit.Binary64.Text
import ServiceKit.Text.Blank
import ServiceKit.Text.Split
import ServiceKit.Json

namespace ServiceKit.Validation

structure Inspection where
  present : Bool
  null : Bool
  number : Option Binary64
  length : Option Nat
  text : Option String
deriving DecidableEq, Repr

def numberOf (s : String) : Option Binary64 := Binary64.read (Text.trimChars s.toList)

namespace Inspection

def ofText (s : String) : Inspection :=
  { present := !s.isEmpty,null := false,number := numberOf s,length := some s.length,text := some s }

def ofNumber (x : Binary64) : Inspection :=
  { present := !x.isZero,null := false,number := some x,length := none,text := none }

def ofInt (i : Int) : Inspection :=
  { present := i != 0,null := false,number := some (Binary64.ofInt i),length := none,text := none }

def ofFlag : Inspection :=
  { present := true,null := false,number := none,length := none,text := none }

def ofSize (n : Nat) : Inspection :=
  { present := n != 0,null := false,number := none,length := some n,text := none }

def absent : Inspection :=
  { present := false,null := true,number := none,length := none,text := none }

-- A present value inside a wrapper shows its measures but is always there.
def wrapped (i : Inspection) : Inspection := { i with present := true,null := false }

def ofJson : Json → Inspection
  | .null => absent
  | .bool _ => ofFlag
  | .number n => { ofFlag with number := some n.toBinary64 }
  | .string s => ofText s
  | .array items => ofSize items.length
  | .object members => { ofFlag with length := some members.length }

end Inspection

inductive Rule where
  | required
  | gt (bound : Binary64)
  | gte (bound : Binary64)
  | lt (bound : Binary64)
  | lte (bound : Binary64)
  | min (bound : Binary64)
  | max (bound : Binary64)
  | email
  | oneOf (options : List String)
deriving DecidableEq, Repr

def Rule.tag : Rule → String
  | .required => "required"
  | .gt _ => "gt"
  | .gte _ => "gte"
  | .lt _ => "lt"
  | .lte _ => "lte"
  | .min _ => "min"
  | .max _ => "max"
  | .email => "email"
  | .oneOf _ => "oneof"

def isAddress (cs : List Char) : Bool :=
  match Text.splitOnce '@' cs with
  | none => false
  | some (user,domain) =>
    !user.isEmpty && !domain.contains '@' && !cs.any Text.isBlank &&
      match Text.splitOnce '.' domain with
      | none => false
      | some (host,top) => !host.isEmpty && !top.isEmpty && top.getLast? != some '.'

def emailText (s : String) : Bool := s.isEmpty || isAddress s.toList

-- A test of the number, passed by null and failed by what has no number.
def compareWith (i : Inspection) (test : Binary64 → Bool) : Bool :=
  i.null || (i.number.map test).getD false

-- A test of the length where there is one and of the number otherwise.
def measureWith (i : Inspection) (test : Binary64 → Bool) : Bool :=
  i.null ||
    match i.length with
    | some n => test (Binary64.ofNat n)
    | none => (i.number.map test).getD false

def Rule.holds (r : Rule) (i : Inspection) : Bool :=
  match r with
  | .required => i.present
  | .gt b => compareWith i fun x => b.less x
  | .gte b => compareWith i fun x => b.atMost x
  | .lt b => compareWith i fun x => x.less b
  | .lte b => compareWith i fun x => x.atMost b
  | .min b => measureWith i fun x => b.atMost x
  | .max b => measureWith i fun x => x.atMost b
  | .email =>
    i.null ||
      match i.text with
      | some s => emailText s
      | none => false
  | .oneOf options =>
    i.null ||
      match i.text with
      | some s => options.contains s
      | none =>
        match i.number with
        | some x => options.any fun o => ((Binary64.readText o).map fun y => y.same x).getD false
        | none => false

theorem holds_of_null {i : Inspection} (null : i.null = true) (r : Rule) (other : r ≠ .required) :
    r.holds i = true := by
  cases r <;> simp_all [Rule.holds,compareWith,measureWith]

end ServiceKit.Validation
