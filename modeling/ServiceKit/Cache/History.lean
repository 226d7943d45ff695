import ServiceKit.Cache

namespace ServiceKit.Cache.History

inductive Op where
  | get (key : String)
  | set (key value : String) (ttl : Option Nat)
  | delete (key : String)
  | len
  | isEmpty
deriving DecidableEq, Repr

structure Step where
  time : Nat
  op : Op
deriving DecidableEq, Repr

-- A set panics if the clock cannot tell when its entry expires.
inductive Answer where
  | done
  | panicked
  | found (value : Option String)
  | count (n : Nat)
  | empty (b : Bool)
deriving DecidableEq, Repr

def act (c : Cache) (s : Step) : Answer × Cache :=
  match s.op with
  | .get key => (.found (c.get s.time key).1,(c.get s.time key).2)
  | .set key value ttl =>
    match c.set s.time key value ttl with
    | some c => (.done,c)
    | none => (.panicked,c)
  | .delete key => (.done,c.delete key)
  | .len => (.count (c.size s.time),c)
  | .isEmpty => (.empty (c.isEmpty s.time),c)

def after (steps : List Step) : Cache := steps.foldl (fun c s => (act c s).2) []

def answers (c : Cache) : List Step → List Answer
  | [] => []
  | s :: rest => (act c s).1 :: answers (act c s).2 rest

def Step.writes (s : Step) : Bool :=
  match s.op with
  | .set _ _ ttl => fits s.time ttl
  | .delete _ => true
  | _ => false

def Step.writesTo (key : String) (s : Step) : Bool :=
  match s.op with
  | .set k _ ttl => k == key && fits s.time ttl
  | .delete k => k == key
  | _ => false

-- The key was set to the value, was neither set nor deleted since, and its time, if it has one, is not over. This says what
-- an ideal map holds without any entry being dropped.
def Holds (past : List Step) (now : Nat) (key value : String) : Prop :=
  ∃ before time ttl later, past = before ++ ⟨time,.set key value ttl⟩ :: later ∧ fits time ttl = true ∧
    (∀ s ∈ later, s.writesTo key = false) ∧ ∀ t, ttl = some t → now < time + t

inductive Right (holds : String → String → Prop) (now : Nat) : Op → Answer → Prop where
  | get {key value} (told : ∀ v, value = some v ↔ holds key v) : Right holds now (.get key) (.found value)
  | set {key value ttl} (can : fits now ttl = true) : Right holds now (.set key value ttl) .done
  | panics {key value ttl} (late : fits now ttl = false) : Right holds now (.set key value ttl) .panicked
  | delete {key} : Right holds now (.delete key) .done
  | len {keys : List String} (apart : keys.Nodup) (listed : ∀ k, k ∈ keys ↔ ∃ v, holds k v) :
      Right holds now .len (.count keys.length)
  | isEmpty {b} (told : b = true ↔ ∀ k v, ¬ holds k v) : Right holds now .isEmpty (.empty b)

end ServiceKit.Cache.History
