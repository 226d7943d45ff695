import ServiceKit.Binary64
import ServiceKit.Text.Utf8
import ServiceKit.Text.Split

namespace ServiceKit

inductive Number where
  | int (i : Int)
  | float (x : Binary64)
deriving DecidableEq, Repr, Inhabited

inductive Json where
  | null
  | bool (b : Bool)
  | number (n : Number)
  | string (s : String)
  | array (items : List Json)
  | object (members : List (String × Json))
deriving Repr, Inhabited

abbrev Members := List (String × Json)

def Number.toBinary64 : Number → Binary64
  | .int i => Binary64.ofInt i
  | .float x => x

-- Whole numbers agree when equal, others by numeric equality; the two kinds never agree.
def Number.same : Number → Number → Bool
  | .int i,.int j => i == j
  | .float x,.float y => x.same y
  | _,_ => false

namespace Json

mutual
def decEq : (x y : Json) → Decidable (x = y)
  | .null,.null => isTrue rfl
  | .bool a,.bool b => decidable_of_iff (a = b) (by simp)
  | .number a,.number b => decidable_of_iff (a = b) (by simp)
  | .string a,.string b => decidable_of_iff (a = b) (by simp)
  | .array a,.array b =>
    match decEqItems a b with
    | isTrue h => isTrue (h ▸ rfl)
    | isFalse h => isFalse (fun e => h (Json.array.inj e))
  | .object a,.object b =>
    match decEqMembers a b with
    | isTrue h => isTrue (h ▸ rfl)
    | isFalse h => isFalse (fun e => h (Json.object.inj e))
  | .null, .bool _ | .null, .number _ | .null, .string _ | .null, .array _ | .null, .object _
  | .bool _, .null | .bool _, .number _ | .bool _, .string _ | .bool _, .array _ | .bool _, .object _
  | .number _, .null | .number _, .bool _ | .number _, .string _ | .number _, .array _
  | .number _, .object _
  | .string _, .null | .string _, .bool _ | .string _, .number _ | .string _, .array _
  | .string _, .object _
  | .array _, .null | .array _, .bool _ | .array _, .number _ | .array _, .string _
  | .array _, .object _
  | .object _, .null | .object _, .bool _ | .object _, .number _ | .object _, .string _
  | .object _,.array _ => isFalse (fun e => by cases e)
def decEqItems : (xs ys : List Json) → Decidable (xs = ys)
  | [],[] => isTrue rfl
  | [],_ :: _ => isFalse (fun e => by cases e)
  | _ :: _,[] => isFalse (fun e => by cases e)
  | x :: xs,y :: ys =>
    match decEq x y,decEqItems xs ys with
    | isTrue h,isTrue t => isTrue (h ▸ t ▸ rfl)
    | isFalse h,_ => isFalse (fun e => h (List.cons.inj e).1)
    | _,isFalse t => isFalse (fun e => t (List.cons.inj e).2)
def decEqMembers : (xs ys : List (String × Json)) → Decidable (xs = ys)
  | [],[] => isTrue rfl
  | [],_ :: _ => isFalse (fun e => by cases e)
  | _ :: _,[] => isFalse (fun e => by cases e)
  | (k,x) :: xs,(l,y) :: ys =>
    match decEq x y,decEqMembers xs ys with
    | isTrue h,isTrue t =>
      if key : k = l then isTrue (by subst h t key; rfl)
      else isFalse (fun e => key (Prod.mk.inj (List.cons.inj e).1).1)
    | isFalse h,_ => isFalse (fun e => h (Prod.mk.inj (List.cons.inj e).1).2)
    | _,isFalse t => isFalse (fun e => t (List.cons.inj e).2)
end

instance : DecidableEq Json := decEq

def isNull : Json → Bool
  | .null => true
  | _ => false

def text? : Json → Option String
  | .string s => some s
  | _ => none

def nat (n : Nat) : Json := .number (.int n)
def int (i : Int) : Json := .number (.int i)

def float (x : Binary64) : Json := if x.isFinite then .number (.float x) else .null

def ofOption (v : Option Json) : Json := v.getD .null

end Json

namespace Members

def get? (ms : Members) (key : String) : Option Json := (ms.find? fun m => m.1 == key).map (·.2)

def insert (key : String) (value : Json) : Members → Members
  | [] => [(key,value)]
  | (k,v) :: rest =>
    if key = k then (key,value) :: rest
    else if key < k then (key,value) :: (k,v) :: rest
    else (k,v) :: insert key value rest

def ofPairs (pairs : List (String × Json)) : Members := pairs.foldl (fun ms m => insert m.1 m.2 ms) []

theorem get?_insert_same (key : String) (value : Json) (ms : Members) :
    get? (insert key value ms) key = some value := by
  induction ms with
  | nil => simp [insert,get?]
  | cons head rest ih =>
    obtain ⟨k,v⟩ := head
    unfold insert
    split
    · simp [get?]
    · split
      · simp [get?]
      · next different _ =>
        have other : (k == key) = false := by simp [Ne.symm different]
        simpa [get?,List.find?,other] using ih

theorem get?_insert_other {key other : String} (different : key ≠ other) (value : Json) (ms : Members) :
    get? (insert key value ms) other = get? ms other := by
  have unequal : (key == other) = false := by simp [different]
  induction ms with
  | nil => simp [insert,get?,unequal]
  | cons head rest ih =>
    obtain ⟨k,v⟩ := head
    unfold insert
    split
    · next same =>
      subst same
      simp [get?,unequal]
    · split
      · simp [get?,unequal]
      · cases found : k == other with
        | true => simp [get?,found]
        | false => simpa [get?,List.find?_cons,found] using ih

theorem get?_foldl_other {key : String} {pairs : List (String × Json)} (absent : key ∉ pairs.map (·.1)) (ms : Members) :
    get? (pairs.foldl (fun ms m => insert m.1 m.2 ms) ms) key = get? ms key := by
  induction pairs generalizing ms with
  | nil => rfl
  | cons head rest ih =>
    simp only [List.map_cons,List.mem_cons,not_or] at absent
    rw [List.foldl_cons,ih absent.2,get?_insert_other (Ne.symm absent.1)]

theorem get?_ofPairs_last {key : String} {after : List (String × Json)} (absent : key ∉ after.map (·.1))
    (before : List (String × Json)) (value : Json) :
    get? (ofPairs (before ++ (key,value) :: after)) key = some value := by
  rw [ofPairs,List.foldl_append,List.foldl_cons,get?_foldl_other absent,get?_insert_same]

end Members

namespace Json

def member? (key : String) : Json → Option Json
  | .object ms => Members.get? ms key
  | _ => none

def memberNames : Json → List String
  | .object ms => ms.map (·.1)
  | _ => []

def indexOf (token : String) : Option Nat :=
  match token.toList with
  | ['0'] => some 0
  | '0' :: _ | '+' :: _ => none
  | cs => if cs.all fun c => '0' ≤ c ∧ c ≤ '9' then (String.ofList cs).toNat? else none

def unescapeToken : List Char → List Char
  | '~' :: '1' :: rest => '/' :: unescapeToken rest
  | '~' :: '0' :: rest => '~' :: unescapeToken rest
  | c :: rest => c :: unescapeToken rest
  | [] => []

def pointerStep (j : Json) (token : List Char) : Option Json :=
  let token := String.ofList (unescapeToken token)
  match j with
  | .object ms => Members.get? ms token
  | .array items => (indexOf token).bind (items[·]?)
  | _ => none

def pointer (j : Json) (path : String) : Option Json :=
  match path.toList with
  | [] => some j
  | '/' :: rest => (Text.splitAll '/' rest).foldlM pointerStep j
  | _ => none

mutual
def sorted : Json → Json
  | .array items => .array (sortedItems items)
  | .object members => .object (Members.ofPairs (sortedMembers members))
  | other => other
def sortedItems : List Json → List Json
  | [] => []
  | x :: xs => x.sorted :: sortedItems xs
def sortedMembers : List (String × Json) → List (String × Json)
  | [] => []
  | (k,x) :: xs => (k,x.sorted) :: sortedMembers xs
end

mutual
def same : Json → Json → Bool
  | .null,.null => true
  | .bool a,.bool b => a == b
  | .number a,.number b => a.same b
  | .string a,.string b => a == b
  | .array a,.array b => sameItems a b
  | .object a,.object b => sameMembers a b
  | _,_ => false
def sameItems : List Json → List Json → Bool
  | [],[] => true
  | x :: xs,y :: ys => same x y && sameItems xs ys
  | _,_ => false
def sameMembers : List (String × Json) → List (String × Json) → Bool
  | [],[] => true
  | (k,x) :: xs,(l,y) :: ys => k == l && same x y && sameMembers xs ys
  | _,_ => false
end

end Json
end ServiceKit
