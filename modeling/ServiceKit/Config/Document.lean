import ServiceKit.Text.Ascii
import ServiceKit.Text.Split

namespace ServiceKit.Config

-- How a table came to be, which decides who may add to it.
inductive TableKind where
  | header | implied | dotted | inline
deriving DecidableEq, Repr

inductive Document where
  | text (s : String)
  | integer (i : Int)
  | flag (b : Bool)
  | written (s : String)
  | array (items : List Document)
  | tables (items : List Document)
  | table (kind : TableKind) (entries : List (String × Document))
deriving Repr, Inhabited

namespace Document

abbrev Entries := List (String × Document)

def find? (es : Entries) (k : String) : Option Document := (es.find? fun e => e.1 == k).map (·.2)

def put (k : String) (d : Document) : Entries → Entries
  | [] => [(k,d)]
  | e :: es => if e.1 = k then (k,d) :: es else e :: put k d es

structure Table where
  kind : TableKind
  entries : Entries

def Table.document (t : Table) : Document := .table t.kind t.entries

-- Changes the table at a path, making tables on the way. A dotted path passes only through tables
-- that no header made; an inline table is closed.
def change (made : TableKind) (f : Table → Option Table) : List String → Table → Option Table
  | [],t => f t
  | k :: path,t => do
    let inside ← match find? t.entries k with
      | none => (change made f path ⟨made,[]⟩).map Table.document
      | some (.table kind entries) =>
        if kind = .inline ∨ (made ≠ .implied ∧ kind = .header) then none
        else (change made f path ⟨kind,entries⟩).map Table.document
      | some (.tables items) =>
        if made ≠ .implied then none
        else match items.reverse with
          | .table kind entries :: before =>
            (change made f path ⟨kind,entries⟩).map fun t => .tables (before.reverse ++ [t.document])
          | _ => none
      | some _ => none
    some { t with entries := put k inside t.entries }

-- One assignment in a table: the last part of a dotted key is new in a table that dots made.
def assign (path : List String) (k : String) (v : Document) (t : Table) : Option Table :=
  change .dotted (fun inner =>
    if !path.isEmpty && inner.kind != .dotted then none
    else if (find? inner.entries k).isSome then none
    else some { inner with entries := inner.entries ++ [(k,v)] }) path t

-- A header opens a table that no header and no assignment made before.
def openTable (k : String) (t : Table) : Option Table :=
  match find? t.entries k with
  | none => some { t with entries := t.entries ++ [(k,.table .header [])] }
  | some (.table .implied es) => some { t with entries := put k (.table .header es) t.entries }
  | some _ => none

def openItem (k : String) (t : Table) : Option Table :=
  match find? t.entries k with
  | none => some { t with entries := t.entries ++ [(k,.tables [.table .header []])] }
  | some (.tables items) => some { t with entries := put k (.tables (items ++ [.table .header []])) t.entries }
  | some _ => none

end Document

namespace Reading

abbrev Rest := List Char

def isSpace (c : Char) : Bool := c == ' ' || c == '\t'
def skipSpace (cs : Rest) : Rest := cs.dropWhile isSpace

def isPlain (c : Char) : Bool := c == '\t' || (decide (32 ≤ c.toNat) && c.toNat != 127)

def newline : Rest → Option Rest
  | '\n' :: cs => some cs
  | '\r' :: '\n' :: cs => some cs
  | _ => none

def skipComment : Rest → Rest
  | '#' :: cs => cs.dropWhile isPlain
  | cs => cs

def lineEnd (cs : Rest) : Option Rest :=
  match skipComment (skipSpace cs) with
  | [] => some []
  | cs => newline cs

def skipLines : Nat → Rest → Rest
  | 0,cs => cs
  | fuel + 1,cs =>
    let cs := skipComment (skipSpace cs)
    match newline cs with
    | some rest => skipLines fuel rest
    | none => cs

def codePoint (digits : Rest) : Option Char := do
  let values ← digits.mapM Text.hexValue
  let n := values.foldl (fun n d => 16 * n + d) 0
  if n.isValidChar then some (Char.ofNat n) else none

def escaped : Rest → Option (Char × Rest)
  | 'b' :: cs => some ('\x08',cs)
  | 't' :: cs => some ('\t',cs)
  | 'n' :: cs => some ('\n',cs)
  | 'f' :: cs => some ('\x0c',cs)
  | 'r' :: cs => some ('\r',cs)
  | '"' :: cs => some ('"',cs)
  | '\\' :: cs => some ('\\',cs)
  | 'u' :: cs => if cs.length < 4 then none else (codePoint (cs.take 4)).map fun c => (c,cs.drop 4)
  | 'U' :: cs => if cs.length < 8 then none else (codePoint (cs.take 8)).map fun c => (c,cs.drop 8)
  | _ => none

def basicText : Nat → Rest → Rest → Option (String × Rest)
  | 0,_,_ => none
  | fuel + 1,out,cs =>
    match cs with
    | '"' :: cs => some (String.ofList out.reverse,cs)
    | '\\' :: cs => do
      let (c,cs) ← escaped cs
      basicText fuel (c :: out) cs
    | c :: cs => if isPlain c then basicText fuel (c :: out) cs else none
    | [] => none

def literalText (cs : Rest) : Option (String × Rest) :=
  let inside := cs.takeWhile fun c => isPlain c && c != '\''
  match cs.drop inside.length with
  | '\'' :: rest => some (String.ofList inside,rest)
  | _ => none

def foldedLine (cs : Rest) : Option Rest := do
  let cs ← newline (skipSpace cs)
  some (cs.dropWhile fun c => isSpace c || c == '\n' || c == '\r')

def quotes (q : Char) (cs : Rest) : Nat := (cs.takeWhile (· == q)).length

def longText (q : Char) : Nat → Rest → Rest → Option (String × Rest)
  | 0,_,_ => none
  | fuel + 1,out,cs =>
    match quotes q cs with
    | n + 3 =>
      if n > 2 then none
      else some (String.ofList (out.reverse ++ List.replicate n q),cs.drop (n + 3))
    | n + 1 => longText q fuel (List.replicate (n + 1) q ++ out) (cs.drop (n + 1))
    | 0 =>
      match newline cs with
      | some rest => longText q fuel ('\n' :: out) rest
      | none =>
        match cs with
        | '\\' :: rest =>
          if q = '\'' then longText q fuel ('\\' :: out) rest
          else match foldedLine rest with
            | some rest => longText q fuel out rest
            | none => do
              let (c,rest) ← escaped rest
              longText q fuel (c :: out) rest
        | c :: rest => if isPlain c then longText q fuel (c :: out) rest else none
        | [] => none

def openLong (q : Char) (cs : Rest) : Option (String × Rest) :=
  longText q (cs.length + 1) [] ((newline cs).getD cs)

def text : Rest → Option (String × Rest)
  | '"' :: '"' :: '"' :: cs => openLong '"' cs
  | '"' :: cs => basicText (cs.length + 1) [] cs
  | '\'' :: '\'' :: '\'' :: cs => openLong '\'' cs
  | '\'' :: cs => literalText cs
  | _ => none

def simpleKey (cs : Rest) : Option (String × Rest) :=
  match cs with
  | '"' :: rest => basicText (rest.length + 1) [] rest
  | '\'' :: rest => literalText rest
  | _ =>
    let name := cs.takeWhile Text.isWord
    if name.isEmpty then none else some (String.ofList name,cs.drop name.length)

def keyPath : Nat → Rest → Option (List String × Rest)
  | 0,_ => none
  | fuel + 1,cs => do
    let (k,rest) ← simpleKey (skipSpace cs)
    match skipSpace rest with
    | '.' :: rest => do
      let (ks,rest) ← keyPath fuel rest
      some (k :: ks,rest)
    | rest => some ([k],rest)

def underscored (digit : Char → Bool) : Rest → Option Rest
  | [] => none
  | [c] => if digit c then some [c] else none
  | c :: '_' :: cs => if digit c then (underscored digit cs).map (c :: ·) else none
  | c :: cs => if digit c then (underscored digit cs).map (c :: ·) else none

def valueIn (base : Nat) (digits : Rest) : Nat := digits.foldl (fun n c => base * n + (Text.hexValue c).getD 0) 0

def based (base : Nat) (cs : Rest) : Option Int :=
  (underscored (fun c => ((Text.hexValue c).map fun d => decide (d < base)).getD false) cs).map fun ds => valueIn base ds

def decimalDigits (cs : Rest) : Option Rest := do
  let ds ← underscored Text.isDigit cs
  if ds.length > 1 ∧ ds.head? = some '0' then none else some ds

def unsignedInteger : Rest → Option Int
  | '0' :: 'x' :: cs => based 16 cs
  | '0' :: 'o' :: cs => based 8 cs
  | '0' :: 'b' :: cs => based 2 cs
  | cs => (decimalDigits cs).map fun ds => valueIn 10 ds

def integer (cs : Rest) : Option Int :=
  match cs with
  | '-' :: cs => (decimalDigits cs).map fun ds => -(valueIn 10 ds : Int)
  | '+' :: cs => (decimalDigits cs).map fun ds => (valueIn 10 ds : Int)
  | cs => unsignedInteger cs

def isExponent (cs : Rest) : Bool :=
  match cs with
  | '+' :: cs | '-' :: cs => (underscored Text.isDigit cs).isSome
  | cs => (underscored Text.isDigit cs).isSome

def isFraction (cs : Rest) : Bool :=
  let digits := cs.takeWhile fun c => Text.isDigit c || c == '_'
  (underscored Text.isDigit digits).isSome &&
    match cs.drop digits.length with
    | [] => true
    | c :: rest => (c == 'e' || c == 'E') && isExponent rest

def isUnsignedFloat (cs : Rest) : Bool :=
  let digits := cs.takeWhile fun c => Text.isDigit c || c == '_'
  cs == ['i','n','f'] || cs == ['n','a','n'] ||
    (decimalDigits digits).isSome &&
      match cs.drop digits.length with
      | '.' :: rest => isFraction rest
      | c :: rest => (c == 'e' || c == 'E') && isExponent rest
      | [] => false

def isFloat : Rest → Bool
  | '+' :: cs | '-' :: cs => isUnsignedFloat cs
  | cs => isUnsignedFloat cs

def fits : List Char → Rest → Option Rest
  | [],cs => some cs
  | p :: ps,c :: cs => if (p = 'd' ∧ Text.isDigit c) ∨ p = c then fits ps cs else none
  | _ :: _,[] => none

def isZone : Rest → Bool
  | [] | ['Z'] | ['z'] => true
  | '+' :: cs | '-' :: cs => fits "dd:dd".toList cs == some []
  | _ => false

def isTime (zoned : Bool) (cs : Rest) : Bool :=
  match fits "dd:dd:dd".toList cs with
  | none => false
  | some rest =>
    let rest := match rest with
      | '.' :: ds => if (ds.takeWhile Text.isDigit).isEmpty then '.' :: ds else ds.dropWhile Text.isDigit
      | rest => rest
    if zoned then isZone rest else rest.isEmpty

def isMoment (cs : Rest) : Bool :=
  isTime false cs ||
    match fits "dddd-dd-dd".toList cs with
    | none => false
    | some [] => true
    | some (c :: rest) => (c == 'T' || c == 't' || c == ' ') && isTime true rest

def scalarChar (c : Char) : Bool := Text.isAlnum c || ['+','-','_','.',':'].contains c

def scalarLexeme (cs : Rest) : Rest × Rest :=
  let first := cs.takeWhile scalarChar
  match fits "dddd-dd-dd".toList first,cs.drop first.length with
  | some [],' ' :: c :: rest =>
    if Text.isDigit c then
      let second := (c :: rest).takeWhile scalarChar
      (first ++ ' ' :: second,(c :: rest).drop second.length)
    else (first,' ' :: c :: rest)
  | _,rest => (first,rest)

def scalar (cs : Rest) : Option (Document × Rest) :=
  let (word,rest) := scalarLexeme cs
  if word = ['t','r','u','e'] then some (.flag true,rest)
  else if word = ['f','a','l','s','e'] then some (.flag false,rest)
  else match integer word with
    | some i => if -(Nat.pow 2 63 : Nat) ≤ i ∧ i < (Nat.pow 2 63 : Nat) then some (.integer i,rest) else none
    | none => if isFloat word || isMoment word then some (.written (String.ofList word),rest) else none

mutual
def value : Nat → Rest → Option (Document × Rest)
  | 0,_ => none
  | fuel + 1,cs =>
    match cs with
    | '"' :: _ | '\'' :: _ => (text cs).map fun (s,rest) => (.text s,rest)
    | '[' :: rest => items fuel [] (skipLines rest.length rest)
    | '\x7b' :: rest =>
      match skipSpace rest with
      | '\x7d' :: rest => some (.table .inline [],rest)
      | rest => members fuel ⟨.inline,[]⟩ rest
    | cs => scalar cs
def items : Nat → List Document → Rest → Option (Document × Rest)
  | 0,_,_ => none
  | _ + 1,out,']' :: rest => some (.array out.reverse,rest)
  | fuel + 1,out,cs => do
    let (v,rest) ← value fuel cs
    match skipLines rest.length rest with
    | ',' :: rest => items fuel (v :: out) (skipLines rest.length rest)
    | ']' :: rest => some (.array (v :: out).reverse,rest)
    | _ => none
def members : Nat → Document.Table → Rest → Option (Document × Rest)
  | 0,_,_ => none
  | fuel + 1,t,cs => do
    let (path,rest) ← keyPath cs.length cs
    match skipSpace rest with
    | '=' :: rest => do
      let (v,rest) ← value fuel (skipSpace rest)
      let t ← Document.assign path.dropLast (path.getLastD "") v t
      match skipSpace rest with
      | ',' :: rest => members fuel t rest
      | '\x7d' :: rest => some (t.document,rest)
      | _ => none
    | _ => none
end

structure State where
  root : Document.Table
  current : List String

def header (s : State) (cs : Rest) : Option (State × Rest) := do
  let (path,rest) ← keyPath cs.length cs
  let last := path.getLastD ""
  match rest with
  | ']' :: rest =>
    let root ← Document.change .implied (Document.openTable last) path.dropLast s.root
    some (⟨root,path⟩,rest)
  | _ => none

def itemHeader (s : State) (cs : Rest) : Option (State × Rest) := do
  let (path,rest) ← keyPath cs.length cs
  let last := path.getLastD ""
  match rest with
  | ']' :: ']' :: rest =>
    let root ← Document.change .implied (Document.openItem last) path.dropLast s.root
    some (⟨root,path⟩,rest)
  | _ => none

def assignment (s : State) (cs : Rest) : Option (State × Rest) := do
  let (path,rest) ← keyPath cs.length cs
  match rest with
  | '=' :: rest => do
    let (v,rest) ← value (2 * rest.length + 2) (skipSpace rest)
    let root ← Document.change .implied (Document.assign path.dropLast (path.getLastD "") v) s.current s.root
    some (⟨root,s.current⟩,rest)
  | _ => none

def line (s : State) (cs : Rest) : Option (State × Rest) :=
  match cs with
  | [] | '#' :: _ | '\n' :: _ | '\r' :: _ => some (s,cs)
  | '[' :: '[' :: rest => itemHeader s rest
  | '[' :: rest => header s rest
  | cs => assignment s cs

def lines : Nat → State → Rest → Option Document.Entries
  | _,s,[] => some s.root.entries
  | 0,_,_ => none
  | fuel + 1,s,cs => do
    let (s,rest) ← line s (skipSpace cs)
    lines fuel s (← lineEnd rest)

end Reading

def Document.read (s : String) : Option Document.Entries :=
  let cs := match s.toList with
    | '\ufeff' :: rest => rest
    | cs => cs
  Reading.lines (cs.length + 1) ⟨⟨.implied,[]⟩,[]⟩ cs

end ServiceKit.Config
