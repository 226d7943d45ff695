import ServiceKit.Derive.Extent

namespace ServiceKit.Derive
open Extent

inductive Refusal where
  | named (message : String)
  | form
  | panic (message : String)
deriving DecidableEq, Repr

abbrev Reading (α : Type) := Except Refusal (α × Tokens)

def keywords : List String :=
  ["_","abstract","as","async","await","become","box","break","const","continue","crate","do","dyn",
   "else","enum","extern","false","final","fn","for","if","impl","in","let","loop","macro","match",
   "mod","move","mut","override","priv","pub","ref","return","Self","self","static","struct","super",
   "trait","true","try","type","typeof","unsafe","unsized","use","virtual","where","while","yield"]

def expectedName : Refusal := .named "expected identifier"

-- Why no name stands here: only a token that is no word at all is named.
def noName : Tokens → Refusal
  | [] | .word _ :: _ => .form
  | _ :: _ => expectedName

def name : Tokens → Reading String
  | .word w :: rest => if keywords.contains w then .error .form else .ok (w,rest)
  | ts => .error (noName ts)

structure Path where
  rooted : Bool
  names : List String
deriving DecidableEq, Repr

def Path.name? (p : Path) : Option String :=
  match p.rooted,p.names with
  | false,[n] => some n
  | _,_ => none

def Path.named (p : Path) (n : String) : Bool := p.name? == some n

def colons : Extent := marks [':',':']

def pathWords : List String := ["super","self","Self","crate"]

def isPathWord (w : String) : Bool := pathWords.contains w || !keywords.contains w

def pathNames : Nat → Tokens → Reading (List String)
  | 0,_ => .error .form
  | fuel + 1,ts =>
    match ts with
    | .word w :: rest =>
      if isPathWord w then
        match colons rest with
        | none => .ok ([w],rest)
        | some rest =>
          match pathNames fuel rest with
          | .ok (ns,rest) => .ok (w :: ns,rest)
          | .error _ => .error .form
      else .error .form
    | ts => .error (noName ts)

def path (ts : Tokens) : Reading Path :=
  let (rooted,ts) := match colons ts with
    | some rest => (true,rest)
    | none => (false,ts)
  (pathNames (ts.length + 1) ts).map fun (names,rest) => (⟨rooted,names⟩,rest)

namespace Token

def isWord (ws : List String) : Token → Bool
  | .word w => ws.contains w
  | _ => false

def isMark (cs : List Char) : Token → Bool
  | .mark c _ => cs.contains c
  | _ => false

def isGroup (ds : List Delimiter) : Token → Bool
  | .group d _ => ds.contains d
  | _ => false

def isName : Token → Bool
  | .word _ => true
  | _ => false

def isPathName : Token → Bool
  | .word w => isPathWord w
  | _ => false

def isLiteral : Token → Bool
  | .literal _ _ => true
  | _ => false

end Token

def word (w : String) : Extent := one (Token.isWord [w])

def mark (c : Char) : Extent := one (Token.isMark [c])

def group (d : Delimiter) : Extent := one (Token.isGroup [d])

def lifetime : Extent := andThen (mark '\'') (one Token.isName)

def arrow : Extent := marks ['-','>']

def turbofish : Extent := andThen colons (mark '<')

def macroBody : Extent := andThen (mark '!') (one (Token.isGroup [.paren,.bracket,.brace]))

def Token.isWholeType (t : Token) : Bool := t.isGroup [.paren,.bracket] || t.isMark ['!'] || t.isWord ["_"]

def resultEnd (next : Extent) : Extent := either arrow next empty

def argumentsEnd (next : Extent) : Extent :=
  either (either turbofish empty (mark '<')) (angles 1) <|
  either (group .paren) (resultEnd next) empty

-- Where a type ends; fuel bounds the number of its parts.
def typeEnd : Nat → Extent
  | 0 => absent
  | fuel + 1 =>
    let next := typeEnd fuel
    either (one Token.isWholeType) empty <|
    either (mark '&') (andThen (maybe lifetime) (andThen (maybe (word "mut")) next)) <|
    either (mark '*') (andThen (one (Token.isWord ["const","mut"])) next) <|
    either lifetime empty <|
    either (mark '?') next <|
    either (mark '<') (andThen (angles 1) (andThen colons next)) <|
    either colons next <|
    either (one (Token.isWord ["dyn","impl"])) (andThen next (many (mark '+') next fuel)) <|
    either (word "for") (andThen (mark '<') (andThen (angles 1) next)) <|
    either (word "unsafe") next <|
    either (word "extern") (andThen (maybe (one Token.isLiteral)) next) <|
    either (word "fn") (andThen (group .paren) (resultEnd next)) <|
    andThen (one Token.isPathName) <|
    either macroBody empty (andThen (argumentsEnd next) (either colons next empty))

def Token.isOperand (t : Token) : Bool :=
  t.isLiteral || t.isGroup [.paren,.bracket,.brace] || t.isWord ["true","false","_"]

def Token.isMember : Token → Bool
  | .word _ | .literal _ (.number _) => true
  | _ => false

def Token.isPoint : Token → Bool
  | .mark '.' false => true
  | _ => false

def Token.opensBody (t : Token) : Bool := t.isGroup [.brace] || t.isMark ['|'] || t.isWord ["async","move"]

def dots : Extent := firstOf [marks ['.','.','='],marks ['.','.']]

def operators : List String :=
  ["<<=",">>=","+=","-=","*=","/=","%=","^=","&=","|=","&&","||","<<",">>","==","<=","!=",">=","+",
   "-","*","/","%","^","&","|","<",">","="]

def operatorEnd : Extent := firstOf (operators.map fun s => marks s.toList)

def pathEnd : Nat → Extent
  | 0 => absent
  | fuel + 1 =>
    andThen (one Token.isPathName) <|
    either turbofish (andThen (angles 1) (either colons (pathEnd fuel) empty)) <|
    either colons (pathEnd fuel) empty

def nameEnd (fuel : Nat) : Extent :=
  andThen
    (either colons (pathEnd fuel) <|
     either (mark '<') (andThen (angles 1) (andThen colons (pathEnd fuel))) (pathEnd fuel)) <|
  either (group .brace) empty (maybe macroBody)

def postfixEnd : Nat → Extent
  | 0 => absent
  | fuel + 1 =>
    either (one Token.isPoint)
      (andThen (one Token.isMember) (andThen (either turbofish (angles 1) empty) (postfixEnd fuel))) <|
    either (firstOf [group .paren,group .bracket,mark '?']) (postfixEnd fuel) empty

def blocksEnd (fuel : Nat) : Extent :=
  andThen (past (Token.isGroup [.brace])) (many (word "else") (past (Token.isGroup [.brace])) fuel)

def optionalEnd (next : Extent) : Extent := either ended empty next

def operandEnd (next : Extent) (fuel : Nat) : Extent :=
  either (one Token.isOperand) empty <|
  either (mark '|') (andThen (past (Token.isMark ['|'])) (andThen (resultEnd (typeEnd fuel)) next)) <|
  either lifetime (andThen (mark ':') next) <|
  either (one (Token.isWord ["if","match","while","for"])) (blocksEnd fuel) <|
  either (one (Token.isWord ["loop","unsafe","async","const","try","move","static"]))
    (andThen (before Token.opensBody) next) <|
  either (one (Token.isWord ["return","break","yield"])) (andThen (maybe lifetime) (optionalEnd next)) <|
  either (word "continue") (maybe lifetime) <|
  either (word "let") (andThen (past (Token.isMark ['='])) next) <|
  either dots (optionalEnd next) (nameEnd fuel)

def borrowKind : Extent := firstOf [word "mut",andThen (word "raw") (one (Token.isWord ["const","mut"]))]

-- Where an expression ends; fuel bounds the number of its parts.
def expressionEnd : Nat → Extent
  | 0 => absent
  | fuel + 1 =>
    let next := expressionEnd fuel
    either (one (Token.isMark ['-','!','*'])) next <|
    either (mark '&') (andThen (maybe borrowKind) next) <|
    andThen (operandEnd next fuel) <|
    andThen (postfixEnd fuel) <|
    andThen (many (word "as") (typeEnd fuel) fuel) <|
    either dots (optionalEnd next) (either operatorEnd next empty)

inductive Value where
  | text (s : String)
  | number (digits : String)
  | minus (v : Value)
  | other
deriving DecidableEq, Repr

namespace Value

def ofLiteral : Literal → Value
  | .text s => .text s
  | .number digits => .number digits
  | .other => .other

def ofTokens : Tokens → Value
  | [.literal _ l] => ofLiteral l
  | .mark '-' _ :: rest => .minus (ofTokens rest)
  | _ => .other

end Value

def expression (ts : Tokens) : Option (Value × Tokens) :=
  (expressionEnd (ts.length + 1) ts).map fun rest => (.ofTokens (ts.take (ts.length - rest.length)),rest)

end ServiceKit.Derive
