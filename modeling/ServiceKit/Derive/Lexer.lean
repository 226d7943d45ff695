import ServiceKit.Derive.Token
import ServiceKit.Text.Blank
import ServiceKit.Text.Ascii

namespace ServiceKit.Derive.Lexer
open Text

abbrev Rest := List Char

inductive Lexeme where
  | token (t : Token)
  | opens (d : Delimiter)
  | closes (d : Delimiter)
deriving Repr

def marks : List Char := "~!@#$%^&*-=+|;:,<.>/?'".toList

def isWordStart (c : Char) : Bool :=
  (isAlnum c && !isDigit c) || c == '_' || (decide (c.toNat > 127) && !isBlank c)

def isWordChar (c : Char) : Bool := isWordStart c || isDigit c

def beginsComment : Rest → Bool
  | '/' :: '/' :: _ | '/' :: '*' :: _ => true
  | _ => false

def beginsMark (cs : Rest) : Bool := !beginsComment cs && (cs.head?.any marks.contains)

def scalar (n : Nat) : Rest → Option (Nat × Rest)
  | '\x7d' :: rest => some (n,rest)
  | '_' :: rest => scalar n rest
  | c :: rest => (hexValue c).bind fun d => scalar (16 * n + d) rest
  | [] => none

def charOf? (n : Nat) : Option Char := if n.isValidChar then some (Char.ofNat n) else none

def escape : Rest → Option (Char × Rest)
  | 'n' :: rest => some ('\n',rest)
  | 'r' :: rest => some ('\r',rest)
  | 't' :: rest => some ('\t',rest)
  | '0' :: rest => some ('\x00',rest)
  | '\\' :: rest => some ('\\',rest)
  | '\'' :: rest => some ('\'',rest)
  | '"' :: rest => some ('"',rest)
  | 'x' :: a :: b :: rest => do
    let n := 16 * (← hexValue a) + (← hexValue b)
    if n < 128 then some (Char.ofNat n,rest) else none
  | 'u' :: '\x7b' :: rest => do
    let (n,rest) ← scalar 0 rest
    return (← charOf? n,rest)
  | _ => none

def skipBlank (cs : Rest) : Rest := cs.dropWhile fun c => c == ' ' || c == '\t' || c == '\n' || c == '\r'

def cooked : Nat → List Char → Rest → Option (List Char × Rest)
  | 0,_,_ => none
  | fuel + 1,acc,cs =>
    match cs with
    | '"' :: rest => some (acc.reverse,rest)
    | '\\' :: '\n' :: rest => cooked fuel acc (skipBlank rest)
    | '\\' :: '\r' :: '\n' :: rest => cooked fuel acc (skipBlank rest)
    | '\\' :: rest => (escape rest).bind fun (c,rest) => cooked fuel (c :: acc) rest
    | '\r' :: '\n' :: rest => cooked fuel ('\n' :: acc) rest
    | '\r' :: _ => none
    | c :: rest => cooked fuel (c :: acc) rest
    | [] => none

def isQuoteEnd (hashes : Nat) (cs : Rest) : Bool := cs.take hashes == List.replicate hashes '#' && hashes ≤ cs.length

def raw (hashes : Nat) (acc : List Char) : Rest → Option (List Char × Rest)
  | '"' :: rest => if isQuoteEnd hashes rest then some (acc.reverse,rest.drop hashes) else raw hashes ('"' :: acc) rest
  | '\r' :: '\n' :: rest => raw hashes ('\n' :: acc) rest
  | '\r' :: _ => none
  | c :: rest => raw hashes (c :: acc) rest
  | [] => none

def rawStart (cs : Rest) : Option (List Char × Rest) :=
  let hashes := (cs.takeWhile (· == '#')).length
  match cs.drop hashes with
  | '"' :: rest => raw hashes [] rest
  | _ => none

def suffix (cs : Rest) : Rest :=
  match cs with
  | c :: _ => if isWordStart c then cs.dropWhile isWordChar else cs
  | [] => []

def sourceOf (cs rest : Rest) : String := String.ofList (cs.take (cs.length - rest.length))

def literal (cs rest : Rest) (value : Literal) : Token × Rest :=
  let rest := suffix rest
  (.literal (sourceOf cs rest) value,rest)

def character (cs : Rest) : Option Rest :=
  match cs with
  | '\\' :: rest => do
    let (_,rest) ← escape rest
    match rest with
    | '\'' :: rest => some rest
    | _ => none
  | '\'' :: _ => none
  | _ :: '\'' :: rest => some rest
  | _ => none

def bytes (cs : Rest) : Option Rest :=
  match cs with
  | '\'' :: rest => character rest
  | '"' :: rest => (cooked (rest.length + 1) [] rest).map (·.2)
  | 'r' :: rest => (rawStart rest).map (·.2)
  | _ => none

def textLiteral (cs : Rest) : Option (Token × Rest) :=
  match cs with
  | '"' :: rest => (cooked (rest.length + 1) [] rest).map fun (t,rest) => literal cs rest (.text (String.ofList t))
  | 'r' :: rest => (rawStart rest).map fun (t,rest) => literal cs rest (.text (String.ofList t))
  | 'b' :: rest => (bytes rest).map fun rest => literal cs rest .other
  | 'c' :: '"' :: rest => (cooked (rest.length + 1) [] rest).map fun (_,rest) => literal cs rest .other
  | 'c' :: 'r' :: rest => (rawStart rest).map fun (_,rest) => literal cs rest .other
  | '\'' :: rest => (character rest).map fun rest => literal cs rest .other
  | _ => none

def digitOf? (base : Nat) (c : Char) : Option Nat := (hexValue c).bind fun d => if d < base then some d else none

def based (base : Nat) (cs : Rest) : Option (Nat × Rest) :=
  let digits := cs.takeWhile fun c => c == '_' || (digitOf? base c).isSome
  if digits.all (· == '_') then none
  else some ((digits.filterMap (digitOf? base)).foldl (fun n d => base * n + d) 0,cs.drop digits.length)

def isDecimal (c : Char) : Bool := isDigit c || c == '_'

def significant (cs : Rest) : List Char := cs.filter (· != '_')

def exponent : Rest → Option (List Char × Rest)
  | e :: cs =>
    if e = 'e' ∨ e = 'E' then
      let sign := cs.takeWhile fun c => c == '+' || c == '-'
      let digits := (cs.drop sign.length).takeWhile isDecimal
      if sign.length ≤ 1 && digits.any isDigit then
        some ('e' :: (sign ++ significant digits),cs.drop (sign.length + digits.length))
      else none
    else none
  | [] => none

def fraction : Rest → List Char × Rest
  | '.' :: cs =>
    match cs.head? with
    | some c => if c = '.' ∨ isWordStart c then ([],'.' :: cs)
      else ('.' :: significant (cs.takeWhile isDecimal),cs.dropWhile isDecimal)
    | none => (['.'],[])
  | cs => ([],cs)

def decimal (cs : Rest) : List Char × Rest :=
  let whole := cs.takeWhile isDecimal
  let (part,rest) := fraction (cs.drop whole.length)
  match exponent rest with
  | some (e,rest) => (significant whole ++ part ++ e,rest)
  | none => (significant whole ++ part,rest)

def numberLiteral (cs : Rest) : Option (Token × Rest) :=
  let inBase (base : Nat) (rest : Rest) : Option (Token × Rest) :=
    (based base rest).map fun (n,rest) => literal cs rest (.number (toString n))
  match cs with
  | '0' :: 'x' :: rest => inBase 16 rest
  | '0' :: 'o' :: rest => inBase 8 rest
  | '0' :: 'b' :: rest => inBase 2 rest
  | c :: _ =>
    if isDigit c then
      let (digits,rest) := decimal cs
      some (literal cs rest (.number (String.ofList digits)))
    else none
  | [] => none

def wordOf (cs : Rest) : Option (Token × Rest) :=
  let plain (cs : Rest) : Option (List Char × Rest) :=
    match cs with
    | c :: _ => if isWordStart c then some (cs.takeWhile isWordChar,cs.dropWhile isWordChar) else none
    | [] => none
  match cs with
  | 'r' :: '#' :: rest => (plain rest).map fun (w,rest) => (.word (String.ofList ('r' :: '#' :: w)),rest)
  | cs => (plain cs).map fun (w,rest) => (.word (String.ofList w),rest)

def markOf (cs : Rest) : Option (Token × Rest) :=
  if beginsComment cs then none
  else match cs with
    | '\'' :: rest =>
      match wordOf rest with
      | some (_,after) => if after.head? = some '\'' then none else some (.mark '\'' true,rest)
      | none => none
    | c :: rest => if marks.contains c then some (.mark c (beginsMark rest),rest) else none
    | [] => none

def commentEnd : Nat → Nat → Rest → Option Rest
  | 0,_,_ => none
  | fuel + 1,depth,cs =>
    match cs with
    | '*' :: '/' :: rest => if depth ≤ 1 then some rest else commentEnd fuel (depth - 1) rest
    | '/' :: '*' :: rest => commentEnd fuel (depth + 1) rest
    | _ :: rest => commentEnd fuel depth rest
    | [] => none

def lineOf (cs : Rest) : List Char × Rest := (cs.takeWhile (· != '\n'),cs.dropWhile (· != '\n'))

def documenting (inner : Bool) (text : List Char) : List Lexeme :=
  [.token (.mark '#' false)] ++ (if inner then [.token (.mark '!' false)] else []) ++
    [.token (.group .bracket [.word "doc",.mark '=' false,
      .literal (quote (String.ofList text)) (.text (String.ofList text))])]

def comment (cs : Rest) : Option (List Lexeme × Rest) :=
  let block (rest : Rest) : Option (List Char × Rest) :=
    (commentEnd (rest.length + 1) 1 rest).map fun after => (rest.take (rest.length - after.length - 2),after)
  match cs with
  | '/' :: '/' :: '/' :: '/' :: rest => some ([],(lineOf rest).2)
  | '/' :: '/' :: '/' :: rest => let (t,rest) := lineOf rest; some (documenting false t,rest)
  | '/' :: '/' :: '!' :: rest => let (t,rest) := lineOf rest; some (documenting true t,rest)
  | '/' :: '/' :: rest => some ([],(lineOf rest).2)
  | '/' :: '*' :: '*' :: '*' :: rest => (block ('*' :: '*' :: rest)).map fun (_,rest) => ([],rest)
  | '/' :: '*' :: '*' :: '/' :: rest => some ([],rest)
  | '/' :: '*' :: '*' :: rest => (block rest).map fun (t,rest) => (documenting false t,rest)
  | '/' :: '*' :: '!' :: rest => (block rest).map fun (t,rest) => (documenting true t,rest)
  | '/' :: '*' :: rest => (block rest).map fun (_,rest) => ([],rest)
  | _ => none

def delimiter : Char → Option Lexeme
  | '(' => some (.opens .paren)
  | '[' => some (.opens .bracket)
  | '\x7b' => some (.opens .brace)
  | ')' => some (.closes .paren)
  | ']' => some (.closes .bracket)
  | '\x7d' => some (.closes .brace)
  | _ => none

def leaf (cs : Rest) : Option (Token × Rest) :=
  (textLiteral cs).or ((numberLiteral cs).or ((markOf cs).or (wordOf cs)))

def lexemes : Nat → Rest → Option (List Lexeme)
  | _,[] => some []
  | 0,_ => none
  | fuel + 1,c :: cs =>
    if isBlank c then lexemes fuel cs
    else match delimiter c with
      | some l => (lexemes fuel cs).map (l :: ·)
      | none =>
        match comment (c :: cs) with
        | some (ls,rest) => (lexemes fuel rest).map (ls ++ ·)
        | none => (leaf (c :: cs)).bind fun (t,rest) => (lexemes fuel rest).map (.token t :: ·)

-- Groups from their beginnings and ends: what is open is a stack of delimiters with what stood
-- before each, and the tokens of the innermost group, both in reverse.
def grouped (stack : List (Delimiter × List Token)) (here : List Token) : List Lexeme → Option (List Token)
  | [] => if stack.isEmpty then some here.reverse else none
  | .token t :: rest => grouped stack (t :: here) rest
  | .opens d :: rest => grouped ((d,here) :: stack) [] rest
  | .closes d :: rest =>
    match stack with
    | (e,before) :: stack => if d = e then grouped stack (.group d here.reverse :: before) rest else none
    | [] => none

end Lexer

def tokensOf? (s : String) : Option (List Token) :=
  (Lexer.lexemes (s.length + 1) s.toList).bind (Lexer.grouped [] [])

end ServiceKit.Derive
