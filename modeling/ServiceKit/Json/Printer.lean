import ServiceKit.Json
import ServiceKit.Binary64.Text

namespace ServiceKit.Json

def escape (c : Char) : List Char :=
  if c = '"' then ['\\','"']
  else if c = '\\' then ['\\','\\']
  else if c.toNat < 0x20 then
    match c.toNat with
    | 8 => ['\\','b']
    | 9 => ['\\','t']
    | 10 => ['\\','n']
    | 12 => ['\\','f']
    | 13 => ['\\','r']
    | n => ['\\','u','0','0',Text.hexDigit (n / 16),Text.hexDigit (n % 16)]
  else [c]

def quoted (s : String) : List Char := '"' :: (s.toList.flatMap escape ++ ['"'])

def numberText : Number → List Char
  | .int i => (toString i).toList
  | .float x => (Binary64.Layout.json.text x).toList

mutual
def compactChars : Json → List Char
  | .null => ['n','u','l','l']
  | .bool true => ['t','r','u','e']
  | .bool false => ['f','a','l','s','e']
  | .number n => numberText n
  | .string s => quoted s
  | .array items => '[' :: (compactItems items ++ [']'])
  | .object members => '{' :: (compactMembers members ++ ['}'])
def compactItems : List Json → List Char
  | [] => []
  | [x] => compactChars x
  | x :: y :: rest => compactChars x ++ ',' :: compactItems (y :: rest)
def compactMembers : List (String × Json) → List Char
  | [] => []
  | [(k,x)] => quoted k ++ ':' :: compactChars x
  | (k,x) :: m :: rest => quoted k ++ ':' :: (compactChars x ++ ',' :: compactMembers (m :: rest))
end

def compact (j : Json) : String := String.ofList j.compactChars

def lineBreak (depth : Nat) : List Char := '\n' :: List.replicate (2 * depth) ' '

mutual
def prettyChars (depth : Nat) : Json → List Char
  | .array [] => ['[',']']
  | .array (x :: xs) => '[' :: (prettyItems (depth + 1) (x :: xs) ++ lineBreak depth ++ [']'])
  | .object [] => ['{','}']
  | .object (m :: ms) => '{' :: (prettyMembers (depth + 1) (m :: ms) ++ lineBreak depth ++ ['}'])
  | .null => ['n','u','l','l']
  | .bool true => ['t','r','u','e']
  | .bool false => ['f','a','l','s','e']
  | .number n => numberText n
  | .string s => quoted s
def prettyItems (depth : Nat) : List Json → List Char
  | [] => []
  | [x] => lineBreak depth ++ prettyChars depth x
  | x :: y :: rest => lineBreak depth ++ prettyChars depth x ++ ',' :: prettyItems depth (y :: rest)
def prettyMembers (depth : Nat) : List (String × Json) → List Char
  | [] => []
  | [(k,x)] => lineBreak depth ++ quoted k ++ ':' :: ' ' :: prettyChars depth x
  | (k,x) :: m :: rest =>
    lineBreak depth ++ quoted k ++ ':' :: ' ' :: (prettyChars depth x ++ ',' :: prettyMembers depth (m :: rest))
end

def pretty (j : Json) : String := String.ofList (j.prettyChars 0)

def bytes (j : Json) : Text.Bytes := Text.utf8 j.compact

end ServiceKit.Json
