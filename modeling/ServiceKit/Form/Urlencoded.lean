import ServiceKit.Json
import ServiceKit.Binary64.Text

namespace ServiceKit.Form
open Text (Bytes)

def plain (b : UInt8) : Bool :=
  b == 42 || b == 45 || b == 46 || b == 95 || (decide (48 ≤ b) && decide (b ≤ 57)) ||
    (decide (65 ≤ b) && decide (b ≤ 90)) || (decide (97 ≤ b) && decide (b ≤ 122))

def upperHex (n : Nat) : UInt8 := if n < 10 then UInt8.ofNat (48 + n) else UInt8.ofNat (55 + n)

def encodeByte (b : UInt8) : Bytes :=
  if plain b then [b]
  else if b = 32 then [43]
  else [37,upperHex (b.toNat / 16),upperHex (b.toNat % 16)]

def encodeText (s : String) : Bytes := (Text.utf8 s).flatMap encodeByte

def encodePair (p : String × String) : Bytes := encodeText p.1 ++ 61 :: encodeText p.2

def encode : List (String × String) → Bytes
  | [] => []
  | [p] => encodePair p
  | p :: q :: rest => encodePair p ++ 38 :: encode (q :: rest)

-- Plus signs are blanks; a percent sign without two hexadecimal digits stands for itself.
def decodeBytes : Bytes → Bytes
  | [] => []
  | 37 :: a :: b :: rest =>
    match Text.hexByteValue a,Text.hexByteValue b with
    | some x,some y => UInt8.ofNat (16 * x + y) :: decodeBytes rest
    | _,_ => 37 :: decodeBytes (a :: b :: rest)
  | c :: rest => (if c = 43 then 32 else c) :: decodeBytes rest

def decodeText (bs : Bytes) : String := Text.lenient (decodeBytes bs)

def pieces (sep : UInt8) : Bytes → List Bytes
  | [] => [[]]
  | b :: rest =>
    match pieces sep rest with
    | [] => [[b]]
    | p :: ps => if b = sep then [] :: p :: ps else (b :: p) :: ps

def decodePair (bs : Bytes) : String × String :=
  (decodeText (bs.takeWhile (· != 61)),decodeText ((bs.dropWhile (· != 61)).drop 1))

def decode (bs : Bytes) : List (String × String) :=
  ((pieces 38 bs).filter fun p => !p.isEmpty).map decodePair

inductive FormFault where
  | value
  | pair
  | top
deriving DecidableEq, Repr

def FormFault.message : FormFault → String
  | .value => "unsupported value"
  | .pair => "unsupported pair"
  | .top => "top-level serializer supports only maps and structs"

def plainText : Json → Except FormFault String
  | .string s => .ok s
  | .bool b => .ok (if b then "true" else "false")
  | .number (.int i) => .ok (toString i)
  | .number (.float x) => .ok (Binary64.Layout.form.text x)
  | _ => .error .value

def encodeJson : Json → Except FormFault Bytes
  | .object ms => do return encode (← ms.mapM fun m => do return (m.1,← plainText m.2))
  | .array [] | .null => .ok []
  | .array _ => .error .pair
  | _ => .error .top

end ServiceKit.Form
