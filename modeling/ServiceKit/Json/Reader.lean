import ServiceKit.Json
import ServiceKit.Json.Cursor

namespace ServiceKit.Json.Reader
open Text (Bytes)

def isSpace (b : UInt8) : Bool := b == 32 || b == 10 || b == 9 || b == 13

def blanks : Reader (Option UInt8) := do
  let n := ((← get).rest.takeWhile isSpace).length
  modify (Cursor.advanceBy n)
  peek

def isDigitByte (b : UInt8) : Bool := decide (48 ≤ b) && decide (b ≤ 57)

def takeDigits : Reader (List UInt8) := do
  let ds := (← get).rest.takeWhile isDigitByte
  modify (Cursor.advanceBy ds.length)
  return ds

def word : List UInt8 → Reader Unit
  | [] => pure ()
  | expected :: more => do
    match ← next with
    | none => here .endInValue
    | some b => if b = expected then word more else here .expectedIdent

def bytesOf (s : String) : List UInt8 := s.toList.map fun c => c.toNat.toUInt8

structure Digits where
  significand : Nat
  taken : Nat
  dropped : Nat

def absorb (start : Nat) : List UInt8 → Digits
  | [] => ⟨start,0,0⟩
  | d :: ds =>
    let n := start * 10 + (d.toNat - 48)
    if n < Nat.pow 2 64 then
      let more := absorb n ds
      { more with taken := more.taken + 1 }
    else ⟨start,0,ds.length + 1⟩

def powerOfTen (k : Nat) : Binary64 := Binary64.roundRatio false (Nat.pow 10 k) 1

-- A significand scaled by a power of ten in steps of at most 308, each step rounded.
def scale : Nat → Binary64 → Int → Option Binary64
  | 0,f,_ => some f
  | fuel + 1,f,e =>
    if e.natAbs ≤ 308 then
      if e ≥ 0 then
        let g := f.mul (powerOfTen e.natAbs)
        if g.isFinite then some g else none
      else some (f.div (powerOfTen e.natAbs))
    else if f.isZero then some f
    else if e ≥ 0 then none
    else scale fuel (f.div (powerOfTen 308)) (e + 308)

def fromParts (positive : Bool) (significand : Nat) (exponent : Int) : Reader Number := do
  match scale 8 (Binary64.ofNat significand) exponent with
  | none => here .numberOutOfRange
  | some f => return .float (if positive then f else f.negate)

def exponentDigits (positive zero up : Bool) : Nat → Nat → Reader (Option Nat)
  | 0,e => return some e
  | fuel + 1,e => do
    match ← peek with
    | some b =>
      if isDigitByte b then
        eat
        let n := e * 10 + (b.toNat - 48)
        if n < Nat.pow 2 31 then exponentDigits positive zero up fuel n
        else if !zero && up then here .numberOutOfRange
        else do
          let _ ← takeDigits
          return none
      else return some e
    | none => return some e

def exponent (positive : Bool) (significand : Nat) (start : Int) : Reader Number := do
  eat
  let up ← match ← peek with
    | some 43 => do eat; pure true
    | some 45 => do eat; pure false
    | _ => pure true
  match ← next with
  | none => here .endInValue
  | some b =>
    if !isDigitByte b then here .invalidNumber
    else
      let fuel := (← get).rest.length
      match ← exponentDigits positive (significand == 0) up fuel (b.toNat - 48) with
      | none => return .float (Binary64.zero (!positive))
      | some e => fromParts positive significand (if up then start + e else start - e)

def decimals (positive : Bool) (significand : Nat) (start : Int) : Reader Number := do
  eat
  let ds ← takeDigits
  if ds.isEmpty then
    match ← peek with
    | some _ => ahead .invalidNumber
    | none => ahead .endInValue
  else
    let d := absorb significand ds
    let e := start - d.taken
    match ← peek with
    | some b => if b = 101 ∨ b = 69 then exponent positive d.significand e else fromParts positive d.significand e
    | none => fromParts positive d.significand e

def wholeNumber (positive : Bool) (significand : Nat) : Number :=
  if positive then .int significand
  else if significand = 0 ∨ significand > Nat.pow 2 63 then .float (Binary64.ofNat significand).negate
  else .int (-significand)

def afterWhole (positive : Bool) (d : Digits) : Reader Number := do
  match ← peek with
  | some 46 => decimals positive d.significand d.dropped
  | some 101 | some 69 => exponent positive d.significand d.dropped
  | _ =>
    if d.dropped = 0 then return wholeNumber positive d.significand
    else fromParts positive d.significand d.dropped

def unsigned (positive : Bool) : Reader Number := do
  match ← next with
  | none => here .endInValue
  | some b =>
    if b = 48 then
      match ← peek with
      | some c => if isDigitByte c then ahead .invalidNumber else afterWhole positive ⟨0,0,0⟩
      | none => afterWhole positive ⟨0,0,0⟩
    else if isDigitByte b then
      let ds ← takeDigits
      afterWhole positive (absorb (b.toNat - 48) ds)
    else here .invalidNumber

def hexEscape : Reader Nat := do
  match (← get).rest with
  | a :: b :: c :: d :: _ =>
    modify (Cursor.advanceBy 4)
    match Text.hexByteValue a,Text.hexByteValue b,Text.hexByteValue c,Text.hexByteValue d with
    | some a,some b,some c,some d => return ((a * 16 + b) * 16 + c) * 16 + d
    | _,_,_,_ => here .invalidEscape
  | rest =>
    modify (Cursor.advanceBy rest.length)
    here .endInString

def nextOrEnd : Reader UInt8 := do
  match ← next with
  | some b => return b
  | none => here .endInString

def peekOrEnd : Reader UInt8 := do
  match ← peek with
  | some b => return b
  | none => here .endInString

def unicodeEscape : Reader Bytes := do
  let n ← hexEscape
  if 0xDC00 ≤ n ∧ n ≤ 0xDFFF then here .loneSurrogate
  else if n < 0xD800 ∨ 0xDBFF < n then return String.utf8EncodeChar (Char.ofNat n)
  else
    let b ← peekOrEnd
    eat
    if b ≠ 92 then here .endOfHexEscape
    else
      let b ← peekOrEnd
      eat
      if b ≠ 117 then here .endOfHexEscape
      else
        let m ← hexEscape
        if m < 0xDC00 ∨ 0xDFFF < m then here .loneSurrogate
        else return String.utf8EncodeChar (Char.ofNat (0x10000 + (n - 0xD800) * 0x400 + (m - 0xDC00)))

def escapeSequence : Reader Bytes := do
  match ← nextOrEnd with
  | 34 => return [34]
  | 92 => return [92]
  | 47 => return [47]
  | 98 => return [8]
  | 102 => return [12]
  | 110 => return [10]
  | 114 => return [13]
  | 116 => return [9]
  | 117 => unicodeEscape
  | _ => here .invalidEscape

def stringBytes : Nat → Bytes → Reader Bytes
  | 0,_ => here .endInString
  | fuel + 1,acc => do
    match ← peek with
    | none => here .endInString
    | some 34 => eat; return acc.reverse
    | some 92 =>
      eat
      let bs ← escapeSequence
      stringBytes fuel (bs.reverse ++ acc)
    | some b =>
      eat
      if b < 32 then here .controlCharacter else stringBytes fuel (b :: acc)

def stringBody : Reader String := do
  let fuel := (← get).rest.length + 1
  let bs ← stringBytes fuel []
  match Text.ofUtf8? bs with
  | some s => return s
  | none => here .invalidCodePoint

def moreItems (first : Bool) : Reader Bool := do
  match ← blanks with
  | none => ahead .endInList
  | some 93 => return false
  | some b =>
    if first then return true
    else if b = 44 then
      eat
      match ← blanks with
      | some 93 => ahead .trailingComma
      | some _ => return true
      | none => ahead .endInValue
    else ahead .expectedListCommaOrEnd

def keyAhead (b : Option UInt8) : Reader Bool := do
  match b with
  | some 34 => return true
  | some 125 => ahead .trailingComma
  | some _ => ahead .keyNotString
  | none => ahead .endInValue

def moreMembers (first : Bool) : Reader Bool := do
  match ← blanks with
  | none => ahead .endInObject
  | some 125 => return false
  | some b =>
    if first then keyAhead (some b)
    else if b = 44 then
      eat
      keyAhead (← blanks)
    else ahead .expectedObjectCommaOrEnd

def colon : Reader Unit := do
  match ← blanks with
  | some 58 => eat
  | some _ => ahead .expectedColon
  | none => ahead .endInObject

def endList : Reader Unit := do
  match ← blanks with
  | some 93 => eat
  | some 44 =>
    eat
    match ← blanks with
    | some 93 => ahead .trailingComma
    | _ => ahead .trailingCharacters
  | some _ => ahead .trailingCharacters
  | none => ahead .endInList

def endObject : Reader Unit := do
  match ← blanks with
  | some 125 => eat
  | some 44 => ahead .trailingComma
  | some _ => ahead .trailingCharacters
  | none => ahead .endInObject

def key : Reader String := do
  eat
  stringBody

def finish : Reader Unit := do
  match ← blanks with
  | some _ => ahead .trailingCharacters
  | none => pure ()

def depthLimit : Nat := 128

mutual
def value : Nat → Nat → Reader Json
  | 0,_ => ahead .endInValue
  | fuel + 1,depth => do
    match ← blanks with
    | none => ahead .endInValue
    | some 110 => eat; word (bytesOf "ull"); return .null
    | some 116 => eat; word (bytesOf "rue"); return .bool true
    | some 102 => eat; word (bytesOf "alse"); return .bool false
    | some 45 => eat; return .number (← unsigned false)
    | some 34 => eat; return .string (← stringBody)
    | some 91 =>
      if depth ≤ 1 then ahead .tooDeep
      else
        eat
        andThen (do return .array (← items fuel (depth - 1) true)) endList
    | some 123 =>
      if depth ≤ 1 then ahead .tooDeep
      else
        eat
        andThen (do return .object (Members.ofPairs (← members fuel (depth - 1) true))) endObject
    | some b => if isDigitByte b then return .number (← unsigned true) else ahead .expectedValue
def items : Nat → Nat → Bool → Reader (List Json)
  | 0,_,_ => ahead .endInValue
  | fuel + 1,depth,first => do
    if ← moreItems first then
      let x ← value fuel depth
      return x :: (← items fuel depth false)
    else return []
def members : Nat → Nat → Bool → Reader (List (String × Json))
  | 0,_,_ => ahead .endInValue
  | fuel + 1,depth,first => do
    if ← moreMembers first then
      let k ← key
      colon
      let x ← value fuel depth
      return (k,x) :: (← members fuel depth false)
    else return []
end

def skipDecimals : Reader Unit := do
  eat
  let ds ← takeDigits
  if ds.isEmpty then ahead .invalidNumber else pure ()

def skipExponent : Reader Unit := do
  eat
  match ← peek with
  | some 43 | some 45 => eat
  | _ => pure ()
  match ← next with
  | some b =>
    if isDigitByte b then do let _ ← takeDigits
    else here .invalidNumber
  | none => here .invalidNumber

def skipNumber : Reader Unit := do
  match ← next with
  | some 48 =>
    match ← peek with
    | some b => if isDigitByte b then ahead .invalidNumber else pure ()
    | none => pure ()
  | some b => if isDigitByte b then do let _ ← takeDigits else here .invalidNumber
  | none => here .invalidNumber
  match ← peek with
  | some 46 =>
    skipDecimals
    match ← peek with
    | some 101 | some 69 => skipExponent
    | _ => pure ()
  | some 101 | some 69 => skipExponent
  | _ => pure ()

def skipString : Nat → Reader Unit
  | 0 => here .endInString
  | fuel + 1 => do
    match ← peek with
    | none => here .endInString
    | some 34 => eat
    | some 92 =>
      eat
      match ← nextOrEnd with
      | 34 | 92 | 47 | 98 | 102 | 110 | 114 | 116 => skipString fuel
      | 117 => do let _ ← hexEscape; skipString fuel
      | _ => here .invalidEscape
    | some b =>
      if b < 32 then here .controlCharacter
      else
        eat
        skipString fuel

-- Closes as many open brackets as end here; `comma` says whether an element has just ended.
-- The answer is the stack of brackets still open when another element follows.
def skipClosers : Nat → Bool → List UInt8 → Reader (List UInt8)
  | 0,_,_ => ahead .endInValue
  | _ + 1,_,[] => return []
  | fuel + 1,comma,frame :: outer => do
    match ← blanks with
    | none => ahead (if frame = 91 then .endInList else .endInObject)
    | some b =>
      if b = 44 ∧ comma then
        eat
        return frame :: outer
      else if (b = 93 ∧ frame = 91) ∨ (b = 125 ∧ frame = 123) then
        eat
        skipClosers fuel true outer
      else if comma then ahead (if frame = 91 then .expectedListCommaOrEnd else .expectedObjectCommaOrEnd)
      else return frame :: outer

def skipKey : Reader Unit := do
  match ← blanks with
  | some 34 => eat
  | some _ => ahead .keyNotString
  | none => ahead .endInObject
  skipString ((← get).rest.length + 1)
  match ← blanks with
  | some 58 => eat
  | some _ => ahead .expectedColon
  | none => ahead .endInObject

def skipLoop : Nat → List UInt8 → Reader Unit
  | 0,_ => ahead .endInValue
  | fuel + 1,stack => do
    let opened ← match ← blanks with
      | none => ahead .endInValue
      | some 110 => do eat; word (bytesOf "ull"); pure none
      | some 116 => do eat; word (bytesOf "rue"); pure none
      | some 102 => do eat; word (bytesOf "alse"); pure none
      | some 45 => do eat; skipNumber; pure none
      | some 34 => do eat; skipString ((← get).rest.length + 1); pure none
      | some 91 => do eat; pure (some (91 : UInt8))
      | some 123 => do eat; pure (some (123 : UInt8))
      | some b => if isDigitByte b then do skipNumber; pure none else ahead .expectedValue
    let stack ← match opened with
      | some frame => skipClosers (stack.length + 2) false (frame :: stack)
      | none => skipClosers (stack.length + 2) true stack
    match stack with
    | [] => pure ()
    | frame :: _ =>
      if frame = 123 then skipKey
      skipLoop fuel stack

def skip : Reader Unit := do skipLoop ((← get).rest.length + 1) []

def document (act : Reader α) : Reader α := do
  let a ← act
  finish
  return a

def fuelFor (bs : Bytes) : Nat := 2 * bs.length + 4

end ServiceKit.Json.Reader

namespace ServiceKit.Json
open Text (Bytes)

def readBytes (bs : Bytes) : Except ReadError Json :=
  (Reader.document (Reader.value (Reader.fuelFor bs) Reader.depthLimit)).run bs

def read (s : String) : Except ReadError Json := readBytes (Text.utf8 s)

end ServiceKit.Json
