import ServiceKit.Text.Utf8

namespace ServiceKit.Json
open Text (Bytes)

structure Cursor where
  rest : Bytes
  line : Nat
  column : Nat
deriving DecidableEq, Repr

def Cursor.start (bs : Bytes) : Cursor := ⟨bs,1,0⟩

def Cursor.advance (c : Cursor) : Cursor :=
  match c.rest with
  | [] => c
  | b :: rest => if b = 10 then ⟨rest,c.line + 1,0⟩ else ⟨rest,c.line,c.column + 1⟩

def Cursor.advanceBy : Nat → Cursor → Cursor
  | 0,c => c
  | n + 1,c => advanceBy n c.advance

inductive Fault where
  | endInList | endInObject | endInString | endInValue
  | expectedColon | expectedListCommaOrEnd | expectedObjectCommaOrEnd
  | expectedIdent | expectedValue | invalidEscape | invalidNumber | numberOutOfRange
  | invalidCodePoint | controlCharacter | keyNotString | loneSurrogate
  | trailingComma | trailingCharacters | endOfHexEscape | tooDeep
  | data (message : String)
deriving DecidableEq, Repr

def Fault.message : Fault → String
  | .endInList => "EOF while parsing a list"
  | .endInObject => "EOF while parsing an object"
  | .endInString => "EOF while parsing a string"
  | .endInValue => "EOF while parsing a value"
  | .expectedColon => "expected `:`"
  | .expectedListCommaOrEnd => "expected `,` or `]`"
  | .expectedObjectCommaOrEnd => "expected `,` or `\x7d`"
  | .expectedIdent => "expected ident"
  | .expectedValue => "expected value"
  | .invalidEscape => "invalid escape"
  | .invalidNumber => "invalid number"
  | .numberOutOfRange => "number out of range"
  | .invalidCodePoint => "invalid unicode code point"
  | .controlCharacter => "control character (\\u0000-\\u001F) found while parsing a string"
  | .keyNotString => "key must be a string"
  | .loneSurrogate => "lone leading surrogate in hex escape"
  | .trailingComma => "trailing comma"
  | .trailingCharacters => "trailing characters"
  | .endOfHexEscape => "unexpected end of hex escape"
  | .tooDeep => "recursion limit exceeded"
  | .data message => message

-- A fault in the data itself has no place until an enclosing reader gives it its own.
structure ReadError where
  fault : Fault
  place : Option (Nat × Nat)
deriving DecidableEq, Repr

def ReadError.message (e : ReadError) : String :=
  match e.place with
  | none => e.fault.message
  | some (line,column) => s!"{e.fault.message} at line {line} column {column}"

abbrev Reader := EStateM ReadError Cursor

namespace Reader

def here (f : Fault) : Reader α := do
  let c ← get
  throw ⟨f,some (c.line,c.column)⟩

def ahead (f : Fault) : Reader α := do
  let c := (← get).advance
  throw ⟨f,some (c.line,c.column)⟩

def data (message : String) : Reader α := throw ⟨.data message,none⟩

def peek : Reader (Option UInt8) := do return (← get).rest.head?

def eat : Reader Unit := modify Cursor.advance

def next : Reader (Option UInt8) := do
  let b ← peek
  if b.isSome then eat
  return b

def placed (act : Reader α) : Reader α := fun c =>
  match act c with
  | .ok a c => .ok a c
  | .error e c => .error (if e.place.isNone then { e with place := some (c.line,c.column) } else e) c

-- Runs the second reader whatever the first one answers; the first fault wins.
def andThen (act : Reader α) (finish : Reader Unit) : Reader α := fun c =>
  match act c with
  | .ok a c =>
    match finish c with
    | .ok _ c => .ok a c
    | .error e c => .error e c
  | .error e c =>
    match finish c with
    | .ok _ c => .error e c
    | .error _ c => .error e c

def run (act : Reader α) (bs : Bytes) : Except ReadError α :=
  match act (Cursor.start bs) with
  | .ok a _ => .ok a
  | .error e _ => .error e

end Reader
end ServiceKit.Json
