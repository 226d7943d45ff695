import ServiceKit.Import.FileKind

namespace ServiceKit.Import.Csv
open Text (Bytes)

structure Place where
  line : Nat
  byte : Nat
deriving DecidableEq, Repr

structure Record where
  index : Nat
  start : Place
  fields : List Bytes
deriving DecidableEq, Repr

inductive Mode where
  | recordStart
  | fieldStart
  | bare
  | quoted
  | quoteSeen
  | afterReturn
deriving DecidableEq, Repr

-- Fields and the bytes of the current one are kept in reverse.
structure State where
  mode : Mode
  field : Bytes
  fields : List Bytes
  index : Nat
  start : Place
  here : Place
deriving DecidableEq, Repr

def comma : UInt8 := 44
def quote : UInt8 := 34
def feed : UInt8 := 10
def carriage : UInt8 := 13

def ends (b : UInt8) : Bool := b == feed || b == carriage

namespace State

def initial (byte : Nat) : State := ⟨.recordStart,[],[],0,⟨1,0⟩,⟨1,byte⟩⟩

def pass (s : State) (b : UInt8) : State :=
  { s with here := ⟨if b = feed then s.here.line + 1 else s.here.line,s.here.byte + 1⟩ }

def record (s : State) : Record := ⟨s.index,s.start,(s.field.reverse :: s.fields).reverse⟩

def close (s : State) (b : UInt8) : Option Record × State :=
  (some s.record,
    ⟨if b = carriage then .afterReturn else .recordStart,[],[],s.index + 1,s.here,s.here⟩)

def endField (s : State) : State := { s with mode := .fieldStart,field := [],fields := s.field.reverse :: s.fields }

def copy (s : State) (b : UInt8) (mode : Mode) : State := { s with mode := mode,field := b :: s.field }

def atField (s : State) (b : UInt8) : Option Record × State :=
  if b = quote then (none,{ s with mode := .quoted })
  else if b = comma then (none,s.endField)
  else if ends b then s.close b
  else (none,s.copy b .bare)

def atRecord (s : State) (b : UInt8) : Option Record × State :=
  if ends b then (none,{ s with mode := .recordStart }) else s.atField b

def inField (s : State) (b : UInt8) : Option Record × State :=
  if b = comma then (none,s.endField)
  else if ends b then s.close b
  else (none,s.copy b .bare)

def step (s : State) (b : UInt8) : Option Record × State :=
  let s := s.pass b
  match s.mode with
  | .recordStart => s.atRecord b
  | .afterReturn => if b = feed then (none,{ s with mode := .recordStart }) else s.atRecord b
  | .fieldStart => s.atField b
  | .bare => s.inField b
  | .quoted => if b = quote then (none,{ s with mode := .quoteSeen }) else (none,s.copy b .quoted)
  | .quoteSeen => if b = quote then (none,s.copy b .quoted) else s.inField b

def finish (s : State) : Option Record :=
  match s.mode with
  | .recordStart | .afterReturn => none
  | _ => some s.record

end State

def recordsFrom (s : State) : Bytes → List Record
  | [] => s.finish.toList
  | b :: bs =>
    match s.step b with
    | (some r,s) => r :: recordsFrom s bs
    | (none,s) => recordsFrom s bs

-- A byte order mark at the front is passed over.
def records (bs : Bytes) : List Record :=
  match bs with
  | 0xEF :: 0xBB :: 0xBF :: rest => recordsFrom (.initial 3) rest
  | _ => recordsFrom (.initial 0) bs

def brokenField (place : Nat) : List Bytes → Option (Nat × Nat)
  | [] => none
  | f :: fs =>
    match Text.firstBreak f with
    | some k => some (place,k.valid)
    | none => brokenField (place + 1) fs

def Record.texts (r : Record) : Except ImportError (List String) :=
  match brokenField 0 r.fields with
  | none => .ok (r.fields.map Text.lenient)
  | some (field,valid) =>
    .error (.csv (s!"CSV parse error: record {r.index} (line {r.start.line}, field: {field}, byte: {r.start.byte}): " ++
      s!"invalid utf-8: invalid UTF-8 in field {field} near byte index {valid}"))

end ServiceKit.Import.Csv
