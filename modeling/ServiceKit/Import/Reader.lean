import ServiceKit.Import.Decoder

namespace ServiceKit.Import

-- What a reader has sent, and how it ended: with the number of rows, or with an error.
structure Reading where
  sent : List RawRow
  result : Except ImportError Nat
deriving Repr

namespace Reader

abbrev Receiver := Nat → Bool

abbrev Line := Except ImportError (List String)

def feed (receives : Receiver) (header : List String) (line count : Nat) : List Line → Reading
  | [] => ⟨[],.ok count⟩
  | .error e :: _ => ⟨[],.error e⟩
  | .ok cells :: rest =>
    match Row.build line header cells with
    | none => feed receives header (line + 1) count rest
    | some row =>
      if receives count then
        let later := feed receives header (line + 1) (count + 1) rest
        { later with sent := row :: later.sent }
      else ⟨[],.ok count⟩

def read (receives : Receiver) : List Line → Reading
  | [] => ⟨[],.error .missingHeader⟩
  | .error e :: _ => ⟨[],.error e⟩
  | .ok cells :: rest => feed receives (Row.header cells) 2 0 rest

-- The records of a file, the header among them; a workbook is decoded as a whole.
def lines (d : Decoder) (kind : FileKind) (sheet : Option String) (bs : Text.Bytes) : Except ImportError (List Line) :=
  match kind with
  | .csv => .ok ((Csv.records bs).map Csv.Record.texts)
  | .xlsx => (Book.opened sheet (d.xlsx bs)).map fun lines => lines.map .ok
  | .xls => (Book.opened sheet (d.xls bs)).map fun lines => lines.map .ok

def run (receives : Receiver) (d : Decoder) (kind : FileKind) (sheet : Option String) (bs : Text.Bytes) : Reading :=
  match lines d kind sheet bs with
  | .error e => ⟨[],.error e⟩
  | .ok lines => read receives lines

end Reader

def Reading.source (r : Reading) : RowSource :=
  ⟨r.sent,match r.result with
    | .ok _ => none
    | .error e => some e⟩

end ServiceKit.Import
