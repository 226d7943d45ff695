import ServiceKit.Import.Row
import ServiceKit.Text.Quoted

namespace ServiceKit.Import
open Text (Bytes)

-- How the opening of a workbook or the reading of a sheet fails: it says why, or its task panics.
inductive Fault where
  | refused (message : String)
  | panicked (message : String)
deriving DecidableEq, Repr

-- The reader is the first task of an import.
def Fault.toError : Fault → ImportError
  | .refused m => .spreadsheet m
  | .panicked m => .reader ("task 1 panicked with message " ++ Text.quote m)

-- A workbook that was opened: the names of its sheets in their order, and the rows of a sheet with its cells as texts.
structure Book where
  sheets : List String
  rows : String → Except Fault (List (List String))

structure Decoder where
  xlsx : Bytes → Except Fault Book
  xls : Bytes → Except Fault Book

namespace Book

def table (sheet : Option String) (b : Book) : Except ImportError (List (List String)) := do
  let name ← match sheet,b.sheets with
    | some name,_ | none,name :: _ => .ok name
    | none,[] => .error .missingHeader
  if b.sheets.contains name then (b.rows name).mapError Fault.toError else .error (.sheetNotFound name)

def opened (sheet : Option String) : Except Fault Book → Except ImportError (List (List String))
  | .error e => .error e.toError
  | .ok b => b.table sheet

end Book

namespace RowSource

def ofBook (sheet : Option String) (r : Except Fault Book) : RowSource :=
  match Book.opened sheet r with
  | .error e => .failed e
  | .ok [] => .failed .missingHeader
  | .ok (header :: lines) => ⟨Row.buildAll (Row.header header) 2 lines,none⟩

def ofFile (d : Decoder) (kind : FileKind) (sheet : Option String) (bs : Bytes) : RowSource :=
  match kind with
  | .csv => ofCsv bs
  | .xlsx => ofBook sheet (d.xlsx bs)
  | .xls => ofBook sheet (d.xls bs)

end RowSource
end ServiceKit.Import
