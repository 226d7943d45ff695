import ServiceKit.Import.Csv
import ServiceKit.Text.Blank

namespace ServiceKit.Import

structure RawRow where
  line : Nat
  fields : Members
deriving DecidableEq, Repr

def RawRow.toJson (r : RawRow) : Json := .object r.fields

namespace Row

def named (header cells : List String) : List (String × String) :=
  (header.zip cells).filter fun p => !p.1.isEmpty

def put (ms : Members) (p : String × String) : Members := ms.insert p.1 (.string p.2)

def fill (ms : Members) (name : String) : Members := if ms.get? name = none then ms.insert name (.string "") else ms

def build (line : Nat) (header cells : List String) : Option RawRow :=
  let cells := named header cells
  if cells.all fun p => Text.allBlank p.2 then none
  else some ⟨line,(header.filter fun n => !n.isEmpty).foldl fill (cells.foldl put [])⟩

def header (cells : List String) : List String := cells.map Text.trim

-- Rows of the records after the header, the first of which is on line 2.
def buildAll (header : List String) (line : Nat) : List (List String) → List RawRow
  | [] => []
  | cells :: rest => (build line header cells).toList ++ buildAll header (line + 1) rest

end Row

-- What a reader yields: rows, and after them the error that stopped it if one did.
structure RowSource where
  rows : List RawRow
  failure : Option ImportError
deriving DecidableEq, Repr

namespace RowSource

def failed (e : ImportError) : RowSource := ⟨[],some e⟩

def csvRows (header : List String) (line : Nat) : List Csv.Record → RowSource
  | [] => ⟨[],none⟩
  | r :: rest =>
    match r.texts with
    | .error e => .failed e
    | .ok cells =>
      let more := csvRows header (line + 1) rest
      { more with rows := (Row.build line header cells).toList ++ more.rows }

def ofCsv (bs : Text.Bytes) : RowSource :=
  match Csv.records bs with
  | [] => .failed .missingHeader
  | first :: rest =>
    match first.texts with
    | .error e => .failed e
    | .ok cells => csvRows (Row.header cells) 2 rest

end RowSource
end ServiceKit.Import
