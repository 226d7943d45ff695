import ServiceKit.Form.Multipart
import ServiceKit.Http.MediaType
import ServiceKit.Envelope

namespace ServiceKit.Import
open Text (Bytes)

inductive FileKind where
  | xls | xlsx | csv
deriving DecidableEq, Repr

inductive ImportError where
  | missingFile
  | unsupportedKind (described : String)
  | noWorkers
  | missingHeader
  | sheetNotFound (name : String)
  | csv (message : String)
  | spreadsheet (message : String)
  | reader (message : String)
deriving DecidableEq, Repr

namespace ImportError

def message : ImportError → String
  | .missingFile => "no file to import"
  | .unsupportedKind k => "unsupported file kind: " ++ k
  | .noWorkers => "worker count must be at least 1"
  | .missingHeader => "file has no header row"
  | .sheetNotFound name => "sheet not found: " ++ name
  | .csv m => "failed to read csv: " ++ m
  | .spreadsheet m => "failed to read spreadsheet: " ++ m
  | .reader m => "row reader stopped: " ++ m

def kind : ImportError → String
  | .missingFile => "MissingFile"
  | .unsupportedKind _ => "UnsupportedKind"
  | .noWorkers => "NoWorkers"
  | .missingHeader => "MissingHeader"
  | .sheetNotFound _ => "SheetNotFound"
  | .csv _ => "Csv"
  | .spreadsheet _ => "Spreadsheet"
  | .reader _ => "Reader"

def isClient : ImportError → Bool
  | .reader _ => false
  | _ => true

def toFailure (e : ImportError) : Failure :=
  if e.isClient then .envelope (.badRequest e.message "ERROR_IMPORT_FILE") else .bare e.message

end ImportError

namespace FileKind

def extension : FileKind → String
  | .xls => "xls"
  | .xlsx => "xlsx"
  | .csv => "csv"

def isWorkbook (k : FileKind) : Bool := k != .csv

def ofText (s : String) : Except ImportError FileKind :=
  let word := Text.lowered (String.ofList (s.toList.dropWhile (· == '.')))
  match [FileKind.xls,.xlsx,.csv].find? fun k => k.extension == word with
  | some k => .ok k
  | none => .error (.unsupportedKind word)

def ofMediaType (s : String) : Option FileKind := do
  let m ← Http.MediaType.parse s
  match m.type,m.subtype with
  | "text","csv" | "application","csv" => some .csv
  | "application","vnd.ms-excel" => some .xls
  | "application","vnd.openxmlformats-officedocument.spreadsheetml.sheet" => some .xlsx
  | _,_ => none

def detect (f : Form.Upload) : Except ImportError FileKind :=
  match f.extension.bind fun e => (ofText e).toOption with
  | some k => .ok k
  | none =>
    match f.contentType.bind ofMediaType with
    | some k => .ok k
    | none => .error (.unsupportedKind ((f.extension.or f.contentType).getD "unknown"))

end FileKind
end ServiceKit.Import
