import ServiceKit.Import.Archive
import ServiceKit.Import.Markup
import ServiceKit.Import.Decoder
import ServiceKit.Binary64.Text

namespace ServiceKit.Import
open Text (Bytes)

inductive Cell where
  | empty
  | text (s : String)
  | real (x : Binary64)
  | flag (b : Bool)
  | fault (name : String)
deriving DecidableEq, Repr

def Cell.toText : Cell → String
  | .empty => ""
  | .text s => s
  | .real x => Binary64.Layout.plain.text x
  | .flag b => if b then "true" else "false"
  | .fault name => name

structure PlacedCell where
  row : Nat
  column : Nat
  cell : Cell
deriving DecidableEq, Repr

namespace Workbook

def attr? (attrs : List (String × String)) (name : String) : Option String :=
  (attrs.find? fun a => a.1 == name).map (·.2)

-- Reads a text element: one text, or the joined texts of its runs, phonetic ones apart.
structure TextState where
  runs : Option (List Char)
  phonetic : Bool
  inText : Bool
  current : List Char
  ended : Option (List Char)

def TextState.start : TextState := ⟨none,false,false,[],none⟩

def TextState.step (s : TextState) : MarkupEvent → TextState
  | .opens "r" _ => if s.inText then s else { s with runs := some (s.runs.getD []) }
  | .opens "rPh" _ => { s with phonetic := true }
  | .closes "rPh" => { s with phonetic := false }
  | .opens "t" _ => if s.phonetic then s else { s with inText := true,current := [] }
  | .closes "t" =>
    if !s.inText then s
    else match s.runs with
      | some before => { s with inText := false,runs := some (before ++ s.current) }
      | none => { s with inText := false,ended := s.ended.or (some s.current) }
  | .text t => if s.inText then { s with current := s.current ++ t.toList } else s
  | _ => s

def textOf (es : List MarkupEvent) : Option String :=
  let s := es.foldl TextState.step .start
  (s.ended.or s.runs).map String.ofList

def inside (name : String) : List MarkupEvent → List MarkupEvent × List MarkupEvent
  | [] => ([],[])
  | .closes n :: rest => if n = name then ([],rest) else let (a,b) := inside name rest; (.closes n :: a,b)
  | e :: rest => let (a,b) := inside name rest; (e :: a,b)

theorem inside_length (name : String) (es : List MarkupEvent) : (inside name es).2.length ≤ es.length := by
  fun_induction inside name es <;> grind

def sharedTexts (es : List MarkupEvent) : List String :=
  match es with
  | [] => []
  | .opens "si" _ :: rest => (textOf (inside "si" rest).1).toList ++ sharedTexts (inside "si" rest).2
  | _ :: rest => sharedTexts rest
termination_by es.length
decreasing_by
  · have bound := inside_length "si" rest
    simp only [List.length_cons]; omega
  · simp only [List.length_cons]; omega

def faults : List String := ["#DIV/0!","#N/A","#NAME?","#NULL!","#NUM!","#REF!","#VALUE!","#GETTING_DATA"]

def cellValue (shared : List String) (type : Option String) (v : String) : Option Cell :=
  match type with
  | some "s" =>
    if v.isEmpty then some .empty else (shared[Text.digitsValue v.toList]?).map Cell.text
  | some "b" => some (.flag (v != "0"))
  | some "e" => if faults.contains v then some (.fault v) else none
  | some "d" | some "str" => some (.text v)
  | some "n" => if v.isEmpty then some .empty else (Binary64.readText v).map Cell.real
  | none =>
    match Binary64.readText v with
    | some x => some (.real x)
    | none => some (.text v)
  | some _ => none

def textIn : List MarkupEvent → String
  | [] => ""
  | .text t :: rest => t ++ textIn rest
  | _ :: rest => textIn rest

def cellOf (shared : List String) (type : Option String) (value : Cell) (es : List MarkupEvent) : Option Cell :=
  match es with
  | [] => some value
  | .opens name _ :: rest =>
    match name with
    | "is" => cellOf shared type (((textOf (inside "is" rest).1).map Cell.text).getD .empty) (inside "is" rest).2
    | "v" => do
      let c ← cellValue shared type (textIn (inside "v" rest).1)
      cellOf shared type c (inside "v" rest).2
    | "f" => cellOf shared type .empty (inside "f" rest).2
    | _ => none
  | _ :: rest => cellOf shared type value rest
termination_by es.length
decreasing_by
  · have bound := inside_length "is" rest
    simp only [List.length_cons]; omega
  · have bound := inside_length "v" rest
    simp only [List.length_cons]; omega
  · have bound := inside_length "f" rest
    simp only [List.length_cons]; omega
  · simp only [List.length_cons]; omega

def place? (s : String) : Option (Nat × Nat) :=
  let letters := s.toList.takeWhile fun c => !Text.isDigit c
  let digits := s.toList.drop letters.length
  let column := letters.foldl (fun n c => 26 * n + ((Text.upperAscii c).toNat - 64)) 0
  if letters.isEmpty || digits.isEmpty || !digits.all Text.isDigit || Text.digitsValue digits = 0 ||
      !letters.all (fun c => 'A' ≤ Text.upperAscii c && Text.upperAscii c ≤ 'Z') then none
  else some (Text.digitsValue digits - 1,column - 1)

def cells (shared : List String) (row column : Nat) (es : List MarkupEvent) : Option (List PlacedCell) :=
  match es with
  | [] => none
  | .closes "sheetData" :: _ => some []
  | .opens "row" attrs :: rest =>
    match attr? attrs "r" with
    | none => cells shared row column rest
    | some r => if Text.digitsValue r.toList = 0 then none else cells shared (Text.digitsValue r.toList - 1) column rest
  | .closes "row" :: rest => cells shared (row + 1) 0 rest
  | .opens "c" attrs :: rest => do
    let (r,c) ← match attr? attrs "r" with
      | none => some (row,column)
      | some p => place? p
    let cell ← cellOf shared (attr? attrs "t") .empty (inside "c" rest).1
    let more ← cells shared row (c + 1) (inside "c" rest).2
    return (if cell = .empty then more else ⟨r,c,cell⟩ :: more)
  | _ :: rest => cells shared row column rest
termination_by es.length
decreasing_by
  all_goals first
    | (simp only [List.length_cons]; omega)
    | (have bound := inside_length "c" rest; simp only [List.length_cons]; omega)

def at? (cs : List PlacedCell) (row column : Nat) : Cell :=
  ((cs.reverse.find? fun c => c.row == row && c.column == column).map (·.cell)).getD .empty

def rows (cs : List PlacedCell) : List (List String) :=
  match cs with
  | [] => []
  | first :: _ =>
    let top := first.row
    let bottom := (cs.getLastD first).row
    let left := cs.foldl (fun n c => min n c.column) first.column
    let right := cs.foldl (fun n c => max n c.column) first.column
    (List.range' top (bottom + 1 - top)).map fun r =>
      let line := cs.filter fun c => c.row == r
      (List.range' left (right + 1 - left)).map fun c => (at? line r c).toText

structure Sheet where
  name : String
  target : String
deriving DecidableEq, Repr

def relations (es : List MarkupEvent) : List (String × String) :=
  es.filterMap fun e =>
    match e with
    | .opens "Relationship" attrs => do return (← attr? attrs "Id",← attr? attrs "Target")
    | _ => none

def targetPath (t : String) : String :=
  match Text.afterStart "/xl/".toList t.toList,Text.afterStart "xl/".toList t.toList with
  | some rest,_ => "xl/" ++ String.ofList rest
  | none,some _ => t
  | none,none => "xl/" ++ t

def sheets (related : List (String × String)) (es : List MarkupEvent) : Option (List Sheet) :=
  (es.filterMap fun e =>
    match e with
    | .opens "sheet" attrs => some attrs
    | _ => none).mapM fun attrs => do
      let id ← (attrs.find? fun a => a.1 == "r:id").map (·.2)
      let target ← (related.find? fun r => r.1 == id).map (·.2)
      return ⟨(attr? attrs "name").getD "",targetPath target⟩

def broken (what : String) : Fault := .refused what

def markup (bs : Bytes) (dir : List ArchiveEntry) (name : String) : Except Fault (List MarkupEvent) :=
  match Archive.file? bs dir name with
  | some (some content) =>
    match Markup.read content with
    | some es => .ok es
    | none => .error (broken ("malformed " ++ name))
  | _ => .error (broken ("missing " ++ name))

def sharedOf (bs : Bytes) (dir : List ArchiveEntry) : Except Fault (List String) :=
  match Archive.file? bs dir "xl/sharedStrings.xml" with
  | none => .ok []
  | some _ => do return sharedTexts (← markup bs dir "xl/sharedStrings.xml")

def sheetRows (bs : Bytes) (dir : List ArchiveEntry) (shared : List String) (all : List Sheet) (name : String) :
    Except Fault (List (List String)) := do
  match all.find? fun s => s.name == name with
  | none => .error (broken ("missing " ++ name))
  | some sheet =>
    match cells shared 0 0 (← markup bs dir sheet.target) with
    | none => .error (broken "malformed sheet")
    | some cs => .ok (rows cs)

def open_ (bs : Bytes) : Except Fault Book := do
  match Archive.directory? bs with
  | none => .error (broken "not an archive")
  | some dir =>
    let shared ← sharedOf bs dir
    let related := relations (← markup bs dir "xl/_rels/workbook.xml.rels")
    match sheets related (← markup bs dir "xl/workbook.xml") with
    | none => .error (broken "unrelated sheet")
    | some all => .ok ⟨all.map (·.name),sheetRows bs dir shared all⟩

-- Opens archives whose files are stored as they are, and no workbook of the older kind.
def plain : Decoder := ⟨open_,fun _ => .error (.refused "invalid OLE signature")⟩

end Workbook
end ServiceKit.Import
