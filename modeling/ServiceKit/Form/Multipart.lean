import ServiceKit.Http.MediaType
import ServiceKit.Http.Response

namespace ServiceKit.Form
open Text (Bytes)

structure Upload where
  fieldName : String
  fileName : Option String
  contentType : Option String
  data : Bytes
deriving DecidableEq, Repr

namespace Upload

def size (u : Upload) : Nat := u.data.length

def extensionOf (name : String) : Option String :=
  let after := name.toList.reverse.takeWhile (· != '.')
  if after.length = name.toList.length then none
  else some (Text.lowered (String.ofList after.reverse))

def extension (u : Upload) : Option String := u.fileName.bind extensionOf

end Upload

structure Limits where
  maxBodySize : Nat := 33554432
  maxFields : Nat := 100
deriving DecidableEq, Repr

structure Multipart where
  fields : List (String × String)
  files : List Upload
deriving DecidableEq, Repr

namespace Multipart

def file? (m : Multipart) (name : String) : Option Upload := m.files.find? fun f => f.fieldName == name

def takeFile (m : Multipart) (name : String) : Option Upload × Multipart :=
  (m.file? name,{ m with files := m.files.eraseP fun f => f.fieldName == name })

inductive Fault where
  | incomplete
  | headers
  | unfinished (field : String)
deriving DecidableEq, Repr

def crlf : Bytes := [13,10]
def dashes : Bytes := [45,45]

def beginsWith (pattern bs : Bytes) : Bool := pattern.isPrefixOf bs

def cutAt (pattern : Bytes) : Bytes → Option (Bytes × Bytes)
  | [] => if pattern.isEmpty then some ([],[]) else none
  | b :: rest =>
    if beginsWith pattern (b :: rest) then some ([],b :: rest)
    else (cutAt pattern rest).map fun (before,found) => (b :: before,found)

def lineEnd (b : UInt8) : Bool := b == 13 || b == 10

def valueByte (b : UInt8) : Bool := b == 9 || (decide (32 ≤ b) && b != 127)

def isBlankByte (b : UInt8) : Bool := b == 32 || b == 9

def trimBlanks (bs : Bytes) : Bytes :=
  ((bs.dropWhile isBlankByte).reverse.dropWhile isBlankByte).reverse

def charOf (b : UInt8) : Char := Char.ofNat b.toNat

def dropLineEnd : Bytes → Option Bytes
  | 13 :: 10 :: rest => some rest
  | 10 :: rest => some rest
  | _ => none

-- Header lines up to a blank one; a later line of one name replaces the earlier.
def readHeaders : Nat → Bytes → Headers → Option Headers
  | 0,_,_ => none
  | fuel + 1,bs,headers =>
    match dropLineEnd bs with
    | some _ => some headers
    | none =>
      let name := bs.takeWhile fun b => decide (b < 128) && Http.isTokenChar (charOf b)
      match bs.dropWhile fun b => decide (b < 128) && Http.isTokenChar (charOf b) with
      | 58 :: rest =>
        if name.isEmpty then none
        else
          let value := rest.takeWhile fun b => !lineEnd b
          if !value.all valueByte then none
          else do
            let rest ← dropLineEnd (rest.dropWhile fun b => !lineEnd b)
            readHeaders fuel rest (headers.set (Text.lowered (String.ofList (name.map charOf))) (trimBlanks value))
      | _ => none

def maxHeaders : Nat := 32

def isSpaceByte (b : UInt8) : Bool := b == 32 || b == 9 || b == 10 || b == 12 || b == 13

-- The value after a label of a disposition: in quotes, or up to the next semicolon. A label that only
-- ends a longer one is passed over.
def labelled (label : Bytes) : Nat → Bytes → Option Bytes
  | 0,_ => none
  | fuel + 1,bs =>
    match cutAt label bs with
    | none => none
    | some (skipped,found) =>
      let suffix := found.drop label.length
      let fresh := match skipped.getLast? with
        | none => true
        | some b => b == 59 || isSpaceByte b
      if fresh then
        match suffix with
        | 34 :: rest => if rest.contains 34 then some (rest.takeWhile (· != 34)) else none
        | _ => some (suffix.takeWhile (· != 59))
      else labelled label fuel suffix

def labelledText (label : String) (disposition : Bytes) : Option String :=
  (labelled (Text.utf8 label) (disposition.length + 1) disposition).bind Text.ofUtf8?

structure Part where
  name : Option String
  fileName : Option String
  contentType : Option String
  data : Except Fault Bytes

def partOf (headers : Headers) : Part :=
  let disposition := headers.get? "content-disposition"
  { name := disposition.bind (labelledText "name=")
    fileName := disposition.bind (labelledText "filename=")
    contentType := ((headers.text? "content-type").bind Http.MediaType.parse).map (·.text)
    data := .ok [] }

inductive Next where
  | finished
  | part (p : Part) (rest : Bytes)
  | broken (f : Fault)

def nextPart (boundary : Bytes) (bs : Bytes) : Next :=
  let mark := dashes ++ boundary
  if !beginsWith mark bs then .broken .incomplete
  else
    let bs := bs.drop mark.length
    if bs.length < 2 then .broken .incomplete
    else if beginsWith dashes bs then .finished
    else
      let bs := bs.dropWhile isBlankByte
      if !beginsWith crlf bs then .broken .incomplete
      else
        match cutAt (crlf ++ crlf) (bs.drop 2) with
        | none => .broken .incomplete
        | some (lines,rest) =>
          match readHeaders (maxHeaders + 1) (lines ++ crlf ++ crlf) [] with
          | none => .broken .headers
          | some headers =>
            let p := partOf headers
            match cutAt (crlf ++ mark) (rest.drop 4) with
            | some (data,rest) => .part { p with data := .ok data } (rest.drop 2)
            | none => .part { p with data := .error (.unfinished (p.name.getD "<unknown>")) } []

def start (boundary : Bytes) (bs : Bytes) : Option Bytes := (cutAt (dashes ++ boundary) bs).map (·.2)

inductive ReadError where
  | fault (f : Fault)
  | tooMany (limit : Nat)
  | unreadable (field : String) (f : Fault)
  | notUtf8 (field : String)
deriving DecidableEq, Repr

def Fault.message : Fault → String
  | .incomplete => "incomplete multipart stream"
  | .headers => "failed to read headers"
  | .unfinished field => s!"field {Text.quote field} received with incomplete data"

def ReadError.message : ReadError → String
  | .fault f => f.message
  | .tooMany limit => s!"too many fields (max {limit})"
  | .unreadable field f => s!"failed to read field `{field}`: {f.message}"
  | .notUtf8 field => s!"field `{field}` is not valid UTF-8"

def addPart (p : Part) (m : Multipart) : Except ReadError Multipart :=
  let name := p.name.getD ""
  match p.data with
  | .error f => .error (.unreadable name f)
  | .ok data =>
    match p.fileName with
    | some fileName => .ok { m with files := m.files ++ [⟨name,some fileName,p.contentType,data⟩] }
    | none =>
      match Text.ofUtf8? data with
      | some text => .ok { m with fields := m.fields ++ [(name,text)] }
      | none => .error (.notUtf8 name)

def readParts (boundary : Bytes) (maxFields : Nat) : Nat → Nat → Bytes → Multipart → Except ReadError Multipart
  | 0,_,_,_ => .error (.fault .incomplete)
  | fuel + 1,count,bs,m =>
    match nextPart boundary bs with
    | .finished => .ok m
    | .broken f => .error (.fault f)
    | .part p rest =>
      if maxFields ≤ count then .error (.tooMany maxFields)
      else do
        let m ← addPart p m
        readParts boundary maxFields fuel (count + 1) rest m

def readBody (boundary : Bytes) (maxFields : Nat) (body : Bytes) : Except ReadError Multipart :=
  match start boundary body with
  | none => .error (.fault .incomplete)
  | some bs => readParts boundary maxFields (bs.length + 1) 0 bs ⟨[],[]⟩

def boundaryOf (contentType : String) : Option String := do
  let m ← Http.MediaType.parse contentType
  if m.type == "multipart" && m.subtype == "form-data" then m.param? "boundary" else none

inductive Item where
  | text (name value : String)
  | file (name fileName contentType : String) (data : Bytes)
deriving DecidableEq, Repr

def Item.head : Item → String
  | .text name _ => "Content-Disposition: form-data; name=\"" ++ name ++ "\"\r\n\r\n"
  | .file name fileName contentType _ =>
    "Content-Disposition: form-data; name=\"" ++ name ++ "\"; filename=\"" ++ fileName ++
      "\"\r\nContent-Type: " ++ contentType ++ "\r\n\r\n"

def Item.content : Item → Bytes
  | .text _ value => Text.utf8 value
  | .file _ _ _ data => data

def encodeItem (boundary : String) (i : Item) : Bytes :=
  Text.utf8 ("--" ++ boundary ++ "\r\n" ++ i.head) ++ i.content ++ crlf

def encode (boundary : String) (items : List Item) : Bytes :=
  items.flatMap (encodeItem boundary) ++ Text.utf8 ("--" ++ boundary ++ "--\r\n")

end Multipart
end ServiceKit.Form
