import ServiceKit.Envelope
import ServiceKit.Json.Printer

namespace ServiceKit
open Text (Bytes)

abbrev Headers := List (String × Bytes)

namespace Headers

def get? (h : Headers) (name : String) : Option Bytes := (h.find? fun e => e.1 == name).map (·.2)

def all (h : Headers) (name : String) : List Bytes := (h.filter fun e => e.1 == name).map (·.2)

def contains (h : Headers) (name : String) : Bool := h.any fun e => e.1 == name

def set (h : Headers) (name : String) (value : Bytes) : Headers :=
  match h with
  | [] => [(name,value)]
  | e :: rest =>
    if e.1 = name then (name,value) :: rest.filter fun e => e.1 != name
    else e :: set rest name value

def add (h : Headers) (name : String) (value : Bytes) : Headers := h ++ [(name,value)]

def names (h : Headers) : List String :=
  (h.map (·.1)).eraseDups

-- Header values that are plain visible ASCII read as text.
def readable (bs : Bytes) : Option String :=
  if bs.all fun b => decide (32 ≤ b) && decide (b < 127) || b == 9 then
    some (String.ofList (bs.map fun b => Char.ofNat b.toNat))
  else none

def text? (h : Headers) (name : String) : Option String := (h.get? name).bind readable

def ofText (s : String) : Bytes := Text.utf8 s

end Headers

structure Response where
  status : Nat
  headers : Headers
  body : Bytes
deriving DecidableEq, Repr, Inhabited

namespace Response

def contentType : String := "content-type"

def jsonType : String := "application/json"
def textType : String := "text/plain; charset=utf-8"

def ofJson (status : Nat) (body : Json) : Response :=
  ⟨status,[(contentType,Text.utf8 jsonType)],body.bytes⟩

def ofText (status : Nat) (body : String) : Response :=
  ⟨status,[(contentType,Text.utf8 textType)],Text.utf8 body⟩

def ofEnvelope (e : Envelope) : Response := ofJson e.statusCode e.toJson

def ofReply (r : Reply) : Response := ofJson 200 r.body

def sortedHeaders (h : Headers) : Headers := h.mergeSort fun a b => decide (a.1 ≤ b.1)

end Response
end ServiceKit
