import ServiceKit.Text.Ascii
import ServiceKit.Text.Utf8

namespace ServiceKit.Http
open Text (Bytes)

def tokenMarks : List Char := ['!','#','$','%','&','\'','*','+','-','.','^','_','\x60','|','~']

def isTokenChar (c : Char) : Bool := Text.isAlnum c || tokenMarks.contains c

def isToken (s : String) : Bool := !s.isEmpty && s.toList.all isTokenChar

def longestHeaderName : Nat := 65535

def headerName? (s : String) : Option String :=
  if isToken s && decide (s.toList.length ≤ longestHeaderName) then some (Text.lowered s) else none

def headerByte (b : UInt8) : Bool := (decide (32 ≤ b) && b != 127) || b == 9

def headerValue? (bs : Bytes) : Option Bytes := if bs.all headerByte then some bs else none

def method? (s : String) : Option String := if isToken s then some s else none

end ServiceKit.Http
