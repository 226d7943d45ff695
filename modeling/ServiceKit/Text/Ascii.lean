namespace ServiceKit.Text

def isDigit (c : Char) : Bool := decide ('0' ≤ c) && decide (c ≤ '9')

def isAlnum (c : Char) : Bool :=
  isDigit c || (decide ('a' ≤ c) && decide (c ≤ 'z')) || (decide ('A' ≤ c) && decide (c ≤ 'Z'))

def digitValue (c : Char) : Nat := c.toNat - '0'.toNat

def digitsValue (cs : List Char) : Nat := cs.foldl (fun n c => 10 * n + digitValue c) 0

def lowerAscii (c : Char) : Char :=
  if decide ('A' ≤ c) && decide (c ≤ 'Z') then Char.ofNat (c.toNat + 32) else c

def upperAscii (c : Char) : Char :=
  if decide ('a' ≤ c) && decide (c ≤ 'z') then Char.ofNat (c.toNat - 32) else c

def lowered (s : String) : String := String.ofList (s.toList.map lowerAscii)

def isWord (c : Char) : Bool := isAlnum c || c == '_' || c == '-'

def hexDigit (n : Nat) : Char :=
  if n < 10 then Char.ofNat (48 + n) else Char.ofNat (87 + n)

def hexValue (c : Char) : Option Nat :=
  if '0' ≤ c ∧ c ≤ '9' then some (c.toNat - 48)
  else if 'a' ≤ c ∧ c ≤ 'f' then some (c.toNat - 87)
  else if 'A' ≤ c ∧ c ≤ 'F' then some (c.toNat - 55)
  else none

end ServiceKit.Text
