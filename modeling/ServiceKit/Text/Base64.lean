import ServiceKit.Text.Utf8

namespace ServiceKit.Text

def sextet (c : Char) : Option Nat :=
  if 'A' ≤ c ∧ c ≤ 'Z' then some (c.toNat - 65)
  else if 'a' ≤ c ∧ c ≤ 'z' then some (c.toNat - 71)
  else if '0' ≤ c ∧ c ≤ '9' then some (c.toNat + 4)
  else if c = '+' then some 62
  else if c = '/' then some 63
  else none

def octets (n : Nat) : Nat → Bytes
  | 0 => []
  | k + 1 => UInt8.ofNat (n / 256 ^ k % 256) :: octets n k

def ofBase64? : List Char → Option Bytes
  | [] => some []
  | [a,b,'=','='] => do
    let n := (← sextet a) * 64 + (← sextet b)
    if n % 16 = 0 then some (octets (n / 16) 1) else none
  | [a,b,c,'='] => do
    let n := ((← sextet a) * 64 + (← sextet b)) * 64 + (← sextet c)
    if n % 4 = 0 then some (octets (n / 4) 2) else none
  | a :: b :: c :: d :: rest => do
    let n := (((← sextet a) * 64 + (← sextet b)) * 64 + (← sextet c)) * 64 + (← sextet d)
    return octets n 3 ++ (← ofBase64? rest)
  | _ => none

end ServiceKit.Text
