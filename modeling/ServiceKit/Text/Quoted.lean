import ServiceKit.Text.Utf8
import ServiceKit.Text.Unprintable

namespace ServiceKit.Text

def hexNumber (n : Nat) : List Char := Nat.toDigits 16 n

def showChar (c : Char) : List Char :=
  if c = '"' then ['\\','"']
  else if c = '\\' then ['\\','\\']
  else if c = '\t' then ['\\','t']
  else if c = '\r' then ['\\','r']
  else if c = '\n' then ['\\','n']
  else if c.toNat = 0 then ['\\','0']
  else if isUnprintable c then '\\' :: 'u' :: '\x7b' :: (hexNumber c.toNat ++ ['\x7d'])
  else [c]

def quote (s : String) : String := String.ofList ('"' :: (s.toList.flatMap showChar ++ ['"']))

end ServiceKit.Text
