import ServiceKit.Binary64
import ServiceKit.Text.Ascii

namespace ServiceKit.Binary64
open Text (isDigit digitsValue lowerAscii)

-- The value is `digits * 10 ^ exponent`, and `digits` does not end in zero unless it is zero.
structure Decimal where
  digits : Nat
  exponent : Int
deriving DecidableEq, Repr

def stripZeros : Nat → Nat → Int → Decimal
  | 0,d,e => ⟨d,e⟩
  | fuel + 1,d,e => if d ≠ 0 ∧ d % 10 = 0 then stripZeros fuel (d / 10) (e + 1) else ⟨d,e⟩

def leadingPlace (num den : Nat) : Int :=
  if den ≤ num then ((Nat.toDigits 10 (num / den)).length : Int) else go 400 num 0
where
  go : Nat → Nat → Nat → Int
    | 0,_,j => -(j : Int)
    | fuel + 1,n,j => if den ≤ n * 10 then -(j : Int) else go fuel (n * 10) (j + 1)

-- The reals that round to `m * 2 ^ q` lie between `low / den` and `high / den`.
structure Interval where
  low : Nat
  value : Nat
  high : Nat
  den : Nat
  closed : Bool

def interval (m : Nat) (q : Int) : Interval :=
  let narrow := decide (m = Nat.pow 2 52 ∧ q > -1074)
  let up := if q ≥ 2 then Nat.pow 2 (q - 2).toNat else 1
  let den := if q ≥ 2 then 1 else Nat.pow 2 (2 - q).toNat
  { low := (4 * m - if narrow then 1 else 2) * up,value := 4 * m * up,high := (4 * m + 2) * up,
    den := den,closed := m % 2 = 0 }

def Interval.holds (i : Interval) (d : Nat) (e : Int) : Bool :=
  let (n,t) : Nat × Nat := if e ≥ 0 then (d * Nat.pow 10 e.toNat * i.den,1) else (d * i.den,Nat.pow 10 (-e).toNat)
  if i.closed then decide (i.low * t ≤ n ∧ n ≤ i.high * t) else decide (i.low * t < n ∧ n < i.high * t)

def Interval.onGrid (i : Interval) (e : Int) : Option Nat :=
  let (n,t) : Nat × Nat := if e ≥ 0 then (i.value,i.den * Nat.pow 10 e.toNat) else (i.value * Nat.pow 10 (-e).toNat,i.den)
  let down := n / t
  let twice := 2 * (n % t)
  let nearDown := decide (twice < t) || (decide (twice = t) && decide (down % 2 = 0))
  match i.holds down e,i.holds (down + 1) e with
  | true,true => some (if nearDown then down else down + 1)
  | true,false => some down
  | false,true => some (down + 1)
  | false,false => none

def shortestFrom (i : Interval) (place : Int) : Nat → Nat → Decimal
  | 0,n => ⟨(i.onGrid (place - n)).getD 0,place - n⟩
  | fuel + 1,n =>
    match i.onGrid (place - n) with
    | some d => stripZeros 20 d (place - n)
    | none => shortestFrom i place fuel (n + 1)

def shortest (m : Nat) (q : Int) : Decimal :=
  if m = 0 then ⟨0,0⟩
  else
    let i := interval m q
    shortestFrom i (leadingPlace i.value i.den) 17 1

def zeros (n : Nat) : List Char := List.replicate n '0'

def positional (digits : List Char) (place : Int) (fraction : List Char) : List Char :=
  if place ≤ 0 then '0' :: '.' :: (zeros (-place).toNat ++ digits)
  else if (digits.length : Int) ≤ place then
    digits ++ zeros (place.toNat - digits.length) ++ fraction
  else digits.take place.toNat ++ '.' :: digits.drop place.toNat

def scientific (digits : List Char) (place : Int) (plus : Bool) : List Char :=
  let mantissa := match digits with
    | [] => ['0']
    | [d] => [d]
    | d :: rest => d :: '.' :: rest
  let sign := if plus ∧ place ≥ 1 then ['+'] else []
  mantissa ++ 'e' :: (sign ++ (toString (place - 1)).toList)

-- Where positional notation ends, whether a whole number shows a fraction, and whether an exponent
-- above zero shows its sign.
structure Layout where
  least : Int
  greatest : Int
  whole : List Char
  plus : Bool

def Layout.json : Layout := ⟨-4,16,['.','0'],true⟩
def Layout.form : Layout := ⟨-4,16,['.','0'],false⟩
def Layout.plain : Layout := ⟨-1000,1000,[],false⟩

def Layout.finite (l : Layout) (negative : Bool) (m : Nat) (q : Int) : List Char :=
  let d := shortest m q
  let digits := Nat.toDigits 10 d.digits
  let place := if d.digits = 0 then 1 else (digits.length : Int) + d.exponent
  let body := if l.least ≤ place ∧ place ≤ l.greatest then positional digits place l.whole
    else scientific digits place l.plus
  if negative then '-' :: body else body

def Layout.text (l : Layout) (x : Binary64) : String :=
  match x.decode with
  | .nan => "NaN"
  | .infinite negative => if negative then "-inf" else "inf"
  | .finite negative m q => String.ofList (l.finite negative m q)

-- An exponent mark with its digits, or nothing at all; the sum is capped far outside the range.
def readExponent : List Char → Option Int
  | [] => some 0
  | e :: rest =>
    if e = 'e' ∨ e = 'E' then
      let (negative,ds) := match rest with
        | '-' :: r => (true,r)
        | '+' :: r => (false,r)
        | r => (false,r)
      if ds.isEmpty || !ds.all isDigit then none
      else
        let significant := ds.dropWhile (· == '0')
        let n : Int := if significant.length > 9 then 1000000000 else digitsValue significant
        some (if negative then -n else n)
    else none

-- Reads an optional sign, then `inf`, `infinity` or `nan` in any case, or decimal digits with at most
-- one point, at least one digit and an optional exponent.
def read (cs : List Char) : Option Binary64 :=
  let (negative,body) := match cs with
    | '-' :: r => (true,r)
    | '+' :: r => (false,r)
    | r => (false,r)
  let word := String.ofList (body.map lowerAscii)
  if word = "inf" ∨ word = "infinity" then some (infinity negative)
  else if word = "nan" then some (if negative then nan.negate else nan)
  else
    let whole := body.takeWhile isDigit
    let rest := body.dropWhile isDigit
    let (fraction,rest) := match rest with
      | '.' :: r => (r.takeWhile isDigit,r.dropWhile isDigit)
      | r => ([],r)
    if whole.isEmpty && fraction.isEmpty then none
    else (readExponent rest).map fun e =>
      ofDecimal negative (digitsValue (whole ++ fraction)) (e - fraction.length)

def readText (s : String) : Option Binary64 := read s.toList

end ServiceKit.Binary64
