namespace ServiceKit

structure Binary64 where
  bits : UInt64
deriving DecidableEq, Repr, Inhabited

namespace Binary64

-- A finite value is `significand * 2 ^ exponent`, with its sign apart so that both zeros exist.
inductive Class where
  | nan
  | infinite (negative : Bool)
  | finite (negative : Bool) (significand : Nat) (exponent : Int)
deriving DecidableEq, Repr

def decode (x : Binary64) : Class :=
  let raw : Nat := x.bits.toNat
  let negative := decide (raw ≥ Nat.pow 2 63)
  let biased : Nat := raw / Nat.pow 2 52 % Nat.pow 2 11
  let fraction : Nat := raw % Nat.pow 2 52
  if biased = 2047 then
    if fraction = 0 then .infinite negative else .nan
  else if biased = 0 then .finite negative fraction (-1074)
  else .finite negative (fraction + Nat.pow 2 52) ((biased : Int) - 1075)

def withSign (negative : Bool) (magnitude : Nat) : Binary64 :=
  ⟨UInt64.ofNat (magnitude + if negative then Nat.pow 2 63 else 0)⟩

def nan : Binary64 := ⟨0x7ff8000000000000⟩
def infinity (negative : Bool) : Binary64 := withSign negative 0x7ff0000000000000
def zero (negative : Bool) : Binary64 := withSign negative 0

structure Format where
  precision : Nat
  least : Int
  greatest : Int

def double : Format := ⟨53,-1074,971⟩
def single : Format := ⟨24,-149,104⟩

def roundHalfEven (num den : Nat) : Nat :=
  let down := num / den
  let rest := 2 * (num % den)
  if rest < den then down
  else if den < rest then down + 1
  else if down % 2 = 0 then down else down + 1

def Format.nearest (f : Format) (num den : Nat) : Option (Nat × Int) :=
  let guess : Int := (num.log2 : Int) - (den.log2 : Int) - ((f.precision : Int) - 1)
  let scaled (q : Int) : Nat × Nat :=
    if q ≥ 0 then (num,den * Nat.pow 2 q.toNat) else (num * Nat.pow 2 (-q).toNat,den)
  let (n,d) := scaled guess
  let tight := if n / d < Nat.pow 2 (f.precision - 1) then guess - 1 else guess
  let q := max tight f.least
  let (n,d) := scaled q
  let m := roundHalfEven n d
  let (m,q) := if m = Nat.pow 2 f.precision then (Nat.pow 2 (f.precision - 1),q + 1) else (m,q)
  if q > f.greatest then none else some (m,q)

def assemble (negative : Bool) (m : Nat) (q : Int) : Binary64 :=
  if m < Nat.pow 2 52 then withSign negative m
  else withSign negative ((q + 1075).toNat * Nat.pow 2 52 + (m - Nat.pow 2 52))

def roundRatio (negative : Bool) (num den : Nat) : Binary64 :=
  if num = 0 then zero negative
  else match double.nearest num den with
    | none => infinity negative
    | some (m,q) => assemble negative m q

def ofScaled (negative : Bool) (m : Nat) (q : Int) : Binary64 :=
  if q ≥ 0 then roundRatio negative (m * Nat.pow 2 q.toNat) 1
  else roundRatio negative m (Nat.pow 2 (-q).toNat)

-- `m * 10 ^ k` rounded to a number; far outside the range no power is computed.
def ofDecimal (negative : Bool) (m : Nat) (k : Int) : Binary64 :=
  if m = 0 then zero negative
  else
    let magnitude := k + (Nat.toDigits 10 m).length
    if magnitude > 400 then infinity negative
    else if magnitude < -400 then zero negative
    else if k ≥ 0 then roundRatio negative (m * Nat.pow 10 k.toNat) 1
    else roundRatio negative m (Nat.pow 10 (-k).toNat)

def ofInt (i : Int) : Binary64 := roundRatio (decide (i < 0)) i.natAbs 1

def ofNat (n : Nat) : Binary64 := roundRatio false n 1

def toSingle (x : Binary64) : Binary64 :=
  match x.decode with
  | .nan => x
  | .infinite _ => x
  | .finite negative m q =>
    let (num,den) : Nat × Nat := if q ≥ 0 then (m * Nat.pow 2 q.toNat,1) else (m,Nat.pow 2 (-q).toNat)
    if num = 0 then x
    else match single.nearest num den with
      | none => infinity negative
      | some (m,q) => ofScaled negative m q

def isFinite (x : Binary64) : Bool :=
  match x.decode with
  | .finite .. => true
  | _ => false

def isNegative (x : Binary64) : Bool := decide (x.bits.toNat ≥ Nat.pow 2 63)

def negate (x : Binary64) : Binary64 := ⟨x.bits ^^^ 0x8000000000000000⟩

def abs (x : Binary64) : Binary64 := ⟨x.bits &&& 0x7fffffffffffffff⟩

-- The value times `2 ^ 1074`, a whole number for every finite value; infinities lie beyond all of them.
def rank (x : Binary64) : Option Int :=
  match x.decode with
  | .nan => none
  | .infinite negative => some (if negative then -(Nat.pow 2 2200 : Nat) else (Nat.pow 2 2200 : Nat))
  | .finite negative m q =>
    let magnitude : Int := (m * Nat.pow 2 (q + 1074).toNat : Nat)
    some (if negative then -magnitude else magnitude)

def less (x y : Binary64) : Bool :=
  match x.rank,y.rank with
  | some a,some b => decide (a < b)
  | _,_ => false

def atMost (x y : Binary64) : Bool :=
  match x.rank,y.rank with
  | some a,some b => decide (a ≤ b)
  | _,_ => false

-- Numeric equality: both zeros agree, and what is not a number differs from everything.
def same (x y : Binary64) : Bool :=
  match x.rank,y.rank with
  | some a,some b => decide (a = b)
  | _,_ => false

def isZero (x : Binary64) : Bool := same x (zero false)

def mul (x y : Binary64) : Binary64 :=
  match x.decode,y.decode with
  | .finite s m q,.finite t n r => ofScaled (s != t) (m * n) (q + r)
  | .infinite s,.infinite t => infinity (s != t)
  | .infinite s,.finite t n _ => if n = 0 then nan else infinity (s != t)
  | .finite s m _,.infinite t => if m = 0 then nan else infinity (s != t)
  | _,_ => nan

def div (x y : Binary64) : Binary64 :=
  match x.decode,y.decode with
  | .finite s m q,.finite t n r =>
    if n = 0 then (if m = 0 then nan else infinity (s != t))
    else
      let shift := q - r
      if shift ≥ 0 then roundRatio (s != t) (m * Nat.pow 2 shift.toNat) n
      else roundRatio (s != t) m (n * Nat.pow 2 (-shift).toNat)
  | .infinite s,.finite t _ _ => infinity (s != t)
  | .finite s _ _,.infinite t => zero (s != t)
  | _,_ => nan

end Binary64
end ServiceKit
