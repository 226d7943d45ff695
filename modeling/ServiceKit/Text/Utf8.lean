import ServiceKit.Text.Ascii

namespace ServiceKit.Text

abbrev Bytes := List UInt8

def utf8 (s : String) : Bytes := s.toList.flatMap String.utf8EncodeChar

def continuation (b : UInt8) : Bool := decide (0x80 ≤ b) && decide (b ≤ 0xBF)

def leading (b : UInt8) : Option (Nat × UInt8 × UInt8) :=
  if 0xC2 ≤ b ∧ b ≤ 0xDF then some (1,0x80,0xBF)
  else if b = 0xE0 then some (2,0xA0,0xBF)
  else if b = 0xED then some (2,0x80,0x9F)
  else if 0xE1 ≤ b ∧ b ≤ 0xEF then some (2,0x80,0xBF)
  else if b = 0xF0 then some (3,0x90,0xBF)
  else if 0xF1 ≤ b ∧ b ≤ 0xF3 then some (3,0x80,0xBF)
  else if b = 0xF4 then some (3,0x80,0x8F)
  else none

def low6 (b : UInt8) : Nat := b.toNat % 64

def step (b : UInt8) (rest : Bytes) : Option Char × Nat :=
  if b < 0x80 then (some (Char.ofNat b.toNat),0)
  else match leading b with
    | none => (none,0)
    | some (more,low,high) =>
      match rest with
      | [] => (none,0)
      | c :: rest =>
        if c < low ∨ high < c then (none,0)
        else if more = 1 then (some (Char.ofNat (b.toNat % 32 * 64 + low6 c)),1)
        else match rest with
          | [] => (none,1)
          | d :: rest =>
            if !continuation d then (none,1)
            else if more = 2 then (some (Char.ofNat (b.toNat % 16 * 4096 + low6 c * 64 + low6 d)),2)
            else match rest with
              | [] => (none,2)
              | e :: _ =>
                if !continuation e then (none,2)
                else (some (Char.ofNat (b.toNat % 8 * 262144 + low6 c * 4096 + low6 d * 64 + low6 e)),3)

def decodeChars (bs : Bytes) : Option (List Char) :=
  match bs with
  | [] => some []
  | b :: rest =>
    match step b rest with
    | (some c,n) => (decodeChars (rest.drop n)).map (c :: ·)
    | (none,_) => none
termination_by bs.length
decreasing_by simp only [List.length_drop,List.length_cons]; omega

def ofUtf8? (bs : Bytes) : Option String := (decodeChars bs).map String.ofList

def lenientChars (bs : Bytes) : List Char :=
  match bs with
  | [] => []
  | b :: rest =>
    match step b rest with
    | (some c,n) => c :: lenientChars (rest.drop n)
    | (none,n) => Char.ofNat 0xFFFD :: lenientChars (rest.drop n)
termination_by bs.length
decreasing_by all_goals (simp only [List.length_drop,List.length_cons]; omega)

-- Where decoding breaks: how many bytes are well formed, and how many broken ones follow; none when the
-- text only ends too early.
structure Break where
  valid : Nat
  length : Option Nat
deriving DecidableEq, Repr

def couldGrow (b : UInt8) (rest : Bytes) : Bool :=
  match leading b with
  | none => false
  | some (more,low,high) =>
    match rest with
    | [] => true
    | c :: rest => decide (low ≤ c) && decide (c ≤ high) && decide (rest.length + 1 < more) && rest.all continuation

def firstBreak (bs : Bytes) : Option Break :=
  match bs with
  | [] => none
  | b :: rest =>
    match step b rest with
    | (some _,n) => (firstBreak (rest.drop n)).map fun k => { k with valid := k.valid + n + 1 }
    | (none,n) => some ⟨0,if couldGrow b rest then none else some (n + 1)⟩
termination_by bs.length
decreasing_by simp only [List.length_drop,List.length_cons]; omega

def Break.message (k : Break) : String :=
  match k.length with
  | some n => s!"invalid utf-8 sequence of {n} bytes from index {k.valid}"
  | none => s!"incomplete utf-8 byte sequence from index {k.valid}"

def lenient (bs : Bytes) : String := String.ofList (lenientChars bs)

def hexBytes (bs : Bytes) : String :=
  String.ofList (bs.flatMap fun b => [hexDigit (b.toNat / 16),hexDigit (b.toNat % 16)])

def hexByteValue (b : UInt8) : Option Nat := hexValue (Char.ofNat b.toNat)

end ServiceKit.Text
