import Mathlib.Data.List.TakeWhile
import ServiceKit.Proofs.Json.Readings

namespace ServiceKit.Json.Reader
open Text (Bytes)
variable {ds fs : List Char} {c : Char} {p : Option (Bool × List Char)} {rest : Bytes} {positive : Bool} {s n : Nat}
  {start : Int}

def Stops (rest : Bytes) : Prop := ∀ b ∈ rest.head?, isDigitByte b = false

-- Where a value ends in an array, in an object or in a document.
def Ends (rest : Bytes) : Prop := ∀ b ∈ rest.head?, b = 44 ∨ b = 93 ∨ b = 125

theorem Ends.stops (ends : Ends rest) : Stops rest := by
  intro b head
  rcases ends b head with rfl | rfl | rfl <;> rfl

theorem digit_byte (digit : c.isDigit = true) : ∃ b, String.utf8EncodeChar c = [b] ∧ isDigitByte b = true ∧
    b.toNat = c.toNat := by
  have least : 48 ≤ c.toNat := (Char.isDigit_iff_toNat.mp digit).1
  have most : c.toNat ≤ 57 := (Char.isDigit_iff_toNat.mp digit).2
  have value : (UInt8.ofNat c.toNat).toNat = c.toNat := by
    rw [UInt8.toNat_ofNat']
    omega
  refine ⟨UInt8.ofNat c.toNat,Text.ascii_encode (by omega),?_,value⟩
  simp only [isDigitByte,UInt8.le_iff_toNat_le,value]
  simp [least,most]

theorem written_digits (digits : ∀ c ∈ ds, c.isDigit = true) : ∀ b ∈ written ds, isDigitByte b = true := by
  intro b mem
  obtain ⟨c,inside,encoded⟩ := List.mem_flatMap.mp mem
  obtain ⟨b',single,digit,_⟩ := digit_byte (digits c inside)
  rw [single,List.mem_singleton] at encoded
  rw [encoded]
  exact digit

theorem gives_digits (digits : ∀ c ∈ ds, c.isDigit = true) (stops : Stops rest) :
    Gives takeDigits (written ds ++ rest) (some (written ds,rest)) := by
  have all := written_digits digits
  have taken : (written ds ++ rest).takeWhile isDigitByte = written ds ∧
      (written ds ++ rest).dropWhile isDigitByte = rest := by
    cases rest with
    | nil =>
      rw [List.append_nil]
      exact ⟨List.takeWhile_eq_self_iff.mpr all,List.dropWhile_eq_nil_iff.mpr all⟩
    | cons b rest => exact Text.while_stops rest all (stops b rfl)
  have gives := gives_takeDigits (written ds ++ rest)
  rwa [taken.1,taken.2] at gives

theorem length_written (digits : ∀ c ∈ ds, c.isDigit = true) : (written ds).length = ds.length := by
  induction ds with
  | nil => rfl
  | cons d ds ih =>
    obtain ⟨digit,others⟩ := List.forall_mem_cons.mp digits
    obtain ⟨b,single,_⟩ := digit_byte digit
    rw [written_cons,single,List.singleton_append,List.length_cons,List.length_cons,ih others]

theorem le_ofDigitChars (ds : List Char) (n : Nat) : n ≤ Nat.ofDigitChars 10 ds n := by
  rw [Nat.ofDigitChars_eq_ofDigitChars_zero]
  have least : 1 * n ≤ 10 ^ ds.length * n := Nat.mul_le_mul_right n (Nat.pow_pos (by decide))
  omega

theorem next_value {b : UInt8} (value : b.toNat = c.toNat) :
    n * 10 + (b.toNat - 48) = 10 * n + (c.toNat - '0'.toNat) := by
  rw [value,Nat.mul_comm]
  rfl

theorem absorb_digits (digits : ∀ c ∈ ds, c.isDigit = true) (less : Nat.ofDigitChars 10 ds n < Nat.pow 2 64) :
    absorb n (written ds) = ⟨Nat.ofDigitChars 10 ds n,ds.length,0⟩ := by
  induction ds generalizing n with
  | nil => rfl
  | cons d ds ih =>
    obtain ⟨digit,others⟩ := List.forall_mem_cons.mp digits
    obtain ⟨b,single,_,value⟩ := digit_byte digit
    rw [Nat.ofDigitChars_cons,← next_value value] at less ⊢
    have here := Nat.lt_of_le_of_lt (le_ofDigitChars ds _) less
    rw [written_cons,single,List.singleton_append]
    simp only [absorb,if_pos here,ih others less]
    rfl

def mark (up : Bool) : Char := if up then '+' else '-'

structure Numeral where
  whole : List Char
  fraction : List Char
  power : Option (Bool × List Char)

namespace Numeral

def point : List Char → List Char
  | [] => []
  | d :: ds => '.' :: d :: ds

def raised : Option (Bool × List Char) → List Char
  | none => []
  | some (up,ds) => 'e' :: mark up :: ds

def tail (n : Numeral) : List Char := point n.fraction ++ raised n.power

def chars (n : Numeral) : List Char := n.whole ++ n.tail

def significand (n : Numeral) : Nat := Nat.ofDigitChars 10 (n.whole ++ n.fraction) 0

def shift : Option (Bool × List Char) → Int
  | none => 0
  | some (up,ds) => if up then Nat.ofDigitChars 10 ds 0 else -Nat.ofDigitChars 10 ds 0

def exponent (n : Numeral) : Int := shift n.power - n.fraction.length

def Brief (p : Option (Bool × List Char)) : Prop :=
  ∀ r ∈ p, (∀ c ∈ r.2, c.isDigit = true) ∧ r.2 ≠ [] ∧ Nat.ofDigitChars 10 r.2 0 < Nat.pow 2 31

theorem brief_none : Brief none := by
  intro r mem
  cases mem

structure Formed (n : Numeral) : Prop where
  whole : ∀ c ∈ n.whole, c.isDigit = true
  begins : ∃ d ds, n.whole = d :: ds ∧ (d = '0' → ds = [])
  fraction : ∀ c ∈ n.fraction, c.isDigit = true
  power : Brief n.power
  less : n.significand < Nat.pow 2 64

end Numeral

def scaled (positive : Bool) (s : Nat) (e : Int) : Option Number :=
  (scale 8 (Binary64.ofNat s) e).map fun f => .float (if positive then f else f.negate)

def Numeral.number (positive : Bool) (n : Numeral) : Option Number :=
  if n.fraction = [] ∧ n.power = none then some (wholeNumber positive n.significand)
  else scaled positive n.significand n.exponent

theorem gives_fromParts (positive : Bool) (s : Nat) (e : Int) (rest : Bytes) :
    Gives (fromParts positive s e) rest ((scaled positive s e).map (·,rest)) := by
  unfold fromParts scaled
  cases scale 8 (Binary64.ofNat s) e with
  | none => exact gives_here _ _
  | some f => exact gives_pure _ _

theorem gives_exponentDigits {zero up : Bool} {fuel : Nat} (digits : ∀ c ∈ ds, c.isDigit = true) (stops : Stops rest)
    (room : ds.length ≤ fuel) (less : Nat.ofDigitChars 10 ds n < Nat.pow 2 31) :
    Gives (exponentDigits positive zero up fuel n) (written ds ++ rest)
      (some (some (Nat.ofDigitChars 10 ds n),rest)) := by
  induction ds generalizing n fuel with
  | nil =>
    cases fuel with
    | zero => exact gives_pure _ _
    | succ fuel =>
      refine (gives_peek _).bind ?_
      cases rest with
      | nil => exact gives_pure _ _
      | cons b rest =>
        have other : isDigitByte b = false := stops b rfl
        simp only [written,List.flatMap_nil,List.nil_append,List.head?_cons,other]
        exact gives_pure _ _
  | cons d ds ih =>
    obtain ⟨digit,others⟩ := List.forall_mem_cons.mp digits
    obtain ⟨b,single,isDigit,value⟩ := digit_byte digit
    obtain ⟨fuel,rfl⟩ := Nat.exists_eq_add_one_of_ne_zero (Nat.ne_of_gt (Nat.lt_of_lt_of_le (Nat.zero_lt_succ _) room))
    rw [Nat.ofDigitChars_cons,← next_value value] at less ⊢
    rw [written_cons,single,List.singleton_append,List.cons_append]
    refine (gives_peek _).bind ?_
    simp only [List.head?_cons,isDigit,if_true]
    refine (gives_eat b _).bind ?_
    rw [if_pos (Nat.lt_of_le_of_lt (le_ofDigitChars ds _) less)]
    exact ih others (Nat.le_of_succ_le_succ room) less

theorem gives_exponent {up : Bool} (digits : ∀ c ∈ ds, c.isDigit = true) (nonempty : ds ≠ []) (stops : Stops rest)
    (less : Nat.ofDigitChars 10 ds 0 < Nat.pow 2 31) :
    Gives (exponent positive s start) (written (Numeral.raised (some (up,ds))) ++ rest)
      ((scaled positive s (start + Numeral.shift (some (up,ds)))).map (·,rest)) := by
  obtain ⟨d,ds,rfl⟩ := List.exists_cons_of_ne_nil nonempty
  obtain ⟨digit,others⟩ := List.forall_mem_cons.mp digits
  obtain ⟨b,single,isDigit,value⟩ := digit_byte digit
  have first : b.toNat - 48 = 10 * 0 + (d.toNat - '0'.toNat) := by
    rw [← next_value value,Nat.zero_mul,Nat.zero_add]
  have room : ds.length ≤ (written ds ++ rest).length := by
    rw [List.length_append,length_written others]
    exact Nat.le_add_right ..
  simp only [Numeral.raised,Numeral.shift]
  rw [Nat.ofDigitChars_cons,← first] at less ⊢
  rw [written_cons,written_cons,written_cons,single]
  refine (gives_eat 101 _).bind ?_
  cases up
  all_goals
    refine (gives_peek _).bind ((gives_eat _ _).bind ((gives_pure _ _).bind ((gives_next b _).bind ?_)))
    simp only [isDigit,Bool.not_true,Bool.false_eq_true,if_false,if_true]
    refine gives_looking fun line column => ?_
    exact (gives_exponentDigits others stops room less).bind (gives_fromParts _ _ _ _)

theorem gives_power (brief : Numeral.Brief p) (ends : Ends rest) :
    Gives (do
      match ← peek with
      | some b => if b = 101 ∨ b = 69 then exponent positive s start else fromParts positive s start
      | none => fromParts positive s start) (written (Numeral.raised p) ++ rest)
      ((scaled positive s (start + Numeral.shift p)).map (·,rest)) := by
  refine (gives_peek _).bind ?_
  cases p with
  | some r =>
    obtain ⟨up,ds⟩ := r
    obtain ⟨digits,nonempty,less⟩ := brief _ rfl
    exact gives_exponent digits nonempty ends.stops less
  | none =>
    show Gives _ rest ((scaled positive s (start + 0)).map (·,rest))
    rw [Int.add_zero]
    cases rest with
    | nil => exact gives_fromParts _ _ _ _
    | cons b rest =>
      have unmarked : ¬(b = 101 ∨ b = 69) := by
        rcases ends b rfl with rfl | rfl | rfl <;> decide
      show Gives (if b = 101 ∨ b = 69 then _ else _) _ _
      rw [if_neg unmarked]
      exact gives_fromParts _ _ _ _

theorem raised_stops (stops : Stops rest) : Stops (written (Numeral.raised p) ++ rest) := by
  cases p with
  | none => exact stops
  | some r =>
    intro b head
    cases head
    rfl

theorem gives_decimals (digits : ∀ c ∈ fs, c.isDigit = true) (nonempty : fs ≠ [])
    (less : Nat.ofDigitChars 10 fs s < Nat.pow 2 64) (brief : Numeral.Brief p) (ends : Ends rest) :
    Gives (decimals positive s start) (46 :: (written fs ++ (written (Numeral.raised p) ++ rest)))
      ((scaled positive (Nat.ofDigitChars 10 fs s) (start - fs.length + Numeral.shift p)).map (·,rest)) := by
  refine (gives_eat 46 _).bind ((gives_digits digits (raised_stops ends.stops)).bind ?_)
  have filled : (written fs).isEmpty = false := by
    rw [List.isEmpty_eq_false_iff_exists_mem,← List.length_pos_iff_exists_mem,length_written digits]
    exact List.length_pos_iff.mpr nonempty
  simp only [filled,absorb_digits digits less]
  exact gives_power brief ends

theorem ofDigitChars_append (ds fs : List Char) (n : Nat) :
    Nat.ofDigitChars 10 (ds ++ fs) n = Nat.ofDigitChars 10 fs (Nat.ofDigitChars 10 ds n) := by
  simp only [Nat.ofDigitChars_eq_foldl,List.foldl_append]

section Numeral
variable {numeral : Numeral} (formed : numeral.Formed) (ends : Ends rest)
include formed ends

theorem gives_afterWhole (positive : Bool) (taken : Nat) (whole : Nat.ofDigitChars 10 numeral.whole 0 = s) :
    Gives (afterWhole positive ⟨s,taken,0⟩) (written numeral.tail ++ rest) ((numeral.number positive).map (·,rest)) := by
  rw [Numeral.tail,written_append,List.append_assoc]
  obtain ⟨_,_,digits,power,less⟩ := formed
  unfold Numeral.number Numeral.exponent
  unfold Numeral.significand at *
  rw [ofDigitChars_append,whole] at *
  obtain ⟨_,fs,p⟩ := numeral
  refine (gives_peek _).bind ?_
  cases fs with
  | cons d ds =>
    have turned : Numeral.shift p - (d :: ds).length = 0 - (d :: ds).length + Numeral.shift p := by omega
    rw [if_neg (c := _ ∧ _) (fun empty => List.cons_ne_nil _ _ empty.1),turned]
    exact gives_decimals digits (List.cons_ne_nil _ _) less power ends
  | nil =>
    cases p with
    | some r =>
      obtain ⟨up,ds⟩ := r
      obtain ⟨digits,nonempty,less⟩ := power _ rfl
      have turned : Numeral.shift (some (up,ds)) - ([] : List Char).length = 0 + Numeral.shift (some (up,ds)) := by
        rw [List.length_nil]
        omega
      rw [if_neg (c := _ ∧ _) (fun empty => Option.some_ne_none _ empty.2),turned]
      exact gives_exponent digits nonempty ends.stops less
    | none =>
      rw [if_pos (c := _ ∧ _) ⟨rfl,rfl⟩]
      cases rest with
      | nil => exact gives_pure _ _
      | cons b rest =>
        rcases ends b rfl with rfl | rfl | rfl
        all_goals exact gives_pure _ _

omit formed in
theorem tail_stops (numeral : Numeral) : Stops (written numeral.tail ++ rest) := by
  rw [Numeral.tail,written_append,List.append_assoc]
  cases numeral.fraction with
  | nil => exact raised_stops ends.stops
  | cons _ _ =>
    intro b head
    cases head
    rfl

-- What is read of a numeral.
theorem gives_numeral (positive : Bool) :
    Gives (unsigned positive) (written numeral.chars ++ rest) ((numeral.number positive).map (·,rest)) := by
  have stops := tail_stops ends numeral
  obtain ⟨d,ds,same,alone⟩ := formed.begins
  obtain ⟨digit,others⟩ := List.forall_mem_cons.mp (same ▸ formed.whole)
  obtain ⟨b,single,isDigit,value⟩ := digit_byte digit
  have first : Nat.ofDigitChars 10 numeral.whole 0 = Nat.ofDigitChars 10 ds (b.toNat - 48) := by
    rw [same,Nat.ofDigitChars_cons,← next_value value,Nat.zero_mul,Nat.zero_add]
  unfold Numeral.chars
  rw [same,List.cons_append,written_cons,single,written_append,List.append_assoc,List.append_assoc]
  refine (gives_next b _).bind ?_
  by_cases zero : b = 48
  · subst zero
    have zero : d = '0' := Char.toNat_inj.mp value.symm
    obtain rfl := alone zero
    have after := gives_afterWhole formed ends positive 0 first
    refine (gives_peek _).bind ?_
    generalize written numeral.tail ++ rest = more at stops after
    cases more with
    | nil => exact after
    | cons c more =>
      have other : isDigitByte c = false := stops c rfl
      show Gives (if isDigitByte c = true then _ else _) _ _
      rw [other]
      exact after
  · have less : Nat.ofDigitChars 10 ds (b.toNat - 48) < Nat.pow 2 64 := by
      have less := formed.less
      rw [Numeral.significand,ofDigitChars_append,first] at less
      exact Nat.lt_of_le_of_lt (le_ofDigitChars ..) less
    simp only [zero,isDigit,if_true,if_false]
    refine (gives_digits others stops).bind ?_
    rw [absorb_digits others less]
    exact gives_afterWhole formed ends positive _ first

end Numeral

end ServiceKit.Json.Reader
