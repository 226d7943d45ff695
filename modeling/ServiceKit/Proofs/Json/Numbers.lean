import ServiceKit.Proofs.Binary64.Rounding
import ServiceKit.Proofs.Json.Numerals

namespace ServiceKit

namespace Binary64

def Decimal.length (d : Decimal) : Nat := (Nat.toDigits 10 d.digits).length

def Decimal.place (d : Decimal) : Int := if d.digits = 0 then 1 else d.length + d.exponent

def Decimal.Whole (d : Decimal) : Prop := (d.length : Int) ≤ d.place ∧ d.place ≤ 16

instance (d : Decimal) : Decidable d.Whole := instDecidableAnd

def Decimal.significand (d : Decimal) : Nat :=
  if d.Whole then d.digits * 10 ^ (d.place.toNat - d.length + 1) else d.digits

def Decimal.scale (d : Decimal) : Int := if d.Whole then -1 else d.exponent

def Decimal.chars (d : Decimal) : List Char :=
  let digits := Nat.toDigits 10 d.digits
  if -4 ≤ d.place ∧ d.place ≤ 16 then positional digits d.place ['.','0'] else scientific digits d.place true

theorem finite_eq (negative : Bool) (m : Nat) (q : Int) : Layout.json.finite negative m q =
    if negative then '-' :: (shortest m q).chars else (shortest m q).chars := rfl

end Binary64

namespace Json.Reader
open Binary64 (Decimal zeros positional scientific)
variable {d : Decimal} {n : Nat}

theorem toDigits_begins (n : Nat) : ∃ c cs, Nat.toDigits 10 n = c :: cs ∧ (c = '0' → cs = []) := by
  induction n using Nat.strongRecOn with
  | _ n ih =>
    rw [Nat.toDigits_eq_if (by decide)]
    split
    · exact ⟨_,_,rfl,fun _ => rfl⟩
    · next large =>
      obtain ⟨c,cs,same,alone⟩ := ih (n / 10) (by omega)
      refine ⟨c,cs ++ [(n % 10).digitChar],by rw [same]; rfl,?_⟩
      intro zero
      have value := Nat.ofDigitChars_ten_toDigits (n := n / 10)
      rw [same,alone zero,zero] at value
      have none : 0 = n / 10 := value
      omega

theorem toDigits_digits (n : Nat) : ∀ c ∈ Nat.toDigits 10 n, c.isDigit = true := fun _ mem =>
  Nat.isDigit_of_mem_toDigits (by decide) (by decide) mem

theorem zeros_digits (n : Nat) : ∀ c ∈ zeros n, c.isDigit = true := by
  intro c mem
  rw [(List.mem_replicate.mp mem).2]
  rfl

theorem append_digits {ds fs : List Char} (first : ∀ c ∈ ds, c.isDigit = true) (second : ∀ c ∈ fs, c.isDigit = true) :
    ∀ c ∈ ds ++ fs, c.isDigit = true := fun c mem => (List.mem_append.mp mem).elim (first c) (second c)

theorem point_eq {fs : List Char} (nonempty : fs ≠ []) : Numeral.point fs = '.' :: fs := by
  obtain ⟨d,ds,rfl⟩ := List.exists_cons_of_ne_nil nonempty
  rfl

structure Spells (numeral : Numeral) (d : Decimal) : Prop where
  formed : numeral.Formed
  chars : numeral.chars = d.chars
  significand : numeral.significand = d.significand
  exponent : numeral.exponent = d.scale
  broken : ¬(numeral.fraction = [] ∧ numeral.power = none)

structure Moderate (d : Decimal) : Prop where
  digits : d.digits ≤ 10 ^ 18
  exponent : -1000 ≤ d.exponent ∧ d.exponent ≤ 1000

theorem length_pos (d : Decimal) : 0 < d.length := Nat.length_toDigits_pos

theorem place_cases (d : Decimal) :
    d.digits = 0 ∧ d.place = 1 ∧ d.length = 1 ∨ d.digits ≠ 0 ∧ d.place = d.length + d.exponent := by
  unfold Decimal.place
  split
  · next zero => exact .inl ⟨zero,rfl,by rw [Decimal.length,zero]; rfl⟩
  · next other => exact .inr ⟨other,rfl⟩

theorem digits_lt (d : Decimal) : d.digits < 10 ^ d.length :=
  (Nat.length_toDigits_le_iff (by decide) (length_pos d)).mp le_rfl

theorem small_spelled (moderate : Moderate d) (least : -4 ≤ d.place) (small : d.place ≤ 0) :
    ∃ numeral, Spells numeral d := by
  have most := moderate.digits
  rcases place_cases d with ⟨_,one,_⟩ | ⟨other,place⟩
  · omega
  have length := length_pos d
  have broken : ¬ d.Whole := fun whole => by have := whole.1; omega
  have filled : zeros (-d.place).toNat ++ Nat.toDigits 10 d.digits ≠ [] := by simp [Nat.toDigits_ne_nil]
  have value : Nat.ofDigitChars 10 (['0'] ++ (zeros (-d.place).toNat ++ Nat.toDigits 10 d.digits)) 0 = d.digits := by
    rw [ofDigitChars_append,ofDigitChars_append,zeros,Nat.ofDigitChars_replicate_zero]
    exact (congrArg _ (Nat.mul_zero _)).trans Nat.ofDigitChars_ten_toDigits
  refine ⟨⟨['0'],zeros (-d.place).toNat ++ Nat.toDigits 10 d.digits,none⟩,
    ⟨?_,⟨'0',[],rfl,fun _ => rfl⟩,?_,?_,?_⟩,?_,?_,?_,?_⟩
  · simp
  · exact append_digits (zeros_digits _) (toDigits_digits _)
  · exact Numeral.brief_none
  · rw [Numeral.significand,value]
    exact Nat.lt_of_le_of_lt most (by decide)
  · rw [Numeral.chars,Numeral.tail,Decimal.chars,if_pos ⟨least,by omega⟩,positional,if_pos small,point_eq filled]
    simp [Numeral.raised]
  · rw [Numeral.significand,value,Decimal.significand,if_neg broken]
  · rw [Numeral.exponent,Decimal.scale,if_neg broken,List.length_append]
    have zerosLength : (zeros (-d.place).toNat).length = (-d.place).toNat := List.length_replicate
    have digitsLength : (Nat.toDigits 10 d.digits).length = d.length := rfl
    rw [zerosLength,digitsLength,Numeral.shift]
    omega
  · intro empty
    exact filled empty.1

theorem whole_spelled (whole : d.Whole) : ∃ numeral, Spells numeral d := by
  obtain ⟨fits,most⟩ := whole
  have length := length_pos d
  have less := digits_lt d
  obtain ⟨c,cs,same,alone⟩ := toDigits_begins d.digits
  have value : Nat.ofDigitChars 10 (Nat.toDigits 10 d.digits ++ zeros (d.place.toNat - d.length) ++ ['0']) 0 =
      d.significand := by
    rw [ofDigitChars_append,ofDigitChars_append,Nat.ofDigitChars_ten_toDigits,zeros,Nat.ofDigitChars_replicate_zero,
      Decimal.significand,if_pos ⟨fits,most⟩,Nat.pow_succ,Nat.mul_comm _ (10 ^ _ * 10),Nat.mul_comm _ 10,Nat.mul_assoc]
    rfl
  refine ⟨⟨Nat.toDigits 10 d.digits ++ zeros (d.place.toNat - d.length),['0'],none⟩,
    ⟨?_,?_,?_,Numeral.brief_none,?_⟩,?_,value,?_,?_⟩
  · exact append_digits (toDigits_digits _) (zeros_digits _)
  · refine ⟨c,cs ++ zeros (d.place.toNat - d.length),by rw [same]; rfl,?_⟩
    intro zero
    have single : d.digits = 0 := by
      have value := Nat.ofDigitChars_ten_toDigits (n := d.digits)
      rw [same,alone zero,zero] at value
      exact value.symm
    rcases place_cases d with ⟨_,one,alone'⟩ | ⟨other,_⟩
    · rw [alone zero,one,alone']
      rfl
    · exact absurd single other
  · simp
  · rw [Numeral.significand,value,Decimal.significand,if_pos ⟨fits,most⟩]
    calc d.digits * 10 ^ (d.place.toNat - d.length + 1)
        < 10 ^ d.length * 10 ^ (d.place.toNat - d.length + 1) :=
          Nat.mul_lt_mul_of_pos_right less (Nat.pow_pos (by decide))
      _ = 10 ^ (d.length + (d.place.toNat - d.length + 1)) := (Nat.pow_add ..).symm
      _ ≤ 10 ^ 17 := Nat.pow_le_pow_right (by decide) (by omega)
      _ < Nat.pow 2 64 := by decide
  · have covers : ((Nat.toDigits 10 d.digits).length : Int) ≤ d.place := fits
    rw [Numeral.chars,Numeral.tail,Decimal.chars,if_pos ⟨by omega,most⟩,positional,if_neg (by omega),if_pos covers]
    simp [Numeral.raised,Numeral.point,Decimal.length]
  · rw [Numeral.exponent,Decimal.scale,if_pos ⟨fits,most⟩]
    rfl
  · intro empty
    exact List.cons_ne_nil _ _ empty.1

theorem split_spelled (moderate : Moderate d) (least : 0 < d.place) (most : d.place ≤ 16) (splits : d.place < d.length) :
    ∃ numeral, Spells numeral d := by
  have bound := moderate.digits
  rcases place_cases d with ⟨_,one,alone⟩ | ⟨other,place⟩
  · omega
  have broken : ¬ d.Whole := fun whole => by have := whole.1; omega
  have digits := toDigits_digits d.digits
  obtain ⟨c,cs,same,alone⟩ := toDigits_begins d.digits
  obtain ⟨k,position⟩ : ∃ k : Nat, d.place.toNat = k + 1 := ⟨d.place.toNat - 1,by omega⟩
  have filled : (Nat.toDigits 10 d.digits).drop d.place.toNat ≠ [] := by
    intro empty
    have short : d.length ≤ d.place.toNat := List.drop_eq_nil_iff.mp empty
    omega
  have value : Nat.ofDigitChars 10 ((Nat.toDigits 10 d.digits).take d.place.toNat ++
      (Nat.toDigits 10 d.digits).drop d.place.toNat) 0 = d.digits := by
    rw [List.take_append_drop,Nat.ofDigitChars_ten_toDigits]
  refine ⟨⟨(Nat.toDigits 10 d.digits).take d.place.toNat,(Nat.toDigits 10 d.digits).drop d.place.toNat,none⟩,
    ⟨?_,?_,?_,?_,?_⟩,?_,?_,?_,?_⟩
  · exact fun c mem => digits c (List.mem_of_mem_take mem)
  · refine ⟨c,cs.take k,by rw [same,position]; rfl,?_⟩
    intro zero
    rw [alone zero]
    exact List.take_nil
  · exact fun c mem => digits c (List.mem_of_mem_drop mem)
  · exact Numeral.brief_none
  · rw [Numeral.significand,value]
    exact Nat.lt_of_le_of_lt bound (by decide)
  · have short : ¬((Nat.toDigits 10 d.digits).length : Int) ≤ d.place := by
      show ¬(d.length : Int) ≤ d.place
      omega
    rw [Numeral.chars,Numeral.tail,Decimal.chars,if_pos ⟨by omega,most⟩,positional,if_neg (by omega),if_neg short,point_eq filled]
    simp [Numeral.raised]
  · rw [Numeral.significand,value,Decimal.significand,if_neg broken]
  · rw [Numeral.exponent,Decimal.scale,if_neg broken,List.length_drop]
    have digitsLength : (Nat.toDigits 10 d.digits).length = d.length := rfl
    rw [digitsLength,Numeral.shift]
    omega
  · intro empty
    exact filled empty.1

theorem negative_chars (k : Nat) : (toString (Int.negSucc k)).toList = '-' :: Nat.toDigits 10 (k + 1) := by
  show ("-" ++ Nat.repr (k + 1)).toList = _
  rw [Nat.repr_eq_ofList_toDigits]
  simp

theorem raised_place (place : Int) : Numeral.raised (some (decide (1 ≤ place),Nat.toDigits 10 (place - 1).natAbs)) =
    'e' :: ((if true ∧ place ≥ 1 then ['+'] else []) ++ (toString (place - 1)).toList) := by
  by_cases up : 1 ≤ place
  · obtain ⟨k,same⟩ := Int.eq_ofNat_of_zero_le (show 0 ≤ place - 1 by omega)
    have digits : (toString (k : Int)).toList = Nat.toDigits 10 k := numberText_digits k
    rw [same,digits]
    simp [Numeral.raised,mark,up]
  · obtain ⟨k,same⟩ := Int.eq_negSucc_of_lt_zero (show place - 1 < 0 by omega)
    rw [same,negative_chars]
    simp [Numeral.raised,mark,up]

theorem scientific_eq (c : Char) (cs : List Char) (place : Int) : scientific (c :: cs) place true =
    [c] ++ (Numeral.point cs ++ Numeral.raised (some (decide (1 ≤ place),Nat.toDigits 10 (place - 1).natAbs))) := by
  rw [raised_place]
  cases cs <;> rfl

theorem far_spelled (moderate : Moderate d) (far : ¬(-4 ≤ d.place ∧ d.place ≤ 16)) : ∃ numeral, Spells numeral d := by
  have bound := moderate.digits
  have range := moderate.exponent
  rcases place_cases d with ⟨_,one,_⟩ | ⟨other,place⟩
  · omega
  have broken : ¬ d.Whole := fun whole => far ⟨by have := whole.1; omega,whole.2⟩
  have digits := toDigits_digits d.digits
  have short : d.length ≤ 19 :=
    (Nat.length_toDigits_le_iff (by decide) (by decide)).mpr (Nat.lt_of_le_of_lt bound (by decide))
  obtain ⟨c,cs,same,alone⟩ := toDigits_begins d.digits
  have length : d.length = cs.length + 1 := by rw [Decimal.length,same,List.length_cons]
  have value : Nat.ofDigitChars 10 ([c] ++ cs) 0 = d.digits := by
    rw [List.singleton_append,← same,Nat.ofDigitChars_ten_toDigits]
  refine ⟨⟨[c],cs,some (decide (1 ≤ d.place),Nat.toDigits 10 (d.place - 1).natAbs)⟩,
    ⟨?_,⟨c,[],rfl,fun _ => rfl⟩,?_,?_,?_⟩,?_,?_,?_,?_⟩
  · simpa using digits c (by rw [same]; exact List.mem_cons_self)
  · exact fun c mem => digits c (by rw [same]; exact List.mem_cons_of_mem _ mem)
  · rintro r ⟨⟩
    refine ⟨toDigits_digits _,Nat.toDigits_ne_nil,?_⟩
    rw [Nat.ofDigitChars_ten_toDigits]
    exact Nat.lt_of_le_of_lt (show _ ≤ 2000 by omega) (by decide)
  · rw [Numeral.significand,value]
    exact Nat.lt_of_le_of_lt bound (by decide)
  · rw [Numeral.chars,Numeral.tail,Decimal.chars,if_neg far,same,scientific_eq]
  · rw [Numeral.significand,value,Decimal.significand,if_neg broken]
  · rw [Numeral.exponent,Decimal.scale,if_neg broken,Numeral.shift,Nat.ofDigitChars_ten_toDigits]
    show _ - (cs.length : Int) = _
    split
    · next up =>
      have up := of_decide_eq_true up
      rw [Int.natAbs_of_nonneg (by omega)]
      omega
    · next down =>
      have down : ¬ 1 ≤ d.place := fun up => down (decide_eq_true up)
      rw [Int.ofNat_natAbs_of_nonpos (by omega)]
      omega
  · intro empty
    exact Option.some_ne_none _ empty.2

theorem spelled (moderate : Moderate d) : ∃ numeral, Spells numeral d := by
  by_cases near : -4 ≤ d.place ∧ d.place ≤ 16
  · by_cases small : d.place ≤ 0
    · exact small_spelled moderate near.1 small
    by_cases fits : (d.length : Int) ≤ d.place
    · exact whole_spelled ⟨fits,near.2⟩
    · exact split_spelled moderate (Int.not_le.mp small) near.2 (Int.not_le.mp fits)
  · exact far_spelled moderate near

theorem shortest_moderate {x : Binary64} {negative : Bool} {m : Nat} {q : Int}
    (decoded : x.decode = .finite negative m q) : Moderate (Binary64.shortest m q) := by
  have normal := Binary64.decode_normal decoded
  by_cases zero : m = 0
  · rw [zero]
    show Moderate ⟨0,0⟩
    exact ⟨by decide,by decide⟩
  · obtain ⟨p,low,high,near⟩ := Binary64.shortest_near normal zero
    exact ⟨near.digits,by have := near.exponent; omega⟩

end Json.Reader

def Binary64.reread (x : Binary64) : Option Number :=
  match x.decode with
  | .finite negative m q => Json.Reader.scaled (!negative) (shortest m q).significand (shortest m q).scale
  | _ => none

def Binary64.Kept (x : Binary64) : Prop := x.reread = some (.float x)

instance : DecidablePred Binary64.Kept := fun x => inferInstanceAs (Decidable (x.reread = some (.float x)))

-- Whether a number has few enough digits and a small exponent, as it is printed.
def Binary64.short (x : Binary64) : Bool :=
  match x.decode with
  | .finite _ m q => decide ((shortest m q).significand < 2 ^ 53) && decide ((shortest m q).scale.natAbs ≤ 22)
  | _ => false

namespace Binary64
variable {x : Binary64} {d : Decimal} {m : Nat} {q : Int}

theorem decimal_value (nonzero : d.digits ≠ 0) : (d.significand : ℚ) * 10 ^ d.scale = d.digits * 10 ^ d.exponent := by
  unfold Decimal.significand Decimal.scale
  split
  · next whole =>
    have place : d.place = d.length + d.exponent := if_neg nonzero
    have fits := whole.1
    obtain ⟨k,same⟩ := Int.eq_ofNat_of_zero_le (show 0 ≤ d.exponent by omega)
    have zeros : d.place.toNat - d.length = k := by omega
    rw [zeros,same,zpow_neg,zpow_one,zpow_natCast]
    push_cast
    rw [pow_succ]
    field_simp
  · rfl

theorem shown_zero : Decimal.significand ⟨0,0⟩ = 0 ∧ Decimal.scale ⟨0,0⟩ = -1 := by decide

theorem scale_zero : Json.Reader.scale 8 (ofNat 0) (-1) = some (withSign false 0) := by decide

theorem scale_shortest (normal : Normal m q) (less : (shortest m q).significand < 2 ^ 53)
    (few : (shortest m q).scale.natAbs ≤ 22) :
    Json.Reader.scale 8 (ofNat (shortest m q).significand) (shortest m q).scale = some (assemble false m q) := by
  by_cases zero : m = 0
  · have none : shortest m q = ⟨0,0⟩ := if_pos zero
    rw [none,shown_zero.1,shown_zero.2,zero]
    exact scale_zero
  · obtain ⟨p,_,_,near⟩ := shortest_near normal zero
    have within := near.within
    have positive := contains_pos zero within
    have nonzero : (shortest m q).digits ≠ 0 := significand_ne positive.ne'
    rw [← decimal_value nonzero] at positive within
    exact scale_eq normal zero (significand_ne positive.ne') less few within

theorem short_kept (short : x.short = true) : x.Kept := by
  unfold Binary64.short at short
  unfold Kept reread
  cases decoded : x.decode with
  | nan =>
    rw [decoded] at short
    cases short
  | infinite _ =>
    rw [decoded] at short
    cases short
  | finite negative m q =>
    simp only [decoded,Bool.and_eq_true,decide_eq_true_eq] at short
    have normal := decode_normal decoded
    have same := assemble_decode decoded
    simp only [Json.Reader.scaled,scale_shortest normal short.1 short.2,Option.map_some]
    cases negative with
    | false => simp only [Bool.not_false,if_true,same]
    | true => simp only [Bool.not_true,Bool.false_eq_true,if_false,negate_assemble normal,same]

end Binary64

def Number.reread : Number → Option Number
  | .int i => some (.int i)
  | .float x => x.reread

-- What a number of a JSON value is: whole numbers fit into 64 bits, and others are finite.
def Number.Proper : Number → Prop
  | .int i => -(Nat.pow 2 63 : Nat) ≤ i ∧ i < (Nat.pow 2 64 : Nat)
  | .float x => x.isFinite = true

instance : DecidablePred Number.Proper
  | .int i => inferInstanceAs (Decidable (-(Nat.pow 2 63 : Nat) ≤ i ∧ i < (Nat.pow 2 64 : Nat)))
  | .float x => inferInstanceAs (Decidable (x.isFinite = true))

namespace Json.Reader
open Text (Bytes)
variable {n : Number} {rest : Bytes}

def plain (k : Nat) : Numeral := ⟨Nat.toDigits 10 k,[],none⟩

theorem plain_formed {k : Nat} (less : k < Nat.pow 2 64) : (plain k).Formed := by
  refine ⟨toDigits_digits k,toDigits_begins k,?_,?_,?_⟩
  · intro c mem
    cases mem
  · exact Numeral.brief_none
  · rwa [Numeral.significand,plain,List.append_nil,Nat.ofDigitChars_ten_toDigits]

theorem plain_chars (k : Nat) : (plain k).chars = Nat.toDigits 10 k := by
  simp [plain,Numeral.chars,Numeral.tail,Numeral.point,Numeral.raised]

theorem plain_number (positive : Bool) (k : Nat) : (plain k).number positive = some (wholeNumber positive k) := by
  rw [Numeral.number,if_pos ⟨rfl,rfl⟩,Numeral.significand,plain,List.append_nil,Nat.ofDigitChars_ten_toDigits]

theorem numberText_numeral (proper : n.Proper) : ∃ (positive : Bool) (numeral : Numeral), numeral.Formed ∧
    numberText n = (if positive then numeral.chars else '-' :: numeral.chars) ∧ numeral.number positive = n.reread := by
  cases n with
  | int i =>
    obtain ⟨least,less⟩ := proper
    cases i with
    | ofNat k =>
      refine ⟨true,plain k,plain_formed (Int.ofNat_lt.mp less),?_,plain_number true k⟩
      rw [if_pos rfl,plain_chars]
      exact numberText_digits k
    | negSucc k =>
      have most : k + 1 ≤ Nat.pow 2 63 := by omega
      have whole : ¬(k + 1 = 0 ∨ k + 1 > Nat.pow 2 63) := by omega
      refine ⟨false,plain (k + 1),plain_formed (Nat.lt_of_le_of_lt most (by decide)),?_,?_⟩
      · exact (negative_chars k).trans (congrArg _ (plain_chars (k + 1)).symm)
      · rw [plain_number,wholeNumber,if_neg Bool.false_ne_true,if_neg whole]
        rfl
  | float x =>
    have finite : x.isFinite = true := proper
    unfold Binary64.isFinite at finite
    cases decoded : x.decode with
    | nan =>
      rw [decoded] at finite
      cases finite
    | infinite _ =>
      rw [decoded] at finite
      cases finite
    | finite negative m q =>
      obtain ⟨numeral,formed,chars,significand,exponent,broken⟩ := spelled (shortest_moderate decoded)
      refine ⟨!negative,numeral,formed,?_,?_⟩
      · rw [chars,numberText,Binary64.Layout.text]
        simp only [decoded,Binary64.finite_eq,String.toList_ofList]
        cases negative <;> rfl
      · rw [Numeral.number,if_neg broken,significand,exponent,Number.reread,Binary64.reread]
        simp only [decoded]

theorem digit_apart {b : UInt8} (digit : isDigitByte b = true) :
    b ≠ 110 ∧ b ≠ 116 ∧ b ≠ 102 ∧ b ≠ 45 ∧ b ≠ 34 ∧ b ≠ 91 ∧ b ≠ 123 ∧ isSpace b = false := by
  have apart {c : UInt8} (other : isDigitByte c = false) : b ≠ c := by
    rintro rfl
    exact Bool.noConfusion (digit.symm.trans other)
  have solid : isSpace b = false := by
    simp [isSpace,apart (c := 32) rfl,apart (c := 10) rfl,apart (c := 9) rfl,apart (c := 13) rfl]
  exact ⟨apart rfl,apart rfl,apart rfl,apart rfl,apart rfl,apart rfl,apart rfl,solid⟩

theorem numeral_begins {numeral : Numeral} (formed : numeral.Formed) :
    ∃ b bs, written numeral.chars = b :: bs ∧ isDigitByte b = true := by
  obtain ⟨d,ds,same,_⟩ := formed.begins
  obtain ⟨b,single,digit,_⟩ := digit_byte (formed.whole d (by rw [same]; exact List.mem_cons_self))
  rw [Numeral.chars,same,List.cons_append,written_cons,single]
  exact ⟨b,_,rfl,digit⟩

theorem gives_value_number {fuel depth : Nat} (proper : n.Proper) (ends : Ends rest) :
    Gives (value (fuel + 1) depth) (written (numberText n) ++ rest) ((n.reread.map Json.number).map (·,rest)) := by
  obtain ⟨positive,numeral,formed,chars,number⟩ := numberText_numeral proper
  have read := gives_numeral formed ends positive
  rw [number] at read
  have told := read.map (g := Json.number)
  rw [chars]
  cases positive with
  | false =>
    refine (gives_blanks rfl _).bind ((gives_eat 45 _).bind ?_)
    rw [Option.map_map] at told ⊢
    exact told
  | true =>
    obtain ⟨b,more,first,digit⟩ := numeral_begins formed
    obtain ⟨_,_,_,_,_,_,_,solid⟩ := digit_apart digit
    simp only [if_true,first,List.cons_append] at told ⊢
    refine (gives_blanks solid _).bind ?_
    simp only [digit,if_true]
    rw [Option.map_map] at told ⊢
    exact told

end Json.Reader
end ServiceKit
