import Mathlib.Algebra.Order.Field.Power
import Mathlib.Data.Nat.Cast.Order.Field
import Mathlib.Data.Rat.Cast.Order
import Mathlib.Tactic.FieldSimp
import Mathlib.Tactic.GCongr
import Mathlib.Tactic.Linarith
import Mathlib.Tactic.NormNum
import Mathlib.Tactic.Positivity
import Mathlib.Tactic.Ring
import ServiceKit.Binary64.Text

namespace ServiceKit.Binary64
variable {i : Interval} {x : Binary64} {num den d m n : Nat} {q e p : Int} {v : ℚ}

theorem go_spec (fuel : Nat) (less : n < den) (j : Nat) :
    ∃ k ≤ fuel, leadingPlace.go den fuel n j = -((j + k : Nat) : Int) ∧ n * 10 ^ k < den ∧
      (k = fuel ∨ den ≤ n * 10 ^ (k + 1)) := by
  induction fuel generalizing n j with
  | zero => exact ⟨0,le_rfl,rfl,by simpa using less,.inl rfl⟩
  | succ fuel ih =>
    rw [leadingPlace.go]
    split
    · next above => exact ⟨0,Nat.zero_le _,rfl,by simpa using less,.inr (by simpa using above)⟩
    · next below =>
      obtain ⟨k,most,same,under,ends⟩ := ih (Nat.not_le.mp below) (j + 1)
      refine ⟨k + 1,Nat.succ_le_succ most,?_,?_,?_⟩
      · rw [same]
        congr 2
        omega
      · rw [Nat.pow_succ']
        rwa [← Nat.mul_assoc]
      · rw [Nat.pow_succ',← Nat.mul_assoc]
        exact ends.imp_left (congrArg (· + 1))

theorem lt_leadingPlace (positive : 0 < den) : (num : ℚ) / den < 10 ^ leadingPlace num den := by
  have nonzero : (0 : ℚ) < den := by exact_mod_cast positive
  rw [div_lt_iff₀ nonzero]
  unfold leadingPlace
  split
  · have digits : num / den < 10 ^ (Nat.toDigits 10 (num / den)).length :=
      (Nat.length_toDigits_le_iff (by decide) Nat.length_toDigits_pos).mp le_rfl
    rw [zpow_natCast]
    exact_mod_cast (Nat.div_lt_iff_lt_mul positive).mp digits
  · next less =>
    obtain ⟨k,_,same,under,_⟩ := go_spec 400 (Nat.not_le.mp less) 0
    rw [same,zpow_neg,zpow_natCast,Nat.zero_add,inv_mul_eq_div,lt_div_iff₀ (by positivity)]
    exact_mod_cast under

theorem leadingPlace_le (positive : 0 < den) (large : den < num * 10 ^ 400) :
    (10 : ℚ) ^ (leadingPlace num den - 1) ≤ num / den := by
  have filled : (0 : ℚ) < den := by exact_mod_cast positive
  rw [le_div_iff₀ filled]
  unfold leadingPlace
  split
  · next whole =>
    obtain ⟨k,digits⟩ : ∃ k, (Nat.toDigits 10 (num / den)).length = k + 1 :=
      Nat.exists_eq_add_one_of_ne_zero (Nat.length_toDigits_pos).ne'
    have least : 10 ^ k ≤ num / den := by
      cases k with
      | zero => exact (Nat.le_div_iff_mul_le positive).mpr (by rwa [Nat.pow_zero,Nat.one_mul])
      | succ k =>
        refine Nat.not_lt.mp fun short => ?_
        have short := (Nat.length_toDigits_le_iff (by decide) (Nat.succ_pos k)).mpr short
        omega
    have bound := (Nat.le_div_iff_mul_le positive).mp least
    rw [digits,Nat.cast_add,Nat.cast_one,add_sub_cancel_right,zpow_natCast]
    exact_mod_cast bound
  · next less =>
    obtain ⟨k,most,same,under,ends⟩ := go_spec 400 (Nat.not_le.mp less) 0
    rcases ends with rfl | ends
    · exact absurd under (Nat.lt_asymm large)
    · have turned : -((0 + k : Nat) : Int) - 1 = -((k + 1 : Nat) : Int) := by omega
      rw [same,turned,zpow_neg,zpow_natCast,inv_mul_eq_div,div_le_iff₀ (by positivity)]
      exact_mod_cast ends

theorem leadingPlace_bounds {k : Nat} (positive : 0 < den) (nonzero : 0 < k) (less : num < den * 10 ^ k) :
    -400 ≤ leadingPlace num den ∧ leadingPlace num den ≤ k := by
  unfold leadingPlace
  split
  · have digits : (Nat.toDigits 10 (num / den)).length ≤ k :=
      (Nat.length_toDigits_le_iff (by decide) nonzero).mpr ((Nat.div_lt_iff_lt_mul positive).mpr (by rwa [Nat.mul_comm]))
    omega
  · next less =>
    obtain ⟨k,most,same,_,_⟩ := go_spec 400 (Nat.not_le.mp less) 0
    rw [same]
    omega

structure Normal (m : Nat) (q : Int) : Prop where
  least : -1074 ≤ q
  greatest : q ≤ 971
  less : m < 2 ^ 53
  full : 2 ^ 52 ≤ m ∨ q = -1074

theorem decode_normal {negative : Bool} (decoded : x.decode = .finite negative m q) : Normal m q := by
  have raw : x.bits.toNat < 2 ^ 64 := x.bits.toNat_lt
  unfold decode at decoded
  simp only [Nat.pow_eq] at decoded
  split at decoded
  · split at decoded <;> cases decoded
  · split at decoded
    · cases decoded
      exact ⟨by omega,by omega,by omega,.inr rfl⟩
    · cases decoded
      exact ⟨by omega,by omega,by omega,.inl (by omega)⟩

theorem unit_ratio (q : Int) : ((if q ≥ 2 then Nat.pow 2 (q - 2).toNat else 1 : Nat) : ℚ) /
    (if q ≥ 2 then 1 else Nat.pow 2 (2 - q).toNat : Nat) = 2 ^ (q - 2) := by
  split
  · next up =>
    obtain ⟨k,same⟩ := Int.eq_ofNat_of_zero_le (show 0 ≤ q - 2 by omega)
    rw [same]
    simp
  · next down =>
    obtain ⟨k,same⟩ := Int.eq_ofNat_of_zero_le (show 0 ≤ 2 - q by omega)
    have turned : q - 2 = -k := by omega
    rw [same,turned]
    simp

theorem two_zpow (q : Int) : (2 : ℚ) ^ (q - 2) = 2 ^ q / 4 := by
  rw [zpow_sub₀ (by norm_num)]
  norm_num

def Interval.Contains (i : Interval) (x : ℚ) : Prop :=
  (i.low : ℚ) / i.den ≤ x ∧ x ≤ (i.high : ℚ) / i.den ∧
    (i.closed = false → (i.low : ℚ) / i.den < x ∧ x < (i.high : ℚ) / i.den)

def Narrow (m : Nat) (q : Int) : Prop := m = Nat.pow 2 52 ∧ q > -1074

instance (m : Nat) (q : Int) : Decidable (Narrow m q) := instDecidableAnd

theorem interval_den (m : Nat) (q : Int) : 0 < (interval m q).den := by
  unfold interval
  simp only
  split
  · exact Nat.one_pos
  · exact Nat.pow_pos (by decide)

theorem interval_value (m : Nat) (q : Int) : ((interval m q).value : ℚ) / (interval m q).den = m * 2 ^ q := by
  have unit := unit_ratio q
  unfold interval
  simp only
  rw [Nat.cast_mul,mul_div_assoc,unit,two_zpow]
  push_cast
  ring

theorem interval_high (m : Nat) (q : Int) :
    ((interval m q).high : ℚ) / (interval m q).den = (m + 1 / 2) * 2 ^ q := by
  have unit := unit_ratio q
  unfold interval
  simp only
  rw [Nat.cast_mul,mul_div_assoc,unit,two_zpow]
  push_cast
  ring

theorem interval_low (nonzero : m ≠ 0) (q : Int) : ((interval m q).low : ℚ) / (interval m q).den =
    (m - if Narrow m q then 1 / 4 else 1 / 2) * 2 ^ q := by
  have unit := unit_ratio q
  unfold interval
  simp only
  rw [Nat.cast_mul,mul_div_assoc,unit,two_zpow]
  by_cases narrow : Narrow m q
  · have closer : (m = Nat.pow 2 52 ∧ q > -1074) = True := eq_true narrow
    simp only [narrow,closer,decide_true,if_true]
    rw [Nat.cast_sub (by omega)]
    push_cast
    ring
  · have wide : (m = Nat.pow 2 52 ∧ q > -1074) = False := eq_false narrow
    simp only [narrow,wide,decide_false,Bool.false_eq_true,if_false]
    rw [Nat.cast_sub (by omega)]
    push_cast
    ring

theorem contains_iff (nonzero : m ≠ 0) : (interval m q).Contains v ↔
    (m - if Narrow m q then 1 / 4 else 1 / 2) * 2 ^ q ≤ v ∧ v ≤ (m + 1 / 2) * 2 ^ q ∧ (m % 2 ≠ 0 →
      (m - if Narrow m q then 1 / 4 else 1 / 2) * 2 ^ q < v ∧ v < (m + 1 / 2) * 2 ^ q) := by
  unfold Interval.Contains
  rw [interval_low nonzero,interval_high]
  have closed : (interval m q).closed = false ↔ m % 2 ≠ 0 := by simp [interval]
  rw [closed]

theorem contains_value (nonzero : m ≠ 0) : (interval m q).Contains (m * 2 ^ q) := by
  have unit : (0 : ℚ) < 2 ^ q := by positivity
  rw [contains_iff nonzero]
  refine ⟨?_,?_,fun _ => ⟨?_,?_⟩⟩
  · gcongr
    split <;> norm_num
  · gcongr
    norm_num
  · gcongr
    split <;> norm_num
  · gcongr
    norm_num

theorem contains_pos (nonzero : m ≠ 0) (within : (interval m q).Contains v) : 0 < v := by
  have least := ((contains_iff nonzero).mp within).1
  have one : (1 : ℚ) ≤ m := by exact_mod_cast Nat.pos_of_ne_zero nonzero
  refine lt_of_lt_of_le (mul_pos ?_ (by positivity)) least
  split <;> linarith

def Interval.grid (i : Interval) (e : Int) : Nat × Nat :=
  if e ≥ 0 then (i.value,i.den * Nat.pow 10 e.toNat) else (i.value * Nat.pow 10 (-e).toNat,i.den)

theorem grid_ratio (i : Interval) (e : Int) : ((i.grid e).1 : ℚ) / (i.grid e).2 = i.value / i.den / 10 ^ e := by
  unfold Interval.grid
  split
  · next up =>
    obtain ⟨k,rfl⟩ := Int.eq_ofNat_of_zero_le up
    simp [div_div]
  · next down =>
    obtain ⟨k,same⟩ := Int.eq_ofNat_of_zero_le (show 0 ≤ -e by omega)
    obtain rfl : e = -k := by omega
    simp [div_mul_eq_mul_div]

theorem grid_pos (positive : 0 < i.den) (e : Int) : 0 < (i.grid e).2 := by
  unfold Interval.grid
  split
  · exact Nat.mul_pos positive (Nat.pow_pos (by decide))
  · exact positive

theorem grid_eq (i : Interval) (e : Int) :
    (if e ≥ 0 then (i.value,i.den * Nat.pow 10 e.toNat) else (i.value * Nat.pow 10 (-e).toNat,i.den)) = i.grid e := rfl

def Interval.floor (i : Interval) (e : Int) : Nat := (i.grid e).1 / (i.grid e).2

theorem floor_le (i : Interval) (e : Int) : (i.floor e : ℚ) * 10 ^ e ≤ i.value / i.den := by
  rw [← le_div_iff₀ (by positivity),← grid_ratio]
  exact Nat.cast_div_le

theorem lt_floor (positive : 0 < i.den) (e : Int) : (i.value : ℚ) / i.den < (i.floor e + 1 : Nat) * 10 ^ e := by
  have filled := grid_pos positive e
  have less : (i.grid e).1 < (i.floor e + 1) * (i.grid e).2 := (Nat.div_lt_iff_lt_mul filled).mp (Nat.lt_succ_self _)
  rw [← div_lt_iff₀ (by positivity),← grid_ratio,div_lt_iff₀ (by exact_mod_cast filled)]
  exact_mod_cast less

theorem onGrid_some (chosen : i.onGrid e = some d) : i.holds d e = true ∧ (d = i.floor e ∨ d = i.floor e + 1) := by
  unfold Interval.onGrid at chosen
  simp only [grid_eq] at chosen
  unfold Interval.floor
  split at chosen <;> grind

theorem onGrid_le (below : (i.value : ℚ) / i.den < 10 ^ p) (chosen : i.onGrid (p - n) = some d) : d ≤ 10 ^ n := by
  have scaled : (10 : ℚ) ^ p = (10 ^ n : Nat) * 10 ^ (p - n) := by
    push_cast
    rw [← zpow_natCast,← zpow_add₀ (by norm_num)]
    congr 1
    omega
  have less : (i.floor (p - n) : ℚ) * 10 ^ (p - n) < (10 ^ n : Nat) * 10 ^ (p - n) := by
    rw [← scaled]
    exact (floor_le i (p - n)).trans_lt below
  have less : i.floor (p - n) < 10 ^ n := by exact_mod_cast lt_of_mul_lt_mul_right less (by positivity)
  rcases (onGrid_some chosen).2 with same | same <;> omega

theorem holds_iff (positive : 0 < i.den) : i.holds d e = true ↔ i.Contains (d * 10 ^ e) := by
  have nonzero : (0 : ℚ) < i.den := by exact_mod_cast positive
  obtain ⟨n,t,pair,filled,value⟩ : ∃ n t : Nat,
      (if e ≥ 0 then (d * Nat.pow 10 e.toNat * i.den,1) else (d * i.den,Nat.pow 10 (-e).toNat)) = (n,t) ∧
        0 < t ∧ (d : ℚ) * 10 ^ e = n / t / i.den := by
    split
    · next up =>
      obtain ⟨k,rfl⟩ := Int.eq_ofNat_of_zero_le up
      refine ⟨_,_,rfl,Nat.one_pos,?_⟩
      simp [nonzero.ne']
    · next down =>
      obtain ⟨k,same⟩ := Int.eq_ofNat_of_zero_le (show 0 ≤ -e by omega)
      obtain rfl : e = -k := by omega
      refine ⟨_,_,rfl,Nat.pow_pos (by decide),?_⟩
      simp [nonzero.ne',div_eq_mul_inv,mul_right_comm]
  have parts : (0 : ℚ) < t := by exact_mod_cast filled
  have least : (i.low : ℚ) / i.den ≤ d * 10 ^ e ↔ i.low * t ≤ n := by
    rw [value,div_le_div_iff_of_pos_right nonzero,le_div_iff₀ parts]
    exact_mod_cast Iff.rfl
  have most : d * 10 ^ e ≤ (i.high : ℚ) / i.den ↔ n ≤ i.high * t := by
    rw [value,div_le_div_iff_of_pos_right nonzero,div_le_iff₀ parts]
    exact_mod_cast Iff.rfl
  have less : (i.low : ℚ) / i.den < d * 10 ^ e ↔ i.low * t < n := by
    rw [value,div_lt_div_iff_of_pos_right nonzero,lt_div_iff₀ parts]
    exact_mod_cast Iff.rfl
  have more : d * 10 ^ e < (i.high : ℚ) / i.den ↔ n < i.high * t := by
    rw [value,div_lt_div_iff_of_pos_right nonzero,div_lt_iff₀ parts]
    exact_mod_cast Iff.rfl
  unfold Interval.holds Interval.Contains
  rw [least,most,less,more]
  simp only [pair]
  cases i.closed with
  | true => simp
  | false =>
    simp only [Bool.false_eq_true,if_false,decide_eq_true_eq,forall_const]
    exact ⟨fun both => ⟨both.1.le,both.2.le,both⟩,fun all => all.2.2⟩

theorem onGrid_fine (positive : 0 < i.den) (within : i.Contains ((i.floor e + 1 : Nat) * 10 ^ e)) : i.onGrid e ≠ none := by
  have holds := (holds_iff positive).mpr within
  unfold Interval.onGrid
  unfold Interval.floor at holds
  simp only [grid_eq,holds]
  split <;> simp_all

-- A grid of eighteen digits is finer than half the distance of two numbers.
theorem grid_fine (less : m < 2 ^ 53) (least : (10 : ℚ) ^ (p - 1) ≤ m * 2 ^ q) :
    (10 : ℚ) ^ (p - 18) < 1 / 2 * 2 ^ q := by
  have scaled : (10 : ℚ) ^ (p - 1) = 10 ^ (p - 18) * 10 ^ 17 := by
    rw [← zpow_natCast,← zpow_add₀ (by norm_num)]
    congr 1
    omega
  have unit : (0 : ℚ) < 2 ^ q := by positivity
  have less : (m : ℚ) < 2 ^ 53 := by exact_mod_cast less
  have most : (m : ℚ) * 2 ^ q < 2 ^ 53 * 2 ^ q := by gcongr
  rw [scaled] at least
  norm_num at least most
  linarith

theorem eighteen_suffice (normal : Normal m q) (nonzero : m ≠ 0) (least : (10 : ℚ) ^ (p - 1) ≤ m * 2 ^ q) :
    (interval m q).onGrid (p - (18 : Nat)) ≠ none := by
  show (interval m q).onGrid (p - 18) ≠ none
  refine onGrid_fine (interval_den m q) ?_
  have floor := floor_le (interval m q) (p - 18)
  have above := lt_floor (interval_den m q) (p - 18)
  rw [interval_value] at floor above
  have fine := grid_fine normal.less least
  have low : (m - if Narrow m q then 1 / 4 else 1 / 2) * 2 ^ q ≤ (m : ℚ) * 2 ^ q := by
    gcongr
    split <;> norm_num
  have high : (((interval m q).floor (p - 18) + 1 : Nat) : ℚ) * 10 ^ (p - 18) < (m + 1 / 2) * 2 ^ q := by
    rw [Nat.cast_add,Nat.cast_one,add_mul,one_mul,add_mul]
    linarith
  exact (contains_iff nonzero).mpr ⟨low.trans above.le,high.le,fun _ => ⟨low.trans_lt above,high⟩⟩

theorem stripZeros_spec (fuel d : Nat) (e : Int) :
    ∃ k ≤ fuel, d = (stripZeros fuel d e).digits * 10 ^ k ∧ (stripZeros fuel d e).exponent = e + k := by
  induction fuel generalizing d e with
  | zero => exact ⟨0,le_rfl,by simp [stripZeros],by simp [stripZeros]⟩
  | succ fuel ih =>
    unfold stripZeros
    split
    · next zero =>
      obtain ⟨k,most,digits,exponent⟩ := ih (d / 10) (e + 1)
      refine ⟨k + 1,Nat.succ_le_succ most,?_,?_⟩
      · rw [Nat.pow_succ,← Nat.mul_assoc,← digits]
        omega
      · rw [exponent]
        omega
    · exact ⟨0,Nat.zero_le _,by simp,by simp⟩

structure Near (i : Interval) (p : Int) (d : Decimal) : Prop where
  digits : d.digits ≤ 10 ^ 18
  exponent : p - 18 ≤ d.exponent ∧ d.exponent ≤ p + 20
  within : i.Contains (d.digits * 10 ^ d.exponent)

section Search
variable (positive : 0 < i.den) (below : (i.value : ℚ) / i.den < 10 ^ p) (nonzero : 0 < n)
include positive below nonzero

theorem stripZeros_near (most : n ≤ 18) (chosen : i.onGrid (p - n) = some d) : Near i p (stripZeros 20 d (p - n)) := by
  obtain ⟨k,few,digits,exponent⟩ := stripZeros_spec 20 d (p - n)
  have length := onGrid_le below chosen
  have within := (holds_iff positive).mp (onGrid_some chosen).1
  refine ⟨?_,?_,?_⟩
  · calc (stripZeros 20 d (p - n)).digits ≤ d := by
          conv => rhs; rw [digits]
          exact Nat.le_mul_of_pos_right _ (by positivity)
      _ ≤ 10 ^ n := length
      _ ≤ 10 ^ 18 := Nat.pow_le_pow_right (by decide) most
  · omega
  · rw [exponent,add_comm,zpow_add₀ (by norm_num),← mul_assoc,zpow_natCast]
    have value : (d : ℚ) = (stripZeros 20 d (p - n)).digits * 10 ^ k := by exact_mod_cast digits
    rwa [← value]

theorem shortestFrom_near (all : n + fuel = 18) (ends : i.onGrid (p - (18 : Nat)) ≠ none) :
    Near i p (shortestFrom i p fuel n) := by
  induction fuel generalizing n with
  | zero =>
    obtain rfl : n = 18 := all
    obtain ⟨d,chosen⟩ := Option.ne_none_iff_exists'.mp ends
    unfold shortestFrom
    rw [chosen]
    refine ⟨onGrid_le below chosen,⟨le_rfl,?_⟩,(holds_iff positive).mp (onGrid_some chosen).1⟩
    show p - (18 : Nat) ≤ p + 20
    omega
  | succ fuel ih =>
    unfold shortestFrom
    split
    · next d chosen => exact stripZeros_near positive below nonzero (by omega) chosen
    · exact ih (Nat.succ_pos _) (by omega)

end Search

theorem two_pow_le {k : Nat} (few : n ≤ 3 * k) : 2 ^ n ≤ 10 ^ k := by
  refine (Nat.pow_le_pow_right (by decide) few).trans ?_
  rw [Nat.pow_mul]
  exact Nat.pow_le_pow_left (by decide) k

theorem interval_less (less : m < 2 ^ 53) :
    (interval m q).value < (interval m q).den * 10 ^ (17 + (q.toNat / 3 + 1)) := by
  unfold interval
  simp only
  split
  · calc 4 * m * 2 ^ (q - 2).toNat < 10 ^ 17 * 2 ^ (q - 2).toNat :=
        Nat.mul_lt_mul_of_pos_right (by omega) (Nat.pow_pos (by decide))
      _ ≤ 10 ^ 17 * 10 ^ (q.toNat / 3 + 1) := Nat.mul_le_mul_left _ (two_pow_le (by omega))
      _ = 1 * 10 ^ (17 + (q.toNat / 3 + 1)) := by rw [← Nat.pow_add,Nat.one_mul]
  · calc 4 * m * 1 < 10 ^ 17 := by omega
      _ ≤ 10 ^ (17 + (q.toNat / 3 + 1)) := Nat.pow_le_pow_right (by decide) (Nat.le_add_right ..)
      _ ≤ Nat.pow 2 (2 - q).toNat * 10 ^ (17 + (q.toNat / 3 + 1)) := Nat.le_mul_of_pos_left _ (Nat.pow_pos (by decide))

theorem interval_more {k : Nat} (nonzero : m ≠ 0) (few : 2 - q ≤ 3 * k) :
    (interval m q).den < (interval m q).value * 10 ^ k := by
  have one : 1 ≤ 10 ^ k := Nat.pow_pos (by decide)
  unfold interval
  simp only
  split
  · have twos : 1 ≤ 2 ^ (q - 2).toNat := Nat.pow_pos (by decide)
    calc 1 < 4 * m := by omega
      _ ≤ 4 * m * 2 ^ (q - 2).toNat := Nat.le_mul_of_pos_right _ twos
      _ ≤ 4 * m * 2 ^ (q - 2).toNat * 10 ^ k := Nat.le_mul_of_pos_right _ one
  · calc 2 ^ (2 - q).toNat ≤ 10 ^ k := two_pow_le (by omega)
      _ = 1 * 10 ^ k := (Nat.one_mul _).symm
      _ < 4 * m * 1 * 10 ^ k := Nat.mul_lt_mul_of_pos_right (by omega) one

-- The shortest decimal of a number lies in the number's interval.
theorem shortest_near (normal : Normal m q) (nonzero : m ≠ 0) :
    ∃ p, -400 ≤ p ∧ p ≤ 350 ∧ Near (interval m q) p (shortest m q) := by
  have positive := interval_den m q
  have places := leadingPlace_bounds positive (by omega) (interval_less (q := q) normal.less)
  have greatest := normal.greatest
  refine ⟨_,places.1,by omega,?_⟩
  unfold shortest
  rw [if_neg nonzero]
  refine shortestFrom_near positive (lt_leadingPlace positive) (by decide) rfl (eighteen_suffice normal nonzero ?_)
  rw [← interval_value]
  exact leadingPlace_le positive (interval_more nonzero (by have := normal.least; omega))

end ServiceKit.Binary64
