import ServiceKit.Json.Reader
import ServiceKit.Proofs.Binary64.Shortest

namespace ServiceKit.Binary64
variable {m n d k : Nat} {q t : Int} {v : ℚ} {negative : Bool}

theorem toNat_withSign (negative : Bool) (less : n < 2 ^ 63) :
    (withSign negative n).bits.toNat = n + if negative then 2 ^ 63 else 0 := by
  unfold withSign
  cases negative
  all_goals
    simp
    omega

theorem decode_bits {x : Binary64} (negative : Bool) (biased fraction : Nat) (small : biased < 2047)
    (less : fraction < 2 ^ 52) (bits : x.bits.toNat = biased * 2 ^ 52 + fraction + if negative then 2 ^ 63 else 0) :
    x.decode = if biased = 0 then .finite negative fraction (-1074)
      else .finite negative (fraction + 2 ^ 52) ((biased : Int) - 1075) := by
  have sign : decide (x.bits.toNat ≥ 2 ^ 63) = negative := by
    cases negative
    all_goals
      simp at bits ⊢
      omega
  have exponent : x.bits.toNat / 2 ^ 52 % 2 ^ 11 = biased := by
    cases negative
    all_goals
      simp at bits
      omega
  have rest : x.bits.toNat % 2 ^ 52 = fraction := by
    cases negative
    all_goals
      simp at bits
      omega
  have finite : biased ≠ 2047 := by omega
  unfold decode
  simp only [Nat.pow_eq,sign,exponent,rest,finite,if_false]

theorem decode_assemble (normal : Normal m q) : (assemble negative m q).decode = .finite negative m q := by
  obtain ⟨least,greatest,less,full⟩ := normal
  unfold assemble
  simp only [Nat.pow_eq]
  split
  · next small =>
    have bits := toNat_withSign (n := m) negative (by omega)
    rw [decode_bits negative 0 m (by decide) small (by rw [bits]; omega),if_pos rfl]
    congr
    omega
  · next large =>
    have bits := toNat_withSign (n := (q + 1075).toNat * 2 ^ 52 + (m - 2 ^ 52)) negative (by omega)
    rw [decode_bits negative (q + 1075).toNat (m - 2 ^ 52) (by omega) (by omega) bits,if_neg (by omega)]
    congr
    · omega
    · omega

theorem assemble_decode {x : Binary64} (decoded : x.decode = .finite negative m q) : assemble negative m q = x := by
  have raw : x.bits.toNat < 2 ^ 64 := x.bits.toNat_lt
  have same : (assemble negative m q).bits.toNat = x.bits.toNat := by
    unfold decode at decoded
    unfold assemble
    simp only [Nat.pow_eq] at decoded ⊢
    split at decoded
    · split at decoded <;> cases decoded
    · split at decoded
      · cases decoded
        rw [if_pos (by omega),toNat_withSign _ (by omega)]
        simp only [decide_eq_true_eq]
        split <;> omega
      · cases decoded
        rw [if_neg (by omega),toNat_withSign _ (by omega)]
        simp only [decide_eq_true_eq]
        split <;> omega
  exact congrArg Binary64.mk (UInt64.toNat_inj.mp same)

theorem xor_top (less : n < 2 ^ 63) : n ^^^ 2 ^ 63 = n + 2 ^ 63 := by
  have sum : 2 ^ 63 * 1 + n = 2 ^ 63 * 1 ||| n := Nat.two_pow_add_eq_or_of_lt less 1
  rw [Nat.mul_one] at sum
  rw [Nat.add_comm,sum]
  refine Nat.eq_of_testBit_eq fun i => ?_
  rw [Nat.testBit_xor,Nat.testBit_or,Nat.testBit_two_pow]
  by_cases top : 63 = i
  · rw [← top,Nat.testBit_lt_two_pow less]
    rfl
  · simp [top]

theorem negate_withSign (less : n < 2 ^ 63) : (withSign false n).negate = withSign true n := by
  have first := toNat_withSign false less
  have second := toNat_withSign true less
  have flipped : ((withSign false n).bits ^^^ 0x8000000000000000).toNat = n + 2 ^ 63 := by
    rw [UInt64.toNat_xor,first]
    exact xor_top less
  exact congrArg Binary64.mk (UInt64.toNat_inj.mp (flipped.trans second.symm))

theorem negate_assemble (normal : Normal m q) : (assemble false m q).negate = assemble true m q := by
  obtain ⟨least,greatest,less,full⟩ := normal
  unfold assemble
  simp only [Nat.pow_eq]
  split
  · exact negate_withSign (by omega)
  · exact negate_withSign (by omega)

theorem roundHalfEven_eq (positive : 0 < d) (low : 2 * (k * d) ≤ 2 * n + d) (high : 2 * n ≤ 2 * (k * d) + d)
    (even : 2 * (k * d) = 2 * n + d ∨ 2 * n = 2 * (k * d) + d → k % 2 = 0) : roundHalfEven n d = k := by
  have split := Nat.div_add_mod' n d
  have rest := Nat.mod_lt n positive
  unfold roundHalfEven
  generalize n / d = down at split ⊢
  generalize n % d = r at split rest ⊢
  have near : k = down ∨ k = down + 1 := by
    have most : k * d < (down + 2) * d := by
      rw [Nat.add_mul]
      omega
    have least : down * d < (k + 1) * d := by
      rw [Nat.add_mul]
      omega
    have most := Nat.lt_of_mul_lt_mul_right most
    have least := Nat.lt_of_mul_lt_mul_right least
    omega
  rcases near with rfl | rfl
  · simp only
    split
    · rfl
    · split
      · omega
      · have := even (.inr (by omega))
        simp [this]
  · rw [Nat.add_mul] at low high even
    simp only
    split
    · omega
    · split
      · rfl
      · have := even (.inl (by omega))
        rw [if_neg (by omega)]

section Nearest
variable {num den : Nat}

def shifted (num den : Nat) (q : Int) : Nat × Nat :=
  if q ≥ 0 then (num,den * Nat.pow 2 q.toNat) else (num * Nat.pow 2 (-q).toNat,den)

theorem shifted_ratio (num den : Nat) (q : Int) :
    ((shifted num den q).1 : ℚ) / (shifted num den q).2 = num / den / 2 ^ q := by
  unfold shifted
  split
  · next up =>
    obtain ⟨k,rfl⟩ := Int.eq_ofNat_of_zero_le up
    simp [div_div]
  · next down =>
    obtain ⟨k,same⟩ := Int.eq_ofNat_of_zero_le (show 0 ≤ -q by omega)
    obtain rfl : q = -k := by omega
    simp [div_mul_eq_mul_div]

theorem shifted_pos (num : Nat) (positive : 0 < den) (q : Int) : 0 < (shifted num den q).2 := by
  unfold shifted
  split
  · exact Nat.mul_pos positive (Nat.pow_pos (by decide))
  · exact positive

def guess (num den : Nat) : Int := (num.log2 : Int) - (den.log2 : Int) - ((53 : Int) - 1)

def tight (num den : Nat) : Int :=
  if (shifted num den (guess num den)).1 / (shifted num den (guess num den)).2 < Nat.pow 2 (53 - 1) then guess num den - 1
  else guess num den

theorem nearest_unfold (num den : Nat) : double.nearest num den =
    let q := max (tight num den) (-1074)
    let m := roundHalfEven (shifted num den q).1 (shifted num den q).2
    let (m,q) := if m = Nat.pow 2 53 then (Nat.pow 2 (53 - 1),q + 1) else (m,q)
    if q > 971 then none else some (m,q) := rfl

theorem guess_bounds (nonzero : num ≠ 0) (positive : 0 < den) :
    (2 : ℚ) ^ (51 : Int) < num / den / 2 ^ guess num den ∧ (num : ℚ) / den / 2 ^ guess num den < 2 ^ (53 : Int) := by
  have unit : (0 : ℚ) < 2 ^ guess num den := by positivity
  have filled : (0 : ℚ) < den := by exact_mod_cast positive
  have least : (2 : ℚ) ^ (num.log2 : Int) ≤ num := by exact_mod_cast Nat.log2_self_le nonzero
  have most : (num : ℚ) < 2 ^ ((num.log2 : Int) + 1) := by exact_mod_cast Nat.lt_log2_self
  have least' : (2 : ℚ) ^ (den.log2 : Int) ≤ den := by exact_mod_cast Nat.log2_self_le positive.ne'
  have most' : (den : ℚ) < 2 ^ ((den.log2 : Int) + 1) := by exact_mod_cast Nat.lt_log2_self
  rw [lt_div_iff₀ unit,div_lt_iff₀ unit,← zpow_add₀ (by norm_num),← zpow_add₀ (by norm_num),lt_div_iff₀ filled,
    div_lt_iff₀ filled]
  constructor
  · calc (2 : ℚ) ^ (51 + guess num den) * den < 2 ^ (51 + guess num den) * 2 ^ ((den.log2 : Int) + 1) := by gcongr
      _ = 2 ^ (num.log2 : Int) := by
        rw [← zpow_add₀ (by norm_num)]
        congr 1
        unfold guess
        omega
      _ ≤ num := least
  · calc (num : ℚ) < 2 ^ ((num.log2 : Int) + 1) := most
      _ = 2 ^ (53 + guess num den) * 2 ^ (den.log2 : Int) := by
        rw [← zpow_add₀ (by norm_num)]
        congr 1
        unfold guess
        omega
      _ ≤ 2 ^ (53 + guess num den) * den := by gcongr

theorem halved (v : ℚ) (q : Int) : v / 2 ^ (q - 1) = 2 * (v / 2 ^ q) := by
  rw [zpow_sub₀ (by norm_num)]
  field_simp

theorem tight_bounds (nonzero : num ≠ 0) (positive : 0 < den) :
    (2 : ℚ) ^ (52 : Int) ≤ num / den / 2 ^ tight num den ∧ (num : ℚ) / den / 2 ^ tight num den < 2 ^ (53 : Int) := by
  obtain ⟨least,most⟩ := guess_bounds nonzero positive
  have filled : 0 < (shifted num den (guess num den)).2 := shifted_pos num positive _
  have filled' : (0 : ℚ) < (shifted num den (guess num den)).2 := by exact_mod_cast filled
  have small : (shifted num den (guess num den)).1 / (shifted num den (guess num den)).2 < Nat.pow 2 (53 - 1) ↔
      (num : ℚ) / den / 2 ^ guess num den < 2 ^ (52 : Int) := by
    rw [Nat.div_lt_iff_lt_mul filled,← shifted_ratio,div_lt_iff₀ filled']
    exact_mod_cast Iff.rfl
  unfold tight
  split
  · next less =>
    have less := small.mp less
    rw [halved]
    norm_num at least less ⊢
    constructor <;> linarith
  · next more => exact ⟨not_lt.mp fun less => more (small.mpr less),most⟩

theorem power_le (least : (2 : ℚ) ^ (52 : Int) ≤ v / 2 ^ t) (most : v / 2 ^ q < 2 ^ (53 : Int)) : t ≤ q := by
  rw [le_div_iff₀ (by positivity),← zpow_add₀ (by norm_num)] at least
  rw [div_lt_iff₀ (by positivity),← zpow_add₀ (by norm_num)] at most
  have less := (zpow_lt_zpow_iff_right₀ (by norm_num : (1 : ℚ) < 2)).mp (least.trans_lt most)
  omega

theorem round_shifted (positive : 0 < den) (low : (k - 1 / 2 : ℚ) ≤ num / den / 2 ^ q)
    (high : (num : ℚ) / den / 2 ^ q ≤ k + 1 / 2)
    (odd : k % 2 ≠ 0 → (k - 1 / 2 : ℚ) < num / den / 2 ^ q ∧ (num : ℚ) / den / 2 ^ q < k + 1 / 2) :
    roundHalfEven (shifted num den q).1 (shifted num den q).2 = k := by
  have filled := shifted_pos num positive q
  have filled' : (0 : ℚ) < (shifted num den q).2 := by exact_mod_cast filled
  rw [← shifted_ratio] at low high odd
  rw [le_div_iff₀ filled'] at low
  rw [div_le_iff₀ filled'] at high
  rw [lt_div_iff₀ filled',div_lt_iff₀ filled'] at odd
  generalize (shifted num den q).1 = n at *
  generalize (shifted num den q).2 = d at *
  refine roundHalfEven_eq filled ?_ ?_ ?_
  · have low : (2 * (k * d) : ℚ) ≤ 2 * n + d := by linarith
    exact_mod_cast low
  · have high : (2 * n : ℚ) ≤ 2 * (k * d) + d := by linarith
    exact_mod_cast high
  · intro middle
    refine Decidable.byContradiction fun uneven => ?_
    obtain ⟨more,less⟩ := odd uneven
    have more : (2 * (k * d) : ℚ) < 2 * n + d := by linarith
    have less : (2 * n : ℚ) < 2 * (k * d) + d := by linarith
    norm_cast at more less
    omega

theorem nearest_round (normal : Normal m q) (power : max (tight num den) (-1074) = q)
    (rounds : roundHalfEven (shifted num den q).1 (shifted num den q).2 = m) : double.nearest num den = some (m,q) := by
  have less : m ≠ Nat.pow 2 53 := Nat.ne_of_lt normal.less
  have most : ¬ q > 971 := Int.not_lt.mpr normal.greatest
  rw [nearest_unfold]
  simp only [power,rounds,less,most,if_false]

-- A quotient a little below a power of two is rounded up to it, with one digit more than the format has.
theorem nearest_carry (greatest : q ≤ 971) (inner : -1074 < q) (power : tight num den = q - 1)
    (rounds : roundHalfEven (shifted num den (q - 1)).1 (shifted num den (q - 1)).2 = 2 ^ 53) :
    double.nearest num den = some (2 ^ 52,q) := by
  have most : ¬ q > 971 := Int.not_lt.mpr greatest
  have start : max (q - 1) (-1074) = q - 1 := by omega
  rw [nearest_unfold]
  simp only [power,start,rounds,Nat.pow_eq,if_true,sub_add_cancel,most,if_false]

theorem nearest_narrow (greatest : q ≤ 971) (inner : -1074 < q) (nonzero : num ≠ 0) (positive : 0 < den)
    (low : (2 ^ 52 - 1 / 4 : ℚ) ≤ num / den / 2 ^ q) (small : (num : ℚ) / den / 2 ^ q < 2 ^ 52) :
    double.nearest num den = some (2 ^ 52,q) := by
  obtain ⟨full,few⟩ := tight_bounds nonzero positive
  have twice := halved (num / den) q
  have power : tight num den = q - 1 := by
    have above : q - 1 ≤ tight num den := by
      refine power_le ?_ few
      rw [twice]
      norm_num at low ⊢
      linarith
    have below : tight num den ≤ q - 1 := by
      refine power_le full ?_
      rw [twice]
      norm_num at small ⊢
      linarith
    omega
  refine nearest_carry greatest inner power (round_shifted positive ?_ ?_ fun uneven => absurd rfl uneven)
  · rw [twice]
    norm_num at low ⊢
    linarith
  · rw [twice]
    norm_num at small ⊢
    linarith

theorem nearest_eq (normal : Normal m q) (nonzero : m ≠ 0) (filled : num ≠ 0) (positive : 0 < den)
    (within : (interval m q).Contains (num / den)) : double.nearest num den = some (m,q) := by
  obtain ⟨full,few⟩ := tight_bounds filled positive
  have unit : (0 : ℚ) < 2 ^ q := by positivity
  rw [contains_iff nonzero] at within
  simp only [← le_div_iff₀ unit,← div_le_iff₀ unit,← lt_div_iff₀ unit,← div_lt_iff₀ unit] at within
  obtain ⟨low,high,odd⟩ := within
  have less : (m : ℚ) ≤ 2 ^ 53 - 1 := by
    have less : m + 1 ≤ 2 ^ 53 := normal.less
    have less : (m : ℚ) + 1 ≤ 2 ^ 53 := by exact_mod_cast less
    linarith
  have wide : (m - 1 / 2 : ℚ) ≤ m - if Narrow m q then 1 / 4 else 1 / 2 := by
    split <;> linarith
  have most : (num : ℚ) / den / 2 ^ q < 2 ^ (53 : Int) := by
    rw [show (2 : ℚ) ^ (53 : Int) = 2 ^ 53 from rfl]
    linarith
  have below : tight num den ≤ q := power_le full most
  have rounds : roundHalfEven (shifted num den q).1 (shifted num den q).2 = m := by
    refine round_shifted positive (wide.trans low) high ?_
    intro uneven
    exact ⟨wide.trans_lt (odd uneven).1,(odd uneven).2⟩
  have least := normal.least
  by_cases large : (2 : ℚ) ^ (52 : Int) ≤ num / den / 2 ^ q
  · have above : q ≤ tight num den := power_le large few
    exact nearest_round normal (by omega) rounds
  by_cases last : q = -1074
  · exact nearest_round normal (by omega) rounds
  -- The quotient has fewer digits than the number, which is therefore the least of its power.
  have small : (num : ℚ) / den / 2 ^ q < 2 ^ 52 := not_le.mp large
  obtain rfl : m = 2 ^ 52 := by
    have full : 2 ^ 52 ≤ m := normal.full.resolve_right last
    have less : (m : ℚ) < (2 ^ 52 + 1 : Nat) := by
      push_cast
      linarith [wide.trans low]
    have less : m < 2 ^ 52 + 1 := by exact_mod_cast less
    omega
  rw [if_pos ⟨rfl,by omega⟩] at low
  refine nearest_narrow normal.greatest (by omega) filled positive ?_ small
  exact_mod_cast low

theorem roundRatio_eq (normal : Normal m q) (nonzero : m ≠ 0) (filled : num ≠ 0) (positive : 0 < den)
    (within : (interval m q).Contains (num / den)) : roundRatio negative num den = assemble negative m q := by
  rw [roundRatio,if_neg filled,nearest_eq normal nonzero filled positive within]

end Nearest

variable {x y : Binary64} {a b : ℚ}

def Exactly (x : Binary64) (v : ℚ) : Prop := ∃ m q, x.decode = .finite false m q ∧ (m : ℚ) * 2 ^ q = v

theorem normal_exists {s : Nat} (nonzero : s ≠ 0) (less : s < 2 ^ 53) (low : -1000 ≤ t) (high : t ≤ 900) :
    ∃ m q, Normal m q ∧ m ≠ 0 ∧ (m : ℚ) * 2 ^ q = s * 2 ^ t := by
  have first : 2 ^ s.log2 ≤ s := Nat.log2_self_le nonzero
  have last : s < 2 ^ (s.log2 + 1) := Nat.lt_log2_self
  have bits : s.log2 < 53 := (Nat.log2_lt nonzero).mpr less
  have whole : 2 ^ s.log2 * 2 ^ (52 - s.log2) = 2 ^ 52 := by
    rw [← Nat.pow_add]
    congr 1
    omega
  have full : 2 ^ 52 ≤ s * 2 ^ (52 - s.log2) := by
    rw [← whole]
    exact Nat.mul_le_mul_right _ first
  refine ⟨s * 2 ^ (52 - s.log2),t - (52 - s.log2 : Nat),⟨by omega,by omega,?_,.inl full⟩,?_,?_⟩
  · calc s * 2 ^ (52 - s.log2) < 2 ^ (s.log2 + 1) * 2 ^ (52 - s.log2) :=
          Nat.mul_lt_mul_of_pos_right last (Nat.pow_pos (by decide))
      _ = 2 ^ 53 := by
        rw [← Nat.pow_add]
        congr 1
        omega
  · exact Nat.ne_of_gt (Nat.lt_of_lt_of_le (by decide) full)
  · push_cast
    rw [zpow_sub₀ (by norm_num),zpow_natCast]
    field_simp

theorem exactly_ratio {num den s : Nat} (nonzero : s ≠ 0) (less : s < 2 ^ 53) (low : -1000 ≤ t) (high : t ≤ 900)
    (filled : num ≠ 0) (positive : 0 < den) (value : (num : ℚ) / den = s * 2 ^ t) :
    Exactly (roundRatio false num den) (s * 2 ^ t) := by
  obtain ⟨m,q,normal,other,same⟩ := normal_exists nonzero less low high
  have within : (interval m q).Contains (num / den) := by
    rw [value,← same]
    exact contains_value other
  rw [roundRatio_eq normal other filled positive within]
  exact ⟨m,q,decode_assemble normal,same⟩

theorem exactly_ofNat {s : Nat} (nonzero : s ≠ 0) (less : s < 2 ^ 53) : Exactly (ofNat s) s := by
  have whole : (s : ℚ) / (1 : Nat) = s * 2 ^ (0 : Int) := by simp
  have exactly := exactly_ratio nonzero less (by decide) (by decide) nonzero Nat.one_pos whole
  rwa [zpow_zero,mul_one] at exactly

theorem exactly_powerOfTen {k : Nat} (few : k ≤ 22) : Exactly (Json.Reader.powerOfTen k) (10 ^ k) := by
  have odd : 5 ^ k < 2 ^ 53 := Nat.lt_of_le_of_lt (Nat.pow_le_pow_right (by decide) few) (by decide)
  have split : ((5 ^ k : Nat) : ℚ) * 2 ^ (k : Int) = 10 ^ k := by
    push_cast
    rw [zpow_natCast,← mul_pow]
    norm_num
  have whole : (Nat.pow 10 k : ℚ) / (1 : Nat) = (5 ^ k : Nat) * 2 ^ (k : Int) := by
    rw [split]
    simp
  have exactly := exactly_ratio (Nat.pow_pos (by decide)).ne' odd (by omega) (by omega) (Nat.pow_pos (by decide)).ne'
    Nat.one_pos whole
  rwa [split] at exactly

theorem significand_ne {s : Nat} (filled : (s : ℚ) * v ≠ 0) : s ≠ 0 := Nat.cast_ne_zero.mp (left_ne_zero_of_mul filled)

section Product
variable (normal : Normal m q) (nonzero : m ≠ 0)
include normal nonzero

theorem ofScaled_eq {s : Nat} (filled : s ≠ 0) (within : (interval m q).Contains (s * 2 ^ t)) :
    ofScaled false s t = assemble false m q := by
  unfold ofScaled
  split
  · next up =>
    obtain ⟨k,rfl⟩ := Int.eq_ofNat_of_zero_le up
    refine roundRatio_eq normal nonzero (Nat.mul_ne_zero filled (Nat.pow_pos (by decide)).ne') Nat.one_pos ?_
    simpa using within
  · next down =>
    obtain ⟨k,same⟩ := Int.eq_ofNat_of_zero_le (show 0 ≤ -t by omega)
    obtain rfl : t = -k := by omega
    refine roundRatio_eq normal nonzero filled (Nat.pow_pos (by decide)) ?_
    simpa [div_eq_mul_inv] using within

theorem mul_eq (first : Exactly x a) (second : Exactly y b) (filled : a ≠ 0) (filled' : b ≠ 0)
    (within : (interval m q).Contains (a * b)) : x.mul y = assemble false m q := by
  obtain ⟨m₁,q₁,decoded,rfl⟩ := first
  obtain ⟨m₂,q₂,decoded',rfl⟩ := second
  have product : (m₁ * 2 ^ q₁ : ℚ) * (m₂ * 2 ^ q₂) = (m₁ * m₂ : Nat) * 2 ^ (q₁ + q₂) := by
    rw [zpow_add₀ (by norm_num)]
    push_cast
    ring
  have first := significand_ne filled
  have second := significand_ne filled'
  unfold mul
  simp only [decoded,decoded',bne_self_eq_false]
  rw [product] at within
  exact ofScaled_eq normal nonzero (Nat.mul_ne_zero first second) within

theorem div_eq (first : Exactly x a) (second : Exactly y b) (filled : a ≠ 0) (filled' : b ≠ 0)
    (within : (interval m q).Contains (a / b)) : x.div y = assemble false m q := by
  obtain ⟨m₁,q₁,decoded,rfl⟩ := first
  obtain ⟨m₂,q₂,decoded',rfl⟩ := second
  have first := significand_ne filled
  have second := significand_ne filled'
  have quotient : (m₁ * 2 ^ q₁ : ℚ) / (m₂ * 2 ^ q₂) = m₁ / m₂ * 2 ^ (q₁ - q₂) := by
    rw [zpow_sub₀ (by norm_num)]
    field_simp
  rw [quotient] at within
  unfold div
  simp only [decoded,decoded',bne_self_eq_false,second,if_false]
  split
  · next up =>
    obtain ⟨k,same⟩ := Int.eq_ofNat_of_zero_le up
    refine roundRatio_eq normal nonzero (Nat.mul_ne_zero first (Nat.pow_pos (by decide)).ne')
      (Nat.pos_of_ne_zero second) ?_
    rw [same] at within ⊢
    simpa [mul_div_right_comm] using within
  · next down =>
    obtain ⟨k,same⟩ := Int.eq_ofNat_of_zero_le (show 0 ≤ -(q₁ - q₂) by omega)
    have turned : q₁ - q₂ = -k := by omega
    refine roundRatio_eq normal nonzero first (Nat.mul_pos (Nat.pos_of_ne_zero second) (Nat.pow_pos (by decide))) ?_
    rw [same]
    rw [turned] at within
    simpa [div_eq_mul_inv,mul_assoc,mul_comm ((2 : ℚ) ^ k)⁻¹] using within

end Product

-- A whole number of at most 53 bits is scaled by a small power of ten in one step.
theorem scale_eq {s : Nat} {e : Int} (normal : Normal m q) (nonzero : m ≠ 0) (filled : s ≠ 0) (less : s < 2 ^ 53)
    (few : e.natAbs ≤ 22) (within : (interval m q).Contains (s * 10 ^ e)) :
    Json.Reader.scale 8 (ofNat s) e = some (assemble false m q) := by
  have first := exactly_ofNat filled less
  have second := exactly_powerOfTen few
  have filled : (s : ℚ) ≠ 0 := by exact_mod_cast filled
  have filled' : (10 : ℚ) ^ e.natAbs ≠ 0 := by positivity
  unfold Json.Reader.scale
  rw [if_pos (by omega)]
  split
  · next up =>
    have power : (10 : ℚ) ^ e = 10 ^ e.natAbs := by
      rw [← zpow_natCast,Int.natAbs_of_nonneg up]
    rw [power] at within
    have finite : (assemble false m q).isFinite = true := by
      rw [isFinite,decode_assemble normal]
    simp only [mul_eq normal nonzero first second filled filled' within,finite,if_true]
  · next down =>
    have power : (10 : ℚ) ^ e = (10 ^ e.natAbs)⁻¹ := by
      rw [← zpow_natCast,← zpow_neg,Int.ofNat_natAbs_of_nonpos (by omega),neg_neg]
    rw [power,← div_eq_mul_inv] at within
    rw [div_eq normal nonzero first second filled filled' within]

end ServiceKit.Binary64
