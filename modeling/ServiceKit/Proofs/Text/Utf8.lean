import Mathlib.Tactic.SplitIfs
import ServiceKit.Text.Utf8

namespace ServiceKit.Text
variable {n : Nat}

def tailByte (k : Nat) : UInt8 := UInt8.ofNat (k % 64 + 128)

theorem leading_two : ∀ k < 32, 2 ≤ k → leading (UInt8.ofNat (k + 192)) = some (1,0x80,0xBF) := by decide

theorem leading_three : ∀ k < 16, leading (UInt8.ofNat (k + 224)) =
    some (2,if k = 0 then 0xA0 else 0x80,if k = 13 then 0x9F else 0xBF) := by decide

theorem leading_four : ∀ k < 5, leading (UInt8.ofNat (k + 240)) =
    some (3,if k = 0 then 0x90 else 0x80,if k = 4 then 0x8F else 0xBF) := by decide

theorem toNat_tailByte (k : Nat) : (tailByte k).toNat = k % 64 + 128 := by
  rw [tailByte,UInt8.toNat_ofNat']
  omega

theorem low6_tailByte (k : Nat) : low6 (tailByte k) = k % 64 := by
  rw [low6,toNat_tailByte]
  omega

theorem continuation_tailByte (k : Nat) : continuation (tailByte k) = true := by
  have value := toNat_tailByte k
  simp only [continuation,UInt8.le_iff_toNat_le,Bool.and_eq_true,decide_eq_true_eq,value]
  exact ⟨Nat.le_add_left ..,by show k % 64 + 128 ≤ 191; omega⟩

theorem not_small : ∀ k < 64, ¬ UInt8.ofNat (k + 192) < 0x80 := by decide

theorem step_one (most : n < 128) (rest : Bytes) : step (UInt8.ofNat n) rest = (some (Char.ofNat n),0) := by
  have value : (UInt8.ofNat n).toNat = n := by
    rw [UInt8.toNat_ofNat']
    omega
  have small : UInt8.ofNat n < 0x80 := by
    rw [UInt8.lt_iff_toNat_lt,value]
    exact most
  rw [step,if_pos small,value]

theorem step_two (least : 128 ≤ n) (most : n < 2048) (rest : Bytes) :
    step (UInt8.ofNat (n / 64 % 32 + 192)) (tailByte n :: rest) = (some (Char.ofNat n),1) := by
  have lead := leading_two (n / 64 % 32) (by omega) (by omega)
  have large := not_small (n / 64 % 32) (by omega)
  have number : (n / 64 % 32 + 192) % 2 ^ 8 % 32 * 64 + n % 64 = n := by omega
  have inside : ¬ (tailByte n < 0x80 ∨ 0xBF < tailByte n) := by
    have value := toNat_tailByte n
    simp only [UInt8.lt_iff_toNat_lt,value]
    show ¬ (_ < 128 ∨ 191 < _)
    omega
  simp only [step,large,lead,inside,low6_tailByte,UInt8.toNat_ofNat',number,if_false,if_true]

theorem step_three (least : 2048 ≤ n) (most : n < 65536) (valid : n.isValidChar) (rest : Bytes) :
    step (UInt8.ofNat (n / 4096 % 16 + 224)) (tailByte (n / 64) :: tailByte n :: rest) = (some (Char.ofNat n),2) := by
  have lead := leading_three (n / 4096 % 16) (by omega)
  have large : ¬ UInt8.ofNat (n / 4096 % 16 + 224) < 0x80 := not_small (n / 4096 % 16 + 32) (by omega)
  have number : (n / 4096 % 16 + 224) % 2 ^ 8 % 16 * 4096 + n / 64 % 64 * 64 + n % 64 = n := by omega
  have inside : ¬ (tailByte (n / 64) < (if n / 4096 % 16 = 0 then 0xA0 else 0x80) ∨
      (if n / 4096 % 16 = 13 then 0x9F else 0xBF) < tailByte (n / 64)) := by
    have value := toNat_tailByte (n / 64)
    rcases valid with before | ⟨after,_⟩
    all_goals
      simp only [UInt8.lt_iff_toNat_lt,value,apply_ite UInt8.toNat,UInt8.reduceToNat]
      split_ifs <;> omega
  simp only [step,large,lead,inside,low6_tailByte,continuation_tailByte,UInt8.toNat_ofNat',number,if_false,Nat.reduceEqDiff,
    Bool.not_true,Bool.false_eq_true,if_true]

theorem step_four (least : 65536 ≤ n) (valid : n.isValidChar) (rest : Bytes) :
    step (UInt8.ofNat (n / 262144 % 8 + 240)) (tailByte (n / 4096) :: tailByte (n / 64) :: tailByte n :: rest) =
      (some (Char.ofNat n),3) := by
  have most : n < 1114112 := by rcases valid with before | ⟨_,most⟩ <;> omega
  have lead := leading_four (n / 262144 % 8) (by omega)
  have large : ¬ UInt8.ofNat (n / 262144 % 8 + 240) < 0x80 := not_small (n / 262144 % 8 + 48) (by omega)
  have number : (n / 262144 % 8 + 240) % 2 ^ 8 % 8 * 262144 + n / 4096 % 64 * 4096 + n / 64 % 64 * 64 + n % 64 = n := by
    omega
  have inside : ¬ (tailByte (n / 4096) < (if n / 262144 % 8 = 0 then 0x90 else 0x80) ∨
      (if n / 262144 % 8 = 4 then 0x8F else 0xBF) < tailByte (n / 4096)) := by
    have value := toNat_tailByte (n / 4096)
    simp only [UInt8.lt_iff_toNat_lt,value,apply_ite UInt8.toNat,UInt8.reduceToNat]
    split_ifs <;> omega
  simp only [step,large,lead,inside,low6_tailByte,continuation_tailByte,UInt8.toNat_ofNat',number,if_false,Nat.reduceEqDiff,
    Bool.not_true,Bool.false_eq_true]

theorem step_encodeChar (c : Char) : ∃ b more, String.utf8EncodeChar c = b :: more ∧
    ∀ rest, step b (more ++ rest) = (some c,more.length) := by
  obtain ⟨n,valid,code,same⟩ : ∃ n, n.isValidChar ∧ c.val.toNat = n ∧ c = Char.ofNat n :=
    ⟨c.toNat,c.valid,rfl,(Char.ofNat_toNat c).symm⟩
  rw [String.utf8EncodeChar,code,same]
  by_cases one : n ≤ 127
  · exact ⟨_,_,if_pos one,step_one (by omega)⟩
  by_cases two : n ≤ 2047
  · exact ⟨_,_,(if_neg one).trans (if_pos two),step_two (by omega) (by omega)⟩
  by_cases three : n ≤ 65535
  · exact ⟨_,_,(if_neg one).trans ((if_neg two).trans (if_pos three)),step_three (by omega) (by omega) valid⟩
  · exact ⟨_,_,(if_neg one).trans ((if_neg two).trans (if_neg three)),step_four (by omega) valid⟩

theorem lenientChars_encode (cs : List Char) : lenientChars (cs.flatMap String.utf8EncodeChar) = cs := by
  induction cs with
  | nil => simp [lenientChars]
  | cons c cs ih =>
    obtain ⟨b,more,encoded,decoded⟩ := step_encodeChar c
    rw [List.flatMap_cons,encoded,List.cons_append,lenientChars,decoded]
    simp [ih]

theorem lenient_utf8 (s : String) : lenient (utf8 s) = s := by
  rw [lenient,utf8,lenientChars_encode,String.ofList_toList]

theorem decodeChars_encode (cs : List Char) : decodeChars (cs.flatMap String.utf8EncodeChar) = some cs := by
  induction cs with
  | nil => simp [decodeChars]
  | cons c cs ih =>
    obtain ⟨b,more,encoded,decoded⟩ := step_encodeChar c
    rw [List.flatMap_cons,encoded,List.cons_append,decodeChars,decoded]
    simp [ih]

theorem ofUtf8?_utf8 (s : String) : ofUtf8? (utf8 s) = some s := by
  rw [ofUtf8?,utf8,decodeChars_encode,Option.map_some,String.ofList_toList]

theorem utf8_append (s t : String) : utf8 (s ++ t) = utf8 s ++ utf8 t := by
  rw [utf8,String.toList_append,List.flatMap_append]
  rfl

-- The first bytes in which two characters differ tell which is less, whatever follows.
theorem encodeChar_lt {c d : Char} (less : c < d) (x y : Bytes) :
    String.utf8EncodeChar c ++ x < String.utf8EncodeChar d ++ y := by
  have order : c.val.toNat < d.val.toNat := less
  have most : d.val.toNat < 1114112 := by
    rcases d.valid with before | ⟨_,most⟩
    · exact Nat.lt_trans before (by decide)
    · exact most
  rw [String.utf8EncodeChar,String.utf8EncodeChar]
  generalize c.val.toNat = m at order ⊢
  generalize d.val.toNat = n at order most ⊢
  have later (k : Nat) : (k % 64 + 128) % 2 ^ 8 = k % 64 + 128 := by omega
  have first (k : Nat) : (k % 8 + 240) % 2 ^ 8 = k % 8 + 240 := by omega
  have two (k : Nat) : k / 4096 = k / 64 / 64 := by omega
  have three (k : Nat) : k / 262144 = k / 64 / 64 / 64 := by omega
  split_ifs <;> simp only [List.cons_append,List.nil_append,List.cons_lt_cons_iff,UInt8.lt_iff_toNat_lt,
    ← UInt8.toNat_inj,UInt8.toNat_ofNat',later,first,two,three] <;> omega

theorem encode_lt {cs ds : List Char} (less : cs < ds) :
    cs.flatMap String.utf8EncodeChar < ds.flatMap String.utf8EncodeChar := by
  induction less with
  | @nil d ds =>
    obtain ⟨b,more,encoded,_⟩ := step_encodeChar d
    rw [List.flatMap_cons,encoded]
    exact .nil
  | rel order => exact encodeChar_lt order ..
  | cons _ ih => exact List.append_left_lt ih

theorem utf8_lt (s t : String) : utf8 s < utf8 t ↔ s < t := by
  have kept {s t : String} (less : s < t) : utf8 s < utf8 t := encode_lt (String.lt_iff.mp less)
  refine ⟨?_,kept⟩
  intro less
  by_cases same : s = t
  · rw [same] at less
    exact absurd less (List.lt_irrefl _)
  · refine Decidable.byContradiction fun other => same ?_
    refine String.le_antisymm ?_ (String.not_lt.mp other)
    exact String.not_lt.mp fun more => List.lt_asymm less (kept more)

theorem utf8_le (s t : String) : utf8 s ≤ utf8 t ↔ s ≤ t := by
  rw [← List.not_lt,utf8_lt,String.not_lt]

end ServiceKit.Text
