import ServiceKit.Http.Response
import ServiceKit.Http.Token
import ServiceKit.Proofs.Text.Bytes

namespace ServiceKit
open Text (Bytes)

namespace Headers

theorem all_set_same (h : Headers) (name : String) (value : Bytes) : (h.set name value).all name = [value] := by
  induction h with
  | nil => simp [set,all]
  | cons e rest ih =>
    by_cases here : e.1 = name
    · simp [set,all,here]
    · simpa [set,all,here] using ih

theorem get?_eq_head? (h : Headers) (name : String) : h.get? name = (h.all name).head? := by
  rw [get?,all,List.head?_map,List.head?_filter]

theorem get?_set_same (h : Headers) (name : String) (value : Bytes) : (h.set name value).get? name = some value := by
  rw [get?_eq_head?,all_set_same]
  rfl

theorem all_set_other {name other : String} (h : Headers) (different : other ≠ name) (value : Bytes) :
    (h.set name value).all other = h.all other := by
  induction h with
  | nil => simp [set,all,different.symm]
  | cons e rest ih =>
    by_cases here : e.1 = name
    · have kept : (rest.filter fun e => e.1 != name).filter (fun e => e.1 == other) =
          rest.filter fun e => e.1 == other := by
        rw [List.filter_filter]
        refine List.filter_congr fun e _ => ?_
        by_cases same : e.1 = other <;> simp [same,different]
      simp [set,all,here,different.symm,kept]
    · by_cases same : e.1 = other
      · simpa [set,all,here,same,different] using ih
      · simpa [set,all,here,same] using ih

end Headers

namespace Headers
variable {value bs : Bytes} {id s : String}

def Readable (value : Bytes) : Prop := ∀ b ∈ value, 32 ≤ b ∧ b < 127 ∨ b = 9

def blank (b : UInt8) : Bool := b == 32 || b == 9

def charOf (b : UInt8) : Char := Char.ofNat b.toNat

theorem blank_charOf_nat : ∀ n < 127, 32 ≤ n ∨ n = 9 → Text.isBlank (Char.ofNat n) = blank (UInt8.ofNat n) := by decide

theorem Readable.small (readable : Readable value) : ∀ b ∈ value, b < 128 := by
  intro b mem
  rcases readable b mem with ⟨_,less⟩ | rfl
  · exact UInt8.lt_trans less (by decide)
  · decide

theorem Readable.blank_charOf (readable : Readable value) : ∀ b ∈ value, Text.isBlank (charOf b) = blank b := by
  intro b mem
  have range : b.toNat < 127 ∧ (32 ≤ b.toNat ∨ b.toNat = 9) := by
    rcases readable b mem with ⟨least,less⟩ | rfl
    · exact ⟨UInt8.lt_iff_toNat_lt.mp less,.inl (UInt8.le_iff_toNat_le.mp least)⟩
    · decide
  have same := blank_charOf_nat b.toNat range.1 range.2
  rwa [UInt8.ofNat_toNat] at same

theorem readable_iff : readable value = some s ↔ Readable value ∧ s = String.ofList (value.map charOf) := by
  have visible : (value.all fun b => decide (32 ≤ b) && decide (b < 127) || b == 9) = true ↔ Readable value := by
    simp [Readable]
  unfold readable
  split
  · next all =>
    simp only [visible.mp all,true_and,Option.some.injEq]
    exact eq_comm
  · next other =>
    have unreadable : ¬ Readable value := fun readable => other (visible.mpr readable)
    simp [unreadable]

structure Trims (value : Bytes) (id : String) : Prop where
  readable : Readable value
  strips : Text.Strips blank value (ofText id)

theorem trim_charOf (value : Bytes) : Text.trim (String.ofList (value.map charOf)) =
    String.ofList ((Text.stripped (Text.isBlank ∘ charOf) value).map charOf) := by
  rw [Text.trim,String.toList_ofList,Text.trimChars_eq,Text.stripped_map]

theorem trims_trim (readable : Readable value) : Trims value (Text.trim (String.ofList (value.map charOf))) := by
  have strips := Text.strips_stripped (Text.isBlank ∘ charOf) value
  have left : ofText (Text.trim (String.ofList (value.map charOf))) = Text.stripped (Text.isBlank ∘ charOf) value := by
    rw [trim_charOf]
    exact Text.utf8_ascii fun b mem => readable.small b (strips.subset mem)
  refine ⟨readable,?_⟩
  rw [left]
  exact strips.congr readable.blank_charOf

theorem Trims.eq (trims : Trims value id) (left : ofText id ≠ []) :
    Text.trim (String.ofList (value.map charOf)) = id := by
  have strips := trims.strips.congr fun b mem => (trims.readable.blank_charOf b mem).symm
  have bytes : ofText (String.ofList ((ofText id).map charOf)) = ofText id :=
    Text.utf8_ascii fun b mem => trims.readable.small b (strips.subset mem)
  rw [trim_charOf]
  refine Text.utf8_injective ?_
  rw [Text.Strips.eq (p := Text.isBlank ∘ charOf) strips left]
  exact bytes

theorem alnum_small {c : Char} (alnum : Text.isAlnum c = true) : c.toNat < 128 := by
  simp only [Text.isAlnum,Text.isDigit,Bool.or_eq_true,Bool.and_eq_true,decide_eq_true_eq] at alnum
  rcases alnum with (⟨_,most⟩ | ⟨_,most⟩) | ⟨_,most⟩ <;> exact Nat.lt_of_le_of_lt most (by decide)

theorem readable_ofText (alnum : ∀ c ∈ s.toList, Text.isAlnum c = true) : Readable (ofText s) := by
  intro b mem
  obtain ⟨c,inside,encoded⟩ := List.mem_flatMap.mp mem
  have small := alnum_small (alnum c inside)
  have visible : Text.isAlnum c = true → 32 ≤ UInt8.ofNat c.toNat ∧ UInt8.ofNat c.toNat < 127 ∨ UInt8.ofNat c.toNat = 9 :=
    Text.ascii_forall c small (by decide)
  rw [Text.ascii_encode small,List.mem_singleton] at encoded
  rw [encoded]
  exact visible (alnum c inside)

theorem Readable.headerValue (readable : Readable value) : Http.headerValue? value = some value := by
  refine if_pos (List.all_eq_true.mpr ?_)
  intro b mem
  rcases readable b mem with ⟨least,less⟩ | rfl
  · have other : b ≠ 127 := by
      rintro rfl
      exact absurd less (by decide)
    simp [Http.headerByte,least,other]
  · decide

end Headers
end ServiceKit
