import ServiceKit.Form.Urlencoded
import ServiceKit.Proofs.Text.Utf8

namespace ServiceKit.Form
open Text (Bytes)
variable {sep : UInt8} {piece : Bytes}

theorem hexByteValue_upperHex : ∀ n < 16, Text.hexByteValue (upperHex n) = some n := by decide

theorem decodeBytes_cons {b : UInt8} (unmarked : b ≠ 37) (rest : Bytes) :
    decodeBytes (b :: rest) = (if b = 43 then 32 else b) :: decodeBytes rest := by
  rw [decodeBytes.eq_def]
  split
  · next same => cases same
  · next a c rest' same => exact absurd (List.cons.inj same).1 unmarked
  · next same => cases same; rfl

theorem plain_ne {b : UInt8} (kept : plain b = true) : b ≠ 37 ∧ b ≠ 43 ∧ b ≠ 38 ∧ b ≠ 61 := by
  refine ⟨?_,?_,?_,?_⟩ <;> rintro rfl <;> cases kept

theorem decodeBytes_encodeByte (b : UInt8) (rest : Bytes) : decodeBytes (encodeByte b ++ rest) = b :: decodeBytes rest := by
  unfold encodeByte
  split
  · next kept =>
    obtain ⟨unmarked,other,_⟩ := plain_ne kept
    rw [List.singleton_append,decodeBytes_cons unmarked,if_neg other]
  · split
    · next blank =>
      rw [List.singleton_append,decodeBytes_cons (by decide),if_pos rfl,blank]
    · have small : b.toNat < 256 := b.toNat_lt
      have high := hexByteValue_upperHex (b.toNat / 16) (by omega)
      have low := hexByteValue_upperHex (b.toNat % 16) (by omega)
      have number : 16 * (b.toNat / 16) + b.toNat % 16 = b.toNat := Nat.div_add_mod b.toNat 16
      simp only [List.cons_append,List.nil_append,decodeBytes,high,low,number,UInt8.ofNat_toNat]

theorem decodeBytes_encode (bs : Bytes) : decodeBytes (bs.flatMap encodeByte) = bs := by
  induction bs with
  | nil => rfl
  | cons b bs ih => rw [List.flatMap_cons,decodeBytes_encodeByte,ih]

theorem decodeText_encodeText (s : String) : decodeText (encodeText s) = s := by
  rw [decodeText,encodeText,decodeBytes_encode,Text.lenient_utf8]

theorem upperHex_unmarked : ∀ n < 16, upperHex n ≠ 38 ∧ upperHex n ≠ 61 := by decide

theorem encodeByte_unmarked (b : UInt8) : 38 ∉ encodeByte b ∧ 61 ∉ encodeByte b := by
  unfold encodeByte
  split
  · next kept =>
    obtain ⟨_,_,ampersand,equals⟩ := plain_ne kept
    simp [ampersand.symm,equals.symm]
  · split
    · decide
    · have small : b.toNat < 256 := b.toNat_lt
      have high := upperHex_unmarked (b.toNat / 16) (by omega)
      have low := upperHex_unmarked (b.toNat % 16) (by omega)
      simp [high.1.symm,high.2.symm,low.1.symm,low.2.symm]

theorem encodeText_unmarked (s : String) : 38 ∉ encodeText s ∧ 61 ∉ encodeText s := by
  simp only [encodeText,List.mem_flatMap,not_exists,not_and]
  exact ⟨fun b _ => (encodeByte_unmarked b).1,fun b _ => (encodeByte_unmarked b).2⟩

theorem pieces_ne_nil (sep : UInt8) (bs : Bytes) : pieces sep bs ≠ [] := by
  unfold pieces
  split
  · simp
  · split
    · simp
    · split <;> simp

theorem pieces_cons {b : UInt8} (other : b ≠ sep) {bs : Bytes} {more : List Bytes} (rest : pieces sep bs = piece :: more) :
    pieces sep (b :: bs) = (b :: piece) :: more := by
  simp only [pieces,rest,if_neg other]

theorem pieces_one (absent : sep ∉ piece) : pieces sep piece = [piece] := by
  induction piece with
  | nil => rfl
  | cons b piece ih =>
    rw [List.mem_cons,not_or] at absent
    exact pieces_cons (Ne.symm absent.1) (ih absent.2)

theorem pieces_append (absent : sep ∉ piece) (rest : Bytes) :
    pieces sep (piece ++ sep :: rest) = piece :: pieces sep rest := by
  induction piece with
  | nil =>
    cases later : pieces sep rest with
    | nil => exact absurd later (pieces_ne_nil sep rest)
    | cons first more => simp only [List.nil_append,pieces,later,if_true]
  | cons b piece ih =>
    rw [List.mem_cons,not_or] at absent
    exact pieces_cons (Ne.symm absent.1) (ih absent.2)

theorem encodePair_unmarked (p : String × String) : 38 ∉ encodePair p := by
  rw [encodePair,List.mem_append,List.mem_cons]
  rintro (name | mark | value)
  · exact (encodeText_unmarked p.1).1 name
  · cases mark
  · exact (encodeText_unmarked p.2).1 value

theorem decodePair_encodePair (p : String × String) : decodePair (encodePair p) = p := by
  have name : ∀ b ∈ encodeText p.1, (b != 61) = true := by
    intro b mem
    have other : b ≠ 61 := fun same => (encodeText_unmarked p.1).2 (same ▸ mem)
    simp [other]
  simp [decodePair,encodePair,List.takeWhile_append_of_pos name,List.dropWhile_append_of_pos name,decodeText_encodeText]

theorem pieces_encode (p : String × String) (ps : List (String × String)) :
    pieces 38 (encode (p :: ps)) = (p :: ps).map encodePair := by
  induction ps generalizing p with
  | nil => exact pieces_one (encodePair_unmarked p)
  | cons q ps ih =>
    rw [encode,pieces_append (encodePair_unmarked p),ih q]
    rfl

theorem decode_encode (ps : List (String × String)) : decode (encode ps) = ps := by
  cases ps with
  | nil => rfl
  | cons p ps =>
    have whole : ∀ piece ∈ (p :: ps).map encodePair, (!piece.isEmpty) = true := by
      intro piece mem
      obtain ⟨q,_,rfl⟩ := List.mem_map.mp mem
      simp [encodePair]
    rw [decode,pieces_encode,List.filter_eq_self.mpr whole,List.map_map]
    exact (List.map_congr_left fun q _ => decodePair_encodePair q).trans (List.map_id _)

theorem encode_eq_nil {ps : List (String × String)} (empty : encode ps = []) : ps = [] := by
  rw [← decode_encode ps,empty]
  rfl

end ServiceKit.Form
