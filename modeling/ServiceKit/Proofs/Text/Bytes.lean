import Mathlib.Data.List.Basic
import ServiceKit.Text.Blank
import ServiceKit.Proofs.Text.Utf8

namespace ServiceKit.Text
variable {α : Type*} {p q : α → Bool} {whole core : List α}

-- What is left of a list when everything of a kind is gone from both ends.
structure Strips (p : α → Bool) (whole core : List α) : Prop where
  within : ∃ before after, whole = before ++ core ++ after ∧ ∀ x ∈ before ++ after, p x = true
  first : ∀ x ∈ core.head?, p x = false
  last : ∀ x ∈ core.getLast?, p x = false

def stripped (p : α → Bool) (whole : List α) : List α := ((whole.dropWhile p).reverse.dropWhile p).reverse

theorem trimChars_eq (cs : List Char) : trimChars cs = stripped isBlank cs := rfl

theorem dropWhile_first (p : α → Bool) (l : List α) : ∀ x ∈ (l.dropWhile p).head?, p x = false := by
  intro x head
  have kept := List.head?_dropWhile_not p l
  rw [Option.mem_def.mp head] at kept
  exact kept

theorem dropWhile_stop {l : List α} (first : ∀ x ∈ l.head?, p x = false) : l.dropWhile p = l := by
  cases l with
  | nil => rfl
  | cons x l => exact List.dropWhile_cons_of_neg (by simp [first x rfl])

theorem while_stops {l : List α} {x : α} (rest : List α) (all : ∀ y ∈ l, p y = true) (stops : p x = false) :
    (l ++ x :: rest).takeWhile p = l ∧ (l ++ x :: rest).dropWhile p = x :: rest := by
  have other : ¬ p x = true := by simp [stops]
  constructor
  · rw [List.takeWhile_append_of_pos all,List.takeWhile_cons_of_neg other,List.append_nil]
  · rw [List.dropWhile_append_of_pos all,List.dropWhile_cons_of_neg other]

theorem dropWhile_split (p : α → Bool) (l : List α) :
    ∃ dropped, l = dropped ++ l.dropWhile p ∧ ∀ x ∈ dropped, p x = true :=
  ⟨l.takeWhile p,List.takeWhile_append_dropWhile.symm,List.all_eq_true.mp List.all_takeWhile⟩

theorem strips_stripped (p : α → Bool) (whole : List α) : Strips p whole (stripped p whole) := by
  let front := whole.dropWhile p
  obtain ⟨before,start,blank⟩ := dropWhile_split p whole
  obtain ⟨after,finish,blank'⟩ := dropWhile_split p front.reverse
  have middle : front = stripped p whole ++ after.reverse := by
    rw [← List.reverse_inj,finish]
    simp [stripped,front]
  refine ⟨⟨before,after.reverse,?_,?_⟩,?_,?_⟩
  · rw [List.append_assoc,← middle]
    exact start
  · intro x mem
    rcases List.mem_append.mp mem with early | late
    · exact blank x early
    · exact blank' x (List.mem_reverse.mp late)
  · intro x head
    refine dropWhile_first p whole x ?_
    show x ∈ front.head?
    rw [middle,List.head?_append,Option.mem_def.mp head]
    rfl
  · intro x last
    refine dropWhile_first p front.reverse x ?_
    rw [← List.getLast?_reverse]
    exact last

theorem Strips.eq (strips : Strips p whole core) (left : core ≠ []) : stripped p whole = core := by
  obtain ⟨⟨before,after,rfl,around⟩,first,last⟩ := strips
  have early : ∀ x ∈ before, p x = true := fun x mem => around x (List.mem_append_left _ mem)
  have late : ∀ x ∈ after.reverse, p x = true := fun x mem =>
    around x (List.mem_append_right _ (List.mem_reverse.mp mem))
  have front : (core ++ after).dropWhile p = core ++ after := by
    refine dropWhile_stop ?_
    rwa [List.head?_append_of_ne_nil _ left]
  have back : core.reverse.dropWhile p = core.reverse := by
    refine dropWhile_stop ?_
    rwa [List.head?_reverse]
  rw [stripped,List.append_assoc,List.dropWhile_append_of_pos early,front,List.reverse_append,
    List.dropWhile_append_of_pos late,back,List.reverse_reverse]

theorem Strips.subset (strips : Strips p whole core) : core ⊆ whole := by
  obtain ⟨before,after,rfl,_⟩ := strips.within
  intro x mem
  exact List.mem_append_left _ (List.mem_append_right _ mem)

theorem Strips.congr (strips : Strips p whole core) (same : ∀ x ∈ whole, p x = q x) : Strips q whole core := by
  have kept := strips.subset
  obtain ⟨⟨before,after,rfl,around⟩,first,last⟩ := strips
  refine ⟨⟨before,after,rfl,?_⟩,?_,?_⟩
  · intro x mem
    rw [← same x (by simp at mem ⊢; tauto)]
    exact around x mem
  · intro x head
    rw [← same x (kept (List.mem_of_mem_head? head))]
    exact first x head
  · intro x end_
    rw [← same x (kept (List.mem_of_mem_getLast? end_))]
    exact last x end_

theorem stripped_eq_nil : stripped p whole = [] ↔ ∀ x ∈ whole, p x = true := by
  constructor
  · intro none x mem
    obtain ⟨before,after,split,around⟩ := (strips_stripped p whole).within
    rw [none,List.append_nil] at split
    exact around x (split ▸ mem)
  · intro all
    rw [stripped,← whole.append_nil,List.dropWhile_append_of_pos all]
    rfl

theorem stripped_map {β : Type*} (p : β → Bool) (f : α → β) (l : List α) :
    stripped p (l.map f) = (stripped (p ∘ f) l).map f := by
  simp [stripped,List.dropWhile_map,← List.map_reverse]

theorem trim_isEmpty (s : String) : (trim s).isEmpty = allBlank s := by
  rw [Bool.eq_iff_iff,String.isEmpty_iff,trim,trimChars_eq,allBlank,List.all_eq_true,← stripped_eq_nil]
  exact String.ofList_eq_empty_iff

theorem utf8_injective {s t : String} (same : utf8 s = utf8 t) : s = t := by
  rw [← lenient_utf8 s,same,lenient_utf8]

@[elab_as_elim] theorem ascii_forall {P : Char → Prop} (c : Char) (ascii : c.toNat < 128)
    (each : ∀ n < 128, P (Char.ofNat n)) : P c := by
  have holds := each c.toNat ascii
  rwa [Char.ofNat_toNat] at holds

theorem utf8EncodeChar_ascii : ∀ n < 128, String.utf8EncodeChar (Char.ofNat n) = [UInt8.ofNat n] := by decide

theorem utf8_ascii {bs : Bytes} (ascii : ∀ b ∈ bs, b < 128) :
    utf8 (String.ofList (bs.map fun b => Char.ofNat b.toNat)) = bs := by
  have each : ∀ b ∈ bs, String.utf8EncodeChar (Char.ofNat b.toNat) = [b] := by
    intro b mem
    have small : b.toNat < 128 := UInt8.lt_iff_toNat_lt.mp (ascii b mem)
    rw [utf8EncodeChar_ascii b.toNat small,UInt8.ofNat_toNat]
  rw [utf8,String.toList_ofList,List.flatMap_map,List.flatMap_congr each]
  simp

theorem length_utf8 (s : String) : (utf8 s).length = s.utf8ByteSize := by
  rw [utf8,String.utf8ByteSize,← String.utf8Encode_toList]
  simp [List.utf8Encode]

theorem ascii_encode {c : Char} (ascii : c.toNat < 128) : String.utf8EncodeChar c = [UInt8.ofNat c.toNat] := by
  have single := utf8EncodeChar_ascii c.toNat ascii
  rwa [Char.ofNat_toNat] at single

theorem utf8EncodeChar_kind (c : Char) :
    (c.toNat < 128 ∧ String.utf8EncodeChar c = [UInt8.ofNat c.toNat]) ∨ ∀ b ∈ String.utf8EncodeChar c, 128 ≤ b := by
  by_cases small : c.toNat < 128
  · exact .inl ⟨small,ascii_encode small⟩
  · right
    have code : ¬ c.val.toNat ≤ 127 := fun most => small (Nat.lt_succ_of_le most)
    have next (k : Nat) : 128 ≤ (k % 64 + 128) % 2 ^ 8 := by omega
    have two (k : Nat) : 128 ≤ (k % 32 + 192) % 2 ^ 8 := by omega
    have three (k : Nat) : 128 ≤ (k % 16 + 224) % 2 ^ 8 := by omega
    have four (k : Nat) : 128 ≤ (k % 8 + 240) % 2 ^ 8 := by omega
    rw [String.utf8EncodeChar,if_neg code]
    split_ifs <;> simp only [List.forall_mem_cons,UInt8.le_iff_toNat_le,UInt8.toNat_ofNat',next,two,three,four,
      UInt8.reduceToNat,List.not_mem_nil,false_implies,implies_true,and_self]

section Ascii
variable {cs ds : List Char}

theorem encode_begins (ascii : ∀ c ∈ cs, c.toNat < 128)
    (starts : cs.flatMap String.utf8EncodeChar <+: ds.flatMap String.utf8EncodeChar) : cs <+: ds := by
  induction cs generalizing ds with
  | nil => exact List.nil_prefix
  | cons c cs ih =>
    have small := ascii c List.mem_cons_self
    rw [List.flatMap_cons,ascii_encode small,List.singleton_append] at starts
    cases ds with
    | nil => cases List.prefix_nil.mp starts
    | cons d ds =>
      rw [List.flatMap_cons] at starts
      rcases utf8EncodeChar_kind d with ⟨small',single⟩ | large
      · rw [single,List.singleton_append,List.cons_prefix_cons] at starts
        obtain ⟨same,starts⟩ := starts
        have code : c.toNat = d.toNat := by
          have same := congrArg UInt8.toNat same
          simp only [UInt8.toNat_ofNat'] at same
          omega
        have char : c = d := by rw [← Char.ofNat_toNat c,code,Char.ofNat_toNat]
        rw [char,List.cons_prefix_cons]
        exact ⟨rfl,ih (fun c mem => ascii c (List.mem_cons_of_mem _ mem)) starts⟩
      · obtain ⟨b,more,encoded,_⟩ := step_encodeChar d
        rw [encoded] at starts large
        have first := (List.cons_prefix_cons.mp starts).1
        have high := large b List.mem_cons_self
        rw [← first,UInt8.le_iff_toNat_le,UInt8.toNat_ofNat'] at high
        have code : (128 : UInt8).toNat = 128 := rfl
        omega

-- No ASCII text begins inside a character.
theorem infix_skip {bs high rest : Bytes} (large : ∀ b ∈ high, 128 ≤ b) (ascii : ∀ b ∈ bs, b < 128)
    (within : bs <:+: high ++ rest) : bs <:+: rest := by
  induction high with
  | nil => exact within
  | cons h high ih =>
    rw [List.cons_append,List.infix_cons_iff] at within
    rcases within with starts | within
    · cases bs with
      | nil => exact List.nil_infix
      | cons b bs =>
        have first := (List.cons_prefix_cons.mp starts).1
        have small := ascii b List.mem_cons_self
        rw [first] at small
        exact absurd (large h List.mem_cons_self) (UInt8.not_le.mpr small)
    · exact ih (fun b mem => large b (List.mem_cons_of_mem _ mem)) within

theorem encode_within (ascii : ∀ c ∈ cs, c.toNat < 128)
    (within : cs.flatMap String.utf8EncodeChar <:+: ds.flatMap String.utf8EncodeChar) : cs <:+: ds := by
  have small : ∀ b ∈ cs.flatMap String.utf8EncodeChar, b < 128 := by
    intro b mem
    obtain ⟨c,inside,encoded⟩ := List.mem_flatMap.mp mem
    have less := ascii c inside
    rw [ascii_encode less,List.mem_singleton] at encoded
    rw [encoded,UInt8.lt_iff_toNat_lt,UInt8.toNat_ofNat']
    exact Nat.lt_of_le_of_lt (Nat.mod_le _ _) less
  induction ds with
  | nil =>
    have starts : cs.flatMap String.utf8EncodeChar <+: [].flatMap String.utf8EncodeChar := by
      rw [List.infix_nil.mp within]
      exact List.nil_prefix
    exact (encode_begins ascii starts).isInfix
  | cons d ds ih =>
    rw [List.flatMap_cons] at within
    rcases utf8EncodeChar_kind d with ⟨_,single⟩ | large
    · rw [single,List.singleton_append,List.infix_cons_iff] at within
      rcases within with starts | within
      · have starts : cs.flatMap String.utf8EncodeChar <+: (d :: ds).flatMap String.utf8EncodeChar := by
          rw [List.flatMap_cons,single]
          exact starts
        exact (encode_begins ascii starts).isInfix
      · exact (ih within).trans (List.suffix_cons d ds).isInfix
    · exact (ih (infix_skip large small within)).trans (List.suffix_cons d ds).isInfix

end Ascii

end ServiceKit.Text
