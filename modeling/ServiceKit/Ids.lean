import ServiceKit.Text.Ascii

namespace ServiceKit

def requestIdLength : Nat := 15

namespace Ids

def padded (width : Nat) (digits : List Char) : List Char :=
  List.replicate (width - digits.length) '0' ++ digits

-- Groups of 8, 4, 4, 4 and 12 hexadecimal digits, the third starting with 4 and the fourth with 8.
def traceText (n : Nat) : String :=
  String.ofList ("00000000-0000-4000-8000-".toList ++ padded 12 (Nat.toDigits 16 (n % Nat.pow 16 12)))

def requestText (n : Nat) : String :=
  String.ofList (padded requestIdLength (Nat.toDigits 10 (n % Nat.pow 10 requestIdLength)))

def isLowerHex (c : Char) : Bool :=
  (decide ('0' ≤ c) && decide (c ≤ '9')) || (decide ('a' ≤ c) && decide (c ≤ 'f'))

def traceShape (i : Nat) (c : Char) : Bool :=
  if i = 8 ∨ i = 13 ∨ i = 18 ∨ i = 23 then c == '-'
  else if i = 14 then c == '4'
  else if i = 19 then c == '8' || c == '9' || c == 'a' || c == 'b'
  else isLowerHex c

def beginsWithTrace (cs : List Char) : Bool :=
  (cs.take 36).length == 36 && (cs.take 36).zipIdx.all fun (c,i) => traceShape i c

def isTrace (s : String) : Bool := s.length == 36 && beginsWithTrace s.toList

theorem hex_digitChar : ∀ d < 16, isLowerHex (Nat.digitChar d) = true := by decide

theorem hex_toDigits {n : Nat} {c : Char} (mem : c ∈ Nat.toDigits 16 n) : isLowerHex c = true := by
  induction n using Nat.strongRecOn with
  | ind n ih =>
    rw [Nat.toDigits_eq_if (by decide)] at mem
    split at mem
    · next small =>
      rw [List.mem_singleton.mp mem]
      exact hex_digitChar n small
    · next large =>
      rcases List.mem_append.mp mem with upper | last
      · exact ih (n / 16) (by omega) upper
      · rw [List.mem_singleton.mp last]
        exact hex_digitChar (n % 16) (Nat.mod_lt n (by decide))

theorem hex_padded {width : Nat} {digits : List Char} (hex : ∀ c ∈ digits, isLowerHex c = true) :
    ∀ c ∈ padded width digits, isLowerHex c = true := by
  intro c mem
  rcases List.mem_append.mp mem with zero | digit
  · rw [(List.mem_replicate.mp zero).2]
    decide
  · exact hex c digit

theorem length_padded {width : Nat} {digits : List Char} (fits : digits.length ≤ width) :
    (padded width digits).length = width := by
  simp only [padded,List.length_append,List.length_replicate]
  omega

theorem traceShape_tail {cs : List Char} (hex : ∀ c ∈ cs, isLowerHex c = true) {k : Nat} (late : 24 ≤ k) :
    (cs.zipIdx k).all (fun (c,i) => traceShape i c) = true := by
  refine List.all_eq_true.mpr ?_
  rintro ⟨c,i⟩ mem
  have after := List.le_snd_of_mem_zipIdx mem
  have here : isLowerHex c = true := hex c (List.fst_mem_of_mem_zipIdx mem)
  simp only [traceShape]
  simp only at after
  rw [if_neg (by omega),if_neg (by omega),if_neg (by omega)]
  exact here

theorem isTrace_traceText (n : Nat) : isTrace (traceText n) = true := by
  let groups := "00000000-0000-4000-8000-".toList
  let digits := Nat.toDigits 16 (n % Nat.pow 16 12)
  have fits : digits.length ≤ 12 :=
    (Nat.length_toDigits_le_iff (by decide) (by decide)).mpr (Nat.mod_lt n (by decide))
  have whole : (traceText n).toList = groups ++ padded 12 digits := String.toList_ofList
  have length : (groups ++ padded 12 digits).length = 36 := by
    rw [List.length_append,length_padded fits]
    rfl
  have first : groups.zipIdx.all (fun (c,i) => traceShape i c) = true := by decide
  have hex : ∀ c ∈ padded 12 digits, isLowerHex c = true := hex_padded fun c => hex_toDigits
  have shaped : ((groups ++ padded 12 digits).zipIdx.all fun (c,i) => traceShape i c) = true := by
    rw [List.zipIdx_append,List.all_append,first]
    exact traceShape_tail hex (Nat.le_refl 24)
  have taken := List.take_of_length_le (Nat.le_of_eq length)
  simp only [isTrace,beginsWithTrace,← String.length_toList,whole,length,taken,shaped]
  rfl

def isRequestId (s : String) : Bool := s.length == requestIdLength && s.toList.all Text.isAlnum

theorem alnum_of_isDigit {c : Char} (digit : c.isDigit = true) : Text.isAlnum c = true := by
  have same : Text.isDigit c = true := digit
  rw [Text.isAlnum,same]
  rfl

theorem isRequestId_requestText (n : Nat) : isRequestId (requestText n) = true := by
  let digits := Nat.toDigits 10 (n % Nat.pow 10 requestIdLength)
  have fits : digits.length ≤ requestIdLength :=
    (Nat.length_toDigits_le_iff (by decide) (by decide)).mpr (Nat.mod_lt n (by decide))
  have whole : (requestText n).toList = padded requestIdLength digits := String.toList_ofList
  have alnum : (padded requestIdLength digits).all Text.isAlnum = true := by
    refine List.all_eq_true.mpr ?_
    intro c mem
    rcases List.mem_append.mp mem with zero | digit
    · rw [(List.mem_replicate.mp zero).2]
      decide
    · exact alnum_of_isDigit (Nat.isDigit_of_mem_toDigits (by decide) (by decide) digit)
  simp only [isRequestId,← String.length_toList,whole,length_padded fits,alnum]
  rfl

end Ids

structure Supply where
  next : Nat
deriving DecidableEq, Repr, Inhabited

def Supply.trace (s : Supply) : String × Supply := (Ids.traceText s.next,⟨s.next + 1⟩)
def Supply.request (s : Supply) : String × Supply := (Ids.requestText s.next,⟨s.next + 1⟩)

end ServiceKit
