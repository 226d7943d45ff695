import Mathlib.Data.List.Basic
import ServiceKit.Proofs.Validation.Nullness

namespace ServiceKit.Validation
open Text
variable {cs : List Char} {v : Datum} {i : Inspection} {s : String}

structure Dotted (domain : List Char) : Prop where
  point : '.' ∈ domain
  first : domain.head? ≠ some '.'
  last : domain.getLast? ≠ some '.'

-- One at sign in all, nothing blank, something before the sign and a dotted domain behind it.
structure Address (cs : List Char) : Prop where
  one : cs.count '@' = 1
  solid : ∀ c ∈ cs, isBlank c = false
  parts : ∃ user domain, cs = user ++ '@' :: domain ∧ user ≠ [] ∧ Dotted domain

theorem dotted_iff_split {domain : List Char} :
    Dotted domain ↔ ∃ host top, splitOnce '.' domain = some (host,top) ∧ host ≠ [] ∧ top ≠ [] ∧ top.getLast? ≠ some '.' := by
  constructor
  · intro ⟨point,first,last⟩
    cases found : splitOnce '.' domain with
    | none => exact absurd point (splitOnce_eq_none_iff.mp found)
    | some parts =>
      obtain ⟨host,top⟩ := parts
      obtain ⟨rfl,_⟩ := splitOnce_eq_some_iff.mp found
      have begun : host ≠ [] := by
        intro empty
        simp [empty] at first
      have ended : top ≠ [] := by
        intro empty
        simp [empty] at last
      refine ⟨host,top,rfl,begun,ended,?_⟩
      rwa [List.getLast?_append_cons,List.getLast?_cons_of_ne_nil ended] at last
  · intro ⟨host,top,found,begun,ended,last⟩
    obtain ⟨rfl,absent⟩ := splitOnce_eq_some_iff.mp found
    refine ⟨by simp,?_,?_⟩
    · rw [List.head?_append_of_ne_nil _ begun]
      intro first
      exact absent (List.mem_of_mem_head? first)
    · rwa [List.getLast?_append_cons,List.getLast?_cons_of_ne_nil ended]

theorem count_one_iff {c : Char} {a b : List Char} : (a ++ c :: b).count c = 1 ↔ c ∉ a ∧ c ∉ b := by
  rw [List.count_append,List.count_cons_self,← List.count_eq_zero,← List.count_eq_zero]
  omega

theorem address_append {user domain : List Char} (first : '@' ∉ user) : Address (user ++ '@' :: domain) ↔
    user ≠ [] ∧ '@' ∉ domain ∧ (∀ c ∈ user ++ '@' :: domain, isBlank c = false) ∧ Dotted domain := by
  constructor
  · intro ⟨one,solid,user',domain',same,begun,dotted⟩
    have only := count_one_iff.mp one
    have only' := count_one_iff.mp (same ▸ one)
    -- Both splits are at the only sign, so they are one.
    have split := splitOnce_append only'.1 domain'
    rw [← same,splitOnce_append first] at split
    cases split
    exact ⟨begun,only.2,solid,dotted⟩
  · intro ⟨begun,only,solid,dotted⟩
    exact ⟨count_one_iff.mpr ⟨first,only⟩,solid,user,domain,rfl,begun,dotted⟩

theorem isAddress_iff : isAddress cs = true ↔ Address cs := by
  unfold isAddress
  split
  · next absent =>
    refine iff_of_false Bool.false_ne_true ?_
    intro ⟨_,_,_,_,same,_⟩
    exact splitOnce_eq_none_iff.mp absent (by simp [same])
  · next user domain found =>
    obtain ⟨rfl,first⟩ := splitOnce_eq_some_iff.mp found
    rw [address_append first,dotted_iff_split]
    simp only [Bool.and_eq_true,Bool.not_eq_true',List.isEmpty_eq_false_iff,List.contains_eq_mem,List.any_eq_false,
      decide_eq_false_iff_not,Bool.not_eq_true,and_assoc]
    refine and_congr_right fun _ => and_congr_right fun _ => and_congr_right fun _ => ?_
    split
    · next absent => simp [absent]
    · next host top split => simp [split,and_assoc]

example : isAddress "ada@example..com".toList = true ∧ isAddress "ada@.example.com".toList = false := by decide

theorem emailText_iff : emailText s = true ↔ s = "" ∨ Address s.toList := by
  rw [emailText,Bool.or_eq_true,isAddress_iff,String.isEmpty_iff]

inductive HoldsText : Datum → String → Prop where
  | text {s : String} : HoldsText (.text s) s
  | any {s : String} : HoldsText (.any (.string s)) s
  | present {v : Datum} {s : String} (inside : HoldsText v s) : HoldsText (.optional (some v)) s
  | valid {v : Datum} {s : String} (inside : HoldsText v s) : HoldsText (.nullable (some v)) s

theorem text_eq_some_iff : v.inspect.text = some s ↔ HoldsText v s := by
  constructor
  · intro found
    induction v using Datum.inspect.induct with
    | case1 t =>
      cases found
      exact .text
    | case8 v ih => exact .present (ih found)
    | case9 v ih => exact .valid (ih found)
    | case10 j =>
      cases j with
      | string t =>
        cases found
        exact .any
      | _ => cases found
    | _ => cases found
  · intro holds
    induction holds with
    | text | any => rfl
    | present _ ih | valid _ ih => exact ih

theorem null_eq (v : Datum) : v.inspect.null = v.bareNull := by
  cases v with
  | optional value | nullable value => cases value <;> rfl
  | any j => cases j <;> rfl
  | _ => rfl

theorem email_iff (i : Inspection) : Rule.email.holds i = true ↔
    i.null = true ∨ ∃ s, i.text = some s ∧ (s = "" ∨ Address s.toList) := by
  rw [Rule.holds,Bool.or_eq_true]
  refine or_congr_right ?_
  cases i.text with
  | none => simp
  | some s => simp [emailText_iff]

-- Empty texts, addresses and null pass, and nothing else does: no other text, and no value that shows no text.
theorem email_accepts :
    (∀ s : String, Rule.email.holds (Datum.text s).inspect = true ↔ s = "" ∨ Address s.toList) ∧
    (∀ v : Datum, Rule.email.holds v.inspect = true ↔
      v.bareNull = true ∨ ∃ s, HoldsText v s ∧ (s = "" ∨ Address s.toList)) ∧
    (∀ i : Inspection, Rule.email.holds i = true ↔
      i.null = true ∨ ∃ s, i.text = some s ∧ (s = "" ∨ Address s.toList)) ∧
    ∀ i : Inspection, i.null = false → i.text = none → Rule.email.holds i = false := by
  have values (v : Datum) : Rule.email.holds v.inspect = true ↔
      v.bareNull = true ∨ ∃ s, HoldsText v s ∧ (s = "" ∨ Address s.toList) := by
    rw [email_iff,null_eq]
    simp only [text_eq_some_iff]
  refine ⟨?_,values,email_iff,?_⟩
  · intro s
    rw [email_iff]
    simp [Datum.inspect,Inspection.ofText]
  · intro i there textless
    rw [← Bool.not_eq_true,email_iff]
    simp [there,textless]

theorem number_refused : (Datum.int 5).inspect.null = false ∧ (Datum.int 5).inspect.text = none ∧
    Rule.email.holds (Datum.int 5).inspect = false :=
  ⟨rfl,rfl,email_accepts.2.2.2 _ rfl rfl⟩

end ServiceKit.Validation
