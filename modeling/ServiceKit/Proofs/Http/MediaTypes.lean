import ServiceKit.Http.MediaType
import ServiceKit.Proofs.Http.Headers

namespace ServiceKit.Http.MediaType
variable {cs rest : List Char} {p : Char → Bool} {c : Char}

def Visible (cs : List Char) : Prop := ∀ c ∈ cs, quotedChar c = true

@[simp] theorem visible_nil : Visible [] := fun _ mem => nomatch mem

@[simp] theorem visible_cons : Visible (c :: cs) ↔ quotedChar c = true ∧ Visible cs := List.forall_mem_cons

-- What is taken from the front is visible, if only visible characters are.
theorem visible_while (seen : ∀ c, p c = true → quotedChar c = true) (left : Visible (cs.dropWhile p)) : Visible cs := by
  intro c mem
  rw [← List.takeWhile_append_dropWhile (p := p) (l := cs)] at mem
  rcases List.mem_append.mp mem with taken | kept
  · exact seen c (List.all_eq_true.mp List.all_takeWhile c taken)
  · exact left c kept

theorem token_visible (c : Char) (token : isTokenChar c = true) : quotedChar c = true := by
  have marks : tokenMarks.all fun c => decide (c.toNat < 128) := by decide
  have small : c.toNat < 128 := by
    rcases Bool.or_eq_true_iff.mp token with alnum | mark
    · exact Headers.alnum_small alnum
    · exact of_decide_eq_true (List.all_eq_true.mp marks c (List.contains_iff_mem.mp mark))
  have visible : isTokenChar c = true → quotedChar c = true := Text.ascii_forall c small (by decide)
  exact visible token

theorem blank_visible (c : Char) (blank : (c == ' ') = true) : quotedChar c = true := by
  rw [beq_iff_eq.mp blank]
  rfl

theorem quotedValue_visible {first : Bool} {v : List Char} (read : quotedValue first cs = some (v,rest))
    (left : Visible rest) : Visible cs := by
  induction cs generalizing first v with
  | nil => cases read
  | cons c cs ih =>
    rw [quotedValue] at read
    split at read
    · next closing =>
      cases read
      rw [closing.1,visible_cons]
      exact ⟨rfl,left⟩
    · split at read
      · next visible =>
        obtain ⟨_,more,same⟩ := Option.map_eq_some_iff.mp read
        cases same
        exact visible_cons.mpr ⟨visible,ih more⟩
      · cases read

theorem afterQuoted_visible {w : List Char} (read : afterQuoted cs = some (w,rest)) (left : Visible rest) : Visible cs := by
  induction cs generalizing w with
  | nil => simp
  | cons c cs ih =>
    rw [afterQuoted.eq_def] at read
    split at read
    · next same => cases same
    · next same =>
      cases same
      cases read
      exact visible_cons.mpr ⟨rfl,left⟩
    · next same =>
      cases same
      obtain ⟨_,more,same⟩ := Option.map_eq_some_iff.mp read
      cases same
      exact visible_cons.mpr ⟨rfl,ih more⟩
    · cases read

theorem readValue_visible {v : Value} (read : readValue cs = some v) (left : Visible v.rest) : Visible cs := by
  rw [readValue.eq_def] at read
  split at read
  · obtain ⟨⟨_,inner⟩,quoted,read⟩ := Option.bind_eq_some_iff.mp read
    obtain ⟨⟨_,outer⟩,after,same⟩ := Option.bind_eq_some_iff.mp read
    cases same
    exact visible_cons.mpr ⟨rfl,quotedValue_visible quoted (afterQuoted_visible after left)⟩
  · refine visible_while token_visible ?_
    dsimp only at read
    split at read
    · next none =>
      rw [none]
      exact visible_nil
    · next more =>
      split at read
      · cases read
      · cases read
        rw [more]
        exact visible_cons.mpr ⟨rfl,left⟩
    · cases read

theorem readParams_visible {fuel : Nat} {r : List Param × List Char} (read : readParams fuel cs = some r) : Visible cs := by
  induction fuel generalizing cs r with
  | zero => cases read
  | succ fuel ih =>
    rw [readParams] at read
    refine visible_while blank_visible ?_
    split at read
    · next none =>
      rw [none]
      exact visible_nil
    · refine visible_while token_visible ?_
      dsimp only at read
      split at read
      · next more =>
        split at read
        · cases read
        · obtain ⟨v,value,read⟩ := Option.bind_eq_some_iff.mp read
          obtain ⟨_,params,_⟩ := Option.bind_eq_some_iff.mp read
          rw [more]
          exact visible_cons.mpr ⟨rfl,readValue_visible value (ih params)⟩
      · cases read

theorem parse_visible {s : String} {m : MediaType} (parsed : parse s = some m) : Visible s.toList := by
  rw [parse] at parsed
  split at parsed
  · next any =>
    rw [any]
    exact List.all_eq_true.mp rfl
  · dsimp only at parsed
    refine visible_while token_visible ?_
    split at parsed
    · next more =>
      rw [more,visible_cons]
      refine ⟨rfl,visible_while token_visible ?_⟩
      split at parsed
      · cases parsed
      · split at parsed
        · next none =>
          rw [none]
          exact visible_nil
        · next more =>
          split at parsed
          · cases parsed
          · obtain ⟨_,params,_⟩ := Option.bind_eq_some_iff.mp parsed
            rw [more,visible_cons]
            exact ⟨rfl,readParams_visible params⟩
        · cases parsed
    · cases parsed

end ServiceKit.Http.MediaType
