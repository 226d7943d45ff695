import ServiceKit.Derive.Attribute

namespace ServiceKit.Derive
open Extent
variable {f g first first' yes yes' no no' more more' next next' : Extent} {is : Token → Bool} {n m depth : Nat}
  {ts rest behind : Tokens} {joint : Bool}

namespace Extent

-- A comma behind the tokens changes nothing, also where the thing does not stand.
def Steady (f : Extent) : Prop := ∀ (ts : Tokens) joint behind,
  f (ts ++ .mark ',' joint :: behind) = (f ts).map (· ++ .mark ',' joint :: behind)

-- What the first reader takes of tokens, the second one takes of them where a comma follows.
def Within (f g : Extent) : Prop := ∀ (ts rest : Tokens) joint behind, f ts = some rest →
  g (ts ++ .mark ',' joint :: behind) = some (rest ++ .mark ',' joint :: behind)

theorem Steady.within (steady : Steady f) : Within f f := by
  intro ts rest joint behind taken
  rw [steady,taken]
  rfl

theorem steady_empty : Steady empty := fun _ _ _ => rfl

theorem steady_absent : Steady absent := fun _ _ _ => rfl

theorem steady_one (other : ∀ joint, is (.mark ',' joint) = false) : Steady (one is) := by
  intro ts joint behind
  cases ts with
  | nil => simp [one,other]
  | cons t ts =>
    show (if is t then some (ts ++ _) else none) = (if is t then some ts else none).map _
    split <;> rfl

theorem steady_before (other : ∀ joint, is (.mark ',' joint) = false) : Steady (before is) := by
  intro ts joint behind
  cases ts with
  | nil => simp [before,other]
  | cons t ts =>
    show (if is t then some (t :: ts ++ _) else none) = (if is t then some (t :: ts) else none).map _
    split <;> rfl

theorem steady_ended : Steady ended := by
  intro ts joint behind
  cases ts with
  | nil => rfl
  | cons t ts =>
    show ended (t :: (ts ++ _)) = _
    unfold ended
    split <;> simp_all

theorem steady_marks {cs : List Char} (other : ',' ∉ cs) : Steady (marks cs) := by
  induction cs with
  | nil => exact fun _ _ _ => rfl
  | cons c cs ih =>
    rw [List.mem_cons,not_or] at other
    intro ts joint behind
    cases ts with
    | nil => exact if_neg fun same => other.1 same.1.symm
    | cons t ts =>
      cases t with
      | mark d j =>
        show (if c = d ∧ (j = true ∨ cs = []) then marks cs (ts ++ _) else none) =
          (if c = d ∧ (j = true ∨ cs = []) then marks cs ts else none).map _
        split
        · exact ih other.2 ts joint behind
        · rfl
      | word _ | literal _ _ | group _ _ => rfl

theorem Steady.andThen (first : Steady f) (second : Steady g) : Steady (andThen f g) := by
  intro ts joint behind
  unfold Extent.andThen
  rw [first]
  cases f ts with
  | none => rfl
  | some rest => exact second rest joint behind

theorem Steady.either (head : Steady first) (there : Steady yes) (elsewhere : Steady no) :
    Steady (either first yes no) := by
  intro ts joint behind
  unfold Extent.either
  rw [head]
  cases first ts with
  | none => exact elsewhere ts joint behind
  | some rest => exact there rest joint behind

theorem Steady.maybe (steady : Steady f) : Steady (maybe f) := steady.either steady_empty steady_empty

theorem steady_firstOf {fs : List Extent} (each : ∀ f ∈ fs, Steady f) : Steady (firstOf fs) := by
  induction fs with
  | nil => exact steady_absent
  | cons f fs ih =>
    obtain ⟨here,others⟩ := List.forall_mem_cons.mp each
    exact here.either steady_empty (ih others)

theorem within_past : Within (past is) (past is) := by
  intro ts rest joint behind taken
  induction ts with
  | nil => cases taken
  | cons t ts ih =>
    show (if is t then some (ts ++ _) else past is (ts ++ _)) = _
    unfold past at taken
    split
    · next here =>
      rw [if_pos here] at taken
      cases taken
      rfl
    · next other =>
      rw [if_neg other] at taken
      exact ih taken

theorem within_angles : Within (angles depth) (angles depth) := by
  intro ts rest joint behind taken
  fun_induction angles depth ts with
  | case1 => cases taken
  | case2 depth j ts ih => exact ih taken
  | case3 depth j ts ih => exact ih taken
  | case4 depth j ts last =>
    cases taken
    exact if_pos last
  | case5 depth j ts inner ih => exact (if_neg inner).trans (ih taken)
  | case6 depth t ts arrow opens closes ih =>
    -- An arrow is two tokens long, so the one behind `t` decides as well; with none there the list was not closed.
    cases ts with
    | nil => cases taken
    | cons u ts =>
      rw [List.cons_append,List.cons_append,angles]
      · exact ih taken
      · simpa using arrow
      · exact opens
      · exact closes

theorem Within.andThen (head : Within f f') (tail : Within g g') : Within (andThen f g) (andThen f' g') := by
  intro ts rest joint behind taken
  obtain ⟨mid,here,taken⟩ := Option.bind_eq_some_iff.mp taken
  unfold Extent.andThen
  rw [head ts mid joint behind here]
  exact tail mid rest joint behind taken

theorem Within.either (head : Steady first) (there : Within yes yes') (elsewhere : Within no no') :
    Within (either first yes no) (either first yes' no') := by
  intro ts rest joint behind taken
  unfold Extent.either at *
  rw [head]
  cases stands : first ts with
  | none =>
    rw [stands] at taken
    exact elsewhere ts rest joint behind taken
  | some left =>
    rw [stands] at taken
    exact there left rest joint behind taken

theorem within_fuel {read read' : Nat → Extent} (without : read 0 = absent)
    (kept : ∀ n m, n ≤ m → Within (read n) (read' m) → Within (read (n + 1)) (read' (m + 1))) (le : n ≤ m) :
    Within (read n) (read' m) := by
  induction n generalizing m with
  | zero =>
    intro ts rest joint behind taken
    rw [without] at taken
    cases taken
  | succ n ih =>
    cases m with
    | zero => exact absurd le (Nat.not_succ_le_zero n)
    | succ m =>
      have le := Nat.le_of_succ_le_succ le
      exact kept n m le (ih le)

theorem within_many (head : Steady first) (each : Within more more') (le : n ≤ m) :
    Within (many first more n) (many first more' m) :=
  within_fuel rfl (fun _ _ _ next => .either head (each.andThen next) steady_empty.within) le

end Extent
open Extent

theorem steady_word (w : String) : Steady (word w) := steady_one fun _ => rfl

theorem steady_mark {c : Char} (other : c ≠ ',') : Steady (mark c) := by
  refine steady_one fun joint => ?_
  simpa [Token.isMark] using other.symm

theorem steady_group (d : Delimiter) : Steady (group d) := steady_one fun _ => rfl

theorem steady_lifetime : Steady lifetime := (steady_mark (by decide)).andThen (steady_one fun _ => rfl)

theorem steady_colons : Steady colons := steady_marks (by decide)

theorem steady_arrow : Steady arrow := steady_marks (by decide)

theorem steady_turbofish : Steady turbofish := steady_colons.andThen (steady_mark (by decide))

theorem steady_macroBody : Steady macroBody := (steady_mark (by decide)).andThen (steady_one fun _ => rfl)

theorem steady_dots : Steady dots := by
  refine steady_firstOf ?_
  simp only [List.forall_mem_cons]
  exact ⟨steady_marks (by decide),steady_marks (by decide),nofun⟩

theorem steady_operatorEnd : Steady operatorEnd := by
  have other : ∀ s ∈ operators, ',' ∉ s.toList := by decide
  refine steady_firstOf fun f mem => ?_
  obtain ⟨s,listed,rfl⟩ := List.mem_map.mp mem
  exact steady_marks (other s listed)

theorem steady_borrowKind : Steady borrowKind := by
  refine steady_firstOf ?_
  simp only [List.forall_mem_cons]
  exact ⟨steady_word "mut",(steady_word "raw").andThen (steady_one fun _ => rfl),nofun⟩

theorem within_resultEnd (parts : Within next next') : Within (resultEnd next) (resultEnd next') :=
  .either steady_arrow parts steady_empty.within

theorem within_argumentsEnd (parts : Within next next') : Within (argumentsEnd next) (argumentsEnd next') :=
  .either (steady_turbofish.either steady_empty (steady_mark (by decide))) within_angles <|
  .either (steady_group .paren) (within_resultEnd parts) steady_empty.within

theorem within_typeEnd (le : n ≤ m) : Within (typeEnd n) (typeEnd m) := by
  refine within_fuel rfl (fun n m le next => ?_) le
  exact
    .either (steady_one fun _ => rfl) steady_empty.within <|
    .either (steady_mark (by decide))
      (steady_lifetime.maybe.within.andThen ((steady_word "mut").maybe.within.andThen next)) <|
    .either (steady_mark (by decide)) (.andThen (steady_one fun _ => rfl).within next) <|
    .either steady_lifetime steady_empty.within <|
    .either (steady_mark (by decide)) next <|
    .either (steady_mark (by decide)) (within_angles.andThen (steady_colons.within.andThen next)) <|
    .either steady_colons next <|
    .either (steady_one fun _ => rfl) (next.andThen (within_many (steady_mark (by decide)) next le)) <|
    .either (steady_word "for") ((steady_mark (by decide)).within.andThen (within_angles.andThen next)) <|
    .either (steady_word "unsafe") next <|
    .either (steady_word "extern") (.andThen (steady_one fun _ => rfl).maybe.within next) <|
    .either (steady_word "fn") ((steady_group .paren).within.andThen (within_resultEnd next)) <|
    .andThen (steady_one fun _ => rfl).within <|
    .either steady_macroBody steady_empty.within <|
    (within_argumentsEnd next).andThen (.either steady_colons next steady_empty.within)

theorem within_pathEnd (le : n ≤ m) : Within (pathEnd n) (pathEnd m) := by
  refine within_fuel rfl (fun n m le next => ?_) le
  exact
    .andThen (steady_one fun _ => rfl).within <|
    .either steady_turbofish (within_angles.andThen (.either steady_colons next steady_empty.within)) <|
    .either steady_colons next steady_empty.within

theorem within_nameEnd (le : n ≤ m) : Within (nameEnd n) (nameEnd m) := by
  have path := within_pathEnd le
  have qualified : Within (andThen (angles 1) (andThen colons (pathEnd n))) _ :=
    within_angles.andThen (steady_colons.within.andThen path)
  exact .andThen (.either steady_colons path (.either (steady_mark (by decide)) qualified path))
    ((steady_group .brace).either steady_empty steady_macroBody.maybe).within

theorem within_postfixEnd (le : n ≤ m) : Within (postfixEnd n) (postfixEnd m) := by
  refine within_fuel rfl (fun n m le next => ?_) le
  have suffix : Steady (firstOf [group .paren,group .bracket,mark '?']) := by
    refine steady_firstOf ?_
    simp only [List.forall_mem_cons]
    exact ⟨steady_group _,steady_group _,steady_mark (by decide),nofun⟩
  have arguments : Within (either turbofish (angles 1) empty) _ :=
    .either steady_turbofish within_angles steady_empty.within
  exact
    .either (steady_one fun _ => rfl) (.andThen (steady_one fun _ => rfl).within (arguments.andThen next)) <|
    .either suffix next steady_empty.within

theorem within_blocksEnd (le : n ≤ m) : Within (blocksEnd n) (blocksEnd m) :=
  within_past.andThen (within_many (steady_word "else") within_past le)

theorem within_optionalEnd (parts : Within next next') : Within (optionalEnd next) (optionalEnd next') :=
  .either steady_ended steady_empty.within parts

theorem within_operandEnd (parts : Within next next') (le : n ≤ m) : Within (operandEnd next n) (operandEnd next' m) :=
  .either (steady_one fun _ => rfl) steady_empty.within <|
  .either (steady_mark (by decide)) (within_past.andThen ((within_resultEnd (within_typeEnd le)).andThen parts)) <|
  .either steady_lifetime ((steady_mark (by decide)).within.andThen parts) <|
  .either (steady_one fun _ => rfl) (within_blocksEnd le) <|
  .either (steady_one fun _ => rfl) (.andThen (steady_before fun _ => rfl).within parts) <|
  .either (steady_one fun _ => rfl) (steady_lifetime.maybe.within.andThen (within_optionalEnd parts)) <|
  .either (steady_word "continue") steady_lifetime.maybe.within <|
  .either (steady_word "let") (within_past.andThen parts) <|
  .either steady_dots (within_optionalEnd parts) (within_nameEnd le)

theorem within_expressionEnd (le : n ≤ m) : Within (expressionEnd n) (expressionEnd m) := by
  refine within_fuel rfl (fun n m le next => ?_) le
  exact
    .either (steady_one fun _ => rfl) next <|
    .either (steady_mark (by decide)) (steady_borrowKind.maybe.within.andThen next) <|
    (within_operandEnd next le).andThen <|
    (within_postfixEnd le).andThen <|
    (within_many (steady_word "as") (within_typeEnd le) le).andThen <|
    .either steady_dots (within_optionalEnd next) (.either steady_operatorEnd next steady_empty.within)

theorem expression_comma {v : Value} (read : expression ts = some (v,rest)) :
    expression (ts ++ .mark ',' joint :: behind) = some (v,rest ++ .mark ',' joint :: behind) := by
  obtain ⟨_,ends,same⟩ := Option.map_eq_some_iff.mp read
  cases same
  have fuel : ts.length + 1 ≤ (ts ++ .mark ',' joint :: behind).length + 1 := by simp
  unfold expression
  rw [within_expressionEnd fuel ts rest joint behind ends,Option.map_some,List.length_append,List.length_append,
    Nat.add_sub_add_right,List.take_append_of_le_length (Nat.sub_le ..)]

end ServiceKit.Derive
