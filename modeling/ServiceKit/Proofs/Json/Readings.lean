import ServiceKit.Json.Reader
import ServiceKit.Proofs.Json.Printing

namespace ServiceKit.Json.Reader
open Text (Bytes)
variable {α β : Type} {act : Reader α} {f : α → Reader β} {finish : Reader Unit} {bs rest : Bytes} {a : α} {b : UInt8}
  {answer : Option (α × Bytes)} {final : Option (β × Bytes)}

def outcome (act : Reader α) (c : Cursor) : Option (α × Bytes) :=
  match act c with
  | .ok a c => some (a,c.rest)
  | .error _ _ => none

-- What is read of the bytes, and those that are left; nothing where the reader fails. Lines and columns do not matter.
def Gives (act : Reader α) (bs : Bytes) (answer : Option (α × Bytes)) : Prop :=
  ∀ line column, outcome act ⟨bs,line,column⟩ = answer

theorem outcome_bind (act : Reader α) (f : α → Reader β) (c : Cursor) :
    outcome (act >>= f) c = match act c with
      | .ok a c => outcome (f a) c
      | .error _ _ => none := by
  show outcome (EStateM.bind act f) c = _
  unfold outcome EStateM.bind
  cases act c <;> rfl

theorem Gives.bind (first : Gives act bs (some (a,rest))) (second : Gives (f a) rest final) :
    Gives (act >>= f) bs final := by
  intro line column
  have read := first line column
  rw [outcome_bind]
  unfold outcome at read
  cases ran : act ⟨bs,line,column⟩ with
  | error e c => rw [ran] at read; cases read
  | ok a' c =>
    rw [ran] at read
    cases read
    exact second c.line c.column

theorem Gives.bind_none (first : Gives act bs none) : Gives (act >>= f) bs none := by
  intro line column
  have read := first line column
  rw [outcome_bind]
  unfold outcome at read
  cases ran : act ⟨bs,line,column⟩ with
  | error e c => rfl
  | ok a c => rw [ran] at read; cases read

theorem gives_looking {f : Cursor → Reader β} (looked : ∀ line column, Gives (f ⟨bs,line,column⟩) bs final) :
    Gives (do let c ← get; f c) bs final := fun line column => looked line column line column

theorem gives_pure (a : α) (bs : Bytes) : Gives (pure a) bs (some (a,bs)) := fun _ _ => rfl

theorem Gives.map {g : α → β} (gives : Gives act bs answer) :
    Gives (do return g (← act)) bs (answer.map fun r => (g r.1,r.2)) := by
  cases answer with
  | none => exact gives.bind_none
  | some r => exact gives.bind (gives_pure _ _)

theorem gives_cons (g : α → β) {tail : Reader (List β)} {first : Option α} {others : Option (List β)} {more : Bytes}
    (here : Gives act bs (first.map (·,more))) (later : Gives tail more (others.map (·,rest))) :
    Gives (do
      let a ← act
      return g a :: (← tail)) bs ((do return g (← first) :: (← others)).map (·,rest)) := by
  cases first with
  | none => exact here.bind_none
  | some a =>
    refine here.bind ?_
    cases others with
    | none => exact later.bind_none
    | some _ => exact later.bind (gives_pure _ _)

theorem gives_here (fault : Fault) (bs : Bytes) : Gives (here fault : Reader α) bs none := fun _ _ => rfl

theorem gives_ahead (fault : Fault) (bs : Bytes) : Gives (ahead fault : Reader α) bs none := fun _ _ => rfl

theorem gives_peek (bs : Bytes) : Gives peek bs (some (bs.head?,bs)) := fun _ _ => rfl

theorem rest_advance (c : Cursor) : c.advance.rest = c.rest.tail := by
  unfold Cursor.advance
  split
  · next none => rw [none]; rfl
  · next b rest some =>
    rw [some]
    split <;> rfl

theorem rest_advanceBy (n : Nat) (c : Cursor) : (Cursor.advanceBy n c).rest = c.rest.drop n := by
  induction n generalizing c with
  | zero => rfl
  | succ n ih => rw [Cursor.advanceBy,ih,rest_advance,List.drop_tail]

theorem gives_modify {move : Cursor → Cursor} (rest : Bytes) (moved : ∀ c : Cursor, c.rest = bs → (move c).rest = rest) :
    Gives (modify move) bs (some ((),rest)) := by
  intro line column
  show some ((),(move _).rest) = _
  rw [moved _ rfl]

theorem gives_eat (b : UInt8) (bs : Bytes) : Gives eat (b :: bs) (some ((),bs)) :=
  gives_modify bs fun c whole => by rw [rest_advance,whole]; rfl

theorem gives_next (b : UInt8) (bs : Bytes) : Gives next (b :: bs) (some (some b,bs)) :=
  (gives_peek _).bind ((gives_eat b bs).bind (gives_pure _ _))

theorem gives_takeDigits (bs : Bytes) :
    Gives takeDigits bs (some (bs.takeWhile isDigitByte,bs.dropWhile isDigitByte)) := by
  refine gives_looking fun line column => Gives.bind (gives_modify _ ?_) (gives_pure _ _)
  intro c whole
  rw [rest_advanceBy,whole]
  have split := List.takeWhile_append_dropWhile (p := isDigitByte) (l := bs)
  exact (congrArg (List.drop _) split.symm).trans (List.drop_left' rfl)

theorem gives_blanks (solid : isSpace b = false) (bs : Bytes) : Gives blanks (b :: bs) (some (some b,b :: bs)) := by
  refine gives_looking fun line column => Gives.bind (gives_modify (b :: bs) ?_) (gives_peek _)
  intro c whole
  rw [rest_advanceBy,whole,List.takeWhile_cons_of_neg (by simp [solid])]
  rfl

theorem gives_blanks_nil : Gives blanks [] (some (none,[])) :=
  gives_looking fun line column => (gives_modify [] fun c whole => by rw [rest_advanceBy,whole]; rfl).bind (gives_peek _)

theorem Gives.placed (gives : Gives act bs answer) : Gives (placed act) bs answer := by
  intro line column
  rw [← gives line column]
  unfold outcome Reader.placed
  cases act ⟨bs,line,column⟩ <;> rfl

theorem Gives.andThen {left : Bytes} (gives : Gives act bs (some (a,rest))) (ends : Gives finish rest (some ((),left))) :
    Gives (andThen act finish) bs (some (a,left)) := by
  intro line column
  have read := gives line column
  unfold outcome Reader.andThen at *
  cases ran : act ⟨bs,line,column⟩ with
  | error e c => rw [ran] at read; cases read
  | ok a' c =>
    rw [ran] at read
    cases read
    have ended := ends c.line c.column
    unfold outcome at ended
    cases last : finish c with
    | error e c' => rw [last] at ended; cases ended
    | ok _ c' =>
      rw [last] at ended
      cases ended
      simp only [last]

theorem Gives.andThen_none (gives : Gives act bs none) : Gives (Reader.andThen act finish) bs none := by
  intro line column
  have read := gives line column
  unfold outcome Reader.andThen at *
  cases ran : act ⟨bs,line,column⟩ with
  | ok a c => rw [ran] at read; cases read
  | error e c =>
    simp only
    cases finish c <;> rfl

theorem gives_enclosed (g : α → β) {inner : Option α} {more : Bytes} (inside : Gives act bs (inner.map (·,more)))
    (ends : Gives finish more (some ((),rest))) :
    Gives (Reader.andThen (do return g (← act)) finish) bs ((inner.map g).map (·,rest)) := by
  cases inner with
  | none => exact inside.bind_none.andThen_none
  | some a => exact (inside.bind (f := fun a => pure (g a)) (gives_pure _ _)).andThen ends

theorem gives_word (ws rest : Bytes) : Gives (word ws) (ws ++ rest) (some ((),rest)) := by
  induction ws with
  | nil => exact gives_pure _ _
  | cons w ws ih =>
    refine (gives_next w (ws ++ rest)).bind ?_
    simp only [if_true]
    exact ih

theorem Gives.document {whole : Option α} (gives : Gives act bs (whole.map (·,[]))) :
    ((Reader.document act).run bs).toOption = whole := by
  have read : Gives (Reader.document act) bs (whole.map (·,[])) := by
    cases whole with
    | none => exact gives.bind_none
    | some a => exact gives.bind (Gives.bind (gives_blanks_nil.bind (gives_pure _ _)) (gives_pure _ _))
  have ran := read 1 0
  unfold outcome at ran
  unfold Reader.run Cursor.start
  cases made : Reader.document act ⟨bs,1,0⟩ with
  | error e c =>
    rw [made] at ran
    cases whole with
    | none => rfl
    | some a => cases ran
  | ok a c =>
    rw [made] at ran
    cases whole with
    | none => cases ran
    | some a' => exact congrArg some (Prod.mk.inj (Option.some.inj ran)).1

section Strings
variable {c : Char} {fuel : Nat} {read : Bytes} {whole : Option (Bytes × Bytes)}

def written (cs : List Char) : Bytes := cs.flatMap String.utf8EncodeChar

theorem written_append (cs ds : List Char) : written (cs ++ ds) = written cs ++ written ds := List.flatMap_append

theorem written_cons (c : Char) (cs : List Char) : written (c :: cs) = String.utf8EncodeChar c ++ written cs :=
  List.flatMap_cons

theorem hexByteValue_hexDigit : ∀ n < 16, ∃ b, String.utf8EncodeChar (Text.hexDigit n) = [b] ∧ Text.hexByteValue b = some n := by
  intro n small
  refine ⟨UInt8.ofNat (Text.hexDigit n).toNat,?_,?_⟩ <;> revert n <;> decide

theorem gives_hexEscape {a b c d : UInt8} {i j k l : Nat} (first : Text.hexByteValue a = some i) (second : Text.hexByteValue b = some j)
    (third : Text.hexByteValue c = some k) (fourth : Text.hexByteValue d = some l) (rest : Bytes) :
    Gives hexEscape (a :: b :: c :: d :: rest) (some (((i * 16 + j) * 16 + k) * 16 + l,rest)) := by
  refine gives_looking fun line column => Gives.bind (gives_modify rest ?_) ?_
  · intro c whole
    rw [rest_advanceBy,whole]
    rfl
  · simp only [first,second,third,fourth]
    exact gives_pure _ _

theorem gives_nextOrEnd (b : UInt8) (bs : Bytes) : Gives nextOrEnd (b :: bs) (some (b,bs)) :=
  (gives_next b bs).bind (gives_pure _ _)

def Escapes (c : Char) (cs : List Char) : Prop :=
  ∃ bs, written cs = 92 :: bs ∧ ∀ rest, Gives escapeSequence (bs ++ rest) (some (String.utf8EncodeChar c,rest))

theorem escapes_hex (control : c.toNat < 32) :
    Escapes c ['\\','u','0','0',Text.hexDigit (c.toNat / 16),Text.hexDigit (c.toNat % 16)] := by
  obtain ⟨high,first,value⟩ := hexByteValue_hexDigit (c.toNat / 16) (by omega)
  obtain ⟨low,second,value'⟩ := hexByteValue_hexDigit (c.toNat % 16) (by omega)
  refine ⟨[117,48,48,high,low],?_,?_⟩
  · simp only [written,List.flatMap_cons,List.flatMap_nil,first,second]
    rfl
  · intro rest
    have digits : Gives hexEscape (48 :: 48 :: high :: low :: rest) (some (c.toNat,rest)) := by
      have number : ((0 * 16 + 0) * 16 + c.toNat / 16) * 16 + c.toNat % 16 = c.toNat := by omega
      rw [← number]
      exact gives_hexEscape rfl rfl value value' rest
    refine (gives_nextOrEnd 117 _).bind (digits.bind ?_)
    rw [if_neg (by omega),if_pos (by omega),Char.ofNat_toNat]
    exact gives_pure _ _

theorem escape_control (control : c.toNat < 32) : Escapes c (escape c) := by
  have code := Char.ofNat_toNat c
  have unquoted : c ≠ '"' := by
    rintro rfl
    exact absurd control (by decide)
  have forward : c ≠ '\\' := by
    rintro rfl
    exact absurd control (by decide)
  unfold escape
  rw [if_neg unquoted,if_neg forward,if_pos control]
  split
  · next eight =>
    rw [← code,eight]
    exact ⟨[98],rfl,fun rest => (gives_nextOrEnd 98 rest).bind (gives_pure _ _)⟩
  · next nine =>
    rw [← code,nine]
    exact ⟨[116],rfl,fun rest => (gives_nextOrEnd 116 rest).bind (gives_pure _ _)⟩
  · next ten =>
    rw [← code,ten]
    exact ⟨[110],rfl,fun rest => (gives_nextOrEnd 110 rest).bind (gives_pure _ _)⟩
  · next twelve =>
    rw [← code,twelve]
    exact ⟨[102],rfl,fun rest => (gives_nextOrEnd 102 rest).bind (gives_pure _ _)⟩
  · next thirteen =>
    rw [← code,thirteen]
    exact ⟨[114],rfl,fun rest => (gives_nextOrEnd 114 rest).bind (gives_pure _ _)⟩
  · exact escapes_hex control

theorem utf8_plain (unquoted : c ≠ '"') (forward : c ≠ '\\') (large : 32 ≤ c.toNat) :
    ∀ b ∈ String.utf8EncodeChar c, b ≠ 34 ∧ b ≠ 92 ∧ 32 ≤ b := by
  intro b mem
  rcases Text.utf8EncodeChar_kind c with ⟨small,single⟩ | high
  · rw [single,List.mem_singleton] at mem
    have value : b.toNat = c.toNat := by
      rw [mem,UInt8.toNat_ofNat']
      omega
    refine ⟨?_,?_,?_⟩
    · rintro rfl
      exact unquoted (Char.toNat_inj.mp value.symm)
    · rintro rfl
      exact forward (Char.toNat_inj.mp value.symm)
    · rw [UInt8.le_iff_toNat_le,value]
      exact large
  · have least := UInt8.le_iff_toNat_le.mp (high b mem)
    refine ⟨?_,?_,UInt8.le_iff_toNat_le.mpr (Nat.le_trans (by decide) least)⟩
    all_goals
      rintro rfl
      exact absurd least (by decide)

theorem escape_kind (c : Char) :
    Escapes c (escape c) ∨ (escape c = [c] ∧ ∀ b ∈ String.utf8EncodeChar c, b ≠ 34 ∧ b ≠ 92 ∧ 32 ≤ b) := by
  by_cases quote : c = '"'
  · subst quote
    exact .inl ⟨[34],rfl,fun rest => (gives_nextOrEnd 34 rest).bind (gives_pure _ _)⟩
  by_cases backslash : c = '\\'
  · subst backslash
    exact .inl ⟨[92],rfl,fun rest => (gives_nextOrEnd 92 rest).bind (gives_pure _ _)⟩
  by_cases control : c.toNat < 32
  · exact .inl (escape_control control)
  · refine .inr ⟨?_,utf8_plain quote backslash (Nat.not_lt.mp control)⟩
    rw [escape,if_neg quote,if_neg backslash,if_neg control]

theorem gives_plain {bs : Bytes} (plain : ∀ b ∈ bs, b ≠ 34 ∧ b ≠ 92 ∧ 32 ≤ b)
    (more : Gives (stringBytes fuel (bs.reverse ++ read)) rest whole) :
    Gives (stringBytes (fuel + bs.length) read) (bs ++ rest) whole := by
  induction bs generalizing read with
  | nil => exact more
  | cons b bs ih =>
    obtain ⟨⟨unquoted,forward,large⟩,others⟩ := List.forall_mem_cons.mp plain
    refine (gives_peek _).bind ?_
    simp only [List.cons_append,List.head?_cons]
    refine (gives_eat b _).bind ?_
    rw [if_neg (UInt8.not_lt.mpr large)]
    refine ih others ?_
    simpa using more

theorem gives_stringBytes (cs : List Char) (fuel : Nat) (read : Bytes)
    (room : (written (cs.flatMap escape)).length < fuel) (rest : Bytes) :
    Gives (stringBytes fuel read) (written (cs.flatMap escape) ++ 34 :: rest)
      (some (read.reverse ++ written cs,rest)) := by
  induction cs generalizing fuel read with
  | nil =>
    obtain ⟨fuel,rfl⟩ := Nat.exists_eq_add_one_of_ne_zero (Nat.ne_of_gt room)
    refine (gives_peek _).bind ((gives_eat 34 rest).bind ?_)
    rw [written,List.flatMap_nil,List.append_nil]
    exact gives_pure _ _
  | cons c cs ih =>
    rw [List.flatMap_cons,written_append] at room ⊢
    rw [written_cons,List.append_assoc]
    rw [List.length_append] at room
    rcases escape_kind c with ⟨bs,marked,stands⟩ | ⟨same,plain⟩
    · rw [marked] at room ⊢
      obtain ⟨fuel,rfl⟩ := Nat.exists_eq_add_one_of_ne_zero (Nat.ne_of_gt (Nat.zero_lt_of_lt room))
      refine (gives_peek _).bind ((gives_eat 92 _).bind ((stands _).bind ?_))
      rw [List.length_cons] at room
      have more := ih fuel ((String.utf8EncodeChar c).reverse ++ read) (by omega)
      simpa using more
    · have single : written (escape c) = String.utf8EncodeChar c := by
        rw [same]
        exact List.append_nil _
      rw [single] at room ⊢
      obtain ⟨left,rfl⟩ := Nat.exists_eq_add_of_le' (Nat.le_of_lt (Nat.lt_of_le_of_lt (Nat.le_add_right _ _) room))
      refine gives_plain plain ?_
      have more := ih left ((String.utf8EncodeChar c).reverse ++ read) (by omega)
      simpa using more

theorem gives_stringBody (s : String) (rest : Bytes) :
    Gives stringBody (written (s.toList.flatMap escape) ++ 34 :: rest) (some (s,rest)) := by
  refine gives_looking fun line column => ?_
  refine (gives_stringBytes s.toList _ [] ?_ rest).bind ?_
  · simp only [List.length_append]
    omega
  · have decoded : Text.ofUtf8? ([].reverse ++ written s.toList) = some s := Text.ofUtf8?_utf8 s
    simp only [decoded]
    exact gives_pure _ _

theorem written_quoted (s : String) (rest : Bytes) :
    written (quoted s) ++ rest = 34 :: (written (s.toList.flatMap escape) ++ 34 :: rest) := by
  rw [quoted,written_cons,written_append,List.append_assoc,List.append_assoc]
  rfl

theorem gives_key (s : String) (rest : Bytes) : Gives key (written (quoted s) ++ rest) (some (s,rest)) := by
  rw [written_quoted]
  exact (gives_eat 34 _).bind (gives_stringBody s rest)

end Strings

end ServiceKit.Json.Reader
