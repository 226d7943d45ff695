import ServiceKit.Proofs.Json.Numbers
import ServiceKit.Proofs.Keyed

namespace ServiceKit

namespace Json
variable {j : Json} {js : List Json} {ms : Members} {k : String} {n : Number} {d : Nat}

@[elab_as_elim] theorem induction {motive : Json → Prop} (null : motive .null) (bool : ∀ b, motive (.bool b))
    (number : ∀ n, motive (.number n)) (string : ∀ s, motive (.string s))
    (array : ∀ items, (∀ j ∈ items, motive j) → motive (.array items))
    (object : ∀ ms, (∀ m ∈ ms, motive m.2) → motive (.object ms)) (j : Json) : motive j :=
  match j with
  | .null => null
  | .bool b => bool b
  | .number n => number n
  | .string s => string s
  | .array items => array items fun j _ => induction null bool number string array object j
  | .object ms => object ms fun m _ => induction null bool number string array object m.2
termination_by sizeOf j
decreasing_by
  · rename_i member
    have less := List.sizeOf_lt_of_mem member
    simp
    omega
  · rename_i member
    have less := List.sizeOf_lt_of_mem member
    have part : sizeOf m.2 < sizeOf m := by
      cases m
      simp
    simp
    omega

mutual
def depth : Json → Nat
  | .array items => depthOfItems items + 1
  | .object members => depthOfMembers members + 1
  | _ => 0
def depthOfItems : List Json → Nat
  | [] => 0
  | x :: xs => max x.depth (depthOfItems xs)
def depthOfMembers : List (String × Json) → Nat
  | [] => 0
  | (_,x) :: xs => max x.depth (depthOfMembers xs)
end

mutual
def numbers : Json → List Number
  | .number n => [n]
  | .array items => numbersOfItems items
  | .object members => numbersOfMembers members
  | _ => []
def numbersOfItems : List Json → List Number
  | [] => []
  | x :: xs => x.numbers ++ numbersOfItems xs
def numbersOfMembers : List (String × Json) → List Number
  | [] => []
  | (_,x) :: xs => x.numbers ++ numbersOfMembers xs
end

mutual
-- What reading makes of the text of a value where fewer than so many levels may be entered.
def reread (limit : Nat) : Json → Option Json
  | .number n => n.reread.map .number
  | .array items => if limit ≤ 1 then none else (rereadItems (limit - 1) items).map .array
  | .object members => if limit ≤ 1 then none else (rereadMembers (limit - 1) members).map .object
  | .null => some .null
  | .bool b => some (.bool b)
  | .string s => some (.string s)
def rereadItems (limit : Nat) : List Json → Option (List Json)
  | [] => some []
  | x :: xs => do return (← x.reread limit) :: (← rereadItems limit xs)
def rereadMembers (limit : Nat) : List (String × Json) → Option (List (String × Json))
  | [] => some []
  | (k,x) :: xs => do return (k,← x.reread limit) :: (← rereadMembers limit xs)
end

theorem depthOfItems_le : depthOfItems js ≤ d ↔ ∀ j ∈ js, j.depth ≤ d := by
  induction js with
  | nil => simp [depthOfItems]
  | cons x xs ih => simp [depthOfItems,ih]

theorem depthOfMembers_le : depthOfMembers ms ≤ d ↔ ∀ m ∈ ms, m.2.depth ≤ d := by
  induction ms with
  | nil => simp [depthOfMembers]
  | cons m ms ih => simp [depthOfMembers,ih]

theorem mem_numbersOfItems : n ∈ numbersOfItems js ↔ ∃ j ∈ js, n ∈ j.numbers := by
  induction js with
  | nil => simp [numbersOfItems]
  | cons x xs ih => simp [numbersOfItems,ih]

theorem mem_numbersOfMembers : n ∈ numbersOfMembers ms ↔ ∃ m ∈ ms, n ∈ m.2.numbers := by
  induction ms with
  | nil => simp [numbersOfMembers]
  | cons m ms ih => simp [numbersOfMembers,ih]

-- A value that JSON has: members are sorted by key with one entry a key, and numbers are proper.
structure Proper (j : Json) : Prop where
  sorted : j.sorted = j
  numbers : ∀ n ∈ j.numbers, n.Proper

theorem sortedItems_eq (js : List Json) : sortedItems js = js.map sorted := by
  induction js with
  | nil => rfl
  | cons x xs ih => rw [sortedItems,ih,List.map_cons]

theorem sortedMembers_eq (ms : Members) : sortedMembers ms = ms.map fun m => (m.1,m.2.sorted) := by
  induction ms with
  | nil => rfl
  | cons m ms ih => rw [sortedMembers,ih,List.map_cons]

theorem map_self {α : Type} {f : α → α} {l : List α} (same : l.map f = l) : ∀ x ∈ l, f x = x :=
  List.map_inj_left.mp (same.trans (List.map_id l).symm)

theorem Proper.item (proper : Proper (.array js)) : ∀ j ∈ js, j.Proper := by
  have same := Json.array.inj proper.sorted
  rw [sortedItems_eq] at same
  intro j mem
  exact ⟨map_self same j mem,fun n inside => proper.numbers n (mem_numbersOfItems.mpr ⟨j,mem,inside⟩)⟩

theorem Proper.ordered (proper : Proper (.object ms)) : Keyed.Sorted ms := by
  rw [← Json.object.inj proper.sorted]
  exact Members.sorted_ofPairs _

theorem sorted_congr {β γ : Type} {entries : List (String × β)} {others : List (String × γ)}
    (same : others.map (·.1) = entries.map (·.1)) (sorted : Keyed.Sorted entries) : Keyed.Sorted others := by
  have keys : (entries.map (·.1)).Pairwise (· < ·) := List.pairwise_map.mpr sorted
  rw [← same] at keys
  exact List.pairwise_map.mp keys

theorem Proper.member (proper : Proper (.object ms)) : ∀ m ∈ ms, m.2.Proper := by
  have same := Json.object.inj proper.sorted
  rw [sortedMembers_eq,Members.ofPairs_sorted (sorted_congr (by simp) proper.ordered)] at same
  intro m mem
  exact ⟨congrArg Prod.snd (map_self same m mem),fun n inside => proper.numbers n (mem_numbersOfMembers.mpr ⟨m,mem,inside⟩)⟩

theorem rereadMembers_keys {read : Members} (told : rereadMembers d ms = some read) : read.map (·.1) = ms.map (·.1) := by
  induction ms generalizing read with
  | nil =>
    cases told
    rfl
  | cons m ms ih =>
    simp only [rereadMembers,Option.bind_eq_bind,Option.bind_eq_some_iff] at told
    obtain ⟨x,_,xs,later,same⟩ := told
    cases same
    rw [List.map_cons,List.map_cons,ih later]

theorem rereadItems_self : rereadItems d js = some js ↔ ∀ j ∈ js, j.reread d = some j := by
  induction js with
  | nil => simp [rereadItems]
  | cons x xs ih =>
    simp only [rereadItems,Option.bind_eq_bind,Option.bind_eq_some_iff,List.forall_mem_cons,← ih]
    constructor
    · rintro ⟨y,first,ys,later,same⟩
      cases same
      exact ⟨first,later⟩
    · rintro ⟨first,later⟩
      exact ⟨x,first,xs,later,rfl⟩

theorem rereadMembers_self : rereadMembers d ms = some ms ↔ ∀ m ∈ ms, m.2.reread d = some m.2 := by
  induction ms with
  | nil => simp [rereadMembers]
  | cons m ms ih =>
    obtain ⟨k,x⟩ := m
    simp only [rereadMembers,Option.bind_eq_bind,Option.bind_eq_some_iff,List.forall_mem_cons,← ih]
    constructor
    · rintro ⟨y,first,ys,later,same⟩
      cases same
      exact ⟨first,later⟩
    · rintro ⟨first,later⟩
      exact ⟨x,first,ms,later,rfl⟩

theorem kept_all {α : Type} {l : List α} {f : α → Json}
    (each : ∀ a ∈ l, (f a).reread (d + 1) = some (f a) ↔ (f a).depth ≤ d ∧ ∀ n ∈ (f a).numbers, n.reread = some n) :
    (∀ a ∈ l, (f a).reread (d + 1) = some (f a)) ↔
      (∀ a ∈ l, (f a).depth ≤ d) ∧ ∀ n, (∃ a ∈ l, n ∈ (f a).numbers) → n.reread = some n := by
  constructor
  · intro kept
    exact ⟨fun a mem => ((each a mem).mp (kept a mem)).1,fun n ⟨a,mem,inside⟩ => ((each a mem).mp (kept a mem)).2 n inside⟩
  · rintro ⟨shallow,kept⟩ a mem
    exact (each a mem).mpr ⟨shallow a mem,fun n inside => kept n ⟨a,mem,inside⟩⟩

-- A value is read as itself if it is nested less deeply than the limit and each of its numbers is read as itself.
theorem reread_self : j.reread (d + 1) = some j ↔ j.depth ≤ d ∧ ∀ n ∈ j.numbers, n.reread = some n := by
  induction j using Json.induction generalizing d with
  | null | bool _ | string _ => simp [reread,depth,numbers]
  | number n => simp [reread,depth,numbers]
  | array js ih =>
    cases d with
    | zero => simp [reread,depth]
    | succ d =>
      have inner := kept_all (d := d) (f := id) fun j mem => ih j mem
      simpa [reread,depth,numbers,rereadItems_self,depthOfItems_le,mem_numbersOfItems] using inner
  | object ms ih =>
    cases d with
    | zero => simp [reread,depth]
    | succ d =>
      have inner := kept_all (d := d) (f := Prod.snd) fun m mem => ih m mem
      simpa [reread,depth,numbers,rereadMembers_self,depthOfMembers_le,mem_numbersOfMembers] using inner

def memberChars (m : String × Json) : List Char := quoted m.1 ++ ':' :: m.2.compactChars

def itemsAfter (js : List Json) : List Char := js.flatMap fun j => ',' :: j.compactChars

def membersAfter (ms : Members) : List Char := ms.flatMap fun m => ',' :: memberChars m

theorem compactItems_cons (j : Json) (js : List Json) : compactItems (j :: js) = j.compactChars ++ itemsAfter js := by
  induction js generalizing j with
  | nil => rw [compactItems,itemsAfter,List.flatMap_nil,List.append_nil]
  | cons x xs ih =>
    rw [compactItems,ih]
    rfl

theorem compactMembers_cons (m : String × Json) (ms : Members) :
    compactMembers (m :: ms) = memberChars m ++ membersAfter ms := by
  induction ms generalizing m with
  | nil => rw [compactMembers,membersAfter,List.flatMap_nil,List.append_nil,memberChars]
  | cons x xs ih =>
    rw [compactMembers,ih,memberChars]
    simp [membersAfter,memberChars]

namespace Reader
open Text (Bytes)
variable {b : UInt8} {first : Bool} {bs rest : Bytes} {fuel limit : Nat} {xs : List Json}

theorem gives_noItems (first : Bool) (rest : Bytes) : Gives (moreItems first) (93 :: rest) (some (false,93 :: rest)) :=
  (gives_blanks rfl _).bind (gives_pure _ _)

theorem gives_firstItem (solid : isSpace b = false) (other : b ≠ 93) :
    Gives (moreItems true) (b :: bs) (some (true,b :: bs)) := by
  refine (gives_blanks solid _).bind ?_
  simp only
  exact gives_pure _ _

theorem gives_nextItem (solid : isSpace b = false) (other : b ≠ 93) :
    Gives (moreItems false) (44 :: b :: bs) (some (true,b :: bs)) := by
  refine (gives_blanks rfl _).bind ((gives_eat 44 _).bind ((gives_blanks solid _).bind ?_))
  simp only
  exact gives_pure _ _

theorem gives_noMembers (first : Bool) (rest : Bytes) :
    Gives (moreMembers first) (125 :: rest) (some (false,125 :: rest)) :=
  (gives_blanks rfl _).bind (gives_pure _ _)

theorem gives_firstMember (bs : Bytes) : Gives (moreMembers true) (34 :: bs) (some (true,34 :: bs)) :=
  (gives_blanks rfl _).bind (gives_pure _ _)

theorem gives_nextMember (bs : Bytes) : Gives (moreMembers false) (44 :: 34 :: bs) (some (true,34 :: bs)) :=
  (gives_blanks rfl _).bind ((gives_eat 44 _).bind ((gives_blanks rfl _).bind (gives_pure _ _)))

theorem gives_colon (bs : Bytes) : Gives colon (58 :: bs) (some ((),bs)) := (gives_blanks rfl _).bind (gives_eat 58 _)

theorem gives_endList (rest : Bytes) : Gives endList (93 :: rest) (some ((),rest)) :=
  (gives_blanks rfl _).bind (gives_eat 93 _)

theorem gives_endObject (rest : Bytes) : Gives endObject (125 :: rest) (some ((),rest)) :=
  (gives_blanks rfl _).bind (gives_eat 125 _)

theorem compactChars_begins (proper : j.Proper) :
    ∃ b bs, written j.compactChars = b :: bs ∧ isSpace b = false ∧ b ≠ 93 ∧ (b = 110 → j = .null) := by
  cases j with
  | null => exact ⟨110,_,rfl,rfl,by decide,fun _ => rfl⟩
  | bool b => cases b <;> exact ⟨_,_,rfl,rfl,by decide,fun same => absurd same (by decide)⟩
  | string s => exact ⟨34,_,rfl,rfl,by decide,fun same => absurd same (by decide)⟩
  | array items => exact ⟨91,_,rfl,rfl,by decide,fun same => absurd same (by decide)⟩
  | object ms => exact ⟨123,_,rfl,rfl,by decide,fun same => absurd same (by decide)⟩
  | number n =>
    obtain ⟨positive,numeral,formed,chars,_⟩ := numberText_numeral (proper.numbers n List.mem_cons_self)
    rw [compactChars,chars]
    cases positive with
    | false => exact ⟨45,_,rfl,rfl,by decide,fun same => absurd same (by decide)⟩
    | true =>
      obtain ⟨b,bs,begins,digit⟩ := numeral_begins formed
      obtain ⟨null,_,_,_,_,_,_,solid⟩ := digit_apart digit
      refine ⟨b,bs,begins,solid,?_,fun same => absurd same null⟩
      rintro rfl
      cases digit

def Echoes (limit : Nat) (j : Json) : Prop :=
  ∀ fuel rest, (written j.compactChars).length ≤ fuel → Ends rest →
    Gives (value fuel limit) (written j.compactChars ++ rest) ((j.reread limit).map (·,rest))

theorem itemsAfter_ends (js : List Json) (rest : Bytes) : Ends (written (itemsAfter js) ++ 93 :: rest) := by
  intro b head
  cases js with
  | nil =>
    cases head
    exact .inr (.inl rfl)
  | cons x xs =>
    cases head
    exact .inl rfl

theorem gives_itemsAfter (fuel : Nat) (proper : ∀ j ∈ js, j.Proper) (echoes : ∀ j ∈ js, Echoes limit j)
    (room : (written (itemsAfter js)).length < fuel) :
    Gives (items fuel limit false) (written (itemsAfter js) ++ 93 :: rest)
      ((rereadItems limit js).map (·,93 :: rest)) := by
  induction js generalizing fuel with
  | nil =>
    obtain ⟨fuel,rfl⟩ := Nat.exists_eq_add_one_of_ne_zero (Nat.ne_of_gt room)
    exact (gives_noItems false rest).bind (gives_pure _ _)
  | cons x xs ih =>
    obtain ⟨fuel,rfl⟩ := Nat.exists_eq_add_one_of_ne_zero (Nat.ne_of_gt (Nat.zero_lt_of_lt room))
    obtain ⟨here,others⟩ := List.forall_mem_cons.mp echoes
    obtain ⟨well,wells⟩ := List.forall_mem_cons.mp proper
    obtain ⟨b,bs,begins,solid,other,_⟩ := compactChars_begins well
    have split : written (itemsAfter (x :: xs)) = 44 :: (written x.compactChars ++ written (itemsAfter xs)) := by
      rw [itemsAfter,List.flatMap_cons,written_append,written_cons]
      rfl
    rw [split,List.length_cons,List.length_append] at room
    have item := gives_cons id (here fuel _ (by omega) (itemsAfter_ends xs rest)) (ih fuel wells others (by omega))
    rw [split,List.cons_append,List.append_assoc]
    rw [begins] at item ⊢
    exact (gives_nextItem solid other).bind item

theorem gives_items (limit fuel : Nat) (rest : Bytes) (proper : ∀ j ∈ js, j.Proper) (echoes : ∀ j ∈ js, Echoes limit j)
    (room : (written (compactItems js)).length < fuel) :
    Gives (items fuel limit true) (written (compactItems js) ++ 93 :: rest)
      ((rereadItems limit js).map (·,93 :: rest)) := by
  obtain ⟨fuel,rfl⟩ := Nat.exists_eq_add_one_of_ne_zero (Nat.ne_of_gt (Nat.zero_lt_of_lt room))
  cases js with
  | nil => exact (gives_noItems true rest).bind (gives_pure _ _)
  | cons x xs =>
    obtain ⟨here,others⟩ := List.forall_mem_cons.mp echoes
    obtain ⟨well,wells⟩ := List.forall_mem_cons.mp proper
    obtain ⟨b,bs,begins,solid,other,_⟩ := compactChars_begins well
    have nonempty : 0 < (written x.compactChars).length := by
      rw [begins]
      exact Nat.succ_pos _
    rw [compactItems_cons,written_append,List.length_append] at room
    rw [compactItems_cons,written_append,List.append_assoc]
    have item := gives_cons id (here fuel _ (by omega) (itemsAfter_ends xs rest))
      (gives_itemsAfter fuel wells others (by omega))
    rw [begins] at item ⊢
    exact (gives_firstItem solid other).bind item

theorem membersAfter_ends (ms : Members) (rest : Bytes) : Ends (written (membersAfter ms) ++ 125 :: rest) := by
  intro b head
  cases ms with
  | nil =>
    cases head
    exact .inr (.inr rfl)
  | cons m ms =>
    cases head
    exact .inl rfl

theorem gives_member (fuel : Nat) {m : String × Json} {others : Option Members} {tail : Reader Members} {more : Bytes}
    (echoes : Echoes limit m.2) (room : (written (memberChars m)).length ≤ fuel) (ends : Ends more)
    (later : Gives tail more (others.map (·,rest))) :
    Gives (do
      let k ← key
      colon
      let x ← value fuel limit
      return (k,x) :: (← tail)) (written (memberChars m) ++ more)
      ((do return (m.1,← m.2.reread limit) :: (← others)).map (·,rest)) := by
  have split : written (memberChars m) = written (quoted m.1) ++ 58 :: written m.2.compactChars := by
    rw [memberChars,written_append,written_cons]
    rfl
  rw [split,List.length_append,List.length_cons] at room
  rw [split,List.append_assoc]
  exact (gives_key m.1 _).bind ((gives_colon _).bind (gives_cons (m.1,·) (echoes fuel more (by omega) ends) later))

theorem memberChars_begins (m : String × Json) : ∃ bs, written (memberChars m) = 34 :: bs := ⟨_,rfl⟩

theorem gives_membersAfter (fuel : Nat) (echoes : ∀ m ∈ ms, Echoes limit m.2)
    (room : (written (membersAfter ms)).length < fuel) :
    Gives (members fuel limit false) (written (membersAfter ms) ++ 125 :: rest)
      ((rereadMembers limit ms).map (·,125 :: rest)) := by
  induction ms generalizing fuel with
  | nil =>
    obtain ⟨fuel,rfl⟩ := Nat.exists_eq_add_one_of_ne_zero (Nat.ne_of_gt room)
    exact (gives_noMembers false rest).bind (gives_pure _ _)
  | cons m ms ih =>
    obtain ⟨fuel,rfl⟩ := Nat.exists_eq_add_one_of_ne_zero (Nat.ne_of_gt (Nat.zero_lt_of_lt room))
    obtain ⟨here,others⟩ := List.forall_mem_cons.mp echoes
    obtain ⟨bs,begins⟩ := memberChars_begins m
    have split : written (membersAfter (m :: ms)) = 44 :: (written (memberChars m) ++ written (membersAfter ms)) := by
      rw [membersAfter,List.flatMap_cons,written_append,written_cons]
      rfl
    rw [split,List.length_cons,List.length_append] at room
    have member := gives_member fuel here (by omega) (membersAfter_ends ms rest) (ih fuel others (by omega))
    rw [split,List.cons_append,List.append_assoc]
    rw [begins] at member ⊢
    exact (gives_nextMember _).bind member

theorem gives_members (limit fuel : Nat) (rest : Bytes) (echoes : ∀ m ∈ ms, Echoes limit m.2)
    (room : (written (compactMembers ms)).length < fuel) :
    Gives (members fuel limit true) (written (compactMembers ms) ++ 125 :: rest)
      ((rereadMembers limit ms).map (·,125 :: rest)) := by
  obtain ⟨fuel,rfl⟩ := Nat.exists_eq_add_one_of_ne_zero (Nat.ne_of_gt (Nat.zero_lt_of_lt room))
  cases ms with
  | nil => exact (gives_noMembers true rest).bind (gives_pure _ _)
  | cons m ms =>
    obtain ⟨here,others⟩ := List.forall_mem_cons.mp echoes
    obtain ⟨bs,begins⟩ := memberChars_begins m
    have nonempty : 0 < (written (memberChars m)).length := by
      rw [begins]
      exact Nat.succ_pos _
    rw [compactMembers_cons,written_append,List.length_append] at room
    rw [compactMembers_cons,written_append,List.append_assoc]
    have member := gives_member fuel here (by omega) (membersAfter_ends ms rest)
      (gives_membersAfter fuel others (by omega))
    rw [begins] at member ⊢
    exact (gives_firstMember _).bind member

theorem room_left (proper : j.Proper) (room : (written j.compactChars).length ≤ fuel) : ∃ left, fuel = left + 1 := by
  obtain ⟨b,bs,begins,_⟩ := compactChars_begins proper
  rw [begins,List.length_cons] at room
  exact ⟨fuel - 1,by omega⟩

theorem echoes_proper (limit : Nat) (proper : j.Proper) : Echoes limit j := by
  induction j using Json.induction generalizing limit with
  | null =>
    intro fuel rest room ends
    obtain ⟨fuel,rfl⟩ := room_left proper room
    exact (gives_blanks rfl _).bind ((gives_eat 110 _).bind ((gives_word _ rest).bind (gives_pure _ _)))
  | bool b =>
    intro fuel rest room ends
    obtain ⟨fuel,rfl⟩ := room_left proper room
    cases b with
    | false => exact (gives_blanks rfl _).bind ((gives_eat 102 _).bind ((gives_word _ rest).bind (gives_pure _ _)))
    | true => exact (gives_blanks rfl _).bind ((gives_eat 116 _).bind ((gives_word _ rest).bind (gives_pure _ _)))
  | number n =>
    intro fuel rest room ends
    obtain ⟨fuel,rfl⟩ := room_left proper room
    exact gives_value_number (proper.numbers n List.mem_cons_self) ends
  | string s =>
    intro fuel rest room ends
    obtain ⟨fuel,rfl⟩ := room_left proper room
    rw [compactChars,written_quoted]
    exact (gives_blanks rfl _).bind ((gives_eat 34 _).bind (Gives.bind (gives_stringBody s rest) (gives_pure _ _)))
  | array js ih =>
    intro fuel rest room ends
    obtain ⟨fuel,rfl⟩ := room_left proper room
    have split (more : Bytes) :
        written (array js).compactChars ++ more = 91 :: (written (compactItems js) ++ 93 :: more) := by
      rw [compactChars,written_cons,written_append,List.append_assoc,List.append_assoc]
      rfl
    have length := congrArg List.length (split [])
    simp at length
    rw [split]
    refine (gives_blanks rfl _).bind ?_
    by_cases deep : limit ≤ 1
    · simp only [deep,if_true,reread]
      exact gives_ahead _ _
    · simp only [deep,if_false,reread]
      have inside := gives_items (limit - 1) fuel rest proper.item
        (fun j mem => ih j mem (limit - 1) (proper.item j mem)) (by omega)
      exact (gives_eat 91 _).bind (gives_enclosed Json.array inside (gives_endList rest))
  | object ms ih =>
    intro fuel rest room ends
    obtain ⟨fuel,rfl⟩ := room_left proper room
    have split (more : Bytes) :
        written (object ms).compactChars ++ more = 123 :: (written (compactMembers ms) ++ 125 :: more) := by
      rw [compactChars,written_cons,written_append,List.append_assoc,List.append_assoc]
      rfl
    have length := congrArg List.length (split [])
    simp at length
    rw [split]
    refine (gives_blanks rfl _).bind ?_
    by_cases deep : limit ≤ 1
    · simp only [deep,if_true,reread]
      exact gives_ahead _ _
    · simp only [deep,if_false,reread]
      have inside := gives_members (limit - 1) fuel rest
        (fun m mem => ih m mem (limit - 1) (proper.member m mem)) (by omega)
      have ordered : (rereadMembers (limit - 1) ms).map (fun read => Json.object (Members.ofPairs read)) =
          (rereadMembers (limit - 1) ms).map Json.object := by
        refine Option.map_congr ?_
        intro read told
        rw [Members.ofPairs_sorted (sorted_congr (rereadMembers_keys told) proper.ordered)]
      rw [← ordered]
      exact (gives_eat 123 _).bind
        (gives_enclosed (fun read => Json.object (Members.ofPairs read)) inside (gives_endObject rest))

theorem readBytes_bytes (proper : j.Proper) : (readBytes j.bytes).toOption = j.reread depthLimit := by
  have bytes : j.bytes = written j.compactChars := congrArg written String.toList_ofList
  have room : (written j.compactChars).length ≤ fuelFor j.bytes := by
    rw [fuelFor,bytes]
    omega
  have read := echoes_proper depthLimit proper (fuelFor j.bytes) [] room (fun b head => by cases head)
  rw [List.append_nil,← bytes] at read
  exact read.document

end Reader

end Json
end ServiceKit
