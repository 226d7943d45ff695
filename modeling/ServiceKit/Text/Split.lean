namespace ServiceKit.Text

def splitOnce (c : Char) : List Char → Option (List Char × List Char)
  | [] => none
  | d :: rest => if d = c then some ([],rest) else (splitOnce c rest).map fun (a,b) => (d :: a,b)

-- All pieces between occurrences of a character; never empty.
def splitAll (c : Char) : List Char → List (List Char)
  | [] => [[]]
  | d :: rest =>
    match splitAll c rest with
    | [] => [[d]]
    | piece :: pieces => if d = c then [] :: piece :: pieces else (d :: piece) :: pieces

def replaced (c : Char) (new cs : List Char) : List Char := cs.flatMap fun d => if d = c then new else [d]

def startsWith : List Char → List Char → Bool
  | [],_ => true
  | _ :: _,[] => false
  | p :: ps,c :: cs => p == c && startsWith ps cs

def afterStart : List Char → List Char → Option (List Char)
  | [],cs => some cs
  | _ :: _,[] => none
  | p :: ps,c :: cs => if p = c then afterStart ps cs else none

def holds (needle : List Char) : List Char → Bool
  | [] => needle.isEmpty
  | c :: cs => startsWith needle (c :: cs) || holds needle cs

theorem splitOnce_join {c : Char} {cs a b : List Char} (found : splitOnce c cs = some (a,b)) :
    cs = a ++ c :: b := by
  induction cs generalizing a b with
  | nil => simp [splitOnce] at found
  | cons d rest ih =>
    unfold splitOnce at found
    split at found
    · next equal => cases found; simp [equal]
    · obtain ⟨⟨x,y⟩,inner,same⟩ := Option.map_eq_some_iff.mp found
      cases same
      simp [ih inner]

theorem splitOnce_left {c : Char} {cs a b : List Char} (found : splitOnce c cs = some (a,b)) :
    c ∉ a := by
  induction cs generalizing a b with
  | nil => simp [splitOnce] at found
  | cons d rest ih =>
    unfold splitOnce at found
    split at found
    · cases found; simp
    · next different =>
      obtain ⟨⟨x,y⟩,inner,same⟩ := Option.map_eq_some_iff.mp found
      cases same
      simp [ih inner,Ne.symm different]

theorem splitOnce_append {c : Char} {a : List Char} (absent : c ∉ a) (b : List Char) :
    splitOnce c (a ++ c :: b) = some (a,b) := by
  induction a with
  | nil => simp [splitOnce]
  | cons d rest ih =>
    simp only [List.mem_cons,not_or] at absent
    obtain ⟨different,absent⟩ := absent
    simp [splitOnce,Ne.symm different,ih absent]

theorem splitOnce_eq_some_iff {c : Char} {cs a b : List Char} : splitOnce c cs = some (a,b) ↔ cs = a ++ c :: b ∧ c ∉ a := by
  constructor
  · intro found
    exact ⟨splitOnce_join found,splitOnce_left found⟩
  · rintro ⟨rfl,absent⟩
    exact splitOnce_append absent b

theorem splitOnce_eq_none_iff {c : Char} {cs : List Char} : splitOnce c cs = none ↔ c ∉ cs := by
  induction cs with
  | nil => simp [splitOnce]
  | cons d rest ih =>
    rw [splitOnce,List.mem_cons,not_or,← ih]
    split
    · next equal => simp [equal]
    · next different => simp [Ne.symm different]

theorem splitAll_ne_nil (c : Char) (cs : List Char) : splitAll c cs ≠ [] := by
  cases cs with
  | nil => simp [splitAll]
  | cons d rest =>
    unfold splitAll
    split
    · simp
    · split <;> simp

theorem splitAll_cons {c d : Char} {cs piece : List Char} {more : List (List Char)} (rest : splitAll c cs = piece :: more) :
    splitAll c (d :: cs) = if d = c then [] :: piece :: more else (d :: piece) :: more := by
  simp only [splitAll,rest]

theorem splitAll_append (c : Char) (a b : List Char) : splitAll c (a ++ c :: b) = splitAll c a ++ splitAll c b := by
  induction a with
  | nil =>
    obtain ⟨piece,more,rest⟩ := List.exists_cons_of_ne_nil (splitAll_ne_nil c b)
    rw [List.nil_append,splitAll_cons rest,if_pos rfl,rest]
    rfl
  | cons d a ih =>
    obtain ⟨piece,more,rest⟩ := List.exists_cons_of_ne_nil (splitAll_ne_nil c a)
    rw [rest,List.cons_append] at ih
    rw [List.cons_append,splitAll_cons ih,splitAll_cons rest]
    split <;> rfl

theorem splitAll_absent {c : Char} {cs : List Char} (absent : c ∉ cs) : splitAll c cs = [cs] := by
  induction cs with
  | nil => rfl
  | cons d rest ih =>
    rw [List.mem_cons,not_or] at absent
    rw [splitAll_cons (ih absent.2),if_neg (Ne.symm absent.1)]

end ServiceKit.Text
