import Mathlib.Logic.Relation
import ServiceKit.Context.Token

namespace ServiceKit.TokenForest
variable {f g h : TokenForest}

theorem Extends.refl (f : TokenForest) : Extends f f := fun _ n found => ⟨n,found,rfl,id⟩

theorem Extends.trans (first : Extends f g) (second : Extends g h) : Extends f h := by
  intro t n found
  obtain ⟨n',found',line,kept⟩ := first t n found
  obtain ⟨n'',found'',line',kept'⟩ := second t n' found'
  exact ⟨n'',found'',line'.trans line,kept' ∘ kept⟩

theorem extends_append (f : TokenForest) (n : TokenNode) : Extends f ⟨f.nodes ++ [n]⟩ := by
  intro t old found
  have bound := (List.getElem?_eq_some_iff.mp found).1
  exact ⟨old,by rw [List.getElem?_append_left bound,found],rfl,id⟩

theorem extends_cancel (f : TokenForest) (t : Token) : Extends f (f.cancel t) := by
  intro t' n found
  simp only [cancel,List.getElem?_map,found,Option.map_some]
  split
  · exact ⟨_,rfl,rfl,fun _ => rfl⟩
  · exact ⟨_,rfl,rfl,id⟩

def Rooted (f : TokenForest) (t : Token) : Prop := ∃ n, f.nodes[t]? = some n ∧ t ∈ n.line

def Below (f : TokenForest) (top t : Token) : Prop := ∃ n, f.nodes[t]? = some n ∧ top ∈ n.line

theorem Below.extends (below : Below f top t) (grows : Extends f g) : Below g top t := by
  obtain ⟨n,found,inside⟩ := below
  obtain ⟨n',found',line,_⟩ := grows t n found
  exact ⟨n',found',line ▸ inside⟩

theorem Rooted.below (rooted : Rooted f t) : Below f t t := rooted

theorem Rooted.extends (rooted : Rooted f t) (grows : Extends f g) : Rooted g t := rooted.below.extends grows

theorem rooted_root (f : TokenForest) : Rooted f.root.2 f.root.1 := by
  refine ⟨⟨[f.nodes.length],false⟩,?_,List.mem_singleton_self _⟩
  simp [root]

theorem rooted_child (f : TokenForest) (parent : Token) : Rooted (f.child parent).2 (f.child parent).1 := by
  refine ⟨⟨f.nodes.length :: f.line parent,f.isCancelled parent⟩,?_,List.mem_cons_self⟩
  simp [child]

theorem below_child (below : Below f top parent) : Below (f.child parent).2 top (f.child parent).1 := by
  obtain ⟨n,found,inside⟩ := below
  refine ⟨⟨f.nodes.length :: f.line parent,f.isCancelled parent⟩,by simp [child],List.mem_cons_of_mem _ ?_⟩
  simpa [line,found] using inside

theorem cancelled_below (below : Below f top t) : (f.cancel top).isCancelled t = true := by
  obtain ⟨n,found,inside⟩ := below
  simp [isCancelled,cancel,found,inside]

theorem cancelled_cancel (rooted : Rooted f t) : (f.cancel t).isCancelled t = true := cancelled_below rooted.below

theorem cancelled_child (cancelled : f.isCancelled parent = true) :
    (f.child parent).2.isCancelled (f.child parent).1 = true := by
  simpa [isCancelled,child] using cancelled

theorem cancelled_extends (grows : Extends f g) (cancelled : f.isCancelled t = true) : g.isCancelled t = true := by
  unfold isCancelled at cancelled ⊢
  cases found : f.nodes[t]? with
  | none => simp [found] at cancelled
  | some n =>
    obtain ⟨n',found',_,kept⟩ := grows t n found
    simp only [found,found',Option.map_some,Option.getD_some] at cancelled ⊢
    exact kept cancelled

@[simp] theorem length_root (f : TokenForest) : f.root.2.nodes.length = f.nodes.length + 1 := List.length_append

@[simp] theorem length_child (f : TokenForest) (parent : Token) :
    (f.child parent).2.nodes.length = f.nodes.length + 1 := List.length_append

@[simp] theorem length_cancel (f : TokenForest) (t : Token) : (f.cancel t).nodes.length = f.nodes.length :=
  List.length_map _

-- A forest has cancelled a token iff it was told to cancel one on the token's line.
structure Told (f : TokenForest) (struck : Token → Prop) : Prop where
  known : ∀ a, struck a → a < f.nodes.length
  cancelled : ∀ (t : Token) (n : TokenNode), f.nodes[t]? = some n → (n.cancelled = true ↔ ∃ a ∈ n.line, struck a)

variable {struck : Token → Prop}

theorem told_empty : Told .empty fun _ => False :=
  ⟨fun _ told => told.elim,fun t n found => by simp [empty] at found⟩

theorem Told.isCancelled_iff (told : Told f struck) (t : Token) :
    f.isCancelled t = true ↔ ∃ a ∈ f.line t, struck a := by
  unfold isCancelled line
  cases found : f.nodes[t]? with
  | some n => exact told.cancelled t n found
  | none =>
    have apart : ¬ struck t := fun known =>
      absurd (told.known t known) (Nat.not_lt.mpr (List.getElem?_eq_none_iff.mp found))
    simp [apart]

theorem added_cases {nodes : List TokenNode} {n m : TokenNode} {t : Token} (found : (nodes ++ [n])[t]? = some m) :
    nodes[t]? = some m ∨ t = nodes.length ∧ m = n := by
  rcases Nat.lt_or_ge t nodes.length with old | new
  · rw [List.getElem?_append_left old] at found
    exact .inl found
  · rw [List.getElem?_append_right new,List.getElem?_singleton] at found
    split at found
    · rename_i place
      exact .inr ⟨Nat.le_antisymm (Nat.sub_eq_zero_iff_le.mp place) new,(Option.some.inj found).symm⟩
    · cases found

theorem Told.append (told : Told f struck) {n : TokenNode}
    (new : n.cancelled = true ↔ ∃ a ∈ n.line, struck a) : Told ⟨f.nodes ++ [n]⟩ struck := by
  refine ⟨?_,?_⟩
  · intro a known
    simpa using Nat.lt_succ_of_lt (told.known a known)
  · intro t m found
    rcases added_cases found with old | ⟨_,rfl⟩
    · exact told.cancelled t m old
    · exact new

theorem Told.root (told : Told f struck) : Told f.root.2 struck := by
  refine told.append ?_
  have apart : ¬ struck f.nodes.length := fun known => Nat.lt_irrefl _ (told.known _ known)
  simp [apart]

theorem Told.child (told : Told f struck) (parent : Token) : Told (f.child parent).2 struck := by
  refine told.append ?_
  have apart : ¬ struck f.nodes.length := fun known => Nat.lt_irrefl _ (told.known _ known)
  simp [apart,told.isCancelled_iff]

theorem Told.cancel (told : Told f struck) {t : Token} (known : t < f.nodes.length) :
    Told (f.cancel t) fun a => struck a ∨ a = t := by
  refine ⟨?_,?_⟩
  · rintro a (old | rfl)
    · rw [length_cancel]; exact told.known a old
    · rw [length_cancel]; exact known
  · intro t' n found
    simp only [TokenForest.cancel,List.getElem?_map,Option.map_eq_some_iff] at found
    obtain ⟨m,found,rfl⟩ := found
    by_cases inside : t ∈ m.line
    · rw [if_pos (List.contains_iff_mem.mpr inside)]
      exact ⟨fun _ => ⟨t,inside,.inr rfl⟩,fun _ => rfl⟩
    · rw [if_neg (mt List.contains_iff_mem.mp inside),told.cancelled t' m found]
      constructor
      · rintro ⟨a,member,known⟩
        exact ⟨a,member,.inl known⟩
      · rintro ⟨a,member,known | rfl⟩
        · exact ⟨a,member,known⟩
        · exact absurd member inside

-- The links from a parent to a child are those of a forest: a child is younger than its parent and has no
-- other, and the line of a token holds what stands above it.
structure Lined (f : TokenForest) (linked : Token → Token → Prop) : Prop where
  known : ∀ a b, linked a b → a < b ∧ b < f.nodes.length
  only : ∀ a b c, linked a c → linked b c → a = b
  lines : ∀ (t : Token) (n : TokenNode), f.nodes[t]? = some n → ∀ a, a ∈ n.line ↔ Relation.ReflTransGen linked a t

variable {linked : Token → Token → Prop} {a b t : Token}

theorem lined_empty : Lined .empty fun _ _ => False :=
  ⟨fun _ _ link => link.elim,fun _ _ _ link => link.elim,fun t n found => by simp [empty] at found⟩

theorem Lined.le (lined : Lined f linked) (above : Relation.ReflTransGen linked a b) : a ≤ b := by
  induction above with
  | refl => exact Nat.le_refl _
  | tail _ link ih => exact Nat.le_trans ih (Nat.le_of_lt (lined.known _ _ link).1)

theorem Lined.mem_line (lined : Lined f linked) (known : t < f.nodes.length) :
    a ∈ f.line t ↔ Relation.ReflTransGen linked a t := by
  rw [line,List.getElem?_eq_getElem known]
  exact lined.lines t _ (List.getElem?_eq_getElem known) a

theorem Lined.above_new (lined : Lined f linked) :
    Relation.ReflTransGen linked a f.nodes.length ↔ a = f.nodes.length := by
  constructor
  · intro above
    cases above with
    | refl => rfl
    | tail _ link => exact absurd (lined.known _ _ link).2 (Nat.lt_irrefl _)
  · rintro rfl
    exact .refl

theorem Lined.root (lined : Lined f linked) : Lined f.root.2 linked := by
  refine ⟨?_,lined.only,?_⟩
  · intro a b link
    have bound := lined.known a b link
    exact ⟨bound.1,by rw [length_root]; exact Nat.lt_succ_of_lt bound.2⟩
  · intro t n found a
    rcases added_cases found with old | ⟨rfl,rfl⟩
    · exact lined.lines t n old a
    · rw [lined.above_new,List.mem_singleton]

-- A new child changes nothing about what stands above the tokens that were there.
theorem Lined.above_old {linked' : Token → Token → Prop} (lined : Lined f linked)
    (grows : ∀ a b, linked a b → linked' a b) (new : ∀ a b, linked' a b → linked a b ∨ b = f.nodes.length)
    (known : t < f.nodes.length) : Relation.ReflTransGen linked' a t ↔ Relation.ReflTransGen linked a t := by
  constructor
  · intro above
    induction above with
    | refl => exact .refl
    | tail _ link ih =>
      rcases new _ _ link with old | rfl
      · exact (ih (Nat.lt_trans (lined.known _ _ old).1 known)).tail old
      · exact absurd known (Nat.lt_irrefl _)
  · exact Relation.ReflTransGen.mono grows _ _

theorem Lined.child (lined : Lined f linked) {parent : Token} (present : parent < f.nodes.length) :
    Lined (f.child parent).2 fun a b => linked a b ∨ a = parent ∧ b = f.nodes.length := by
  have old {a t : Token} (known : t < f.nodes.length) :
      Relation.ReflTransGen (fun a b => linked a b ∨ a = parent ∧ b = f.nodes.length) a t ↔
        Relation.ReflTransGen linked a t :=
    lined.above_old (fun _ _ => .inl) (fun _ _ link => link.imp_right And.right) known
  refine ⟨?_,?_,?_⟩
  · intro a b link
    rw [length_child]
    rcases link with link | ⟨rfl,rfl⟩
    · have bound := lined.known a b link
      exact ⟨bound.1,Nat.lt_succ_of_lt bound.2⟩
    · exact ⟨present,Nat.lt_succ_self _⟩
  · intro a b c one other
    rcases one with one | ⟨rfl,rfl⟩ <;> rcases other with other | ⟨rfl,same⟩
    · exact lined.only a b c one other
    · exact absurd (same ▸ (lined.known _ _ one).2) (Nat.lt_irrefl _)
    · exact absurd (lined.known _ _ other).2 (Nat.lt_irrefl _)
    · rfl
  · intro t n found a
    rcases added_cases found with before | ⟨rfl,rfl⟩
    · rw [old (List.getElem?_eq_some_iff.mp before).1]
      exact lined.lines t n before a
    · rw [List.mem_cons,lined.mem_line present,← old present]
      constructor
      · rintro (rfl | above)
        · exact .refl
        · exact above.tail (.inr ⟨rfl,rfl⟩)
      · intro above
        cases above with
        | refl => exact .inl rfl
        | tail above link =>
          rcases link with link | ⟨rfl,_⟩
          · exact absurd (lined.known _ _ link).2 (Nat.lt_irrefl _)
          · exact .inr above

theorem Lined.cancel (lined : Lined f linked) (t : Token) : Lined (f.cancel t) linked := by
  refine ⟨?_,lined.only,?_⟩
  · rw [length_cancel]; exact lined.known
  · intro t' n found a
    simp only [TokenForest.cancel,List.getElem?_map,Option.map_eq_some_iff] at found
    obtain ⟨m,found,rfl⟩ := found
    rw [← lined.lines t' m found a]
    split <;> rfl

end ServiceKit.TokenForest
