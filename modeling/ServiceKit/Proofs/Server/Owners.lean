import Mathlib.Logic.Function.Basic
import ServiceKit.Proofs.Server.Machine

namespace ServiceKit.TokenForest
variable {f g : TokenForest} {struck : Token → Prop} {t p : Token}

theorem line_extends (grows : Extends f g) (known : t < f.nodes.length) : g.line t = f.line t := by
  obtain ⟨n,placed,line,_⟩ := grows t _ (List.getElem?_eq_getElem known)
  simp [TokenForest.line,placed,line,List.getElem?_eq_getElem known]

theorem Extends.length_le (grows : Extends f g) (known : t < f.nodes.length) : t < g.nodes.length := by
  obtain ⟨n,placed,_⟩ := grows t _ (List.getElem?_eq_getElem known)
  exact (List.getElem?_eq_some_iff.mp placed).1

theorem line_root (f : TokenForest) : f.root.2.line f.nodes.length = [f.nodes.length] := by
  simp [TokenForest.line,TokenForest.root]

theorem line_child (f : TokenForest) (p : Token) : (f.child p).2.line f.nodes.length = f.nodes.length :: f.line p := by
  simp [TokenForest.line,TokenForest.child]

-- A forest that has grown: tokens were added, and none was cancelled.
inductive Grown (f : TokenForest) : TokenForest → Prop where
  | same : Grown f f
  | root {h : TokenForest} (before : Grown f h) : Grown f h.root.2
  | child {h : TokenForest} (before : Grown f h) (p : Token) : Grown f (h.child p).2

theorem Grown.extends (grown : Grown f g) : Extends f g := by
  induction grown with
  | same => exact .refl f
  | root _ ih => exact ih.trans (extends_append _ _)
  | child _ p ih => exact ih.trans (extends_append _ _)

theorem Grown.isCancelled (grown : Grown f g) (known : t < f.nodes.length) : g.isCancelled t = f.isCancelled t := by
  induction grown with
  | same => rfl
  | root before ih | child before _ ih =>
    rw [← ih]
    simp [TokenForest.isCancelled,TokenForest.root,TokenForest.child,
      List.getElem?_append_left (before.extends.length_le known)]

def Reports (f : TokenForest) (struck : Token → Prop) (t : Token) : Prop :=
  f.isCancelled t = true ↔ ∃ a ∈ f.line t, struck a

theorem Reports.grown (reports : Reports f struck t) (grown : Grown f g) (known : t < f.nodes.length) :
    Reports g struck t := by
  unfold Reports
  rw [grown.isCancelled known,line_extends grown.extends known]
  exact reports

theorem Reports.cancel (reports : Reports f struck t) (known : t < f.nodes.length) (top : Token) :
    Reports (f.cancel top) (fun a => struck a ∨ a = top) t := by
  have placed : f.nodes[t]? = some f.nodes[t] := List.getElem?_eq_getElem known
  have line : f.line t = f.nodes[t].line := by simp [TokenForest.line,placed]
  unfold Reports at reports ⊢
  have before : f.nodes[t].cancelled = true ↔ ∃ a ∈ f.line t, struck a := by
    rw [← reports]
    simp [TokenForest.isCancelled,placed]
  rw [line_extends (extends_cancel f top) known,line]
  rw [line] at before
  by_cases inside : top ∈ f.nodes[t].line
  · have after : (f.cancel top).isCancelled t = true := by
      simp [TokenForest.isCancelled,TokenForest.cancel,placed,inside]
    exact iff_of_true after ⟨top,inside,.inr rfl⟩
  · have after : (f.cancel top).isCancelled t = f.nodes[t].cancelled := by
      simp [TokenForest.isCancelled,TokenForest.cancel,placed,inside]
    rw [after,before]
    refine exists_congr fun a => and_congr_right fun above => (or_iff_left ?_).symm
    rintro rfl
    exact inside above

theorem Reports.child (reports : Reports f struck p) (new : ¬ struck f.nodes.length) :
    Reports (f.child p).2 struck f.nodes.length := by
  have born : (f.child p).2.isCancelled f.nodes.length = f.isCancelled p := by
    simp [TokenForest.isCancelled,TokenForest.child]
  unfold Reports at reports ⊢
  rw [born,line_child,reports]
  simp [new]

theorem Reports.root (new : ¬ struck f.nodes.length) : Reports f.root.2 struck f.nodes.length := by
  unfold Reports
  rw [line_root]
  simp [TokenForest.isCancelled,TokenForest.root,new]

end ServiceKit.TokenForest

namespace ServiceKit.Server

theorem Run.Calm.grown {f g : TokenForest} (calm : Run.Calm f g) : TokenForest.Grown f g := by
  rcases calm with rfl | rfl
  · exact .same
  · exact .root .same

theorem Run.Calm.length_le {f g : TokenForest} (calm : Run.Calm f g) : f.nodes.length ≤ g.nodes.length := by
  rcases calm with rfl | rfl <;> simp

namespace Traffic

-- The tokens of a request: those of the contexts that its stages hold, and, once it has reached the pipeline, those of the
-- context that was let on and of the one that its handler was given.
structure Tokens where
  outer : List Token
  race : Option (Token × Token)

def Tokens.Has (o : Tokens) (u : Token) : Prop := u ∈ o.outer ∨ ∃ c, o.race = some (c,u)

variable {owned : Nat → Tokens} {i : Nat} {o : Tokens} {c u w : Token}

theorem has_outer (has : Tokens.Has ⟨o.outer ++ [w],o.race⟩ u) : o.Has u ∨ u = w := by
  rcases has with own | race
  · exact (List.mem_append.mp own).imp .inl List.mem_singleton.mp
  · exact .inl (.inr race)

theorem has_race (has : Tokens.Has ⟨o.outer,some (c,w)⟩ u) : o.Has u ∨ u = w := by
  rcases has with own | ⟨_,⟨⟩⟩
  · exact .inl (.inl own)
  · exact .inr rfl

theorem has_update (more : o.Has u → (owned i).Has u ∨ u = w) (has : ∃ j, (Function.update owned i o j).Has u) :
    (∃ j, (owned j).Has u) ∨ u = w := by
  obtain ⟨j,has⟩ := has
  by_cases same : j = i
  · subst same
    rw [Function.update_self] at has
    exact (more has).imp_left fun old => ⟨j,old⟩
  · rw [Function.update_of_ne same] at has
    exact .inl ⟨j,has⟩

theorem reports_update {g : TokenForest} {root : Token} {struck : Token → Prop}
    (kept : ∀ u, u = root ∨ (∃ j, (owned j).Has u) → g.Reports struck u) (new : g.Reports struck w)
    (more : ∀ u, o.Has u → (owned i).Has u ∨ u = w) :
    ∀ u, u = root ∨ (∃ j, (Function.update owned i o j).Has u) → g.Reports struck u := by
  rintro u (top | has)
  · exact kept u (.inl top)
  · rcases has_update (more u) has with old | rfl
    · exact kept u (.inr old)
    · exact new

-- Each request has tokens of its own. Those of its stages have none but such and the application's above them, and the one
-- that its handler was given stands under the one that was let on.
structure Apart (f : TokenForest) (root : Token) (owned : Nat → Tokens) : Prop where
  known : root < f.nodes.length
  bound : ∀ i u, (owned i).Has u → u < f.nodes.length
  alone : ∀ i, ¬ (owned i).Has root
  apart : ∀ i j u, (owned i).Has u → (owned j).Has u → i = j
  top : f.line root = [root]
  outer : ∀ i, ∀ u ∈ (owned i).outer, ∀ v ∈ f.line u, v = root ∨ v ∈ (owned i).outer
  given : ∀ i c u, (owned i).race = some (c,u) → c ∈ (owned i).outer ∧ u ∉ (owned i).outer ∧ f.line u = u :: f.line c

namespace Apart
variable {f g : TokenForest} {root : Token}

theorem lt (apart : Apart f root owned) (has : u = root ∨ ∃ i, (owned i).Has u) : u < f.nodes.length := by
  rcases has with rfl | ⟨i,has⟩
  · exact apart.known
  · exact apart.bound i u has

theorem grow (apart : Apart f root owned) (grows : f.Extends g) : Apart g root owned := by
  have lines {i : Nat} {u : Token} (has : (owned i).Has u) : g.line u = f.line u :=
    TokenForest.line_extends grows (apart.bound i u has)
  refine ⟨grows.length_le apart.known,fun i u has => grows.length_le (apart.bound i u has),apart.alone,apart.apart,?_,?_,?_⟩
  · rw [TokenForest.line_extends grows apart.known,apart.top]
  · intro i u held v
    rw [lines (.inl held)]
    exact apart.outer i u held v
  · intro i c u race
    obtain ⟨held,new,line⟩ := apart.given i c u race
    rw [lines (.inr ⟨c,race⟩),lines (.inl held)]
    exact ⟨held,new,line⟩

theorem update (apart : Apart f root owned) (grows : f.Extends g) {o : Tokens}
    (has : ∀ u, o.Has u → (owned i).Has u ∨ f.nodes.length ≤ u ∧ u < g.nodes.length)
    (outer : ∀ u ∈ o.outer, ∀ v ∈ g.line u, v = root ∨ v ∈ o.outer)
    (given : ∀ c u, o.race = some (c,u) → c ∈ o.outer ∧ u ∉ o.outer ∧ g.line u = u :: g.line c) :
    Apart g root (Function.update owned i o) := by
  have whole := apart.grow grows
  have fresh {j : Nat} {u : Token} (new : f.nodes.length ≤ u) : ¬ (owned j).Has u :=
    fun held => Nat.not_lt.mpr new (apart.bound j u held)
  refine ⟨whole.known,?_,?_,?_,whole.top,?_,?_⟩
  · refine (Function.forall_update_iff owned fun _ o => ∀ u, o.Has u → u < g.nodes.length).mpr ⟨?_,fun j _ => whole.bound j⟩
    intro u held
    rcases has u held with old | ⟨_,placed⟩
    · exact whole.bound i u old
    · exact placed
  · refine (Function.forall_update_iff owned fun _ o => ¬ o.Has root).mpr ⟨?_,fun j _ => whole.alone j⟩
    intro held
    rcases has root held with old | ⟨new,_⟩
    · exact whole.alone i old
    · exact Nat.not_lt.mpr new apart.known
  · have elsewhere {j : Nat} {u : Token} (held : o.Has u) (other : (owned j).Has u) : i = j := by
      rcases has u held with old | ⟨new,_⟩
      · exact whole.apart i j u old other
      · exact absurd other (fresh new)
    intro j k u one other
    by_cases first : j = i <;> by_cases second : k = i
    · rw [first,second]
    · subst first
      rw [Function.update_self] at one
      rw [Function.update_of_ne second] at other
      exact elsewhere one other
    · subst second
      rw [Function.update_of_ne first] at one
      rw [Function.update_self] at other
      exact (elsewhere other one).symm
    · rw [Function.update_of_ne first] at one
      rw [Function.update_of_ne second] at other
      exact whole.apart j k u one other
  · exact (Function.forall_update_iff owned fun _ o => ∀ u ∈ o.outer, ∀ v ∈ g.line u, v = root ∨ v ∈ o.outer).mpr
      ⟨outer,fun j _ => whole.outer j⟩
  · exact (Function.forall_update_iff owned fun _ o => ∀ c u, o.race = some (c,u) →
      c ∈ o.outer ∧ u ∉ o.outer ∧ g.line u = u :: g.line c).mpr ⟨given,fun j _ => whole.given j⟩

-- The stages of a request get a context more, under its own contexts or the application's.
theorem addOuter (apart : Apart f root owned) (grows : f.Extends g)
    (new : u ∈ (owned i).outer ∨ f.nodes.length ≤ u ∧ u < g.nodes.length)
    (line : ∀ v ∈ g.line u, v = u ∨ v = root ∨ v ∈ (owned i).outer) :
    Apart g root (Function.update owned i ⟨(owned i).outer ++ [u],(owned i).race⟩) := by
  have whole := apart.grow grows
  refine apart.update grows ?_ ?_ ?_
  · intro v has
    rcases has_outer has with old | rfl
    · exact .inl old
    · exact new.imp_left .inl
  · intro v held w above
    rcases List.mem_append.mp held with old | last
    · exact (whole.outer i v old w above).imp_right (List.mem_append_left _)
    · obtain rfl := List.mem_singleton.mp last
      rcases line w above with rfl | top | own
      · exact .inr (List.mem_append_right _ (List.mem_singleton_self w))
      · exact .inl top
      · exact .inr (List.mem_append_left _ own)
  · intro c v race
    obtain ⟨held,apart_,line⟩ := whole.given i c v race
    refine ⟨List.mem_append_left _ held,?_,line⟩
    intro inside
    rcases List.mem_append.mp inside with old | last
    · exact apart_ old
    · obtain rfl := List.mem_singleton.mp last
      rcases new with old | ⟨beyond,_⟩
      · exact apart_ old
      · exact Nat.not_lt.mpr beyond (apart.bound i v (.inr ⟨c,race⟩))

theorem addRace (apart : Apart f root owned) {c : Token} (held : c ∈ (owned i).outer) :
    Apart (f.child c).2 root (Function.update owned i ⟨(owned i).outer,some (c,f.nodes.length)⟩) := by
  have grows : f.Extends (f.child c).2 := TokenForest.extends_append _ _
  have whole := apart.grow grows
  refine apart.update grows ?_ (whole.outer i) ?_
  · intro v has
    rcases has_race has with old | rfl
    · exact .inl old
    · exact .inr ⟨Nat.le_refl _,by simp⟩
  · rintro c' v ⟨⟩
    refine ⟨held,?_,?_⟩
    · intro inside
      exact Nat.lt_irrefl _ (apart.bound i _ (.inl inside))
    · rw [TokenForest.line_child,TokenForest.line_extends grows (apart.bound i c (.inl held))]

end Apart
end Traffic
end ServiceKit.Server
