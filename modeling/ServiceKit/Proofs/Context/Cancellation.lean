import Mathlib.Logic.Relation
import ServiceKit.Context.History
import ServiceKit.Proofs.Context.Tokens
import ServiceKit.Proofs.Runs

namespace ServiceKit.Context.History
variable {ops later : List Op} {op : Op} {s t u : State} {i j k : Nat} {c d p : Context} {a b : Token}

theorem run_concat (ops : List Op) (op : Op) : run (ops ++ [op]) = (run ops).bind (State.act · op) :=
  foldlM_concat State.act .start ops op

def Struck (ops : List Op) (a : Token) : Prop :=
  Happened State.act .start (fun s op => ∃ i c, op = .cancel i ∧ s.held[i]? = some c ∧ c.token = a) ops

-- A context was put under one that had the first token, and got the second by it.
def Linked (ops : List Op) (a b : Token) : Prop :=
  Happened State.act .start (fun s op => ∃ i j p t c, op = .link i j ∧ s.held[j]? = some p ∧ p.token = a ∧
    s.act op = some t ∧ t.held[i]? = some c ∧ c.token = b) ops

-- The first token is the second or stands above it in the tree of the links.
def Above (ops : List Op) : Token → Token → Prop := Relation.ReflTransGen (Linked ops)

inductive Moved (s : State) : Op → State → Prop where
  | grows {op : Op} {c : Context} {w : World} (calm : ∀ i, op ≠ .cancel i) (apart : ∀ i j, op ≠ .link i j)
      (forest : w.tokens = s.world.tokens.root.2) (token : c.token = s.world.tokens.root.1) :
      Moved s op ⟨w,s.held ++ [c]⟩
  | copies {i : Nat} {c : Context} (found : s.held[i]? = some c) : Moved s (.clone i) ⟨s.world,s.held ++ [c]⟩
  | links {i j : Nat} {c p d : Context} {w : World} (found : s.held[i]? = some c) (parent : s.held[j]? = some p)
      (forest : w.tokens = (s.world.tokens.child p.token).2) (token : d.token = s.world.tokens.nodes.length) :
      Moved s (.link i j) ⟨w,s.held.set i d⟩
  | cancels {i : Nat} {c : Context} (found : s.held[i]? = some c) : Moved s (.cancel i) ⟨s.world.cancel c.token,s.held⟩
  | alters {op : Op} {i : Nat} {c d : Context} (calm : ∀ i, op ≠ .cancel i) (apart : ∀ i j, op ≠ .link i j)
      (found : s.held[i]? = some c) (token : d.token = c.token) : Moved s op ⟨s.world,s.held.set i d⟩
  | passes {ms : Nat} : Moved s (.advance ms) ⟨s.world.advance ms,s.held⟩

theorem act_moved (moved : s.act op = some t) : Moved s op t := by
  cases op with
  | new =>
    cases moved
    exact .grows (by simp) (by simp) rfl rfl
  | clone i =>
    obtain ⟨c,found,rfl⟩ := Option.map_eq_some_iff.mp moved
    exact .copies found
  | link i j =>
    obtain ⟨c,found,moved⟩ := Option.bind_eq_some_iff.mp moved
    obtain ⟨p,parent,rfl⟩ := Option.map_eq_some_iff.mp moved
    exact .links found parent rfl rfl
  | detach i =>
    obtain ⟨c,_,rfl⟩ := Option.map_eq_some_iff.mp moved
    exact .grows (by simp) (by simp) rfl rfl
  | cancel i =>
    obtain ⟨c,found,rfl⟩ := Option.map_eq_some_iff.mp moved
    exact .cancels found
  | timeout i _ =>
    obtain ⟨c,found,moved⟩ := Option.bind_eq_some_iff.mp moved
    obtain ⟨d,timed,rfl⟩ := Option.map_eq_some_iff.mp moved
    obtain ⟨_,rfl⟩ := withTimeout_eq_some_iff.mp timed
    exact .alters (by simp) (by simp) found rfl
  | deadline i _ =>
    obtain ⟨c,found,rfl⟩ := Option.map_eq_some_iff.mp moved
    exact .alters (by simp) (by simp) found rfl
  | attach i a =>
    obtain ⟨c,found,rfl⟩ := Option.map_eq_some_iff.mp moved
    refine .alters (by simp) (by simp) found ?_
    cases a <;> rfl
  | advance ms =>
    cases moved
    exact .passes

theorem struck_calm (ran : run ops = some s) (calm : ∀ i, op ≠ .cancel i) : Struck (ops ++ [op]) = Struck ops := by
  funext a
  refine propext ((happened_concat ran).trans (or_iff_left ?_))
  rintro ⟨i,_,same,_⟩
  exact calm i same

theorem struck_cancel (ran : run ops = some s) (found : s.held[i]? = some c) :
    Struck (ops ++ [.cancel i]) = fun a => Struck ops a ∨ a = c.token := by
  funext a
  refine propext ((happened_concat ran).trans (or_congr_right ?_))
  constructor
  · rintro ⟨j,d,same,other,rfl⟩
    cases same
    rw [found] at other
    cases other
    rfl
  · rintro rfl
    exact ⟨i,c,rfl,found,rfl⟩

theorem linked_apart (ran : run ops = some s) (apart : ∀ i j, op ≠ .link i j) : Linked (ops ++ [op]) = Linked ops := by
  funext a b
  refine propext ((happened_concat ran).trans (or_iff_left ?_))
  rintro ⟨i,j,_,_,_,same,_⟩
  exact apart i j same

theorem linked_link (ran : run ops = some s) (found : s.held[i]? = some c) (parent : s.held[j]? = some p) :
    Linked (ops ++ [.link i j]) = fun a b => Linked ops a b ∨ a = p.token ∧ b = s.world.tokens.nodes.length := by
  funext a b
  have bound : i < s.held.length := (List.getElem?_eq_some_iff.mp found).1
  have acted : s.act (.link i j) = some (s.put i (c.withParent s.world p.token)) := by simp [State.act,found,parent]
  have made : (s.put i (c.withParent s.world p.token)).held[i]? = some (c.withParent s.world p.token).1 :=
    List.getElem?_set_self bound
  refine propext ((happened_concat ran).trans (or_congr_right ?_))
  constructor
  · rintro ⟨i',j',q,t,d,same,other,rfl,moved,child,rfl⟩
    cases same
    rw [parent] at other
    cases other
    rw [acted] at moved
    cases moved
    rw [made] at child
    cases child
    exact ⟨rfl,rfl⟩
  · rintro ⟨rfl,rfl⟩
    exact ⟨i,j,p,_,_,rfl,parent,rfl,acted,made,rfl⟩

-- A history is what its state shows: the forest was told the cancels and stands for the links, and holds
-- the tokens of all contexts.
structure Sound (ops : List Op) (s : State) : Prop where
  told : s.world.tokens.Told (Struck ops)
  lined : s.world.tokens.Lined (Linked ops)
  held : ∀ c ∈ s.held, c.token < s.world.tokens.nodes.length

theorem start_sound : Sound [] .start := by
  have struck : Struck [] = fun _ => False := funext fun _ => propext (iff_false_intro happened_nil)
  have linked : Linked [] = fun _ _ => False := funext fun _ => funext fun _ => propext (iff_false_intro happened_nil)
  refine ⟨?_,?_,?_⟩
  · rw [struck]; exact TokenForest.told_empty
  · rw [linked]; exact TokenForest.lined_empty
  · intro c member; cases member

theorem step_sound (ran : run ops = some s) (sound : Sound ops s) (moved : s.act op = some t) :
    Sound (ops ++ [op]) t := by
  obtain ⟨told,lined,held⟩ := sound
  cases act_moved moved with
  | grows calm apart forest token =>
    refine ⟨?_,?_,?_⟩
    · rw [struck_calm ran calm,forest]; exact told.root
    · rw [linked_apart ran apart,forest]; exact lined.root
    · rw [forest,TokenForest.length_root]
      intro d member
      rcases List.mem_append.mp member with old | new
      · exact Nat.lt_succ_of_lt (held d old)
      · cases List.mem_singleton.mp new
        rw [token]
        exact Nat.lt_succ_self _
  | @copies i c found =>
    refine ⟨?_,?_,?_⟩
    · rw [struck_calm ran (by simp)]; exact told
    · rw [linked_apart ran (by simp)]; exact lined
    · intro d member
      rcases List.mem_append.mp member with old | new
      · exact held d old
      · cases List.mem_singleton.mp new
        exact held _ (List.mem_of_getElem? found)
  | @links i j c p d w found parent forest token =>
    refine ⟨?_,?_,?_⟩
    · rw [struck_calm ran (by simp),forest]; exact told.child p.token
    · rw [linked_link ran found parent,forest]
      exact lined.child (held p (List.mem_of_getElem? parent))
    · rw [forest,TokenForest.length_child]
      intro e member
      rcases List.mem_or_eq_of_mem_set member with old | rfl
      · exact Nat.lt_succ_of_lt (held e old)
      · rw [token]
        exact Nat.lt_succ_self _
  | @cancels i c found =>
    refine ⟨?_,?_,?_⟩
    · rw [struck_cancel ran found]; exact told.cancel (held c (List.mem_of_getElem? found))
    · rw [linked_apart ran (by simp)]; exact lined.cancel c.token
    · intro d member
      show d.token < (s.world.tokens.cancel c.token).nodes.length
      rw [TokenForest.length_cancel]
      exact held d member
  | @alters op i c d calm apart found token =>
    refine ⟨?_,?_,?_⟩
    · rw [struck_calm ran calm]; exact told
    · rw [linked_apart ran apart]; exact lined
    · intro e member
      rcases List.mem_or_eq_of_mem_set member with old | rfl
      · exact held e old
      · rw [token]
        exact held c (List.mem_of_getElem? found)
  | passes =>
    refine ⟨?_,?_,held⟩
    · rw [struck_calm ran (by simp)]; exact told
    · rw [linked_apart ran (by simp)]; exact lined

theorem run_sound (ran : run ops = some s) : Sound ops s :=
  run_induction start_sound (fun _ _ _ _ before sound moved => step_sound before sound moved) ran

-- Whatever had the token, the forest has cancelled it iff a token above it was struck.
theorem Sound.cancelled_iff (sound : Sound ops s) (known : a < s.world.tokens.nodes.length) :
    s.world.tokens.isCancelled a = true ↔ ∃ b, Struck ops b ∧ Above ops b a := by
  rw [sound.told.isCancelled_iff]
  constructor
  · rintro ⟨b,member,struck⟩
    exact ⟨b,struck,(sound.lined.mem_line known).mp member⟩
  · rintro ⟨b,struck,above⟩
    exact ⟨b,(sound.lined.mem_line known).mpr above,struck⟩

theorem moved_extends (moved : Moved s op t) : s.world.tokens.Extends t.world.tokens := by
  cases moved with
  | grows _ _ forest _ => rw [forest]; exact TokenForest.extends_append _ _
  | links _ _ forest _ => rw [forest]; exact TokenForest.extends_append _ _
  | cancels _ => exact TokenForest.extends_cancel _ _
  | copies _ | alters _ _ _ _ | passes => exact .refl _

theorem moved_held (moved : Moved s op t) (found : s.held[i]? = some c) (unlinked : ∀ j, op ≠ .link i j) :
    ∃ d, t.held[i]? = some d ∧ d.token = c.token := by
  have bound : i < s.held.length := (List.getElem?_eq_some_iff.mp found).1
  cases moved with
  | grows _ _ _ _ | copies _ => exact ⟨c,by rw [List.getElem?_append_left bound,found],rfl⟩
  | @links i' j _ _ _ _ _ _ _ _ =>
    have apart : i' ≠ i := fun same => unlinked j (by rw [same])
    exact ⟨c,by rw [List.getElem?_set_ne apart,found],rfl⟩
  | cancels _ | passes => exact ⟨c,found,rfl⟩
  | @alters _ i' _ d _ _ other token =>
    by_cases same : i' = i
    · subst same
      rw [found] at other
      cases other
      exact ⟨d,List.getElem?_set_self bound,token⟩
    · exact ⟨c,by rw [List.getElem?_set_ne same,found],rfl⟩

theorem later_induction {P : State → Prop} (ran : run ops = some s) (start : P s)
    (kept : ∀ u op v, op ∈ later → u.act op = some v → P u → P v) (more : run (ops ++ later) = some t) : P t := by
  induction later using List.reverseRecOn generalizing t with
  | nil =>
    rw [List.append_nil,ran] at more
    cases more
    exact start
  | append_singleton later op ih =>
    rw [← List.append_assoc,run_concat] at more
    obtain ⟨u,before,moved⟩ := Option.bind_eq_some_iff.mp more
    have earlier := ih (fun u op v member => kept u op v (List.mem_append_left _ member)) before
    exact kept u op t (List.mem_append_right _ (List.mem_singleton_self op)) moved earlier

theorem later_extends (ran : run ops = some s) (more : run (ops ++ later) = some t) :
    s.world.tokens.Extends t.world.tokens := by
  refine later_induction (P := fun t => s.world.tokens.Extends t.world.tokens) ran (.refl _) ?_ more
  intro u op v _ moved extended
  exact extended.trans (moved_extends (act_moved moved))

theorem later_held (ran : run ops = some s) (found : s.held[i]? = some c) (unlinked : ∀ j, .link i j ∉ later)
    (more : run (ops ++ later) = some t) : ∃ d, t.held[i]? = some d ∧ d.token = c.token := by
  refine later_induction (P := fun t => ∃ d, t.held[i]? = some d ∧ d.token = c.token) ran ⟨c,found,rfl⟩ ?_ more
  rintro u op v member moved ⟨d,placed,token⟩
  obtain ⟨e,placed',token'⟩ := moved_held (act_moved moved) placed fun j same => unlinked j (same ▸ member)
  exact ⟨e,placed',token'.trans token⟩

theorem cancel_reaches (ran : run ops = some s) (found : s.held[i]? = some c) (moved : s.act (.cancel i) = some t)
    (known : a < s.world.tokens.nodes.length) :
    t.world.tokens.isCancelled a = true ↔ s.world.tokens.isCancelled a = true ∨ Above ops c.token a := by
  have before := run_sound ran
  have after := step_sound ran before moved
  have kept : a < t.world.tokens.nodes.length := by
    obtain ⟨_,_,rfl⟩ := Option.map_eq_some_iff.mp moved
    show a < (s.world.tokens.cancel _).nodes.length
    rw [TokenForest.length_cancel]
    exact known
  rw [after.cancelled_iff kept,before.cancelled_iff known,Above,struck_cancel ran found,linked_apart ran (by simp)]
  constructor
  · rintro ⟨b,struck | rfl,above⟩
    · exact .inl ⟨b,struck,above⟩
    · exact .inr above
  · rintro (⟨b,struck,above⟩ | above)
    · exact ⟨b,.inl struck,above⟩
    · exact ⟨c.token,.inr rfl,above⟩

theorem Sound.not_above_parent (sound : Sound ops s) (link : Linked ops b a) : ¬ Above ops a b := fun above =>
  Nat.not_lt.mpr (sound.lined.le above) (sound.lined.known b a link).1

theorem Sound.not_above_sibling (sound : Sound ops s) {e : Token} (link : Linked ops e a) (other : Linked ops e b)
    (apart : b ≠ a) : ¬ Above ops a b := by
  intro above
  cases above with
  | refl => exact apart rfl
  | tail above last =>
    cases sound.lined.only _ _ _ last other
    exact sound.not_above_parent link above

theorem later_above (ran : run ops = some s) (known : a < s.world.tokens.nodes.length)
    (more : run (ops ++ later) = some t) : Above (ops ++ later) b a ↔ Above ops b a := by
  have found := List.getElem?_eq_getElem known
  obtain ⟨n,found',line,_⟩ := later_extends ran more a _ found
  rw [Above,Above,← (run_sound more).lined.lines a n found',line]
  exact (run_sound ran).lined.lines a _ found b

-- Where a context is linked its token changes, and all other contexts keep theirs and what they report.
theorem link_apart (ran : run ops = some s) (moved : s.act (.link i j) = some t) (apart : k ≠ i) :
    t.held[k]? = s.held[k]? ∧ ∀ d, s.held[k]? = some d → d.isCancelled t.world = d.isCancelled s.world ∧
      ∀ c, t.held[i]? = some c → c.token ≠ d.token := by
  have sound := run_sound ran
  obtain ⟨c,found,moved⟩ := Option.bind_eq_some_iff.mp moved
  obtain ⟨p,parent,rfl⟩ := Option.map_eq_some_iff.mp moved
  refine ⟨List.getElem?_set_ne apart.symm,?_⟩
  intro d other
  have known := sound.held d (List.mem_of_getElem? other)
  refine ⟨?_,?_⟩
  · show (s.world.tokens.child p.token).2.isCancelled d.token = s.world.tokens.isCancelled d.token
    rw [TokenForest.isCancelled,TokenForest.child,List.getElem?_append_left known]
    rfl
  · intro e linked same
    have made : (s.put i (c.withParent s.world p.token)).held[i]? = some (c.withParent s.world p.token).1 :=
      List.getElem?_set_self (List.getElem?_eq_some_iff.mp found).1
    rw [made] at linked
    cases linked
    have fresh : s.world.tokens.nodes.length = d.token := same
    rw [fresh] at known
    exact Nat.lt_irrefl _ known

theorem known_later (ran : run ops = some s) (more : run (ops ++ later) = some t)
    (known : a < s.world.tokens.nodes.length) : a < t.world.tokens.nodes.length := by
  obtain ⟨_,found,_,_⟩ := later_extends ran more a _ (List.getElem?_eq_getElem known)
  exact (List.getElem?_eq_some_iff.mp found).1

-- A detached copy starts a tree of its own: nothing stands above it, and it above nothing that was there.
theorem detached_root (ran : run ops = some s) (found : s.held[i]? = some c)
    (more : run (ops ++ .detach i :: later) = some t) :
    s.world.tokens.nodes.length < t.world.tokens.nodes.length ∧
      (∀ a, Above (ops ++ .detach i :: later) a s.world.tokens.nodes.length ↔ a = s.world.tokens.nodes.length) ∧
      (∀ a, Above (ops ++ .detach i :: later) a c.token → a ≠ s.world.tokens.nodes.length) := by
  have sound := run_sound ran
  have known := sound.held c (List.mem_of_getElem? found)
  have ran' : run (ops ++ [.detach i]) = some (s.keep (c.detached s.world)) := by
    rw [run_concat,ran]
    simp [State.act,found]
  have length : (s.keep (c.detached s.world)).world.tokens.nodes.length = s.world.tokens.nodes.length + 1 :=
    TokenForest.length_root _
  rw [List.append_cons] at more ⊢
  have above {a b : Token} (before : a < s.world.tokens.nodes.length + 1) :
      Above (ops ++ [.detach i] ++ later) b a ↔ Above ops b a := by
    rw [later_above ran' (length ▸ before) more,Above,linked_apart ran (by simp)]
    rfl
  refine ⟨known_later ran' more (length ▸ Nat.lt_succ_self _),?_,?_⟩
  · intro a
    rw [above (Nat.lt_succ_self _)]
    exact sound.lined.above_new
  · rintro a stands rfl
    have below := sound.lined.le ((above (Nat.lt_succ_of_lt known)).mp stands)
    exact Nat.not_lt.mpr below known

theorem isDone_unbounded (c : Context) (w : World) (unbounded : c.deadline = none) : c.isDone w = c.isCancelled w := by
  simp [isDone,unbounded]

-- Whom cancels reach in a history, at any point of it and whatever comes later.
structure Reach (ops : List Op) (s : State) : Prop where
  reported : ∀ c ∈ s.held, c.isCancelled s.world = true ↔ ∃ a, Struck ops a ∧ Above ops a c.token
  shared : ∀ i < s.held.length, ∀ later t, run (ops ++ .clone i :: later) = some t →
    (∀ j, .link i j ∉ later ∧ .link s.held.length j ∉ later) →
    ∃ c d, t.held[i]? = some c ∧ t.held[s.held.length]? = some d ∧ c.token = d.token ∧
      c.isCancelled t.world = d.isCancelled t.world
  cancel : ∀ i c t, s.held[i]? = some c → s.act (.cancel i) = some t → t.held = s.held ∧ c.isCancelled t.world = true ∧
    ∀ a, Linked ops a c.token → ∀ d ∈ s.held, d.token = a ∨ (Linked ops a d.token ∧ d.token ≠ c.token) →
      d.isCancelled t.world = d.isCancelled s.world
  link : ∀ i j t, s.act (.link i j) = some t → ∀ k ≠ i, t.held[k]? = s.held[k]? ∧
    ∀ d, s.held[k]? = some d → d.isCancelled t.world = d.isCancelled s.world ∧
      ∀ c, t.held[i]? = some c → c.token ≠ d.token
  kept : ∀ c ∈ s.held, c.isCancelled s.world = true → ∀ later t, run (ops ++ later) = some t →
    c.isCancelled t.world = true
  detached : ∀ i c, s.held[i]? = some c → ∃ d w, s.act (.detach i) = some ⟨w,s.held ++ [d]⟩ ∧
    (d.traceId = c.traceId ∧ d.claims = c.claims ∧ d.notifier = c.notifier ∧ d.cache = c.cache ∧
      d.deadline = none ∧ d.requestId = none) ∧
    ∀ later t, run (ops ++ .detach i :: later) = some t →
      (d.isDone t.world = true ↔ Struck (ops ++ .detach i :: later) d.token) ∧
      (c.isCancelled t.world = true ↔
        ∃ a, Struck (ops ++ .detach i :: later) a ∧ Above (ops ++ .detach i :: later) a c.token) ∧
      ∀ a, Above (ops ++ .detach i :: later) a c.token → a ≠ d.token

theorem clone_shares (ran : run ops = some s) (bound : i < s.held.length)
    (more : run (ops ++ .clone i :: later) = some t) (apart : ∀ j, .link i j ∉ later ∧ .link s.held.length j ∉ later) :
    ∃ c d, t.held[i]? = some c ∧ t.held[s.held.length]? = some d ∧ c.token = d.token := by
  obtain ⟨e,found⟩ : ∃ e, s.held[i]? = some e := ⟨_,List.getElem?_eq_getElem bound⟩
  have ran' : run (ops ++ [.clone i]) = some ⟨s.world,s.held ++ [e]⟩ := by
    rw [run_concat,ran]
    simp [State.act,State.keep,found]
  rw [List.append_cons] at more
  have first : (s.held ++ [e])[i]? = some e := by rw [List.getElem?_append_left bound,found]
  have second : (s.held ++ [e])[s.held.length]? = some e := List.getElem?_concat_length
  obtain ⟨c,placed,token⟩ := later_held ran' first (fun j => (apart j).1) more
  obtain ⟨d,placed',token'⟩ := later_held ran' second (fun j => (apart j).2) more
  exact ⟨c,d,placed,placed',token.trans token'.symm⟩

-- Cancelling a context leaves the one that it was linked under as it is, and all others under that one.
theorem cancel_apart (ran : run ops = some s) (found : s.held[i]? = some c) (moved : s.act (.cancel i) = some t)
    (parent : Linked ops a c.token) (member : d ∈ s.held)
    (other : d.token = a ∨ (Linked ops a d.token ∧ d.token ≠ c.token)) :
    d.isCancelled t.world = d.isCancelled s.world := by
  have sound := run_sound ran
  have below : ¬ Above ops c.token d.token := by
    rcases other with rfl | ⟨sibling,apart⟩
    · exact sound.not_above_parent parent
    · exact sound.not_above_sibling parent sibling apart
  rw [Bool.eq_iff_iff]
  exact (cancel_reaches ran found moved (sound.held d member)).trans (or_iff_left below)

-- Cancellation reaches along the links and no other way, whatever is done in whatever order.
theorem run_reach (ran : run ops = some s) : Reach ops s := by
  have sound := run_sound ran
  refine ⟨?_,?_,?_,?_,?_,?_⟩
  · intro c member
    exact sound.cancelled_iff (sound.held c member)
  · intro i bound later t more apart
    obtain ⟨c,d,first,second,token⟩ := clone_shares ran bound more apart
    exact ⟨c,d,first,second,token,by rw [isCancelled,token,isCancelled]⟩
  · intro i c t found moved
    have reached := (cancel_reaches ran found moved (sound.held c (List.mem_of_getElem? found))).mpr (.inr .refl)
    have held : t.held = s.held := by
      obtain ⟨_,_,rfl⟩ := Option.map_eq_some_iff.mp moved
      rfl
    exact ⟨held,reached,fun a parent d member other => cancel_apart ran found moved parent member other⟩
  · intro i j t moved k apart
    exact link_apart ran moved apart
  · intro c _ cancelled later t more
    exact TokenForest.cancelled_extends (later_extends ran more) cancelled
  · intro i c found
    have acted : s.act (.detach i) = some (s.keep (c.detached s.world)) := by simp [State.act,found]
    refine ⟨(c.detached s.world).1,(c.detached s.world).2,acted,⟨rfl,rfl,rfl,rfl,rfl,rfl⟩,?_⟩
    intro later t more
    have after := run_sound more
    obtain ⟨there,root,apart⟩ := detached_root ran found more
    have known := sound.held c (List.mem_of_getElem? found)
    refine ⟨?_,after.cancelled_iff (Nat.lt_trans known there),apart⟩
    rw [isDone_unbounded _ _ rfl]
    refine (after.cancelled_iff there).trans ?_
    constructor
    · rintro ⟨a,struck,above⟩
      cases (root a).mp above
      exact struck
    · intro struck
      exact ⟨_,struck,.refl⟩

-- A context is linked under another after it was copied, and then detached; a cancel of the other reaches it,
-- but neither copy.
theorem linked_reach :
    ∃ s, run [.new,.new,.clone 0,.link 0 1,.detach 0,.cancel 1] = some s ∧
      s.held.map (fun c => c.isCancelled s.world) = [true,true,false,false] ∧
      Reach [.new,.new,.clone 0,.link 0 1,.detach 0,.cancel 1] s :=
  ⟨_,rfl,by decide,run_reach rfl⟩

end ServiceKit.Context.History
