import ServiceKit.Proofs.Runs
import ServiceKit.Proofs.Server.Owners
import ServiceKit.Proofs.Server.Turns

namespace ServiceKit.Server.Traffic

def Flight.tokens (f : Flight) : Tokens :=
  ⟨f.contexts.map (·.token),f.race.map fun k => (k.exchange.context.token,k.exchange.given.token)⟩

theorem getElem?_concat (as : List α) (a : α) (j : Nat) :
    (as ++ [a])[j]? = if j = as.length then some a else as[j]? := by
  rcases Nat.lt_trichotomy j as.length with old | rfl | beyond
  · rw [List.getElem?_append_left old,if_neg (Nat.ne_of_lt old)]
  · rw [List.getElem?_concat_length,if_pos rfl]
  · rw [if_neg (Nat.ne_of_gt beyond),List.getElem?_eq_none (Nat.le_of_lt beyond)]
    exact List.getElem?_eq_none (by simpa using Nat.succ_le_of_lt beyond)

namespace State
variable {s : State} {f : Flight} {i : Nat}

def owned (s : State) (i : Nat) : Tokens := ((s.flights[i]?).map Flight.tokens).getD ⟨[],none⟩

def context? (s : State) (i n : Nat) : Option Context := (s.flights[i]?).bind (·.contexts[n]?)

def Cancels (s : State) (i : Nat) : Prop := ∃ k, s.race? i = some k ∧ k.Cancels

theorem getElem?_put (found : s.flights[i]? = some f) (f' : Flight) (m : Machine) (j : Nat) :
    (s.put i f' m).flights[j]? = if j = i then some f' else s.flights[j]? := by
  by_cases same : j = i
  · rw [if_pos same,same,put,List.getElem?_set_self (List.getElem?_eq_some_iff.mp found).1]
  · rw [if_neg same,put,List.getElem?_set_ne (Ne.symm same)]

theorem race?_append (s : State) (c : Context) (m : Machine) :
    race? { s with machine := m,flights := s.flights ++ [⟨[c],none⟩] } = s.race? := by
  funext j
  simp only [race?,getElem?_concat]
  split
  · simp [*]
  · rfl

theorem race?_put (found : s.flights[i]? = some f) (f' : Flight) (m : Machine) :
    (s.put i f' m).race? = Function.update s.race? i f'.race := by
  funext j
  rw [race?,getElem?_put found]
  by_cases same : j = i
  · rw [if_pos same,same,Function.update_self]
    rfl
  · rw [if_neg same,Function.update_of_ne same,race?]

theorem race?_kept (found : s.flights[i]? = some f) (cs : List Context) (m : Machine) :
    (s.put i { f with contexts := cs } m).race? = s.race? := by
  have held : s.race? i = f.race := by simp [race?,found]
  rw [race?_put found,← held,Function.update_eq_self]

theorem owned_eq (found : s.flights[i]? = some f) : s.owned i = f.tokens := by
  rw [owned,found]
  rfl

theorem owned_put (found : s.flights[i]? = some f) (f' : Flight) (m : Machine) :
    (s.put i f' m).owned = Function.update s.owned i f'.tokens := by
  funext j
  rw [owned,getElem?_put found]
  by_cases same : j = i
  · rw [if_pos same,same,Function.update_self]
    rfl
  · rw [if_neg same,Function.update_of_ne same,owned]

theorem owned_kept (found : s.flights[i]? = some f) {f' : Flight} (same : f'.tokens = f.tokens) (m : Machine) :
    (s.put i f' m).owned = s.owned := by
  rw [owned_put found,same,← owned_eq found,Function.update_eq_self]

theorem owned_append (s : State) (c : Context) (m : Machine) :
    owned { s with machine := m,flights := s.flights ++ [⟨[c],none⟩] } =
      Function.update s.owned s.flights.length ⟨[c.token],none⟩ := by
  funext j
  rw [owned,getElem?_concat]
  by_cases same : j = s.flights.length
  · rw [if_pos same,same,Function.update_self]
    rfl
  · rw [if_neg same,Function.update_of_ne same,owned]

theorem owned_getElem? (s : State) (i n : Nat) : (s.owned i).outer[n]? = (s.context? i n).map (·.token) := by
  unfold owned context?
  cases s.flights[i]? <;> simp [Flight.tokens]

theorem owned_race (s : State) (i : Nat) :
    (s.owned i).race = (s.race? i).map fun k => (k.exchange.context.token,k.exchange.given.token) := by
  unfold owned race?
  cases s.flights[i]? <;> rfl

end State

variable {s t start : State} {a : Action} {actions : List Action} {i j n : Nat} {f : Flight} {c : Context} {k : Race}
  {u v : Token}

def StageCancels (s : State) (a : Action) (i : Nat) (u : Token) : Prop :=
  ∃ n c, a = .stage i n (.effect .cancel) ∧ s.context? i n = some c ∧ c.token = u

def TurnCancels (s : State) (a : Action) (i : Nat) : Prop :=
  a = .turn i .expires ∨ a = .turn i .works ∧ s.Cancels i

def Strikes (s : State) (a : Action) (u : Token) : Prop :=
  (u = s.app.root ∧ a = .cancelAll) ∨ (∃ i, StageCancels s a i u) ∨
    ∃ i c, (s.owned i).race = some (c,u) ∧ TurnCancels s a i

theorem Use.run_calm {u : Use} (other : u ≠ .effect .cancel) (c : Context) (m : Machine) :
    ((u.run c).run m).1.token = c.token ∧ Run.Calm m.world.tokens ((u.run c).run m).2.world.tokens := by
  cases u with
  | effect e => exact Run.perform_calm c (fun cancel => other (congrArg Use.effect cancel)) m
  | attach a => exact ⟨by cases a <;> rfl,.inl rfl⟩
  | deadline _ => exact ⟨rfl,.inl rfl⟩

theorem stage_inv {u : Use} (moved : s.stage i n u = some t) :
    ∃ f c, s.flights[i]? = some f ∧ f.contexts[n]? = some c ∧
      let (d,m) := (u.run c).run s.machine
      t = s.put i { f with contexts := f.contexts.set n d } m := by
  obtain ⟨f,found,moved⟩ := Option.bind_eq_some_iff.mp moved
  obtain ⟨c,held,moved⟩ := Option.bind_eq_some_iff.mp moved
  exact ⟨f,c,found,held,(Option.some.inj moved).symm⟩

theorem make_inv {x : Make} (moved : s.make i x = some t) : ∃ f g, s.flights[i]? = some f ∧
    x.run s.app f.contexts = some g ∧
    t = s.put i { f with contexts := f.contexts ++ [(g.run s.machine).1] } (g.run s.machine).2 := by
  obtain ⟨f,found,moved⟩ := Option.bind_eq_some_iff.mp moved
  obtain ⟨g,made,moved⟩ := Option.bind_eq_some_iff.mp moved
  exact ⟨f,g,found,made,(Option.some.inj moved).symm⟩

theorem reach_inv {r : Request} {handler : Request → Handler} (moved : s.reach i n r handler = some t) :
    ∃ f c, s.flights[i]? = some f ∧ f.race = none ∧ f.contexts[n]? = some c ∧
      let k := Race.opened s.app.pipeline handler c r s.machine
      t = s.put i ⟨f.contexts.set n k.exchange.context,some k⟩ k.machine := by
  obtain ⟨f,found,moved⟩ := Option.bind_eq_some_iff.mp moved
  obtain ⟨c,held,moved⟩ := Option.bind_eq_some_iff.mp moved
  dsimp only at moved
  split at moved
  · next waits => exact ⟨f,c,found,Option.isNone_iff_eq_none.mp waits.1,held,(Option.some.inj moved).symm⟩
  · cases moved

theorem turn_inv {u : Turn} (moved : s.turn i u = some t) :
    ∃ f k k', s.flights[i]? = some f ∧ f.race = some k ∧
      Race.Turned s.app.pipeline { k with machine := s.machine } u k' ∧
      t = s.put i { f with race := some k' } k'.machine := by
  obtain ⟨f,found,moved⟩ := Option.bind_eq_some_iff.mp moved
  obtain ⟨k,race,moved⟩ := Option.bind_eq_some_iff.mp moved
  obtain ⟨k',turned,moved⟩ := Option.bind_eq_some_iff.mp moved
  exact ⟨f,k,k',found,race,Race.turn_iff.mp turned,(Option.some.inj moved).symm⟩

theorem tokens_set {d : Context} (held : f.contexts[n]? = some c) (token : d.token = c.token) :
    (f.contexts.set n d).map (·.token) = f.contexts.map (·.token) := by
  have kept : (f.contexts.map (·.token)).set n d.token = f.contexts.map (·.token) := by
    refine List.ext_getElem? fun k => ?_
    rcases eq_or_ne n k with rfl | other
    · have bound : n < (f.contexts.map (·.token)).length := by
        simpa using (List.getElem?_eq_some_iff.mp held).1
      rw [List.getElem?_set_self bound]
      simp [held,token]
    · rw [List.getElem?_set_ne other]
  rwa [← List.map_set] at kept

def Make.parts : Make → Bool
  | .fresh | .detach _ => true
  | _ => false

-- The token of a context that is made: one of the tokens that the request has, a new one without a parent, or a child of one
-- of them or of the application's.
inductive Made (x : Make) (root : Token) (held : List Token) (f : TokenForest) (u : Token) : TokenForest → Prop where
  | copies (shared : u ∈ held) : Made x root held f u f
  | parts (parts : x.parts = true) (new : u = f.nodes.length) : Made x root held f u f.root.2
  | below {g : TokenForest} {p : Token} (before : Run.Calm f g) (parent : p = root ∨ p ∈ held)
      (new : u = g.nodes.length) : Made x root held f u (g.child p).2

namespace Made
variable {x : Make} {root : Token} {held : List Token} {g h : TokenForest} {owned : Nat → Tokens}

theorem grown (made : Made x root held g u h) : TokenForest.Grown g h := by
  cases made with
  | copies => exact .same
  | parts => exact .root .same
  | below before => exact before.grown.child _

theorem new (made : Made x root held g u h) : u ∈ held ∨ g.nodes.length ≤ u ∧ u < h.nodes.length := by
  cases made with
  | copies shared => exact .inl shared
  | parts _ new => exact .inr (by simp [new])
  | @below b p before _ new =>
    exact .inr (by simpa [new] using before.length_le)

-- Above a token that was made stand tokens of the request and of the application; one that does not part from them has the
-- application's above it if they have.
theorem line (apart : Apart g root owned) (made : Made x root (owned i).outer g u h) :
    (∀ v ∈ h.line u, v = u ∨ v = root ∨ v ∈ (owned i).outer) ∧
      (x.parts = false → (∀ v ∈ (owned i).outer, root ∈ g.line v) → root ∈ h.line u) := by
  cases made with
  | copies shared => exact ⟨fun v above => .inr (apart.outer i u shared v above),fun _ attached => attached u shared⟩
  | parts parts new =>
    subst new
    rw [TokenForest.line_root]
    refine ⟨fun v above => .inl (List.mem_singleton.mp above),?_⟩
    intro stays
    cases parts.symm.trans stays
  | @below b p before parent new =>
    subst new
    have known : p < g.nodes.length := apart.lt (parent.imp_right fun own => ⟨i,.inl own⟩)
    rw [TokenForest.line_child,TokenForest.line_extends before.grown.extends known]
    refine ⟨?_,?_⟩
    · intro v above
      rcases List.mem_cons.mp above with same | above
      · exact .inl same
      · rcases parent with rfl | own
        · rw [apart.top] at above
          exact .inr (.inl (List.mem_singleton.mp above))
        · exact .inr (apart.outer i p own v above)
    · intro _ attached
      refine List.mem_cons_of_mem _ ?_
      rcases parent with rfl | own
      · rw [apart.top]
        exact List.mem_singleton_self p
      · exact attached p own

theorem reports {struck : Token → Prop} (apart : Apart g root owned) (made : Made x root (owned i).outer g u h)
    (known : ∀ v, struck v → v < g.nodes.length) (top : g.Reports struck root)
    (outer : ∀ v ∈ (owned i).outer, g.Reports struck v) : h.Reports struck u := by
  have unstruck {n : Nat} (new : g.nodes.length ≤ n) : ¬ struck n := fun told => Nat.not_lt.mpr new (known n told)
  cases made with
  | copies shared => exact outer u shared
  | parts _ new =>
    subst new
    exact .root (unstruck (Nat.le_refl _))
  | @below b p before parent new =>
    subst new
    have above : g.Reports struck p := parent.elim (fun same => same ▸ top) (outer p)
    have placed : p < g.nodes.length := apart.lt (parent.imp_right fun own => ⟨i,.inl own⟩)
    exact (above.grown before.grown placed).child (unstruck before.length_le)

end Made

theorem make_made {x : Make} {a : App} {held : List Context} {g : Run Context} (made : x.run a held = some g)
    (m : Machine) :
    Made x a.root (held.map (·.token)) m.world.tokens (g.run m).1.token (g.run m).2.world.tokens := by
  cases x with
  | copy n =>
    obtain ⟨c,found,rfl⟩ := Option.map_eq_some_iff.mp made
    exact .copies (List.mem_map_of_mem (List.mem_of_getElem? found))
  | fresh =>
    cases made
    exact .parts rfl rfl
  | rooted =>
    cases made
    exact .below (.inr rfl) (.inl rfl) rfl
  | detach n =>
    obtain ⟨c,found,rfl⟩ := Option.map_eq_some_iff.mp made
    exact .parts rfl rfl
  | link n k =>
    obtain ⟨c,_,made⟩ := Option.bind_eq_some_iff.mp made
    obtain ⟨p,found,rfl⟩ := Option.map_eq_some_iff.mp made
    exact .below (.inl rfl) (.inr (List.mem_map_of_mem (List.mem_of_getElem? found))) rfl

-- What an action does to the tokens: it leaves those of the requests alone, cancels the one that it strikes, or gives a
-- request one more, for its stages or for its handler.
inductive Moved (s : State) (a : Action) (t : State) : Prop where
  | rests (calm : ∀ u, ¬ Strikes s a u) (forest : Run.Calm s.tokens t.tokens) (owned : t.owned = s.owned)
  | strikes {u : Token} (known : u = s.app.root ∨ ∃ i, (s.owned i).Has u) (only : ∀ v, Strikes s a v ↔ v = u)
      (forest : t.tokens = s.tokens.cancel u) (owned : t.owned = s.owned)
  | makes {i : Nat} {x : Make} {u : Token} (calm : ∀ u, ¬ Strikes s a u) (asked : x.parts = true → a = .make i x)
      (made : Made x s.app.root (s.owned i).outer s.tokens u t.tokens)
      (owned : t.owned = Function.update s.owned i ⟨(s.owned i).outer ++ [u],(s.owned i).race⟩)
  | races {i : Nat} {c : Token} (calm : ∀ u, ¬ Strikes s a u) (held : c ∈ (s.owned i).outer)
      (waiting : (s.owned i).race = none) (forest : t.tokens = (s.tokens.child c).2)
      (owned : t.owned = Function.update s.owned i ⟨(s.owned i).outer,some (c,s.tokens.nodes.length)⟩)

theorem strikes_calm (stage : ∀ i n, a ≠ .stage i n (.effect .cancel)) (turn : ∀ i x, a ≠ .turn i x)
    (all : a ≠ .cancelAll) (u : Token) : ¬ Strikes s a u := by
  rintro (⟨_,same⟩ | ⟨i,n,_,same,_⟩ | ⟨i,_,_,same | ⟨same,_⟩⟩)
  · exact all same
  · exact stage i n same
  · exact turn i _ same
  · exact turn i _ same

theorem arrive_moved (s : State) (r : Request) : Moved s (.arrive r) (s.arrive r) := by
  have absent : s.owned s.flights.length = ⟨[],none⟩ := by simp [State.owned]
  have made := @make_made .rooted s.app [] _ rfl s.machine
  refine .makes (i := s.flights.length) (x := .rooted) (strikes_calm nofun nofun nofun) nofun (by rw [absent]; exact made) ?_
  rw [absent]
  exact State.owned_append s _ _

theorem stage_moved {u : Use} (moved : s.act (.stage i n u) = some t) : Moved s (.stage i n u) t := by
  obtain ⟨f,c,found,held,rfl⟩ := stage_inv moved
  have owned {d : Context} (token : d.token = c.token) (m : Machine) :
      (s.put i { f with contexts := f.contexts.set n d } m).owned = s.owned :=
    State.owned_kept found (by simp [Flight.tokens,tokens_set held token]) m
  by_cases cancel : u = .effect .cancel
  · subst cancel
    have here : s.context? i n = some c := by simp [State.context?,found,held]
    have own : c.token ∈ (s.owned i).outer := by
      rw [State.owned_eq found]
      exact List.mem_map_of_mem (List.mem_of_getElem? held)
    refine .strikes (u := c.token) (.inr ⟨i,.inl own⟩) ?_ rfl (owned rfl _)
    intro v
    constructor
    · rintro (⟨_,⟨⟩⟩ | ⟨_,_,d,⟨⟩,there,rfl⟩ | ⟨_,_,_,asked⟩)
      · rw [Option.some.inj (here.symm.trans there)]
      · rcases asked with same | ⟨same,_⟩ <;> cases same
    · rintro rfl
      exact .inr (.inl ⟨i,n,c,rfl,here,rfl⟩)
  · obtain ⟨token,calm⟩ := Use.run_calm cancel c s.machine
    refine .rests (strikes_calm ?_ nofun nofun) calm (owned token _)
    rintro _ _ ⟨⟩
    exact cancel rfl

theorem make_moved {x : Make} (moved : s.act (.make i x) = some t) : Moved s (.make i x) t := by
  obtain ⟨f,g,found,made,rfl⟩ := make_inv moved
  refine .makes (i := i) (x := x) (u := (g.run s.machine).1.token) (strikes_calm nofun nofun nofun) (fun _ => rfl) ?_ ?_
  · rw [State.owned_eq found]
    exact make_made made s.machine
  · rw [State.owned_put found,State.owned_eq found]
    simp [Flight.tokens]

theorem reach_moved {r : Request} {handler : Request → Handler} (moved : s.act (.reach i n r handler) = some t) :
    Moved s (.reach i n r handler) t := by
  obtain ⟨f,c,found,waiting,held,rfl⟩ := reach_inv moved
  obtain ⟨forest,given,context⟩ := Race.opened_tokens s.app.pipeline handler c r s.machine
  have own : c.token ∈ (s.owned i).outer := by
    rw [State.owned_eq found]
    exact List.mem_map_of_mem (List.mem_of_getElem? held)
  refine .races (strikes_calm nofun nofun nofun) own ?_ forest ?_
  · rw [State.owned_eq found,Flight.tokens,waiting]
    rfl
  · rw [State.owned_put found,State.owned_eq found]
    simp [Flight.tokens,tokens_set held context,context,given,State.tokens]

theorem turn_moved {x : Turn} (stands : ∀ k, s.race? i = some k → k.Stands) (moved : s.act (.turn i x) = some t) :
    Moved s (.turn i x) t := by
  obtain ⟨f,k,k',found,race,turned,rfl⟩ := turn_inv moved
  have held : s.race? i = some k := by simp [State.race?,found,race]
  have stands := (stands k held).elsewhere s.machine
  have cancels : s.Cancels i ↔ Race.Cancels { k with machine := s.machine } := by simp [State.Cancels,held,Race.Cancels]
  obtain ⟨_,given,context⟩ := turned.stands stands
  have owned : (s.put i { f with race := some k' } k'.machine).owned = s.owned :=
    State.owned_kept found (by simp [Flight.tokens,race,given,context]) k'.machine
  have own : (s.owned i).race = some (k.exchange.context.token,k.exchange.given.token) := by
    rw [State.owned_race,held]
    rfl
  -- The turn strikes the token of the handler or none.
  have strikes (v : Token) : Strikes s (.turn i x) v ↔
      v = k.exchange.given.token ∧ (x = .expires ∨ x = .works ∧ s.Cancels i) := by
    constructor
    · rintro (⟨_,⟨⟩⟩ | ⟨_,_,_,⟨⟩,_⟩ | ⟨j,c,there,late | ⟨works,asked⟩⟩)
      · cases late
        cases own.symm.trans there
        exact ⟨rfl,.inl rfl⟩
      · cases works
        cases own.symm.trans there
        exact ⟨rfl,.inr ⟨rfl,asked⟩⟩
    · rintro ⟨rfl,rfl | ⟨rfl,asked⟩⟩
      · exact .inr (.inr ⟨i,_,own,.inl rfl⟩)
      · exact .inr (.inr ⟨i,_,own,.inr ⟨rfl,asked⟩⟩)
  rcases turned.tokens stands with ⟨struck,forest⟩ | ⟨calm,forest⟩
  · rw [← cancels] at struck
    exact .strikes (.inr ⟨i,.inr ⟨_,own⟩⟩) (fun v => (strikes v).trans (and_iff_left struck)) forest owned
  · rw [← cancels] at calm
    exact .rests (fun v => mt (strikes v).mp fun struck => calm struck.2) forest owned

theorem act_moved (stands : ∀ i k, s.race? i = some k → k.Stands) (moved : s.act a = some t) : Moved s a t := by
  cases a with
  | arrive r =>
    cases moved
    exact arrive_moved s r
  | stage i n u => exact stage_moved moved
  | make i x => exact make_moved moved
  | reach i n r handler => exact reach_moved moved
  | turn i x => exact turn_moved (stands i) moved
  | cancelAll =>
    cases moved
    refine .strikes (u := s.app.root) (.inl rfl) ?_ rfl rfl
    intro v
    constructor
    · rintro (⟨rfl,_⟩ | ⟨_,_,_,⟨⟩,_⟩ | ⟨_,_,_,asked⟩)
      · rfl
      · rcases asked with same | ⟨same,_⟩ <;> cases same
    · rintro rfl
      exact .inl ⟨rfl,rfl⟩
  | elapse ms =>
    cases moved
    exact .rests (strikes_calm nofun nofun nofun) (.inl rfl) rfl

theorem act_app (moved : s.act a = some t) : t.app = s.app := by
  cases a with
  | arrive _ | cancelAll | elapse _ =>
    cases moved
    rfl
  | stage _ _ _ =>
    obtain ⟨_,_,_,_,rfl⟩ := stage_inv moved
    rfl
  | make _ _ =>
    obtain ⟨_,_,_,_,rfl⟩ := make_inv moved
    rfl
  | reach _ _ _ _ =>
    obtain ⟨_,_,_,_,_,rfl⟩ := reach_inv moved
    rfl
  | turn _ _ =>
    obtain ⟨_,_,_,_,_,_,rfl⟩ := turn_inv moved
    rfl

theorem act_flights (moved : s.act a = some t) (found : s.flights[j]? = some f) (apart : a.request? ≠ some j) :
    t.flights[j]? = some f := by
  have put {i : Nat} (other : some i ≠ some j) (f' : Flight) (m : Machine) : (s.put i f' m).flights[j]? = some f := by
    have other : i ≠ j := fun same => other (congrArg some same)
    rw [State.put,List.getElem?_set_ne other,found]
  cases a with
  | arrive r =>
    cases moved
    exact (List.getElem?_append_left (List.getElem?_eq_some_iff.mp found).1).trans found
  | stage i _ _ =>
    obtain ⟨_,_,_,_,rfl⟩ := stage_inv moved
    exact put apart _ _
  | make i _ =>
    obtain ⟨_,_,_,_,rfl⟩ := make_inv moved
    exact put apart _ _
  | reach i _ _ _ =>
    obtain ⟨_,_,_,_,_,rfl⟩ := reach_inv moved
    exact put apart _ _
  | turn i _ =>
    obtain ⟨_,_,_,_,_,_,rfl⟩ := turn_inv moved
    exact put apart _ _
  | cancelAll | elapse _ =>
    cases moved
    exact found

theorem Moved.keeps (moved : Moved s a t) (i : Nat) :
    (∀ u ∈ (s.owned i).outer, u ∈ (t.owned i).outer) ∧ ∀ x, (s.owned i).race = some x → (t.owned i).race = some x := by
  cases moved with
  | rests _ _ owned | strikes _ _ _ owned => exact ⟨fun u => by rw [owned]; exact id,fun x => by rw [owned]; exact id⟩
  | @makes j x u _ _ _ owned =>
    rw [owned]
    by_cases same : i = j
    · subst same
      rw [Function.update_self]
      exact ⟨fun v => List.mem_append_left _,fun x => id⟩
    · rw [Function.update_of_ne same]
      exact ⟨fun v => id,fun x => id⟩
  | @races j c _ _ waiting _ owned =>
    rw [owned]
    by_cases same : i = j
    · subst same
      rw [Function.update_self]
      refine ⟨fun v => id,fun x race => ?_⟩
      cases waiting.symm.trans race
    · rw [Function.update_of_ne same]
      exact ⟨fun v => id,fun x => id⟩

theorem Moved.extends_ (moved : Moved s a t) : s.tokens.Extends t.tokens := by
  cases moved with
  | rests _ forest _ => exact forest.grown.extends
  | strikes _ _ forest _ =>
    rw [forest]
    exact TokenForest.extends_cancel _ _
  | makes _ _ made _ => exact made.grown.extends
  | races _ _ _ forest _ =>
    rw [forest]
    exact TokenForest.extends_append _ _

theorem Moved.apart (moved : Moved s a t) (apart : Apart s.tokens s.app.root s.owned) :
    Apart t.tokens s.app.root t.owned := by
  have grows := moved.extends_
  cases moved with
  | rests _ _ owned | strikes _ _ _ owned =>
    rw [owned]
    exact apart.grow grows
  | makes _ _ made owned =>
    rw [owned]
    exact apart.addOuter grows made.new (made.line apart).1
  | races _ held _ forest owned =>
    rw [owned,forest]
    exact apart.addRace held

-- What is reported of the tokens that a state has, if what was struck by then is what was reported of.
theorem Moved.reports (moved : Moved s a t) (apart : Apart s.tokens s.app.root s.owned) {struck struck' : Token → Prop}
    (more : ∀ u, struck' u ↔ struck u ∨ Strikes s a u) (known : ∀ u, struck u → u < s.tokens.nodes.length)
    (old : ∀ u, u = s.app.root ∨ (∃ i, (s.owned i).Has u) → s.tokens.Reports struck u) :
    ∀ u, u = s.app.root ∨ (∃ i, (t.owned i).Has u) → t.tokens.Reports struck' u := by
  have same (calm : ∀ u, ¬ Strikes s a u) : struck' = struck :=
    funext fun u => propext ((more u).trans (or_iff_left (calm u)))
  cases moved with
  | rests calm forest owned =>
    rw [same calm,owned]
    exact fun u has => (old u has).grown forest.grown (apart.lt has)
  | @strikes w has only forest owned =>
    have added : struck' = fun u => struck u ∨ u = w :=
      funext fun u => propext ((more u).trans (or_congr_right (only u)))
    rw [added,owned,forest]
    exact fun u has => (old u has).cancel (apart.lt has) w
  | @makes i x w calm _ made owned =>
    rw [same calm,owned]
    have new : t.tokens.Reports struck w :=
      made.reports apart known (old _ (.inl rfl)) fun v own => old v (.inr ⟨i,.inl own⟩)
    exact reports_update (fun u has => (old u has).grown made.grown (apart.lt has)) new fun _ => has_outer
  | @races i c calm held waiting forest owned =>
    rw [same calm,owned,forest]
    have new : (s.tokens.child c).2.Reports struck s.tokens.nodes.length :=
      (old c (.inr ⟨i,.inl held⟩)).child fun told => Nat.lt_irrefl _ (known _ told)
    exact reports_update (fun u has => (old u has).grown (.child .same c) (apart.lt has)) new fun _ => has_race

inductive Raced (s : State) (a : Action) (t : State) (i : Nat) : Prop where
  | rests (still : ∀ u, a ≠ .turn i u) (same : t.race? i = s.race? i)
  | opens (r : Request) (handler : Request → Handler) (c : Context) (still : ∀ u, a ≠ .turn i u)
      (waiting : s.race? i = none) (opened : t.race? i = some (.opened s.app.pipeline handler c r s.machine))
  | turns {u : Turn} {k k' : Race} (turn : a = .turn i u) (found : s.race? i = some k)
      (turned : Race.Turned s.app.pipeline { k with machine := s.machine } u k') (after : t.race? i = some k')

theorem act_raced (moved : s.act a = some t) (i : Nat) : Raced s a t i := by
  cases a with
  | arrive r =>
    cases moved
    exact .rests nofun (congrFun (State.race?_append s _ _) i)
  | stage j n u =>
    obtain ⟨f,c,found,_,rfl⟩ := stage_inv moved
    exact .rests nofun (congrFun (State.race?_kept found _ _) i)
  | make j x =>
    obtain ⟨f,g,found,_,rfl⟩ := make_inv moved
    exact .rests nofun (congrFun (State.race?_kept found _ _) i)
  | reach j n r handler =>
    obtain ⟨f,c,found,waiting,_,rfl⟩ := reach_inv moved
    by_cases same : i = j
    · subst same
      refine .opens r handler c nofun ?_ ?_
      · simp [State.race?,found,waiting]
      · rw [State.race?_put found,Function.update_self]
    · exact .rests nofun (by rw [State.race?_put found,Function.update_of_ne same])
  | turn j u =>
    obtain ⟨f,k,k',found,race,turned,rfl⟩ := turn_inv moved
    by_cases same : i = j
    · subst same
      refine .turns rfl ?_ turned ?_
      · simp [State.race?,found,race]
      · rw [State.race?_put found,Function.update_self]
    · refine .rests ?_ (by rw [State.race?_put found,Function.update_of_ne same])
      rintro u ⟨⟩
      exact same rfl
  | cancelAll | elapse ms =>
    cases moved
    exact .rests nofun rfl

-- What the actions of a run have cancelled: a stage a context of its request, and a handler its own.
def StageCancelled (start : State) (actions : List Action) (i : Nat) (u : Token) : Prop :=
  Happened State.act start (fun s a => StageCancels s a i u) actions

def HandlerCancelled (start : State) (actions : List Action) (i : Nat) : Prop :=
  Happened State.act start (fun s a => a = .turn i .works ∧ s.Cancels i) actions

def Struck (start : State) (actions : List Action) (s : State) (u : Token) : Prop :=
  (u = s.app.root ∧ .cancelAll ∈ actions) ∨ (∃ i, StageCancelled start actions i u) ∨
    ∃ i c, (s.owned i).race = some (c,u) ∧ (.turn i .expires ∈ actions ∨ HandlerCancelled start actions i)

structure Sound (start : State) (actions : List Action) (s : State) : Prop where
  apart : Apart s.tokens s.app.root s.owned
  told : ∀ u, u = s.app.root ∨ (∃ i, (s.owned i).Has u) → s.tokens.Reports (Struck start actions s) u
  staged : ∀ i u, StageCancelled start actions i u → u ∈ (s.owned i).outer
  raced : ∀ i, HandlerCancelled start actions i → ∃ x, (s.owned i).race = some x
  stands : ∀ i k, s.race? i = some k → k.Stands
  late : ∀ i, .turn i .expires ∈ actions ↔ ∃ k, s.race? i = some k ∧ k.exchange.completion = some .timedOut
  attached : ∀ i, (∀ x, .make i x ∈ actions → x.parts = false) → ∀ u ∈ (s.owned i).outer, s.app.root ∈ s.tokens.line u

theorem start_sound (settings : AppSettings) (m : Machine) : Sound (.start settings m) [] (.start settings m) := by
  have none_ {u : Token} : ¬ Struck (.start settings m) [] (.start settings m) u := by
    rintro (⟨_,⟨⟩⟩ | ⟨_,staged⟩ | ⟨_,_,⟨⟩,_⟩)
    exact happened_nil staged
  have line := TokenForest.line_root m.world.tokens
  have known : m.world.tokens.nodes.length < m.world.tokens.root.2.nodes.length := by simp
  refine ⟨⟨known,?_,?_,?_,line,?_,?_⟩,?_,?_,?_,?_,?_,?_⟩
  · rintro i u (⟨⟨⟩⟩ | ⟨_,⟨⟩⟩)
  · rintro i (⟨⟨⟩⟩ | ⟨_,⟨⟩⟩)
  · rintro i j u (⟨⟨⟩⟩ | ⟨_,⟨⟩⟩)
  · rintro i u ⟨⟩
  · rintro i c u ⟨⟩
  · rintro u (rfl | ⟨_,⟨⟨⟩⟩ | ⟨_,⟨⟩⟩⟩)
    exact .root none_
  · exact fun i u staged => absurd staged happened_nil
  · exact fun i own => absurd own happened_nil
  · rintro i k ⟨⟩
  · exact fun i => iff_of_false List.not_mem_nil (by rintro ⟨_,⟨⟩,_⟩)
  · rintro i _ u ⟨⟩

theorem raced_stands (stands : ∀ i k, s.race? i = some k → k.Stands) (raced : Raced s a t i)
    (found : t.race? i = some k) : k.Stands := by
  cases raced with
  | rests _ same => exact stands i k (same ▸ found)
  | opens r handler c _ _ opened =>
    cases opened.symm.trans found
    exact Race.opened_stands _ _ _ _ _
  | @turns u k₀ k' turn before turned after =>
    cases after.symm.trans found
    exact (turned.stands ((stands i k₀ before).elsewhere s.machine)).1

theorem raced_late (stands : ∀ i k, s.race? i = some k → k.Stands)
    (late : .turn i .expires ∈ actions ↔ ∃ k, s.race? i = some k ∧ k.exchange.completion = some .timedOut)
    (raced : Raced s a t i) :
    .turn i .expires ∈ actions ++ [a] ↔ ∃ k, t.race? i = some k ∧ k.exchange.completion = some .timedOut := by
  rw [List.mem_append,List.mem_singleton,late]
  cases raced with
  | rests still same => rw [same,or_iff_left fun expires => still _ expires.symm]
  | opens r handler c still waiting opened =>
    have unanswered := (Race.opened_fresh s.app.pipeline handler c r s.machine).completion
    rw [waiting,opened,or_iff_left fun expires => still _ expires.symm]
    simp [unanswered]
  | @turns u k k' turn found turned after =>
    have timedOut := turned.timedOut_iff ((stands i k found).elsewhere s.machine)
    subst turn
    simp [found,after,timedOut,eq_comm]

theorem turn_races {x : Turn} (moved : s.act (.turn i x) = some t) : ∃ y, (s.owned i).race = some y := by
  obtain ⟨f,k,_,found,race,_,_⟩ := turn_inv moved
  exact ⟨_,by rw [State.owned_eq found,Flight.tokens,race]; rfl⟩

theorem TurnCancels.races (cancels : TurnCancels s a i) (moved : s.act a = some t) :
    ∃ y, (s.owned i).race = some y := by
  rcases cancels with rfl | ⟨rfl,_⟩
  · exact turn_races moved
  · exact turn_races moved

theorem Sound.races (sound : Sound start actions s) (asked : .turn i .expires ∈ actions ∨ HandlerCancelled start actions i) :
    ∃ y, (s.owned i).race = some y := by
  rcases asked with late | own
  · obtain ⟨k,race,_⟩ := (sound.late i).mp late
    exact ⟨_,by rw [State.owned_race,race]; rfl⟩
  · exact sound.raced i own

theorem stageCancelled_concat (ran : run start actions = some s) :
    StageCancelled start (actions ++ [a]) i u ↔ StageCancelled start actions i u ∨ StageCancels s a i u :=
  happened_concat ran

theorem turned_concat (ran : run start actions = some s) :
    (.turn i .expires ∈ actions ++ [a] ∨ HandlerCancelled start (actions ++ [a]) i) ↔
      (.turn i .expires ∈ actions ∨ HandlerCancelled start actions i) ∨ TurnCancels s a i := by
  have own : HandlerCancelled start (actions ++ [a]) i ↔
      HandlerCancelled start actions i ∨ a = .turn i .works ∧ s.Cancels i := happened_concat ran
  rw [own,List.mem_append,List.mem_singleton,TurnCancels,eq_comm (a := a) (b := .turn i .expires)]
  exact or_or_or_comm ..

theorem struck_concat (ran : run start actions = some s) (sound : Sound start actions s) (moved : s.act a = some t) :
    Struck start (actions ++ [a]) t u ↔ Struck start actions s u ∨ Strikes s a u := by
  have kept := fun i => ((act_moved sound.stands moved).keeps i).2
  have races {i : Nat} (asked : (.turn i .expires ∈ actions ∨ HandlerCancelled start actions i) ∨ TurnCancels s a i) :
      (t.owned i).race = (s.owned i).race := by
    obtain ⟨y,race⟩ := asked.elim sound.races fun now => now.races moved
    rw [kept i y race,race]
  unfold Struck Strikes
  simp only [act_app moved,stageCancelled_concat ran,turned_concat ran]
  rw [List.mem_append,List.mem_singleton]
  constructor
  · rintro (⟨top,all | all⟩ | ⟨i,staged | staged⟩ | ⟨i,c,race,asked⟩)
    · exact .inl (.inl ⟨top,all⟩)
    · exact .inr (.inl ⟨top,all.symm⟩)
    · exact .inl (.inr (.inl ⟨i,staged⟩))
    · exact .inr (.inr (.inl ⟨i,staged⟩))
    · rw [races asked] at race
      exact asked.elim (fun old => .inl (.inr (.inr ⟨i,c,race,old⟩))) fun now => .inr (.inr (.inr ⟨i,c,race,now⟩))
  · rintro ((⟨top,all⟩ | ⟨i,staged⟩ | ⟨i,c,race,old⟩) | ⟨top,all⟩ | ⟨i,staged⟩ | ⟨i,c,race,now⟩)
    · exact .inl ⟨top,.inl all⟩
    · exact .inr (.inl ⟨i,.inl staged⟩)
    · exact .inr (.inr ⟨i,c,kept i _ race,.inl old⟩)
    · exact .inl ⟨top,.inr all.symm⟩
    · exact .inr (.inl ⟨i,.inr staged⟩)
    · exact .inr (.inr ⟨i,c,kept i _ race,.inr now⟩)

theorem Sound.struck_lt (sound : Sound start actions s) (struck : Struck start actions s u) : u < s.tokens.nodes.length := by
  rcases struck with ⟨rfl,_⟩ | ⟨i,staged⟩ | ⟨i,c,race,_⟩
  · exact sound.apart.known
  · exact sound.apart.bound i u (.inl (sound.staged i u staged))
  · exact sound.apart.bound i u (.inr ⟨c,race⟩)

-- The contexts of a request stand under the application until one is made that does not.
theorem attached_step (sound : Sound start actions s) (moves : Moved s a t) (i : Nat)
    (asked : ∀ x, .make i x ∈ actions ++ [a] → x.parts = false) : ∀ u ∈ (t.owned i).outer, s.app.root ∈ t.tokens.line u := by
  have before := sound.attached i fun x inside => asked x (List.mem_append_left _ inside)
  have grows := moves.extends_
  have kept {u : Token} (own : u ∈ (s.owned i).outer) : s.app.root ∈ t.tokens.line u := by
    rw [TokenForest.line_extends grows (sound.apart.bound i u (.inl own))]
    exact before u own
  cases moves with
  | rests _ _ owned | strikes _ _ _ owned =>
    rw [owned]
    exact fun u => kept
  | @makes j x w _ same made owned =>
    rw [owned]
    by_cases here : i = j
    · subst here
      rw [Function.update_self]
      intro u own
      rcases List.mem_append.mp own with old | last
      · exact kept old
      · obtain rfl := List.mem_singleton.mp last
        refine (made.line sound.apart).2 ?_ before
        cases parts : x.parts with
        | false => rfl
        | true => exact parts ▸ asked x (List.mem_append_right _ (List.mem_singleton.mpr (same parts).symm))
    · rw [Function.update_of_ne here]
      exact fun u => kept
  | @races j c _ held waiting forest owned =>
    rw [owned]
    by_cases here : i = j
    · subst here
      rw [Function.update_self]
      exact fun u => kept
    · rw [Function.update_of_ne here]
      exact fun u => kept

theorem step_sound (ran : run start actions = some s) (sound : Sound start actions s) (moved : s.act a = some t) :
    Sound start (actions ++ [a]) t := by
  have moves := act_moved sound.stands moved
  refine ⟨?_,?_,?_,?_,?_,?_,?_⟩
  · rw [act_app moved]
    exact moves.apart sound.apart
  · rw [act_app moved]
    exact moves.reports sound.apart (fun u => struck_concat ran sound moved) (fun u => sound.struck_lt) sound.told
  · intro i u struck
    rcases (stageCancelled_concat ran).mp struck with old | ⟨n,c,_,held,rfl⟩
    · exact (moves.keeps i).1 u (sound.staged i u old)
    · refine (moves.keeps i).1 _ (List.mem_of_getElem? (i := n) ?_)
      rw [State.owned_getElem?,held]
      rfl
  · intro i own
    have cancelled : HandlerCancelled start actions i ∨ a = .turn i .works ∧ s.Cancels i := (happened_concat ran).mp own
    obtain ⟨x,race⟩ : ∃ x, (s.owned i).race = some x :=
      cancelled.elim (sound.raced i) fun now => TurnCancels.races (.inr now) moved
    exact ⟨x,(moves.keeps i).2 x race⟩
  · intro i k found
    exact raced_stands sound.stands (act_raced moved i) found
  · intro i
    exact raced_late sound.stands (sound.late i) (act_raced moved i)
  · intro i asked
    rw [act_app moved]
    exact attached_step sound moves i asked

theorem run_sound {settings : AppSettings} {m : Machine} (ran : run (.start settings m) actions = some s) :
    Sound (.start settings m) actions s :=
  run_induction (start_sound settings m) (fun _ _ _ _ before sound moved => step_sound before sound moved) ran

theorem turn_flight {u : Turn} (moved : s.act (.turn i u) = some t) (found : s.flights[i]? = some f) :
    ∃ k, t.flights[i]? = some { f with race := some k } := by
  obtain ⟨f',_,k',found',_,_,rfl⟩ := turn_inv moved
  cases found.symm.trans found'
  exact ⟨k',List.getElem?_set_self (List.getElem?_eq_some_iff.mp found).1⟩

theorem Apart.line_own {g : TokenForest} {root : Token} {owned : Nat → Tokens} (apart : Apart g root owned)
    (has : (owned i).Has u) (above : v ∈ g.line u) : v = root ∨ (owned i).Has v := by
  rcases has with own | ⟨c,race⟩
  · exact (apart.outer i u own v above).imp_right .inl
  · obtain ⟨own,_,line⟩ := apart.given i c u race
    rw [line] at above
    rcases List.mem_cons.mp above with rfl | above
    · exact .inr (.inr ⟨c,race⟩)
    · exact (apart.outer i c own v above).imp_right .inl

theorem strikes_own (strikes : Strikes s a u) (notAll : a ≠ .cancelAll) :
    ∃ i, a.request? = some i ∧ (s.owned i).Has u := by
  rcases strikes with ⟨_,all⟩ | ⟨i,n,c,rfl,held,rfl⟩ | ⟨i,c,race,rfl | ⟨rfl,_⟩⟩
  · exact absurd all notAll
  · have own : (s.owned i).outer[n]? = some c.token := by rw [State.owned_getElem?,held]; rfl
    exact ⟨i,rfl,.inl (List.mem_of_getElem? own)⟩
  · exact ⟨i,rfl,.inr ⟨c,race⟩⟩
  · exact ⟨i,rfl,.inr ⟨c,race⟩⟩

theorem cancelled_kept (ran : run start actions = some s) (sound : Sound start actions s) (moved : s.act a = some t)
    (has : (s.owned i).Has u) (calm : ∀ v ∈ s.tokens.line u, ¬ Strikes s a v) :
    t.tokens.isCancelled u = s.tokens.isCancelled u := by
  have moves := act_moved sound.stands moved
  obtain ⟨outer,race⟩ := moves.keeps i
  have kept : (t.owned i).Has u := has.imp (outer u) fun ⟨c,given⟩ => ⟨c,race _ given⟩
  have before := sound.told u (.inr ⟨i,has⟩)
  have after := (step_sound ran sound moved).told u (.inr ⟨i,kept⟩)
  unfold TokenForest.Reports at before after
  rw [Bool.eq_iff_iff,before,after,TokenForest.line_extends moves.extends_ (sound.apart.bound i u has)]
  refine exists_congr fun v => and_congr_right fun above => ?_
  exact (struck_concat ran sound moved).trans (or_iff_left (calm v above))

theorem Sound.apart_kept (sound : Sound start actions s) (ran : run start actions = some s) (moved : s.act a = some t)
    (notAll : a ≠ .cancelAll) (apart : a.request? ≠ some j) (has : (s.owned j).Has u) :
    t.tokens.isCancelled u = s.tokens.isCancelled u := by
  refine cancelled_kept ran sound moved has fun v above strikes => ?_
  obtain ⟨i,step,own⟩ := strikes_own strikes notAll
  rcases sound.apart.line_own has above with rfl | other
  · exact sound.apart.alone i own
  · exact apart (sound.apart.apart i j v own other ▸ step)

theorem Sound.outer_iff (sound : Sound start actions s) (own : u ∈ (s.owned i).outer) :
    s.tokens.isCancelled u = true ↔ (∃ v ∈ s.tokens.line u, StageCancelled start actions i v) ∨
      (.cancelAll ∈ actions ∧ s.app.root ∈ s.tokens.line u) := by
  refine (sound.told u (.inr ⟨i,.inl own⟩)).trans ⟨?_,?_⟩
  · rintro ⟨v,above,struck⟩
    have place := sound.apart.outer i u own v above
    rcases struck with ⟨rfl,all⟩ | ⟨j,staged⟩ | ⟨j,c,race,_⟩
    · exact .inr ⟨all,above⟩
    · have theirs := sound.staged j v staged
      rcases place with rfl | ours
      · exact absurd (.inl theirs) (sound.apart.alone j)
      · obtain rfl := sound.apart.apart i j v (.inl ours) (.inl theirs)
        exact .inl ⟨v,above,staged⟩
    · rcases place with rfl | ours
      · exact absurd (.inr ⟨c,race⟩) (sound.apart.alone j)
      · obtain rfl := sound.apart.apart i j v (.inl ours) (.inr ⟨c,race⟩)
        exact absurd ours (sound.apart.given i c v race).2.1
  · rintro (⟨v,above,staged⟩ | ⟨all,above⟩)
    · exact ⟨v,above,.inr (.inl ⟨i,staged⟩)⟩
    · exact ⟨s.app.root,above,.inl ⟨rfl,all⟩⟩

theorem Sound.given_iff (sound : Sound start actions s) {c : Token} (race : (s.owned i).race = some (c,u)) :
    s.tokens.isCancelled u = true ↔ (.turn i .expires ∈ actions ∨ HandlerCancelled start actions i) ∨
      (∃ v ∈ s.tokens.line c, StageCancelled start actions i v) ∨
      (.cancelAll ∈ actions ∧ s.app.root ∈ s.tokens.line c) := by
  obtain ⟨own,_,line⟩ := sound.apart.given i c u race
  have struck : Struck start actions s u ↔ .turn i .expires ∈ actions ∨ HandlerCancelled start actions i := by
    constructor
    · rintro (⟨rfl,_⟩ | ⟨j,staged⟩ | ⟨j,c',race',asked⟩)
      · exact absurd (.inr ⟨c,race⟩) (sound.apart.alone i)
      · have theirs := sound.staged j u staged
        obtain rfl := sound.apart.apart i j u (.inr ⟨c,race⟩) (.inl theirs)
        exact absurd theirs (sound.apart.given i c u race).2.1
      · obtain rfl := sound.apart.apart i j u (.inr ⟨c,race⟩) (.inr ⟨c',race'⟩)
        exact asked
    · exact fun asked => .inr (.inr ⟨i,c,race,asked⟩)
  have told := sound.told u (.inr ⟨i,.inr ⟨c,race⟩⟩)
  have passed := sound.told c (.inr ⟨i,.inl own⟩)
  unfold TokenForest.Reports at told passed
  rw [told,line,← sound.outer_iff own,passed]
  simp [struck]

-- Requests are isolated at the end of a run: what has cancelled the contexts that there are, and what an action that comes
-- next leaves as it is. Above a context of a request stand contexts of the same request, and the application unless a stage
-- has put a detached or a new one in its place.
structure Isolated (start : State) (actions : List Action) (s : State) : Prop where
  given : ∀ i f k, s.flights[i]? = some f → f.race = some k →
    (k.exchange.given.isCancelled s.machine.world = true ↔
      k.exchange.completion = some .timedOut ∨ HandlerCancelled start actions i ∨
        (∃ u ∈ s.tokens.line k.exchange.context.token, StageCancelled start actions i u) ∨
        (.cancelAll ∈ actions ∧ s.app.root ∈ s.tokens.line k.exchange.context.token)) ∧
    (∃ c ∈ f.contexts, c.token = k.exchange.context.token) ∧
    ∀ rest own, k.task = .running rest own → own.token = k.exchange.given.token
  outer : ∀ i f c, s.flights[i]? = some f → c ∈ f.contexts →
    (c.isCancelled s.machine.world = true ↔
      (∃ u ∈ s.tokens.line c.token, StageCancelled start actions i u) ∨
        (.cancelAll ∈ actions ∧ s.app.root ∈ s.tokens.line c.token)) ∧
    (∀ u ∈ s.tokens.line c.token, u = s.app.root ∨ ∃ d ∈ f.contexts, d.token = u) ∧
    ((∀ x, .make i x ∈ actions → x.parts = false) → s.app.root ∈ s.tokens.line c.token)
  others : ∀ a t, s.act a = some t → a ≠ .cancelAll → ∀ j f, s.flights[j]? = some f → a.request? ≠ some j →
    t.flights[j]? = some f ∧
      (∀ c ∈ f.contexts, c.isCancelled t.machine.world = c.isCancelled s.machine.world) ∧
      ∀ k, f.race = some k → k.exchange.given.isCancelled t.machine.world = k.exchange.given.isCancelled s.machine.world
  own : ∀ i u t f, s.act (.turn i u) = some t → s.flights[i]? = some f →
    (t.flights[i]?).map (·.contexts) = some f.contexts ∧
      ∀ c ∈ f.contexts, c.isCancelled t.machine.world = c.isCancelled s.machine.world

theorem outer_mem (found : s.flights[i]? = some f) : u ∈ (s.owned i).outer ↔ ∃ c ∈ f.contexts, c.token = u := by
  rw [State.owned_eq found,Flight.tokens,List.mem_map]

theorem race_eq (found : s.flights[i]? = some f) (race : f.race = some k) :
    (s.owned i).race = some (k.exchange.context.token,k.exchange.given.token) := by
  rw [State.owned_eq found,Flight.tokens,race]
  rfl

-- Requests in flight together are isolated, whatever the order of their steps.
theorem run_isolated {settings : AppSettings} {m : Machine} (ran : run (.start settings m) actions = some s) :
    Isolated (.start settings m) actions s := by
  have sound := run_sound ran
  refine ⟨?_,?_,?_,?_⟩
  · intro i f k found race
    have running : s.race? i = some k := by simp [State.race?,found,race]
    have late : .turn i .expires ∈ actions ↔ k.exchange.completion = some .timedOut := by
      rw [sound.late,running]
      simp
    have given := race_eq found race
    refine ⟨?_,(outer_mem found).mp (sound.apart.given i _ _ given).1,(sound.stands i k running).own⟩
    refine (sound.given_iff given).trans ?_
    rw [late,or_assoc]
  · intro i f c found member
    have own : c.token ∈ (s.owned i).outer := (outer_mem found).mpr ⟨c,member,rfl⟩
    refine ⟨sound.outer_iff own,?_,fun stays => sound.attached i stays _ own⟩
    intro u above
    exact (sound.apart.outer i _ own u above).imp_right (outer_mem found).mp
  · intro a t moved notAll j f found apart
    refine ⟨act_flights moved found apart,?_,?_⟩
    · intro c member
      exact sound.apart_kept ran moved notAll apart (.inl ((outer_mem found).mpr ⟨c,member,rfl⟩))
    · intro k race
      exact sound.apart_kept ran moved notAll apart (.inr ⟨_,race_eq found race⟩)
  · intro i x t f moved found
    obtain ⟨k,after⟩ := turn_flight moved found
    refine ⟨by rw [after]; rfl,?_⟩
    intro c member
    have own : c.token ∈ (s.owned i).outer := (outer_mem found).mpr ⟨c,member,rfl⟩
    refine cancelled_kept ran sound moved (.inl own) fun v above strikes => ?_
    rcases strikes with ⟨_,⟨⟩⟩ | ⟨_,_,_,⟨⟩,_⟩ | ⟨j,d,race,_⟩
    rcases sound.apart.outer i _ own v above with rfl | ours
    · exact sound.apart.alone j (.inr ⟨d,race⟩)
    · obtain rfl := sound.apart.apart i j v (.inl ours) (.inr ⟨d,race⟩)
      exact (sound.apart.given i d v race).2.1 ours

def quitter (_ : Request) : Handler := .act .cancel fun _ => .finish (.error (.bare "gone"))

-- Four requests side by side: the first runs into its deadline, the handler of the second cancels its context, a
-- stage cancels that of the third, under which another stage had put its own, and nothing befalls the fourth.
def crowd : List Action :=
  [.arrive plainRequest,.arrive plainRequest,.reach 1 0 plainRequest quitter,
    .reach 0 0 plainRequest quitter,.arrive plainRequest,.arrive plainRequest,.make 2 (.link 0 0),
    .reach 3 0 plainRequest quitter,.turn 0 .expires,.reach 2 1 plainRequest quitter,.turn 1 .works,
    .stage 2 0 (.effect .cancel),.turn 1 .ends]

theorem crowd_isolated : ∃ s, run (.start .default (.start [] none)) crowd = some s ∧
    s.flights.map (fun f => f.race.map fun k => k.exchange.given.isCancelled s.machine.world) =
      [some true,some true,some true,some false] ∧
    s.flights.map (fun f => f.contexts.map fun c => c.isCancelled s.machine.world) =
      [[false],[false],[true,true],[false]] ∧
    Isolated (.start .default (.start [] none)) crowd s :=
  ⟨_,rfl,by decide,by decide,run_isolated rfl⟩

-- A stage detaches its context and lets the copy on; then the application cancels all its requests.
def defection : List Action :=
  [.arrive plainRequest,.make 0 (.detach 0),.reach 0 1 plainRequest quitter,.cancelAll]

theorem defection_escapes : ∃ s k, run (.start .default (.start [] none)) defection = some s ∧ s.race? 0 = some k ∧
    .cancelAll ∈ defection ∧ k.exchange.given.isCancelled s.machine.world = false :=
  ⟨_,_,rfl,rfl,by simp [defection],by decide⟩

end ServiceKit.Server.Traffic

