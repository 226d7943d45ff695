import ServiceKit.Proofs.Server.Race
import ServiceKit.Server.Traffic

namespace ServiceKit.Server.Race
variable {p : Pipeline} {k k' : Race} {t : Turn}

inductive Turned (p : Pipeline) (k : Race) : Turn → Race → Prop where
  | works {own e next} (running : k.task = .running (.act e next) own) : Turned p k .works (k.worked own e next)
  | ends {rest own e} (running : k.task = .running rest own) (ending : rest.end? = some e) :
      Turned p k .ends (k.closed p e)
  | answers {e} (ended : k.task = .ended e) (waiting : k.chosen = none) : Turned p k .answers (k.answered p e)
  | expires (waiting : k.chosen = none) : Turned p k .expires (k.answered p .deadline)

theorem turn_iff : k.turn p t = some k' ↔ Turned p k t k' := by
  constructor
  · intro moved
    cases t with
    | works =>
      simp only [turn] at moved
      split at moved
      · cases moved
        exact .works ‹_›
      · cases moved
    | ends =>
      simp only [turn] at moved
      split at moved
      · obtain ⟨e,ending,rfl⟩ := Option.map_eq_some_iff.mp moved
        exact .ends ‹_› ending
      · cases moved
    | answers =>
      simp only [turn] at moved
      split at moved
      · cases moved
        exact .answers ‹_› ‹_›
      · cases moved
    | expires =>
      simp only [turn] at moved
      split at moved
      · cases moved
        exact .expires (Option.isNone_iff_eq_none.mp ‹_›)
      · cases moved
  · intro turned
    cases turned with
    | works running => simp [turn,running]
    | ends running ending => simp [turn,running,ending]
    | answers ended waiting => simp [turn,ended,waiting]
    | expires waiting => simp [turn,waiting]

theorem step_iff :
    Step p k k' ↔ (∃ t, k.turn p t = some k') ∨ ∃ m, k.machine.Later m ∧ k' = { k with machine := m } := by
  constructor
  · intro next
    cases next with
    | works running => exact .inl ⟨.works,turn_iff.mpr (.works running)⟩
    | ends running ending => exact .inl ⟨.ends,turn_iff.mpr (.ends running ending)⟩
    | answers ended waiting => exact .inl ⟨.answers,turn_iff.mpr (.answers ended waiting)⟩
    | expires waiting => exact .inl ⟨.expires,turn_iff.mpr (.expires waiting)⟩
    | elsewhere later => exact .inr ⟨_,later,rfl⟩
  · rintro (⟨t,moved⟩ | ⟨m,later,rfl⟩)
    · cases turn_iff.mp moved with
      | works running => exact .works running
      | ends running ending => exact .ends running ending
      | answers ended waiting => exact .answers ended waiting
      | expires waiting => exact .expires waiting
    · exact .elsewhere later

-- How a race stands whatever the machine: it is answered once, the deadline is no end of a handler, and a
-- handler goes on under the token that it was given.
structure Stands (k : Race) : Prop where
  fresh : k.chosen = none → k.exchange.Fresh
  answered : k.exchange.completion = k.chosen.map Event.completion
  own : ∀ rest own, k.task = .running rest own → own.token = k.exchange.given.token
  ended : ∀ e, k.task = .ended e → e ≠ .deadline

theorem Stands.elsewhere (stands : k.Stands) (m : Machine) : Stands { k with machine := m } :=
  ⟨stands.fresh,stands.answered,stands.own,stands.ended⟩

theorem opened_stands (p : Pipeline) (handler : Request → Handler) (c : Context) (r : Request) (m : Machine) :
    (opened p handler c r m).Stands := by
  refine ⟨fun _ => opened_fresh p handler c r m,rfl,?_,?_⟩
  · rintro rest own ⟨⟩
    rfl
  · rintro e ⟨⟩

theorem opened_tokens (p : Pipeline) (handler : Request → Handler) (c : Context) (r : Request) (m : Machine) :
    (opened p handler c r m).machine.world.tokens = (m.world.tokens.child c.token).2 ∧
      (opened p handler c r m).exchange.given.token = m.world.tokens.nodes.length ∧
      (opened p handler c r m).exchange.context.token = c.token := by
  let traced := { m with world := (World.freshTrace m.world).2 }
  let own := { c with traceId := (World.freshTrace m.world).1 }
  have recorded := congrArg World.tokens (Run.record_world own "trace_id" own.traceId traced)
  exact ⟨congrArg (fun f => (f.child c.token).2) recorded,congrArg (fun f => f.nodes.length) recorded,rfl⟩

theorem end_ne_deadline {rest : Handler} {e : Event} (ending : rest.end? = some e) : e ≠ .deadline := by
  cases rest with
  | finish _ | panic _ =>
    cases ending
    exact Event.noConfusion
  | act _ _ => cases ending

theorem timedOut_iff {e : Event} : e.completion = .timedOut ↔ e = .deadline := by
  cases e <;> simp [Event.completion]

theorem Stands.answer (stands : k.Stands) (waiting : k.chosen = none) (p : Pipeline) (e : Event) :
    (k.answered p e).Stands ∧ (k.answered p e).exchange.given = k.exchange.given ∧
      (k.answered p e).exchange.context = k.exchange.context := by
  obtain ⟨m',ran,_⟩ := Exchange.run_answer (stands.fresh waiting) p e k.machine
  have exchange : (k.answered p e).exchange = k.exchange.settledBy e := by rw [Race.answered,ran]
  refine ⟨⟨?_,?_,?_,stands.ended⟩,?_,?_⟩
  · rintro ⟨⟩
  · rw [exchange]; rfl
  · rw [exchange]; exact stands.own
  · rw [exchange]; rfl
  · rw [exchange]; rfl

def Cancels (k : Race) : Prop := ∃ next own, k.task = .running (.act .cancel next) own

-- The deadline and the handler's own cancel strike the token that the handler was given, and no other turn does.
theorem Turned.tokens (turned : Turned p k t k') (stands : k.Stands) :
    (t = .expires ∨ t = .works ∧ k.Cancels) ∧
        k'.machine.world.tokens = k.machine.world.tokens.cancel k.exchange.given.token ∨
      ¬ (t = .expires ∨ t = .works ∧ k.Cancels) ∧ Run.Calm k.machine.world.tokens k'.machine.world.tokens := by
  cases turned with
  | @works own e next running =>
    have token := stands.own _ own running
    by_cases cancel : e = .cancel
    · subst cancel
      refine .inl ⟨.inr ⟨rfl,next,own,running⟩,?_⟩
      rw [← token]
      exact (Run.perform_cancel own k.machine).2
    · refine .inr ⟨?_,(Run.perform_calm own cancel k.machine).2⟩
      rintro (⟨⟨⟩⟩ | ⟨_,_,_,other⟩)
      cases running.symm.trans other
      exact cancel rfl
  | @ends rest own e running ending =>
    refine .inr ⟨by simp,.inl (congrArg World.tokens ?_)⟩
    exact (Exchange.run_ended p k.exchange e k.machine).1
  | @answers e ended waiting =>
    obtain ⟨m',ran,world,_⟩ := Exchange.run_answer (stands.fresh waiting) p e k.machine
    rw [if_neg (mt timedOut_iff.mp (stands.ended e ended))] at world
    refine .inr ⟨by simp,.inl (congrArg World.tokens ?_)⟩
    rw [Race.answered,ran]
    exact world
  | expires waiting =>
    obtain ⟨m',ran,world,_⟩ := Exchange.run_answer (stands.fresh waiting) p .deadline k.machine
    refine .inl ⟨.inl rfl,?_⟩
    rw [Race.answered,ran]
    exact congrArg World.tokens world

theorem Turned.stands (turned : Turned p k t k') (stands : k.Stands) :
    k'.Stands ∧ k'.exchange.given = k.exchange.given ∧ k'.exchange.context = k.exchange.context := by
  cases turned with
  | @works own e next running =>
    refine ⟨⟨stands.fresh,stands.answered,?_,nofun⟩,rfl,rfl⟩
    rintro rest own' ⟨⟩
    have token : ((Run.perform own e).run k.machine).1.1.token = own.token := by
      by_cases cancel : e = .cancel
      · subst cancel; rfl
      · exact (Run.perform_calm own cancel k.machine).1
    exact token.trans (stands.own _ own running)
  | ends running ending =>
    refine ⟨⟨stands.fresh,stands.answered,nofun,?_⟩,rfl,rfl⟩
    rintro e ⟨⟩
    exact end_ne_deadline ending
  | answers _ waiting => exact stands.answer waiting p _
  | expires waiting => exact stands.answer waiting p _

theorem Turned.timedOut_iff (turned : Turned p k t k') (stands : k.Stands) :
    k'.exchange.completion = some .timedOut ↔ k.exchange.completion = some .timedOut ∨ t = .expires := by
  cases turned with
  | works _ | ends _ _ => exact (or_iff_left Turn.noConfusion).symm
  | @answers e ended waiting =>
    have after : (k.answered p e).exchange.completion = some e.completion := (stands.answer waiting p e).1.answered
    have before : k.exchange.completion = none := by rw [stands.answered,waiting]; rfl
    have intime := mt Race.timedOut_iff.mp (stands.ended e ended)
    rw [after,before]
    simpa using intime
  | expires waiting => exact iff_of_true (stands.answer waiting p .deadline).1.answered (.inr rfl)

end ServiceKit.Server.Race
