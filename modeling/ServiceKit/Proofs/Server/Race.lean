import ServiceKit.Proofs.Server.Machine

namespace ServiceKit.Server

-- The envelope that a failure is answered with: its own under the trace of the request, or an internal
-- error with the message that is all there is of it.
def answerTo (traceId : String) : Failure → Envelope
  | .envelope e => { e with traceId := traceId }
  | .bare message => ⟨message,"SERVER_ERROR",500,traceId,none⟩

theorem answerTo_eq (traceId : String) (f : Failure) : f.toEnvelope.withTrace traceId = answerTo traceId f := by
  cases f <;> rfl

namespace Event

def response (traceId : String) : Event → Response
  | .deadline => .ofText 504 "timeout"
  | .returned (.ok reply) => .ofReply reply
  | .returned (.error f) => .ofEnvelope (answerTo traceId f)
  | .panicked _ => .ofEnvelope ⟨"internal server error","SERVER_ERROR",500,traceId,none⟩

def completion : Event → Completion
  | .deadline => .timedOut
  | .returned _ => .completed
  | .panicked _ => .panicked

-- The notices that the pipeline owes for the end of a handler, and for the event it answers.
def panicNotices (p : Pipeline) (x : Exchange) : Event → List Notice
  | .panicked c => [⟨x.given.traceId,(panicNotice p.service x.facts c).withTrace x.given.traceId⟩]
  | _ => []

def failureNotices (p : Pipeline) (x : Exchange) : Event → List Notice
  | .returned (.error f) =>
    [⟨x.context.traceId,failureNotice p.service x.facts (answerTo x.context.traceId f)⟩]
  | _ => []

end Event

namespace Exchange
variable {p : Pipeline} {x : Exchange} {e : Event} {m : Machine}

structure Fresh (x : Exchange) : Prop where
  writer : x.writer = .empty
  writes : x.writes = []
  completion : x.completion = none

def settledBy (x : Exchange) (e : Event) : Exchange :=
  { x with writer := ⟨some (e.response x.context.traceId)⟩,writes := [.ok ()],completion := some e.completion }

theorem run_write (fresh : x.Fresh) (content : Content) (completion : Completion) (m : Machine) :
    (x.write content completion).run m =
      ({ x with writer := ⟨some (.ofContent content)⟩,writes := [.ok ()],completion := some completion },m) := by
  obtain ⟨writer,writes,_⟩ := fresh
  cases x
  cases writer
  cases writes
  cases content <;> rfl

theorem run_timedOut (fresh : x.Fresh) (p : Pipeline) (m : Machine) :
    ∃ m', (x.timedOut p).run m = (x.settledBy .deadline,m') ∧ m'.world = m.world.cancel x.given.token ∧
      m'.fanout = m.fanout ∧ m'.notices = m.notices := by
  let facts := x.traced (placed x.facts ++ [("timeout_ms",.nat p.timeout)])
  let cancelled := ((Run.tick .timeout).run { m with world := m.world.cancel x.given.token }).2
  let logged := ((Run.log x.context .warn "request deadline exceeded" facts).run cancelled).2
  exact ⟨logged,run_write fresh (.text 504 "timeout") .timedOut logged,rfl,rfl,rfl⟩

theorem run_failed (fresh : x.Fresh) (p : Pipeline) (f : Failure) (m : Machine) :
    ∃ m', (x.failed p f).run m = (x.settledBy (.returned (.error f)),m') ∧ m'.world = m.world ∧ m'.fanout = m.fanout ∧
      m'.notices = m.notices ++ if m.hears x.context then Event.failureNotices p x (.returned (.error f)) else [] := by
  let e := f.toEnvelope.withTrace x.context.traceId
  have same : e = answerTo x.context.traceId f := answerTo_eq _ _
  let fields := x.traced ([("code",.string e.code),("status",.nat e.status)] ++ placed x.facts)
  let logged := ((Run.log x.context .error e.message fields).run m).2
  let told := ((Run.notify x.context (failureNotice p.service x.facts e)).run logged).2
  obtain ⟨world,fanout,notices⟩ := Run.run_notify x.context (failureNotice p.service x.facts e) logged
  have written : (x.failed p f).run m = (x.write (.error e) .completed).run told := rfl
  have owed : Event.failureNotices p x (.returned (.error f)) =
      [⟨x.context.traceId,failureNotice p.service x.facts e⟩] := by rw [same]; rfl
  refine ⟨told,?_,world,fanout,?_⟩
  · rw [written,run_write fresh,same]
    rfl
  · rw [owed]
    exact notices

-- Answering settles the exchange and tells a failure; the deadline cancels the handler's context.
theorem run_answer (fresh : x.Fresh) (p : Pipeline) (e : Event) (m : Machine) :
    ∃ m', (x.answer p e).run m = (x.settledBy e,m') ∧
      m'.world = (if e.completion = .timedOut then m.world.cancel x.given.token else m.world) ∧ m'.fanout = m.fanout ∧
      m'.notices = m.notices ++ if m.hears x.context then e.failureNotices p x else [] := by
  have silent : m.notices = m.notices ++ if m.hears x.context then ([] : List Notice) else [] := by simp
  cases e with
  | deadline =>
    obtain ⟨m',ran,world,fanout,notices⟩ := run_timedOut fresh p m
    exact ⟨m',ran,world,fanout,notices.trans silent⟩
  | returned r =>
    cases r with
    | ok reply => exact ⟨m,run_write fresh (.success reply) .completed m,rfl,rfl,silent⟩
    | error f => exact run_failed fresh p f m
  | panicked c => exact ⟨m,run_write fresh (.error x.panicEnvelope) .panicked m,rfl,rfl,silent⟩

theorem keeps_answer (fresh : x.Fresh) (p : Pipeline) (e : Event) : Run.Keeps (x.answer p e) := by
  intro m
  obtain ⟨m',ran,world,fanout,_⟩ := run_answer fresh p e m
  rw [ran]
  split at world
  · exact ⟨⟨fanout,by rw [world]; exact TokenForest.extends_cancel _ _⟩,by rw [world]; rfl⟩
  · exact ⟨⟨fanout,by rw [world]; exact .refl _⟩,by rw [world]⟩

theorem run_ended (p : Pipeline) (x : Exchange) (e : Event) (m : Machine) :
    ((x.ended p e).run m).2.world = m.world ∧ ((x.ended p e).run m).2.fanout = m.fanout ∧
      ((x.ended p e).run m).2.notices = m.notices ++ if m.hears x.given then e.panicNotices p x else [] := by
  have silent : m.notices = m.notices ++ if m.hears x.given then ([] : List Notice) else [] := by simp
  cases e with
  | deadline | returned _ => exact ⟨rfl,rfl,silent⟩
  | panicked c =>
    let fields := ("trace_id",Json.string x.given.traceId) ::
      (placed x.facts ++ [("panic",.string c.message),("backtrace",.string c.backtrace)])
    let ticked := ((Run.tick .panic).run m).2
    let logged := ((Run.log x.context .error "handler panicked" fields).run ticked).2
    exact Run.run_notify x.given ((panicNotice p.service x.facts c).withTrace x.given.traceId) logged

theorem keeps_ended (p : Pipeline) (x : Exchange) (e : Event) : Run.Keeps (x.ended p e) :=
  Run.keeps_of_same (fun m => (run_ended p x e m).1) (fun m => (run_ended p x e m).2.1)

end Exchange

def HandlerTask.panicNotices (p : Pipeline) (x : Exchange) : HandlerTask → List Notice
  | .running _ _ => []
  | .ended e => e.panicNotices p x

namespace Race
variable {p : Pipeline} {x : Exchange} {m : Machine} {s t : Race}

def due (p : Pipeline) (x : Exchange) (s : Race) : List Notice :=
  s.task.panicNotices p x ++ (s.chosen.map (Event.failureNotices p x)).getD []

-- How a race stands that was started with an exchange on a machine.
structure Standing (p : Pipeline) (x : Exchange) (m : Machine) (s : Race) : Prop where
  fanout : s.machine.fanout = m.fanout
  rooted : s.machine.world.tokens.Rooted x.given.token
  exchange : s.exchange = (s.chosen.map x.settledBy).getD x
  chosen : ∀ e, s.chosen = some e → e = .deadline ∨ s.task = .ended e
  cancelled : s.chosen = some .deadline → s.machine.world.tokens.isCancelled x.given.token = true
  told : s.told = if m.hears x.context then due p x s else []

theorem start_standing (p : Pipeline) (h : Handler) {m m' : Machine} (fanout : m'.fanout = m.fanout)
    (rooted : m'.world.tokens.Rooted x.given.token) : Standing p x m (.start m' x h) := by
  refine ⟨fanout,rooted,rfl,?_,?_,?_⟩
  · intro e chosen; cases chosen
  · intro chosen; cases chosen
  · simp [start,due,HandlerTask.panicNotices]

theorem Standing.later (standing : Standing p x m s) (later : s.machine.Later m') :
    Standing p x m { s with machine := m' } := by
  obtain ⟨fanout,rooted,exchange,chosen,cancelled,told⟩ := standing
  refine ⟨later.fanout.trans fanout,rooted.extends later.tokens,exchange,chosen,?_,told⟩
  intro deadline
  exact TokenForest.cancelled_extends later.tokens (cancelled deadline)

theorem since_append {before after : Machine} {more : List Notice} (notices : after.notices = before.notices ++ more) :
    before.since after = more := by
  rw [Machine.since,notices,List.drop_left]

theorem Standing.hears (standing : Standing p x m s) (c : Context) : s.machine.hears c = m.hears c := by
  rw [Machine.hears,standing.fanout]
  rfl

theorem Standing.answered (standing : Standing p x m s) (fresh : x.Fresh) (waiting : s.chosen = none)
    (first : e = .deadline ∨ s.task = .ended e) : Standing p x m (s.answered p e) := by
  have same : s.exchange = x := by rw [standing.exchange,waiting]; rfl
  obtain ⟨m',ran,world,_,notices⟩ := Exchange.run_answer fresh p e s.machine
  have later : s.machine.Later m' := by
    have kept := (Exchange.keeps_answer fresh p e s.machine).1
    rwa [ran] at kept
  have result : s.answered p e =
      { s with machine := m',exchange := x.settledBy e,chosen := some e,told := s.told ++ s.machine.since m' } := by
    rw [Race.answered,same,ran]
  rw [result]
  obtain ⟨fanout,rooted,_,_,_,_⟩ := standing.later later
  refine ⟨fanout,rooted,rfl,?_,?_,?_⟩
  · intro e' chosen
    cases chosen
    exact first
  · intro chosen
    cases chosen
    have cancelled : m'.world = s.machine.world.cancel x.given.token := world
    dsimp only
    rw [cancelled]
    exact TokenForest.cancelled_cancel standing.rooted
  · rw [standing.hears] at notices
    have told := standing.told
    simp only [due,waiting,Option.map_none,Option.getD_none,List.append_nil] at told
    simp only [due,since_append notices,told,Option.map_some,Option.getD_some]
    split <;> rfl

theorem Standing.closed (standing : Standing p x m s) (attached : x.given.notifier = x.context.notifier)
    (running : s.task = .running rest own) (e : Event) : Standing p x m (s.closed p e) := by
  have notices := (Exchange.run_ended p s.exchange e s.machine).2.2
  have later := (Exchange.keeps_ended p s.exchange e s.machine).1
  obtain ⟨fanout,rooted,exchange,_,cancelled,_⟩ := standing.later later
  have open_ : ∀ e', s.chosen = some e' → e' = .deadline := by
    intro e' chosen
    rcases standing.chosen e' chosen with deadline | ended
    · exact deadline
    · cases running.symm.trans ended
  have owed : e.panicNotices p s.exchange = e.panicNotices p x ∧ s.exchange.given = x.given := by
    rw [standing.exchange]
    cases s.chosen <;> exact ⟨rfl,rfl⟩
  refine ⟨fanout,rooted,exchange,?_,cancelled,?_⟩
  · intro e' chosen
    exact .inl (open_ e' chosen)
  · have heard : s.machine.hears s.exchange.given = m.hears x.context := by
      rw [standing.hears,owed.2,Machine.hears,attached]
      rfl
    have unfailed : (s.chosen.map (Event.failureNotices p x)).getD [] = [] := by
      cases chosen : s.chosen with
      | none => rfl
      | some e' => rw [open_ e' chosen]; rfl
    have told := standing.told
    rw [heard,owed.1] at notices
    simp only [due,running,unfailed,HandlerTask.panicNotices,List.append_nil,ite_self] at told
    simp only [Race.closed,due,unfailed,since_append notices,told,HandlerTask.panicNotices,List.nil_append,List.append_nil]

theorem step_standing (fresh : x.Fresh) (attached : x.given.notifier = x.context.notifier)
    (standing : Standing p x m s) (next : Step p s t) : Standing p x m t := by
  cases next with
  | @works own e next running =>
    have later := (Run.keeps_perform own e s.machine).1
    obtain ⟨fanout,rooted,exchange,chosen,cancelled,told⟩ := standing.later later
    refine ⟨fanout,rooted,exchange,?_,cancelled,?_⟩
    · intro e' selected
      rcases standing.chosen e' selected with deadline | ended
      · exact .inl deadline
      · cases running.symm.trans ended
    · simp only [due,running,HandlerTask.panicNotices] at told
      exact told
  | ends running _ => exact standing.closed attached running _
  | answers ended waiting => exact standing.answered fresh waiting (.inr ended)
  | expires waiting => exact standing.answered fresh waiting (.inl rfl)
  | elsewhere later => exact standing.later later

theorem reached_standing (fresh : x.Fresh) (attached : x.given.notifier = x.context.notifier)
    (start : Standing p x m s) (path : Reached p s t) : Standing p x m t := by
  induction path with
  | refl => exact start
  | step _ next ih => exact step_standing fresh attached ih next

theorem opened_fresh (p : Pipeline) (handler : Request → Handler) (c : Context) (r : Request) (m : Machine) :
    (opened p handler c r m).exchange.Fresh := ⟨rfl,rfl,rfl⟩

theorem opened_rooted (p : Pipeline) (handler : Request → Handler) (c : Context) (r : Request) (m : Machine) :
    (opened p handler c r m).machine.world.tokens.Rooted (opened p handler c r m).exchange.given.token :=
  TokenForest.rooted_child _ _

theorem opened_fanout (p : Pipeline) (handler : Request → Handler) (c : Context) (r : Request) (m : Machine) :
    (opened p handler c r m).machine.fanout = m.fanout := by
  have recorded := (Run.keeps_record { c with traceId := (World.freshTrace m.world).1 } "trace_id"
    (World.freshTrace m.world).1 { m with world := (World.freshTrace m.world).2 }).1.fanout
  exact recorded

theorem opened_standing (path : Reached p (opened p handler c r m) s) :
    Standing p (opened p handler c r m).exchange m s :=
  reached_standing (opened_fresh p handler c r m) rfl
    (start_standing p _ (opened_fanout p handler c r m) (opened_rooted p handler c r m)) path

theorem Standing.written (standing : Standing p x m s) (fresh : x.Fresh) :
    s.exchange.writer.response = s.chosen.map (Event.response x.context.traceId) := by
  rw [standing.exchange]
  cases s.chosen with
  | none => exact congrArg Writer.response fresh.writer
  | some e => rfl

-- What holds of the race of a request on a machine at any time: what was written and answered, what
-- became of the handler's context, and which notices were started.
structure Settles (p : Pipeline) (c : Context) (m : Machine) (x : Exchange) (s : Race) : Prop where
  waiting : s.chosen = none → s.exchange.writes = [] ∧ s.exchange.completion = none
  once : s.chosen.isSome → s.exchange.writes = [.ok ()] ∧ s.exchange.writer.response.isSome ∧
    s.exchange.completion.isSome
  chosen : ∀ e, s.chosen = some e → e = .deadline ∨ s.task = .ended e
  timedOut : s.chosen = some .deadline → s.exchange.writer.response = some (.ofText 504 "timeout") ∧
    s.exchange.completion = some .timedOut ∧ x.given.isCancelled s.machine.world = true
  succeeded : ∀ reply, s.chosen = some (.returned (.ok reply)) →
    s.exchange.writer.response = some (.ofReply reply) ∧ s.exchange.completion = some .completed
  failed : ∀ f, s.chosen = some (.returned (.error f)) →
    s.exchange.writer.response = some (.ofEnvelope (answerTo x.context.traceId f)) ∧
      s.exchange.completion = some .completed
  panicked : ∀ caught, s.chosen = some (.panicked caught) →
    s.exchange.writer.response =
        some (.ofEnvelope ⟨"internal server error","SERVER_ERROR",500,x.context.traceId,none⟩) ∧
      s.exchange.completion = some .panicked
  told : s.told = if c.notifier.isSome && m.fanout.isSome then due p x s else []

theorem Standing.settles (standing : Standing p x m s) (fresh : x.Fresh) (context : x.context.notifier = c.notifier) :
    Settles p c m x s := by
  have exchange := standing.exchange
  refine ⟨?_,?_,standing.chosen,?_,?_,?_,?_,?_⟩
  · intro waiting
    rw [exchange,waiting]
    exact ⟨fresh.writes,fresh.completion⟩
  · intro settled
    obtain ⟨e,chosen⟩ := Option.isSome_iff_exists.mp settled
    rw [exchange,chosen]
    exact ⟨rfl,rfl,rfl⟩
  · intro chosen
    rw [exchange,chosen]
    exact ⟨rfl,rfl,standing.cancelled chosen⟩
  · intro reply chosen
    rw [exchange,chosen]
    exact ⟨rfl,rfl⟩
  · intro f chosen
    rw [exchange,chosen]
    exact ⟨rfl,rfl⟩
  · intro caught chosen
    rw [exchange,chosen]
    exact ⟨rfl,rfl⟩
  · rw [standing.told,Machine.hears,context]

-- What is chosen stays chosen, and nothing changes about the exchange any more.
theorem step_settled (settled : s.chosen.isSome) (next : Step p s t) : t.exchange = s.exchange ∧ t.chosen = s.chosen := by
  cases next with
  | works _ | ends _ _ | elsewhere _ => exact ⟨rfl,rfl⟩
  | answers _ waiting | expires waiting => rw [waiting] at settled; cases settled

theorem reached_settled (settled : s.chosen.isSome) (path : Reached p s t) :
    t.exchange = s.exchange ∧ t.chosen = s.chosen := by
  induction path with
  | refl => exact ⟨rfl,rfl⟩
  | step _ next ih =>
    obtain ⟨exchange,chosen⟩ := ih
    obtain ⟨exchange',chosen'⟩ := step_settled (chosen ▸ settled) next
    exact ⟨exchange'.trans exchange,chosen'.trans chosen⟩

theorem opened_settles (path : Reached p (opened p handler c r m) s) :
    Settles p c m (opened p handler c r m).exchange s :=
  (opened_standing path).settles (opened_fresh p handler c r m) rfl

end Race
end ServiceKit.Server
