import ServiceKit.Proofs.Json.Printing
import ServiceKit.Proofs.Notification.Delivery
import ServiceKit.Proofs.Server.Clock

namespace ServiceKit.Server

theorem withFields_traceId (n : Notification) (fields : List (String × String)) :
    (withFields n fields).traceId = n.traceId := by
  induction fields generalizing n with
  | nil => rfl
  | cons f rest ih => exact ih (n.field f.1 f.2)

theorem withKey_traceId (facts : RequestMeta) (n : Notification) : (withKey facts n).traceId = n.traceId := by
  unfold withKey
  cases facts.uniqueKey <;> rfl

theorem failureNotice_traceId (service : Service) (facts : RequestMeta) (e : Envelope) :
    (failureNotice service facts e).traceId = none := by
  unfold failureNotice
  rw [withKey_traceId,withFields_traceId]
  rfl

-- Whatever fanout a notice is given to and however its sends are interleaved, each active sink is sent one delivery,
-- and each delivery has the trace id.
structure Notice.Carries (notice : Notice) (trace : String) : Prop where
  sent : ∀ network (f : Fanout), (f.notify network notice.traceId notice.notification).map
    (fun s => (s.place,s.delivery.traceId)) = f.active.map fun a => (a.1,trace)
  handed : ∀ (own : Context) (outlets : List Outlet) (w : World) (call : Dispatch.Call), own.traceId = notice.traceId →
    Dispatch.Reached
      (Dispatch.start outlets ((Caller.context own).trace notice.notification w).1 notice.notification) call →
    ∀ place delivery, (place,delivery) ∈ call.handed → delivery.traceId = trace

theorem Notice.carries (notice : Notice) :
    notice.Carries (notice.notification.traceId.getD notice.traceId) := by
  refine ⟨?_,?_⟩
  · intro network f
    simp [Fanout.notify,Fanout.deliver,Fanout.sendTo,Function.comp_def]
  · intro own outlets w call same path place delivery given
    have chosen := ((Dispatch.reached_sound path).addressed place delivery given).1
    rw [chosen,← same]
    unfold Caller.trace
    cases notice.notification.traceId <;> rfl

namespace Event
variable {p : Pipeline} {x : Exchange} {trace : String}

theorem panicNotices_carry (given : x.given.traceId = trace) (e : Event) :
    ∀ notice ∈ e.panicNotices p x, notice.Carries trace := by
  intro notice told
  cases e with
  | deadline | returned _ => cases told
  | panicked c =>
    obtain rfl := List.mem_singleton.mp told
    exact given ▸ Notice.carries _

theorem failureNotices_carry (context : x.context.traceId = trace) (e : Event) :
    ∀ notice ∈ e.failureNotices p x, notice.Carries trace := by
  intro notice told
  cases e with
  | deadline | panicked _ => cases told
  | returned r =>
    cases r with
    | ok _ => cases told
    | error f =>
      obtain rfl := List.mem_singleton.mp told
      have carried := Notice.carries ⟨x.context.traceId,failureNotice p.service x.facts (answerTo x.context.traceId f)⟩
      rw [failureNotice_traceId] at carried
      exact context ▸ carried

theorem answerTo_traceId (trace : String) (f : Failure) : (answerTo trace f).traceId = trace := by
  cases f <;> rfl

-- An event that is answered with an envelope is answered with one under the trace id.
theorem response_traced (e : Event) {answer : Envelope} (bears : (e.response trace).Bears answer) :
    answer.traceId = trace := by
  cases e with
  | deadline => exact absurd bears (Response.timeout_bears answer)
  | returned r =>
    cases r with
    | ok reply => exact absurd bears (Response.ofReply_bears reply answer)
    | error f => exact (bears.alike (Response.bears_ofEnvelope _)).traceId.trans (answerTo_traceId trace f)
  | panicked c => exact (bears.alike (Response.bears_ofEnvelope _)).traceId

end Event

namespace Race
variable {p : Pipeline} {x : Exchange} {m : Machine} {s : Race} {trace : String}

-- What carries the trace id of a race's request, at any time.
structure Traced (trace : String) (s : Race) : Prop where
  context : s.exchange.context.traceId = trace
  answered : ∀ e, s.exchange.writer.response = some (.ofEnvelope e) → e.traceId = trace
  failed : ∀ f, s.chosen = some (.returned (.error f)) →
    ∃ e, s.exchange.writer.response = some (.ofEnvelope e) ∧ e.traceId = trace
  panicked : ∀ caught, s.chosen = some (.panicked caught) →
    ∃ e, s.exchange.writer.response = some (.ofEnvelope e) ∧ e.traceId = trace
  told : ∀ notice ∈ s.told, notice.Carries trace

theorem due_carries (context : x.context.traceId = trace) (given : x.given.traceId = trace) :
    ∀ notice ∈ due p x s, notice.Carries trace := by
  intro notice told
  rcases List.mem_append.mp told with panic | failure
  · cases task : s.task with
    | running _ _ => simp [task,HandlerTask.panicNotices] at panic
    | ended e =>
      rw [task] at panic
      exact Event.panicNotices_carry given e notice panic
  · cases chosen : s.chosen with
    | none => simp [chosen] at failure
    | some e =>
      rw [chosen] at failure
      exact Event.failureNotices_carry context e notice failure

theorem Standing.traced (standing : Standing p x m s) (fresh : x.Fresh) (context : x.context.traceId = trace)
    (given : x.given.traceId = trace) : Traced trace s := by
  have exchange := standing.exchange
  have response : s.exchange.writer.response = s.chosen.map (Event.response trace) := context ▸ standing.written fresh
  refine ⟨?_,?_,?_,?_,?_⟩
  · rw [exchange,← context]
    cases s.chosen <;> rfl
  · intro answer written
    rw [response] at written
    obtain ⟨e,_,same⟩ := Option.map_eq_some_iff.mp written
    exact e.response_traced (same ▸ Response.bears_ofEnvelope answer)
  · intro f chosen
    exact ⟨answerTo trace f,by rw [response,chosen]; rfl,Event.answerTo_traceId trace f⟩
  · intro caught chosen
    exact ⟨_,by rw [response,chosen]; rfl,rfl⟩
  · rw [standing.told]
    split
    · exact due_carries context given
    · simp

def traceOf (m : Machine) : String := m.world.freshTrace.1

theorem traceOf_ne (m : Machine) : traceOf m ≠ "" := by
  intro none
  have shaped : Ids.isTrace (traceOf m) = true := Ids.isTrace_traceText _
  rw [none] at shaped
  cases shaped

theorem opened_traced (path : Reached p (opened p handler c r m) s) : Traced (traceOf m) s :=
  (opened_standing path).traced (opened_fresh p handler c r m) rfl rfl

theorem execute_response (p : Pipeline) (handler : Request → Handler) (c : Context) (r : Request) (m : Machine) :
    ((p.execute handler c r).run m).1.1.traceId = traceOf m ∧
      ∃ e : Event, ((p.execute handler c r).run m).1.2.response = e.response (traceOf m) := by
  obtain ⟨s,path,onTime,executed⟩ := execute_reached p handler c r m
  have exchange := (opened_standing path).exchange
  obtain ⟨e,chosen⟩ := Option.isSome_iff_exists.mp onTime.settled
  rw [chosen] at exchange
  rw [executed,exchange]
  exact ⟨rfl,e,rfl⟩

-- A request gets a random id before its handler runs, and whatever the handler does and whenever it ends, the request
-- keeps it; so does what executing the request gives back.
theorem execute_traced (p : Pipeline) (c : Context) (r : Request) (m : Machine) :
    Ids.isTrace (traceOf m) = true ∧ traceOf m ≠ "" ∧ ∀ handler : Request → Handler,
      (∀ s, Reached p (opened p handler c r m) s → Traced (traceOf m) s) ∧
      ((p.execute handler c r).run m).1.1.traceId = traceOf m ∧
      ∀ e, ((p.execute handler c r).run m).1.2.response = .ofEnvelope e → e.traceId = traceOf m := by
  refine ⟨Ids.isTrace_traceText _,traceOf_ne m,?_⟩
  intro handler
  obtain ⟨s,path,onTime,executed⟩ := execute_reached p handler c r m
  have traced := opened_traced path
  obtain ⟨_,written,_⟩ := (opened_settles path).once onTime.settled
  obtain ⟨response,written⟩ := Option.isSome_iff_exists.mp written
  refine ⟨fun s path => opened_traced path,?_,?_⟩
  · rw [executed]
    exact traced.context
  · intro e same
    have finished : s.exchange.writer.finish = .ofEnvelope e := by rw [executed] at same; exact same
    rw [Writer.finish,written] at finished
    exact traced.answered e (written.trans (congrArg some finished))

-- A handler that puts another id on its context and into the envelope it fails with.
def refusal : Envelope := ⟨"refused","REFUSED",400,"forged",none⟩

def forger (_ : Request) : Handler := .act (.retrace "forged") fun _ => .finish (.error (.envelope refusal))

def watched : Machine := .start [] (some ⟨[.memory true]⟩)

def watchedContext : Context := { (Context.new .start).1 with notifier := some 0 }

theorem forger_traced : ∃ s, Reached hasty (opened hasty forger watchedContext plainRequest watched) s ∧
    s.exchange.writer.response = some (.ofEnvelope (answerTo (traceOf watched) (.envelope refusal))) ∧
    (answerTo (traceOf watched) (.envelope refusal)).traceId = traceOf watched ∧
    ∃ notice ∈ s.told, notice.Carries (traceOf watched) := by
  let first := opened hasty forger watchedContext plainRequest watched
  have worked := Reached.refl.step (.works (p := hasty) (s := first) rfl)
  have ended := worked.step (.ends rfl rfl)
  have path := ended.step (.answers rfl rfl)
  have traced := ((execute_traced hasty watchedContext plainRequest watched).2.2 forger).1 _ path
  refine ⟨_,path,rfl,traced.answered _ rfl,_,List.mem_singleton_self _,traced.told _ ?_⟩
  exact List.mem_singleton_self _

end Race
end ServiceKit.Server
