import ServiceKit.Proofs.Server.Retrace

namespace ServiceKit

theorem Envelope.statusCode_eq_iff (e : Envelope) : e.statusCode = e.status ↔ 100 ≤ e.status ∧ e.status ≤ 999 := by
  unfold statusCode validStatus
  split
  · next valid => simpa using valid
  · next invalid =>
    constructor
    · intro same
      omega
    · intro valid
      exact absurd (by simpa using valid) invalid

namespace Response

structure Agrees (r : Response) (e : Envelope) : Prop where
  body : r.Bears e
  status : r.status = e.status

structure Shows (r : Response) (e : Envelope) : Prop where
  body : r.Bears e
  valid : 100 ≤ e.status → e.status ≤ 999 → r.status = e.status
  invalid : e.status < 100 ∨ 999 < e.status → r.status = 500

def Candid (r : Response) : Prop := ∀ e, r.Bears e → r.Shows e

theorem ofEnvelope_shows (e : Envelope) : (ofEnvelope e).Shows e := by
  refine ⟨bears_ofEnvelope e,fun least most => e.statusCode_eq_iff.mpr ⟨least,most⟩,?_⟩
  intro outside
  show e.statusCode = 500
  rw [Envelope.statusCode,validStatus,if_neg]
  simp only [Bool.and_eq_true,decide_eq_true_eq]
  omega

theorem Shows.candid {r : Response} {e : Envelope} (shows_ : r.Shows e) : r.Candid := by
  intro e' bears
  have same := (bears.alike shows_.body).status
  exact ⟨bears,by rw [same]; exact shows_.valid,by rw [same]; exact shows_.invalid⟩

theorem Candid.same {r r' : Response} (candid : r.Candid) (status : r'.status = r.status) (body : r'.body = r.body) :
    r'.Candid := by
  intro e bears
  obtain ⟨_,valid,invalid⟩ := candid e (body.symm.trans bears)
  exact ⟨bears,by rw [status]; exact valid,by rw [status]; exact invalid⟩

theorem ofEnvelope_agrees_iff (e : Envelope) : (ofEnvelope e).Agrees e ↔ 100 ≤ e.status ∧ e.status ≤ 999 := by
  rw [← e.statusCode_eq_iff]
  exact ⟨Agrees.status,fun status => ⟨bears_ofEnvelope e,status⟩⟩

theorem ofEnvelope_agrees {e : Envelope} (least : 100 ≤ e.status) (most : e.status ≤ 999) : (ofEnvelope e).Agrees e :=
  (ofEnvelope_agrees_iff e).mpr ⟨least,most⟩

theorem make_agrees {status : Nat} (least : 100 ≤ status) (most : status ≤ 999) (message code : String) :
    (ofEnvelope (.make status message code)).Agrees (.make status message code) :=
  ofEnvelope_agrees least most

end Response

namespace Server
open Response

-- The responses to failures that are not a handler's own envelope, each with its envelope.
inductive Declines : Response → Envelope → Prop where
  | bare (trace message : String) : Declines (.ofEnvelope (answerTo trace (.bare message))) (answerTo trace (.bare message))
  | panicked (trace : String) (caught : Caught) :
      Declines ((Event.panicked caught).response trace) ⟨"internal server error","SERVER_ERROR",500,trace,none⟩
  | undecoded (trace : String) (e : DecodeError) :
      Declines (.ofEnvelope (answerTo trace (.envelope e.toEnvelope))) (answerTo trace (.envelope e.toEnvelope))
  | unknown : Declines App.notFound (.make 404 "route not found" Code.routeNotFound)
  | notAllowed (allowed : List String) :
      Declines (App.notAllowed allowed) (.make 405 "method not allowed" Code.methodNotAllowed)
  | unread (fault : BodyFault) : Declines (.ofEnvelope fault.toEnvelope) fault.toEnvelope
  | unencodable (status : Nat) : Declines (.ofContent (.unencodable status)) (.internal "failed to encode response")
  | unwritten : Declines Writer.empty.finish (.internal "no response written")

theorem Declines.agrees (declines : Declines r e) : r.Agrees e := by
  cases declines with
  | bare trace message => exact ofEnvelope_agrees (by simp [answerTo]) (by simp [answerTo])
  | panicked trace caught => exact ofEnvelope_agrees (by simp) (by simp)
  | undecoded trace e =>
    have status : (answerTo trace (.envelope e.toEnvelope)).status = 400 ∨
        (answerTo trace (.envelope e.toEnvelope)).status = 422 := by
      cases e <;> simp [answerTo,DecodeError.toEnvelope,Envelope.badRequest,Envelope.make,Envelope.ofErrors,Envelope.withData]
    exact ofEnvelope_agrees (by omega) (by omega)
  | unknown => exact make_agrees (by decide) (by decide) _ _
  | notAllowed allowed =>
    have agrees := make_agrees (by decide : 100 ≤ 405) (by decide) "method not allowed" Code.methodNotAllowed
    exact ⟨agrees.body,agrees.status⟩
  | unread fault =>
    cases fault with
    | tooSlow => exact make_agrees (by decide) (by decide) _ _
    | tooLarge limit => exact make_agrees (by decide) (by decide) _ _
    | broken m => exact make_agrees (by decide) (by decide) _ _
  | unencodable status =>
    have agrees := make_agrees (by decide : 100 ≤ 500) (by decide) "failed to encode response" Code.serverError
    exact ⟨agrees.body,rfl⟩
  | unwritten => exact make_agrees (by decide) (by decide) _ _

theorem pong_bears (e : Envelope) : ¬ App.pong.Bears e := by
  intro bears
  have pong : App.pong.body = Json.bytes (.object [("message",.string "pong")]) := rfl
  have chars := Json.bytes_injective (pong.symm.trans bears)
  rw [envelope_chars] at chars
  simp only [Json.compactChars,Json.compactMembers,List.append_assoc,List.cons_append] at chars
  have rest := (Json.textMember_append (List.cons.inj chars).2).2
  exact absurd (List.cons.inj rest).1 (by decide)

theorem Event.response_candid (trace : String) (e : Event) : (e.response trace).Candid := by
  cases e with
  | deadline => exact fun e bears => absurd bears (timeout_bears e)
  | returned r =>
    cases r with
    | ok reply => exact fun e bears => absurd bears (ofReply_bears reply e)
    | error f => exact (ofEnvelope_shows _).candid
  | panicked _ => exact (ofEnvelope_shows _).candid

def After.Candid (after : After) : Prop :=
  ∀ c (x : Answered) m, x.response.Candid → ((after c x).run m).1.2.response.Candid

structure Stage.Candid (s : Stage) : Prop where
  answers : ∀ k c r m own x, ((s.enter k c r).run m).1 = .answers own x → x.response.Candid
  back : s.Handles After.Candid

theorem After.Plain.candid {after : After} (plain : after.Plain) : after.Candid := by
  intro c x m candid
  obtain ⟨status,body,_⟩ := plain c x m
  exact candid.same status body

namespace Stage

theorem requestId_candid : requestId.Candid := by
  refine ⟨?_,requestId_handles fun id => (stamp_plain requestIdHeader id).candid⟩
  intro k c r m own x answers
  obtain ⟨_,ran,_⟩ := run_requestId k c r m
  rw [ran] at answers
  cases answers

theorem secureHeaders_candid : secureHeaders.Candid := by
  refine ⟨?_,?_⟩
  · intro k c r m own x answers
    cases answers
  · intro k c r m c' r' after proceeds
    exact (secureHeaders_plain k c r m c' r' after proceeds).candid

end Stage

def Endpoint.Candid (f : Endpoint) : Prop := ∀ c r m, ((f c r).run m).1.2.response.Candid

theorem chain_candid {f : Endpoint} {stages : List Stage} (inner : Endpoint.Candid f) (each : ∀ s ∈ stages, s.Candid) :
    Endpoint.Candid (chain f stages) := by
  induction stages with
  | nil => exact inner
  | cons s rest ih =>
    intro c r m
    have first := each s List.mem_cons_self
    have rest_ := ih fun s mem => each s (List.mem_cons_of_mem _ mem)
    rcases ran : (s.enter rest.length c r).run m with ⟨outcome,m'⟩
    cases outcome with
    | answers own x =>
      rw [run_chain_answers ran]
      exact first.answers rest.length c r m own x (congrArg Prod.fst ran)
    | proceeds own on after =>
      rw [run_chain_proceeds ran]
      exact first.back rest.length c r m own on after (congrArg Prod.fst ran) _ _ _ (rest_ own on m')

namespace App
variable {a : App}

theorem execute_candid (p : Pipeline) (handler : Request → Handler) : Endpoint.Candid (p.execute handler) := by
  intro c r m
  obtain ⟨_,e,same⟩ := Race.execute_response p handler c r m
  rw [same]
  exact e.response_candid _

theorem route_candid (table : ∀ e ∈ a.table, ∀ s ∈ e.target.stages, s.Candid) : Endpoint.Candid a.route := by
  intro c r m
  unfold App.route App.routeBy
  split
  · exact fun e bears => absurd bears (pong_bears e)
  · cases looked : Lookup.of r.method r.uri.path a.table with
    | notFound =>
      show App.notFound.Candid
      exact (ofEnvelope_shows (.make 404 "route not found" Code.routeNotFound)).candid
    | methodNotAllowed allowed =>
      show (App.notAllowed allowed).Candid
      exact (ofEnvelope_shows (.make 405 "method not allowed" Code.methodNotAllowed)).candid.same rfl rfl
    | found e params => exact chain_candid (execute_candid _ _) (table e (Lookup.mem_of_found looked)) c _ m

theorem handle_candid (stages : ∀ s ∈ a.stages, s.Candid) (table : ∀ e ∈ a.table, ∀ s ∈ e.target.stages, s.Candid)
    (r : Request) (m : Machine) : ((a.handle r).run m).1.response.Candid :=
  chain_candid (route_candid table) stages ((a.opens r).run m).1 r ((a.opens r).run m).2

theorem route_declines (c : Context) (r : Request) (m : Machine) (probe : ¬ (r.method = "GET" ∧ r.uri.path = "/ping")) :
    (Lookup.of r.method r.uri.path a.table = .notFound →
      Declines ((a.route c r).run m).1.2.response (.make 404 "route not found" Code.routeNotFound)) ∧
    ∀ allowed, Lookup.of r.method r.uri.path a.table = .methodNotAllowed allowed →
      Declines ((a.route c r).run m).1.2.response (.make 405 "method not allowed" Code.methodNotAllowed) := by
  unfold App.route App.routeBy
  rw [if_neg probe]
  constructor
  · intro looked
    rw [looked]
    exact .unknown
  · intro allowed looked
    rw [looked]
    exact .notAllowed allowed

end App

namespace ListenerSettings
variable {s : ListenerSettings} {a : App} {i : Incoming} {m : Machine}

theorem answer_declines (unread : readBody s.maxBodyBytes s.readTimeout [] i.body = .error fault) :
    ((s.answer a i).run m).1 = some (.plain (.ofEnvelope fault.toEnvelope)) := by
  unfold ListenerSettings.answer
  rw [unread]
  rfl

theorem answer_candid (stages : ∀ s ∈ a.stages, s.Candid) (table : ∀ e ∈ a.table, ∀ s ∈ e.target.stages, s.Candid)
    (answers : ((s.answer a i).run m).1 = some answered) : answered.response.Candid := by
  cases read : readBody s.maxBodyBytes s.readTimeout [] i.body with
  | error fault =>
    rw [answer_declines read] at answers
    cases answers
    exact (ofEnvelope_shows fault.toEnvelope).candid
  | ok body =>
    have handled : ((a.handle (i.whole body)).run m).1.response.Candid := App.handle_candid stages table _ m
    rcases ran : (a.handle? (i.whole body)).run.run m with ⟨x,late⟩
    rw [run_answer read ran] at answers
    dsimp only at answers
    split at answers
    · obtain rfl := answers
      rw [App.handle_covers ran] at handled
      exact handled
    · cases answers

end ListenerSettings

-- The two statuses of an error. A response that is made of an envelope has its message, code, status and data in the body,
-- and its status unless no response can have that; what the toolkit refuses by itself can always be had. The pipeline
-- answers a failure with such a response, routes and listeners refuse, and of all that an application answers, through
-- stages that leave the status of an envelope alone, whatever carries an envelope has its status in this way.
theorem errors_shown :
    (∀ e : Envelope, (Response.ofEnvelope e).Shows e ∧
      ((Response.ofEnvelope e).Agrees e ↔ 100 ≤ e.status ∧ e.status ≤ 999) ∧
      ∀ e', (Response.ofEnvelope e).Bears e' → Alike e' e) ∧
    (∀ r e, Declines r e → r.Agrees e) ∧
    (∀ p handler c r m s, Race.Reached p (Race.opened p handler c r m) s →
      s.exchange.writer.response = s.chosen.map (Event.response (Race.traceOf m)) ∧
      ∀ f, s.chosen = some (.returned (.error f)) → ∃ response, s.exchange.writer.response = some response ∧
        response.Shows (answerTo (Race.traceOf m) f)) ∧
    (∀ (a : App) c r m, ¬ (r.method = "GET" ∧ r.uri.path = "/ping") →
      (Lookup.of r.method r.uri.path a.table = .notFound →
        Declines ((a.route c r).run m).1.2.response (.make 404 "route not found" Code.routeNotFound)) ∧
      ∀ allowed, Lookup.of r.method r.uri.path a.table = .methodNotAllowed allowed →
        Declines ((a.route c r).run m).1.2.response (.make 405 "method not allowed" Code.methodNotAllowed)) ∧
    ∀ (s : ListenerSettings) (settings : AppSettings) first i m,
      let a := ((App.build settings).run first).1
      (∀ fault, readBody s.maxBodyBytes s.readTimeout [] i.body = .error fault → ∃ answered,
        ((s.answer a i).run m).1 = some answered ∧ Declines answered.response fault.toEnvelope) ∧
      ((∀ stage ∈ settings.stages ++ settings.entries.flatMap (·.target.stages), stage.Candid) →
        ∀ answered, ((s.answer a i).run m).1 = some answered → answered.response.Candid) := by
  refine ⟨?_,fun _ _ => Declines.agrees,?_,fun a c r m => App.route_declines c r m,?_⟩
  · intro e
    exact ⟨ofEnvelope_shows e,ofEnvelope_agrees_iff e,fun _ bears => bears.alike (bears_ofEnvelope e)⟩
  · intro p handler c r m s path
    have written : s.exchange.writer.response = s.chosen.map (Event.response (Race.traceOf m)) :=
      (Race.opened_standing path).written (Race.opened_fresh p handler c r m)
    refine ⟨written,?_⟩
    intro f chosen
    rw [chosen] at written
    exact ⟨_,written,ofEnvelope_shows _⟩
  · intro s settings first i m a
    refine ⟨fun fault unread => ⟨_,ListenerSettings.answer_declines unread,.unread fault⟩,?_⟩
    intro each answered answers
    have stages : ∀ s ∈ a.stages, s.Candid := App.build_each Stage.requestId_candid Stage.secureHeaders_candid
      fun s mem => each s (List.mem_append_left _ mem)
    have table : ∀ e ∈ a.table, ∀ s ∈ e.target.stages, s.Candid := by
      have listed : a.table = settings.entries := Lookup.register_table [] settings.entries
      intro e mem s inside
      rw [listed] at mem
      exact each s (List.mem_append_right _ (List.mem_flatMap.mpr ⟨e,mem,inside⟩))
    exact ListenerSettings.answer_candid stages table answers

def outlandish : Envelope := ⟨"bad","BAD",42,"",none⟩

def outlander (_ : Request) : Handler := .finish (.error (.envelope outlandish))

theorem outlandish_differs :
    let answered := ((Race.hasty.execute outlander (Context.new .start).1 plainRequest).run (.start [] none)).1.2
    ∃ e, answered.response.Bears e ∧ e.message = "bad" ∧ e.code = "BAD" ∧ e.status = 42 ∧ answered.response.status = 500 := by
  intro answered
  have same : answered.response = .ofEnvelope (answerTo (Race.traceOf (.start [] none)) (.envelope outlandish)) :=
    Race.execute_fails (by decide) rfl
  refine ⟨answerTo (Race.traceOf (.start [] none)) (.envelope outlandish),?_,rfl,rfl,rfl,?_⟩
  · rw [same]
    exact bears_ofEnvelope _
  · rw [same]
    exact (ofEnvelope_shows _).invalid (.inl (by decide))

end Server
end ServiceKit
