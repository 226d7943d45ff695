import ServiceKit.Proofs.Http.Headers
import ServiceKit.Proofs.Server.Nesting

namespace ServiceKit.Server
open Text (Bytes)

namespace Stage

structure Accepts (value : Bytes) (id : String) : Prop where
  trims : Headers.Trims value id
  left : Headers.ofText id ≠ []
  short : (Headers.ofText id).length ≤ 128

-- The first value that a request came with, if it counts, and a fresh id of letters and digits otherwise.
inductive Chooses (r : Request) (id : String) : Prop where
  | incoming (first : r.headers.get? requestIdHeader = some value) (accepts : Accepts value id)
  | fresh (none : ∀ value id, r.headers.get? requestIdHeader = some value → ¬ Accepts value id)
      (length : id.length = 15) (made : ∀ c ∈ id.toList, Text.isAlnum c = true)

variable {r : Request} {m : Machine} {value : Bytes} {id name other : String}

theorem ofText_eq_nil : Headers.ofText id = [] ↔ id = "" := by
  refine ⟨fun none => Text.utf8_injective none,?_⟩
  rintro rfl
  rfl

theorem refused_iff (id : String) : (id.isEmpty || decide (id.utf8ByteSize > 128)) = true ↔
    ¬ (Headers.ofText id ≠ [] ∧ (Headers.ofText id).length ≤ 128) := by
  have bytes : (Headers.ofText id).length = id.utf8ByteSize := Text.length_utf8 id
  rw [bytes,Bool.or_eq_true,decide_eq_true_eq,String.isEmpty_iff,← ofText_eq_nil]
  simp [Decidable.imp_iff_not_or]

theorem incomingId_iff :
    incomingId r = some id ↔ ∃ value, r.headers.get? requestIdHeader = some value ∧ Accepts value id := by
  have read : incomingId r = ((r.headers.get? requestIdHeader).bind Headers.readable).bind fun s =>
      if (Text.trim s).isEmpty || (Text.trim s).utf8ByteSize > 128 then none else some (Text.trim s) := rfl
  rw [read,Option.bind_eq_some_iff]
  constructor
  · rintro ⟨s,text,chosen⟩
    obtain ⟨value,first,readable⟩ := Option.bind_eq_some_iff.mp text
    obtain ⟨visible,rfl⟩ := Headers.readable_iff.mp readable
    split at chosen
    · cases chosen
    · next counts =>
      cases chosen
      obtain ⟨left,short⟩ := not_not.mp (mt (refused_iff _).mpr counts)
      exact ⟨value,first,Headers.trims_trim visible,left,short⟩
  · rintro ⟨value,first,trims,left,short⟩
    refine ⟨_,Option.bind_eq_some_iff.mpr ⟨value,first,Headers.readable_iff.mpr ⟨trims.readable,rfl⟩⟩,?_⟩
    rw [trims.eq left,if_neg]
    exact fun refused => (refused_iff id).mp refused ⟨left,short⟩

theorem chosenId_chooses (r : Request) (m : Machine) : Chooses r (chosenId r m) := by
  cases given : incomingId r with
  | some id =>
    obtain ⟨value,first,accepts⟩ := incomingId_iff.mp given
    rw [chosenId,given]
    exact .incoming first accepts
  | none =>
    have made : Ids.isRequestId (chosenId r m) = true := by
      rw [chosenId,given]
      exact Ids.isRequestId_requestText _
    obtain ⟨length,alnum⟩ := Bool.and_eq_true_iff.mp made
    refine .fresh ?_ (beq_iff_eq.mp length) (List.all_eq_true.mp alnum)
    intro value id first accepts
    have some := incomingId_iff.mpr ⟨value,first,accepts⟩
    rw [given] at some
    cases some

theorem Chooses.headerValue (chooses : Chooses r id) :
    Http.headerValue? (Headers.ofText id) = some (Headers.ofText id) := by
  refine Headers.Readable.headerValue ?_
  cases chooses with
  | incoming first accepts =>
    intro b mem
    exact accepts.trims.readable b (accepts.trims.strips.subset mem)
  | fresh _ _ made => exact Headers.readable_ofText made

theorem Chooses.stamp (chooses : Chooses r id) (a : Answered) :
    stamp requestIdHeader id a = put requestIdHeader (Headers.ofText id) a := by
  rw [Stage.stamp,chooses.headerValue]

theorem put_same (name : String) (value : Bytes) (a : Answered) :
    (put name value a).response.headers.all name = [value] :=
  Headers.all_set_same a.response.headers name value

theorem put_other (different : other ≠ name) (value : Bytes) (a : Answered) :
    (put name value a).response.headers.all other = a.response.headers.all other :=
  Headers.all_set_other a.response.headers different value

end Stage

structure Answered.Secured (a : Answered) : Prop where
  protection : a.response.headers.all "x-xss-protection" = [Headers.ofText "1; mode=block"]
  options : a.response.headers.all "x-content-type-options" = [Headers.ofText "nosniff"]

theorem chain_secured (f : Endpoint) (rest : List Stage) (c : Context) (r : Request) (m : Machine) :
    ((chain f (Stage.secureHeaders :: rest) c r).run m).1.2.Secured := by
  have ran : (Stage.secureHeaders.enter rest.length c r).run m = (.proceeds c r fun c x => return (c,
      Stage.put "x-content-type-options" (Headers.ofText "nosniff")
        (Stage.put "x-xss-protection" (Headers.ofText "1; mode=block") x)),m) := rfl
  rw [run_chain_proceeds ran]
  refine ⟨?_,Stage.put_same _ _ _⟩
  have different : "x-xss-protection" ≠ "x-content-type-options" := by decide
  have kept := Stage.put_other different (Headers.ofText "nosniff")
    (Stage.put "x-xss-protection" (Headers.ofText "1; mode=block") ((chain f rest c r).run m).1.2)
  exact kept.trans (Stage.put_same _ _ _)

theorem Answered.Secured.put {a : Answered} (secured : a.Secured) (value : Bytes) :
    (Stage.put "x-request-id" value a).Secured :=
  ⟨(Stage.put_other (by decide) value a).trans secured.protection,
    (Stage.put_other (by decide) value a).trans secured.options⟩

-- Every response of every application has one request id, the one that the request and its context were given when it came
-- in; and where secure headers are wanted it has each of the two once.
theorem handle_stamped (settings : AppSettings) (first m : Machine) (r : Request) :
    let a := ((App.build settings).run first).1
    let answered := ((a.handle r).run m).1
    ∃ id, Stage.Chooses r id ∧
      (∃ j on, (Journey.start a r m).next a = some j ∧ j.context.requestId = some id ∧
        j.heading = .inwards .router a.stages.tail on ∧ on.stampedId = some id) ∧
      answered.response.headers.all "x-request-id" = [Headers.ofText id] ∧
      (settings.secureHeaders = true → answered.Secured) := by
  intro a answered
  let rest := (if settings.secureHeaders then [Stage.secureHeaders] else []) ++ settings.stages
  let c := ((a.opens r).run m).1
  let m' := ((a.opens r).run m).2
  have chosen := Stage.chosenId_chooses r m'
  let own := { c with requestId := some (Stage.chosenId r m') }
  obtain ⟨late,ran,_⟩ := Stage.run_requestId rest.length c r m'
  let inner := (chain a.route rest own { r with stampedId := some (Stage.chosenId r m') }).run late
  have whole : answered = Stage.put "x-request-id" (Headers.ofText (Stage.chosenId r m')) inner.1.2 := by
    have ran' : answered = ((chain a.route (Stage.requestId :: rest) c r).run m').1.2 := rfl
    rw [run_chain_proceeds ran] at ran'
    rw [ran']
    exact chosen.stamp inner.1.2
  refine ⟨Stage.chosenId r m',chosen,?_,?_,?_⟩
  · have entered : (Journey.start a r m).next a =
        some ((Journey.start a r m).enter .router Stage.requestId rest r) := rfl
    rw [Journey.enter_proceeds ran] at entered
    exact ⟨_,_,entered,rfl,rfl,rfl⟩
  · rw [whole]
    exact Stage.put_same _ _ _
  · intro secure
    have secured : inner.1.2.Secured := by
      simp only [inner,rest,secure,if_true]
      exact chain_secured a.route settings.stages own _ late
    rw [whole]
    exact secured.put _

end ServiceKit.Server
