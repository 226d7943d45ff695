import ServiceKit.Server.Listener

namespace ServiceKit.Server
open Text (Bytes)
variable {limit timeout n m : Nat} {as seen rest pieces : List Arrival} {a last : Arrival} {frame : Frame} {got before : Bytes}
  {r r' : Except BodyFault Bytes}

def Frame.bytes : Frame → Bytes
  | .data bytes => bytes
  | _ => []

def received (as : List Arrival) : Bytes := as.flatMap (·.frame.bytes)

-- What a frame decides that comes after some bytes: that there is too much, that the body is broken off, or that it is whole.
inductive Frame.Decides (limit : Nat) (before : Bytes) : Frame → Except BodyFault Bytes → Prop where
  | large {bytes : Bytes} (exceeds : limit < (before ++ bytes).length) : Decides limit before (.data bytes) (.error (.tooLarge limit))
  | broken {m : String} : Decides limit before (.broken m) (.error (.broken m))
  | whole : Decides limit before .finished (.ok before)

def Decides (limit : Nat) (as : List Arrival) (n : Nat) (r : Except BodyFault Bytes) : Prop :=
  ∃ a, as[n]? = some a ∧ a.frame.Decides limit (received (as.take n)) r

def Undecided (limit : Nat) (as : List Arrival) (n : Nat) : Prop := ∀ m < n, ∀ r, ¬ Decides limit as m r

def InTime (timeout : Nat) (as : List Arrival) (n : Nat) : Prop := ∀ a ∈ as.take (n + 1), a.time ≤ timeout

def Settled (limit timeout : Nat) (as : List Arrival) (r : Except BodyFault Bytes) : Prop :=
  ∃ n, Decides limit as n r ∧ Undecided limit as n ∧ InTime timeout as n

@[simp] theorem received_nil : received [] = [] := rfl

@[simp] theorem received_append (as bs : List Arrival) : received (as ++ bs) = received as ++ received bs := List.flatMap_append

theorem received_cons (a : Arrival) (as : List Arrival) : received (a :: as) = a.frame.bytes ++ received as := List.flatMap_cons

@[simp] theorem received_data (time : Nat) (bytes : Bytes) (as : List Arrival) :
    received (⟨time,.data bytes⟩ :: as) = bytes ++ received as := received_cons _ as

@[simp] theorem received_trailers (time : Nat) (fields : Headers) (as : List Arrival) :
    received (⟨time,.trailers fields⟩ :: as) = received as := received_cons _ as

theorem Frame.Decides.unique (one : frame.Decides limit before r) (other : frame.Decides limit before r') : r = r' := by
  cases one <;> cases other <;> rfl

-- At most one result is settled: of two places that decide with nothing decided before, neither is before the other.
theorem Settled.unique (one : Settled limit timeout as r) (other : Settled limit timeout as r') : r = r' := by
  obtain ⟨n,decides,first,_⟩ := one
  obtain ⟨m,decides',first',_⟩ := other
  rcases Nat.lt_trichotomy n m with less | rfl | more
  · exact absurd decides (first' n less r)
  · obtain ⟨a,found,decides⟩ := decides
    obtain ⟨b,found',decides'⟩ := decides'
    rw [found] at found'
    cases found'
    exact decides.unique decides'
  · exact absurd decides' (first m more r')

theorem undecided_concat (undecided : Undecided limit (seen ++ a :: rest) seen.length)
    (passes : ∀ r, ¬ a.frame.Decides limit (received seen) r) : Undecided limit (seen ++ a :: rest) (seen ++ [a]).length := by
  intro m earlier r decides
  rw [List.length_append,List.length_singleton,Nat.lt_succ_iff_lt_or_eq] at earlier
  rcases earlier with earlier | rfl
  · exact undecided m earlier r decides
  · obtain ⟨b,found,decides⟩ := decides
    rw [List.getElem?_append_right (Nat.le_refl _),Nat.sub_self,List.getElem?_cons_zero] at found
    cases found
    rw [List.take_left] at decides
    exact passes r decides

theorem settled_here (undecided : Undecided limit (seen ++ a :: rest) seen.length) (timely : ∀ b ∈ seen ++ [a], b.time ≤ timeout)
    (decides : a.frame.Decides limit (received seen) r) : Settled limit timeout (seen ++ a :: rest) r := by
  refine ⟨seen.length,⟨a,?_,?_⟩,undecided,?_⟩
  · simp
  · rwa [List.take_left]
  · intro b member
    rw [List.append_cons,List.take_left' (by simp)] at member
    exact timely b member

theorem late_unsettled (undecided : Undecided limit (seen ++ rest) seen.length)
    (late : ∀ a ∈ rest.head?, timeout < a.time) : ¬ Settled limit timeout (seen ++ rest) r := by
  intro ⟨n,decides,_,timely⟩
  rcases Nat.lt_or_ge n seen.length with earlier | later
  · exact undecided n earlier r decides
  · obtain ⟨a,found,_⟩ := decides
    cases rest with
    | nil =>
      rw [List.append_nil] at found
      exact absurd (List.getElem?_eq_some_iff.mp found).1 (Nat.not_lt.mpr later)
    | cons b rest =>
      have taken : b ∈ (seen ++ b :: rest).take (n + 1) := by
        rw [List.take_append,List.mem_append]
        right
        rw [Nat.succ_sub later,List.take_succ_cons]
        exact List.mem_cons_self
      exact Nat.not_lt.mpr (timely b taken) (late b rfl)

-- The invariant of the loop: nothing taken so far decided, all of it was in time, and its data is what was got.
theorem readBody_settled (undecided : Undecided limit (seen ++ rest) seen.length) (timely : ∀ a ∈ seen, a.time ≤ timeout) :
    Settled limit timeout (seen ++ rest) (readBody limit timeout (received seen) rest) ∨
      readBody limit timeout (received seen) rest = .error .tooSlow ∧ ∀ r, ¬ Settled limit timeout (seen ++ rest) r := by
  induction rest generalizing seen with
  | nil => exact .inr ⟨rfl,fun r => late_unsettled undecided (by simp)⟩
  | cons a rest ih =>
    rw [readBody]
    by_cases late : timeout < a.time
    · rw [if_pos late]
      refine .inr ⟨rfl,fun r => late_unsettled undecided ?_⟩
      intro b head
      cases head
      exact late
    · rw [if_neg late]
      have timely : ∀ b ∈ seen ++ [a], b.time ≤ timeout := by
        intro b member
        rcases List.mem_append.mp member with old | new
        · exact timely b old
        · cases List.mem_singleton.mp new
          exact Nat.not_lt.mp late
      -- A frame that decides nothing is taken, and the loop goes on with one arrival more behind it.
      have passed (passes : ∀ r, ¬ a.frame.Decides limit (received seen) r) :=
        @ih (seen ++ [a]) (by simpa using undecided_concat undecided passes) timely
      obtain ⟨time,frame⟩ := a
      cases frame with
      | finished => exact .inl (settled_here undecided timely .whole)
      | broken m => exact .inl (settled_here undecided timely .broken)
      | trailers fields =>
        have passes (r : Except BodyFault Bytes) : ¬ (Frame.trailers fields).Decides limit (received seen) r := nofun
        simpa using passed passes
      | data bytes =>
        dsimp only
        split
        · next exceeds => exact .inl (settled_here undecided timely (.large (by simpa using exceeds)))
        · next fits =>
          have passes (r : Except BodyFault Bytes) : ¬ (Frame.data bytes).Decides limit (received seen) r := by
            intro decides
            cases decides with
            | large exceeds => exact fits (by simpa using exceeds)
          simpa using passed passes

theorem readBody_iff : readBody limit timeout [] as = r ↔
    Settled limit timeout as r ∨ r = .error .tooSlow ∧ ∀ r', ¬ Settled limit timeout as r' := by
  have start : Undecided limit as 0 := fun m earlier => absurd earlier (Nat.not_lt_zero m)
  have outcome : Settled limit timeout as (readBody limit timeout [] as) ∨
      readBody limit timeout [] as = .error .tooSlow ∧ ∀ r, ¬ Settled limit timeout as r :=
    @readBody_settled limit timeout [] as start (by simp)
  constructor
  · rintro rfl
    exact outcome
  · rintro (settled | ⟨rfl,unsettled⟩)
    · rcases outcome with same | ⟨_,unsettled⟩
      · exact same.unique settled
      · exact absurd settled (unsettled r)
    · rcases outcome with settled | ⟨same,_⟩
      · exact absurd settled (unsettled _)
      · exact same

def Frame.flows : Frame → Bool
  | .data _ | .trailers _ => true
  | .broken _ | .finished => false

theorem readBody_flows (within : got.length ≤ limit) (flows : ∀ p ∈ pieces, p.frame.flows = true)
    (timely : ∀ p ∈ pieces, p.time ≤ timeout) (ends : last.frame = .finished) (soon : last.time ≤ timeout) :
    readBody limit timeout got (pieces ++ last :: rest) =
      if (got ++ received pieces).length ≤ limit then .ok (got ++ received pieces) else .error (.tooLarge limit) := by
  induction pieces generalizing got with
  | nil =>
    rw [List.nil_append,readBody,if_neg (Nat.not_lt.mpr soon),ends]
    simp [received,within]
  | cons p pieces ih =>
    have flows' : ∀ q ∈ pieces, q.frame.flows = true := fun q member => flows q (List.mem_cons_of_mem _ member)
    have timely' : ∀ q ∈ pieces, q.time ≤ timeout := fun q member => timely q (List.mem_cons_of_mem _ member)
    have inTime := timely p List.mem_cons_self
    have flowing := flows p List.mem_cons_self
    obtain ⟨time,frame⟩ := p
    rw [List.cons_append,readBody,if_neg (Nat.not_lt.mpr inTime)]
    cases frame with
    | finished | broken _ => cases flowing
    | trailers fields =>
      rw [received_trailers]
      exact ih within flows' timely'
    | data bytes =>
      rw [received_data,← List.append_assoc]
      dsimp only
      split
      · next exceeds =>
        rw [if_neg]
        simp only [List.length_append]
        omega
      · next fits =>
        refine ih ?_ flows' timely'
        rw [List.length_append]
        exact Nat.not_lt.mp fits

-- What comes first decides the reading of a body, and what it was decides the refusal. Of a body that neither stalls nor breaks
-- off only the bytes matter, and they are refused iff they are more than the limit.
theorem readBody_decided (limit timeout : Nat) (as : List Arrival) :
    (∀ r, readBody limit timeout [] as = r ↔
      Settled limit timeout as r ∨ r = .error .tooSlow ∧ ∀ r', ¬ Settled limit timeout as r') ∧
    (∀ fault : BodyFault, (fault.toEnvelope.status,fault.toEnvelope.code) =
      match fault with
      | .tooLarge _ => (413,"ERROR_PAYLOAD_TOO_LARGE")
      | .broken _ => (400,"ERROR_PARSING_BODY")
      | .tooSlow => (408,"ERROR_PARSING_BODY")) ∧
    ∀ pieces last rest, as = pieces ++ last :: rest → (∀ p ∈ pieces, p.frame.flows = true) → last.frame = .finished →
      (∀ p ∈ pieces ++ [last], p.time ≤ timeout) → readBody limit timeout [] as =
        if (received pieces).length ≤ limit then .ok (received pieces) else .error (.tooLarge limit) := by
  refine ⟨fun r => readBody_iff,?_,?_⟩
  · intro fault
    cases fault <;> rfl
  · rintro pieces last rest rfl flows ends timely
    have soon := timely last (List.mem_append_right _ (List.mem_singleton_self _))
    exact readBody_flows (Nat.zero_le _) flows (fun p member => timely p (List.mem_append_left _ member)) ends soon

def greeting : List Arrival :=
  [⟨0,.data [104,101]⟩,⟨10,.data []⟩,⟨1000,.data [108,108,111]⟩,⟨1000,.trailers []⟩]

theorem greeting_read : (∀ p ∈ greeting, p.frame.flows = true) ∧ (∀ p ∈ greeting ++ [⟨1000,.finished⟩], p.time ≤ 1000) ∧
    readBody 5 1000 [] (greeting ++ [⟨1000,.finished⟩]) = .ok [104,101,108,108,111] ∧
    readBody 4 1000 [] (greeting ++ [⟨1000,.finished⟩]) = .error (.tooLarge 4) := by
  have flows : ∀ p ∈ greeting, p.frame.flows = true := by decide
  have timely : ∀ p ∈ greeting ++ [⟨1000,.finished⟩], p.time ≤ 1000 := by decide
  exact ⟨flows,timely,(readBody_decided 5 1000 _).2.2 greeting _ [] rfl flows rfl timely,
    (readBody_decided 4 1000 _).2.2 greeting _ [] rfl flows rfl timely⟩

end ServiceKit.Server
