import Mathlib.Data.List.Perm.Basic
import Mathlib.Data.List.Nodup
import ServiceKit.Notification.Dispatch

namespace ServiceKit

namespace Notification
variable {n n' : Notification} {type : String}

-- Two notifications that differ at most in the destinations of sinks of other types.
structure Alike (type : String) (n n' : Notification) : Prop where
  rest : { n with destinations := n'.destinations } = n'
  entries : n.destinations.filter (·.1 == type) = n'.destinations.filter (·.1 == type)

theorem destinationFor_entries (n : Notification) (type : String) :
    n.destinationFor type = ((n.destinations.filter (·.1 == type)).head?).map (·.2) := by
  unfold destinationFor
  rw [List.head?_filter]

theorem Alike.destinationFor (alike : Alike type n n') : n.destinationFor type = n'.destinationFor type := by
  rw [destinationFor_entries,destinationFor_entries,alike.entries]

theorem Alike.traceId (alike : Alike type n n') : n.traceId = n'.traceId := by
  rw [← alike.rest]

theorem mem_of_destinationFor {a : String} (found : n.destinationFor type = some a) : (type,a) ∈ n.destinations := by
  obtain ⟨⟨type',a'⟩,first,rfl⟩ := Option.map_eq_some_iff.mp found
  have same : type' = type := by simpa using List.find?_some first
  subst same
  exact List.mem_of_find?_eq_some first

theorem not_mem_of_destinationFor (missing : n.destinationFor type = none) (a : String) :
    (type,a) ∉ n.destinations := by
  intro entry
  have none := List.find?_eq_none.mp (Option.map_eq_none_iff.mp missing) (type,a) entry
  simp at none

theorem alike_destination {other address : String} (different : other ≠ type) :
    Alike type n (n.destination other address) := by
  refine ⟨rfl,?_⟩
  show _ = (putDestination other address n.destinations).filter _
  induction n.destinations with
  | nil => simp [putDestination,different]
  | cons entry rest ih =>
    obtain ⟨sink,a⟩ := entry
    unfold putDestination
    split
    · next same => subst same; simp [different]
    · split
      · simp [different]
      · simp only [List.filter_cons]
        split <;> simp [ih]

end Notification

theorem Sink.send_alike {n n' : Notification} {s : Sink} (alike : n.Alike s.type n') (network : Network)
    (d : Delivery) : s.send network d n = s.send network d n' := by
  obtain ⟨rest,_⟩ := alike
  rw [← rest]
  cases s <;> rfl

namespace Dispatch
variable {outlets : List Outlet} {trace : String} {n n' : Notification} {c d : Call} {i : Nat} {o : Outlet}
  {rs : List (Except SinkError Unit)}

theorem mem_active : (i,o) ∈ active outlets ↔ outlets[i]? = some o ∧ o.active = true := by
  simp [active,List.mk_mem_zipIdx_iff_getElem?]

theorem active_increasing (outlets : List Outlet) : ((active outlets).map (·.1)).Pairwise (· < ·) := by
  have places : (outlets.zipIdx.map Prod.swap).map (·.1) = List.range' 0 outlets.length := by
    simp [List.map_map,Function.comp_def]
  have kept := (List.filter_sublist (p := fun a => a.2.active) (l := outlets.zipIdx.map Prod.swap)).map (·.1)
  rw [places] at kept
  exact List.Pairwise.sublist kept List.pairwise_lt_range'

def owed (outlets : List Outlet) (trace : String) (n : Notification) (i : Nat) : List (Nat × Delivery) :=
  match outlets[i]? with
  | none => []
  | some o => if o.active then [(i,⟨trace,n.destinationFor o.type⟩)] else []

theorem filter_place {α : Type} {l : List (Nat × α)} {a : α} (distinct : (l.map (·.1)).Nodup) (mem : (i,a) ∈ l) :
    l.filter (·.1 == i) = [(i,a)] := by
  induction l with
  | nil => cases mem
  | cons first rest ih =>
    obtain ⟨fresh,distinct⟩ := List.nodup_cons.mp distinct
    rcases List.mem_cons.mp mem with rfl | later
    · have none : rest.filter (·.1 == i) = [] := by
        refine List.filter_eq_nil_iff.mpr ?_
        intro b present same
        exact fresh (List.mem_map.mpr ⟨b,present,by simpa using same⟩)
      simp [none]
    · have other : first.1 ≠ i := by
        intro same
        exact fresh (List.mem_map.mpr ⟨(i,a),later,same.symm⟩)
      simp [other,ih distinct later]

theorem due_places (outlets : List Outlet) (trace : String) (n : Notification) :
    (due outlets trace n).map (·.1) = (active outlets).map (·.1) := by
  simp [due,Function.comp_def]

theorem due_filter (outlets : List Outlet) (trace : String) (n : Notification) (i : Nat) :
    (due outlets trace n).filter (·.1 == i) = owed outlets trace n i := by
  have distinct : ((due outlets trace n).map (·.1)).Nodup := by
    rw [due_places]
    exact (active_increasing outlets).imp Nat.ne_of_lt
  by_cases sent : ∃ o, outlets[i]? = some o ∧ o.active = true
  · obtain ⟨o,found,on⟩ := sent
    have mem : (i,⟨trace,n.destinationFor o.type⟩) ∈ due outlets trace n :=
      List.mem_map.mpr ⟨(i,o),mem_active.mpr ⟨found,on⟩,rfl⟩
    rw [filter_place distinct mem]
    simp [owed,found,on]
  · have none : (due outlets trace n).filter (·.1 == i) = [] := by
      refine List.filter_eq_nil_iff.mpr ?_
      intro d present same
      obtain ⟨⟨j,o⟩,active,rfl⟩ := List.mem_map.mp present
      have here : j = i := by simpa using same
      subst here
      exact sent ⟨o,mem_active.mp active⟩
    rw [none]
    unfold owed
    split
    · rfl
    · next o found =>
      split
      · next on => exact absurd ⟨o,found,on⟩ sent
      · rfl

theorem owed_cases (outlets : List Outlet) (trace : String) (n : Notification) (i : Nat) :
    owed outlets trace n i = [] ∨ ∃ d, owed outlets trace n i = [d] := by
  unfold owed
  split
  · exact .inl rfl
  · split
    · exact .inr ⟨_,rfl⟩
    · exact .inl rfl

theorem sublist_owed {l : List (Nat × Delivery)} (kept : l.Sublist (owed outlets trace n i)) :
    l = [] ∨ l = owed outlets trace n i := by
  rcases owed_cases outlets trace n i with none | ⟨d,one⟩
  · rw [none] at kept
    exact .inl (List.sublist_nil.mp kept)
  · rw [one] at kept ⊢
    exact List.sublist_singleton.mp kept

theorem perm_owed {l : List (Nat × Delivery)} (same : l.Perm (owed outlets trace n i)) :
    l = owed outlets trace n i := by
  rcases owed_cases outlets trace n i with none | ⟨d,one⟩
  · rw [none] at same ⊢
    exact List.perm_nil.mp same
  · rw [one] at same ⊢
    exact List.perm_singleton.mp same

theorem owed_alike (found : outlets[i]? = some o) (alike : n.Alike o.type n') :
    owed outlets trace n i = owed outlets trace n' i := by
  simp [owed,found,alike.destinationFor]

namespace Sending

def begun (s : Sending) : Bool :=
  match s.phase with
  | .waiting => false
  | _ => true

def answer? (s : Sending) : Option (Nat × Except SinkError Unit) := s.result?.map (s.place,·)

end Sending

def Call.weight (c : Call) : Nat :=
  c.sends.countP (fun s => !s.begun) + c.sends.countP fun s => s.result?.isNone

-- The sends of a call are for what is due, and the sinks have seen what is begun and answered what is ended.
structure Standing (outlets : List Outlet) (trace : String) (n : Notification) (c : Call) : Prop where
  sends : c.sends.map Sending.handed = due outlets trace n
  handed : c.handed.Perm ((c.sends.filter Sending.begun).map Sending.handed)
  answers : c.answers.Perm (c.sends.filterMap Sending.answer?)

theorem start_standing (outlets : List Outlet) (trace : String) (n : Notification) :
    Standing outlets trace n (start outlets trace n) := by
  have waiting : ∀ s ∈ (due outlets trace n).map Sending.new, s.phase = .waiting := by
    intro s present
    obtain ⟨d,_,rfl⟩ := List.mem_map.mp present
    rfl
  refine ⟨?_,?_,?_⟩
  · simp [start,Sending.new,Sending.handed,Function.comp_def]
  · have none : (start outlets trace n).sends.filter Sending.begun = [] := by
      refine List.filter_eq_nil_iff.mpr ?_
      intro s present
      simp [Sending.begun,waiting s present]
    rw [none]
    rfl
  · have none : (start outlets trace n).sends.filterMap Sending.answer? = [] := by
      refine List.filterMap_eq_nil_iff.mpr ?_
      intro s present
      simp [Sending.answer?,Sending.result?,waiting s present]
    rw [none]
    rfl

theorem perm_insert {α : Type} {l before after : List α} (same : l.Perm (before ++ after)) (x : α) :
    (l ++ [x]).Perm (before ++ x :: after) :=
  calc (l ++ [x]).Perm (x :: l) := List.perm_append_singleton x l
    _ |>.Perm (x :: (before ++ after)) := same.cons x
    _ |>.Perm (before ++ x :: after) := List.perm_middle.symm

theorem step_standing (standing : Standing outlets trace n c) (next : Step c d) : Standing outlets trace n d := by
  obtain ⟨sent,handed,answers⟩ := standing
  cases next with
  | @begins before s after sends waiting =>
    rw [sends] at sent handed answers
    refine ⟨?_,?_,?_⟩
    · simpa [Sending.handed] using sent
    · simp only [List.filter_append,List.filter_cons,List.map_append,Sending.begun,waiting] at handed ⊢
      exact perm_insert handed _
    · simpa [List.filterMap_cons,Sending.answer?,Sending.result?,waiting] using answers
  | @ends before s after r sends sending =>
    rw [sends] at sent handed answers
    refine ⟨?_,?_,?_⟩
    · simpa [Sending.handed] using sent
    · simpa [List.filter_cons,Sending.begun,sending,Sending.handed] using handed
    · simp only [List.filterMap_append,List.filterMap_cons,Sending.answer?,Sending.result?,sending,Option.map_none,
        Option.map_some] at answers ⊢
      exact perm_insert answers _

theorem reached_standing (path : Reached (start outlets trace n) c) : Standing outlets trace n c := by
  induction path with
  | refl => exact start_standing outlets trace n
  | step _ next ih => exact step_standing ih next

theorem step_weight (next : Step c d) : d.weight + 1 = c.weight := by
  cases next with
  | begins sends waiting =>
    simp [Call.weight,sends,Sending.begun,Sending.result?,waiting]
    omega
  | ends sends sending =>
    simp [Call.weight,sends,Sending.begun,Sending.result?,sending]
    omega

theorem Standing.handed_sublist (standing : Standing outlets trace n c) (i : Nat) :
    c.handed.filter (·.1 == i) = [] ∨ c.handed.filter (·.1 == i) = owed outlets trace n i := by
  obtain ⟨sent,handed,_⟩ := standing
  have seen := handed.filter (·.1 == i)
  have kept := ((List.filter_sublist (p := Sending.begun) (l := c.sends)).map Sending.handed).filter (·.1 == i)
  rw [sent,due_filter] at kept
  rcases sublist_owed kept with none | all
  · rw [none] at seen
    exact .inl (List.perm_nil.mp seen)
  · rw [all] at seen
    exact .inr (perm_owed seen)

theorem Standing.unhindered (standing : Standing outlets trace n c)
    (missing : c.handed.filter (·.1 == i) ≠ owed outlets trace n i) :
    ∃ d, Step c d ∧ d.handed.filter (·.1 == i) = owed outlets trace n i := by
  have none := (standing.handed_sublist i).resolve_right missing
  obtain ⟨sent,handed,_⟩ := standing
  obtain ⟨d,one⟩ := (owed_cases outlets trace n i).resolve_left fun nothing => missing (none.trans nothing.symm)
  have due : d ∈ (c.sends.map Sending.handed).filter (·.1 == i) := by
    rw [sent,due_filter,one]
    exact List.mem_singleton_self d
  obtain ⟨due,here⟩ := List.mem_filter.mp due
  obtain ⟨s,present,rfl⟩ := List.mem_map.mp due
  have waiting : s.phase = .waiting := by
    by_contra begun
    have seen : s.handed ∈ c.handed := by
      refine handed.mem_iff.mpr (List.mem_map_of_mem (List.mem_filter.mpr ⟨present,?_⟩))
      unfold Sending.begun
      split
      · next waiting => exact absurd waiting begun
      · rfl
    exact List.filter_eq_nil_iff.mp none _ seen here
  obtain ⟨before,after,split⟩ := List.append_of_mem present
  refine ⟨_,.begins split waiting,?_⟩
  simp only [List.filter_append,none,List.nil_append,one,List.filter_cons,here,if_true,List.filter_nil]

theorem results_eq_some (sends : List Sending) :
    sends.mapM Sending.result? = some rs ↔ sends.map Sending.result? = rs.map some := by
  induction sends generalizing rs with
  | nil => cases rs <;> simp
  | cons s rest ih =>
    rw [List.mapM_cons]
    cases rs with
    | nil => simp [Option.bind_eq_some_iff]
    | cons r rs =>
      simp only [Option.bind_eq_bind,Option.bind_eq_some_iff,Option.pure_def,Option.some.injEq,List.cons.injEq,ih,
        List.map_cons]
      constructor
      · rintro ⟨_,found,_,others,rfl,rfl⟩
        exact ⟨found,others⟩
      · rintro ⟨found,others⟩
        exact ⟨r,found,rs,others,rfl,rfl⟩

theorem results_eq_none (sends : List Sending) (unfinished : sends.mapM Sending.result? = none) :
    ∃ s ∈ sends, s.result? = none := by
  by_contra every
  have ended : sends.map Sending.result? = (sends.filterMap Sending.result?).map some := by
    rw [List.map_filterMap_some_eq_filter_map_isSome,List.filter_eq_self.mpr]
    intro r found
    obtain ⟨s,present,rfl⟩ := List.mem_map.mp found
    exact Option.isSome_iff_ne_none.mpr fun none => every ⟨s,present,none⟩
  rw [(results_eq_some sends).mpr ended] at unfinished
  cases unfinished

theorem begun_of_results {sends : List Sending} (own : sends.map Sending.result? = rs.map some) :
    ∀ s ∈ sends, s.begun = true := by
  intro s present
  have found : s.result? ∈ rs.map some := own ▸ List.mem_map_of_mem present
  obtain ⟨r,_,same⟩ := List.mem_map.mp found
  cases phase : s.phase with
  | waiting => simp [Sending.result?,phase] at same
  | sending | ended _ => simp [Sending.begun,phase]

theorem answers_zip (sends : List Sending) (own : sends.map Sending.result? = rs.map some) :
    sends.filterMap Sending.answer? = (sends.map (·.place)).zip rs := by
  induction sends generalizing rs with
  | nil => simp
  | cons s rest ih =>
    cases rs with
    | nil => simp at own
    | cons r rs =>
      obtain ⟨found,others⟩ := List.cons.inj own
      simp [Sending.answer?,found,ih others]

theorem goes_on (unfinished : c.results? = none) : ∃ d, Step c d := by
  obtain ⟨s,present,running⟩ := results_eq_none c.sends unfinished
  obtain ⟨before,after,split⟩ := List.append_of_mem present
  cases phase : s.phase with
  | waiting => exact ⟨_,.begins split phase⟩
  | sending => exact ⟨_,.ends (r := .ok ()) split phase⟩
  | ended r => simp [Sending.result?,phase] at running

-- Once all sends have ended, each sink due was handed its delivery, and the results are the sinks' own, in their order.
theorem Standing.returned (standing : Standing outlets trace n c) (results : c.results? = some rs) :
    c.handed.Perm (due outlets trace n) ∧ rs.length = (active outlets).length ∧
      c.answers.Perm (((active outlets).map (·.1)).zip rs) := by
  obtain ⟨sent,handed,answers⟩ := standing
  have own := (results_eq_some c.sends).mp results
  have places : (active outlets).map (·.1) = c.sends.map (·.place) := by
    rw [← due_places outlets trace n,← sent,List.map_map]
    rfl
  refine ⟨?_,?_,?_⟩
  · have begun : c.sends.filter Sending.begun = c.sends := List.filter_eq_self.mpr (begun_of_results own)
    rwa [begun,sent] at handed
  · have count := congrArg List.length own
    have count' := congrArg List.length places
    simp only [List.length_map] at count count'
    rw [count',count]
  · rwa [places,← answers_zip c.sends own]

-- What is true of a call at any time, whatever its sinks have answered so far.
structure Sound (outlets : List Outlet) (trace : String) (n : Notification) (c : Call) : Prop where
  -- A sink was handed nothing yet, or what it is owed, once.
  handed : ∀ i, c.handed.filter (·.1 == i) = [] ∨ c.handed.filter (·.1 == i) = owed outlets trace n i
  addressed : ∀ i d, (i,d) ∈ c.handed → d.traceId = trace ∧ ∃ o, outlets[i]? = some o ∧ o.active = true ∧
    (∀ a, d.destination = some a → (o.type,a) ∈ n.destinations) ∧
    (d.destination = none → ∀ a, (o.type,a) ∉ n.destinations)
  unhindered : ∀ i, c.handed.filter (·.1 == i) ≠ owed outlets trace n i →
    ∃ d, Step c d ∧ d.handed.filter (·.1 == i) = owed outlets trace n i
  goesOn : c.results? = none → ∃ d, Step c d
  ends : ∀ d, Step c d → d.weight < c.weight
  -- The results are the answers of the active sinks, in the order of their places.
  returned : ∀ rs, c.results? = some rs → (∀ i, c.handed.filter (·.1 == i) = owed outlets trace n i) ∧
    ∃ places : List Nat, places.Pairwise (· < ·) ∧ (∀ i, i ∈ places ↔ ∃ o, outlets[i]? = some o ∧ o.active = true) ∧
      rs.length = places.length ∧ c.answers.Perm (places.zip rs)

theorem Standing.addressed (standing : Standing outlets trace n c) {delivery : Delivery}
    (given : (i,delivery) ∈ c.handed) : delivery.traceId = trace ∧ ∃ o, outlets[i]? = some o ∧ o.active = true ∧
      (∀ a, delivery.destination = some a → (o.type,a) ∈ n.destinations) ∧
      (delivery.destination = none → ∀ a, (o.type,a) ∉ n.destinations) := by
  obtain ⟨sent,handed,_⟩ := standing
  obtain ⟨s,begun,same⟩ := List.mem_map.mp (handed.mem_iff.mp given)
  have due : (i,delivery) ∈ due outlets trace n := by
    rw [← sent,← same]
    exact List.mem_map_of_mem (List.mem_of_mem_filter begun)
  obtain ⟨⟨j,o⟩,active,same⟩ := List.mem_map.mp due
  cases same
  obtain ⟨found,on⟩ := mem_active.mp active
  exact ⟨rfl,o,found,on,fun _ => Notification.mem_of_destinationFor,Notification.not_mem_of_destinationFor⟩

theorem reached_sound (path : Reached (start outlets trace n) c) : Sound outlets trace n c := by
  have standing := reached_standing path
  refine ⟨standing.handed_sublist,?_,?_,goes_on,?_,?_⟩
  · intro i d given
    exact standing.addressed given
  · intro i missing
    exact standing.unhindered missing
  · intro d next
    have less := step_weight next
    omega
  · intro rs results
    obtain ⟨handed,count,answers⟩ := standing.returned results
    refine ⟨?_,(active outlets).map (·.1),active_increasing outlets,?_,?_,answers⟩
    · intro i
      have seen := handed.filter (·.1 == i)
      rw [due_filter] at seen
      exact perm_owed seen
    · intro i
      simp [mem_active]
    · rw [count,List.length_map]

end Dispatch

namespace Sent

def handed (s : Sent) : Nat × Delivery := (s.place,s.delivery)
def answer (s : Sent) : Nat × Except SinkError Unit := (s.place,s.result)
def ended (s : Sent) : Dispatch.Sending := ⟨s.place,s.delivery,.ended s.result⟩

end Sent

namespace Dispatch
variable {network : Network} {f : Fanout} {caller : Caller} {w : World}

theorem reached_rest {first : Call} (done : List Sending) (sent : List Sent) (path : Reached first c)
    (sends : c.sends = done ++ sent.map fun s => .new s.handed) :
    Reached first ⟨done ++ sent.map Sent.ended,c.handed ++ sent.map Sent.handed,c.answers ++ sent.map Sent.answer⟩ := by
  induction sent generalizing c done with
  | nil =>
    have same : c.sends = done := by simpa using sends
    subst same
    simpa using path
  | cons s rest ih =>
    have begun := Reached.step path (.begins (s := .new s.handed) sends rfl)
    have ended := Reached.step begun (.ends (r := s.result) rfl rfl)
    have onward := ih (done ++ [s.ended]) ended (by simp [Sent.ended,Sending.new,Sent.handed])
    simpa [Sending.new,Sending.handed,Sent.handed,Sent.answer,Sent.ended] using onward

theorem active_outlets (f : Fanout) : active (f.sinks.map Sink.outlet) = f.active.map fun p => (p.1,p.2.outlet) := by
  unfold active Fanout.active
  rw [List.zipIdx_map,List.map_map,List.filter_map,List.filter_map,List.map_map]
  rfl

theorem deliver_due (network : Network) (f : Fanout) (trace : String) (n : Notification) :
    (f.deliver network trace n).map Sent.handed = due (f.sinks.map Sink.outlet) trace n := by
  unfold due Fanout.deliver
  rw [active_outlets,List.map_map,List.map_map]
  rfl

theorem call_eq (network : Network) (f : Fanout) (caller : Caller) (n : Notification) (w : World) :
    f.call network caller n w = f.deliver network (caller.trace n w).1 n := by
  unfold Fanout.call Caller.trace Fanout.notify Fanout.dispatch
  cases n.traceId <;> cases caller <;> rfl

-- What the sinks have answered is what each of them makes of the delivery that it was handed.
def Call.Own (network : Network) (f : Fanout) (n : Notification) (c : Call) : Prop :=
  ∀ i r, (i,r) ∈ c.answers → ∃ s d, f.sinks[i]? = some s ∧ (i,d) ∈ c.handed ∧ r = s.send network d n

-- One send for each active sink, in the order of their places, and none for any other; each comes to what the sink makes of it.
structure Serves (network : Network) (f : Fanout) (trace : String) (n : Notification) (sent : List Sent) : Prop where
  increasing : (sent.map (·.place)).Pairwise (· < ·)
  own : ∀ x, x ∈ sent ↔ ∃ i s, f.sinks[i]? = some s ∧ s.isActive = true ∧
    x = ⟨i,s,⟨trace,n.destinationFor s.type⟩,s.send network ⟨trace,n.destinationFor s.type⟩ n⟩

theorem mem_fanout_active {i : Nat} {s : Sink} : (i,s) ∈ f.active ↔ f.sinks[i]? = some s ∧ s.isActive = true := by
  simp [Fanout.active,List.mk_mem_zipIdx_iff_getElem?]

theorem deliver_serves (network : Network) (f : Fanout) (trace : String) (n : Notification) :
    Serves network f trace n (f.deliver network trace n) := by
  refine ⟨?_,?_⟩
  · have places : (f.deliver network trace n).map (·.place) = (active (f.sinks.map Sink.outlet)).map (·.1) := by
      rw [← due_places _ trace n,← deliver_due network,List.map_map]
      rfl
    rw [places]
    exact active_increasing _
  · intro x
    constructor
    · intro present
      obtain ⟨⟨i,s⟩,active,rfl⟩ := List.mem_map.mp present
      obtain ⟨found,on⟩ := mem_fanout_active.mp active
      exact ⟨i,s,found,on,rfl⟩
    · rintro ⟨i,s,found,on,rfl⟩
      exact List.mem_map.mpr ⟨(i,s),mem_fanout_active.mpr ⟨found,on⟩,rfl⟩

theorem results_same {sends : List Sending} {sent : List Sent} (same : sends.map Sending.handed = sent.map Sent.handed)
    (each : ∀ s ∈ sends, ∀ r, s.result? = some r → ∀ x ∈ sent, x.handed = s.handed → r = x.result)
    (results : sends.map Sending.result? = rs.map some) : rs = sent.map (·.result) := by
  induction sends generalizing sent rs with
  | nil =>
    obtain rfl : sent = [] := by simpa using same.symm
    obtain rfl : rs = [] := by simpa using results.symm
    rfl
  | cons s sends ih =>
    obtain ⟨x,sent,rfl⟩ := List.exists_cons_of_length_pos (l := sent) (by
      have count := congrArg List.length same
      simp only [List.length_map,List.length_cons] at count
      omega)
    cases rs with
    | nil => simp at results
    | cons r rs =>
      obtain ⟨first,others⟩ := List.cons.inj same
      obtain ⟨found,later⟩ := List.cons.inj results
      have own := each s List.mem_cons_self r found x List.mem_cons_self first.symm
      have rest := ih others (fun s' present r' ended y inside =>
        each s' (List.mem_cons_of_mem _ present) r' ended y (List.mem_cons_of_mem _ inside)) later
      rw [own,rest,List.map_cons]

theorem Standing.results_own (standing : Standing (f.sinks.map Sink.outlet) trace n c) (own : c.Own network f n)
    (results : c.results? = some rs) : rs = (f.deliver network trace n).map (·.result) := by
  have places : ((due (f.sinks.map Sink.outlet) trace n).map (·.1)).Nodup := by
    rw [due_places]
    exact (active_increasing _).imp Nat.ne_of_lt
  obtain ⟨sent,handed,answers⟩ := standing
  refine results_same (sent.trans (deliver_due network f trace n).symm) ?_ ((results_eq_some _).mp results)
  intro s present r ended x inside same
  have answered : (s.place,r) ∈ c.answers :=
    answers.mem_iff.mpr (List.mem_filterMap.mpr ⟨s,present,by simp [Sending.answer?,ended]⟩)
  obtain ⟨sink,d,found,given,rfl⟩ := own _ _ answered
  obtain ⟨i,sink',found',_,rfl⟩ := (deliver_serves network f trace n).own x |>.mp inside
  obtain ⟨rfl,delivered⟩ := Prod.mk.inj same
  obtain rfl : sink = sink' := Option.some.inj (found.symm.trans found')
  obtain ⟨s',begun,there⟩ := List.mem_map.mp (handed.mem_iff.mp given)
  have due' : (s.place,d) ∈ due (f.sinks.map Sink.outlet) trace n := by
    rw [← sent,← there]
    exact List.mem_map_of_mem (List.mem_of_mem_filter begun)
  have due : (s.place,s.delivery) ∈ due (f.sinks.map Sink.outlet) trace n := by
    rw [← sent]
    exact List.mem_map_of_mem present
  have alone := filter_place places due'
  have delivery : (s.place,s.delivery) ∈ [(s.place,d)] := by
    rw [← alone]
    exact List.mem_filter.mpr ⟨due,by simp⟩
  obtain ⟨_,rfl⟩ := Prod.mk.inj (List.mem_singleton.mp delivery)
  rw [← delivered]

theorem call_reached (network : Network) (f : Fanout) (caller : Caller) (n : Notification) (w : World) :
    ∃ c, Reached (start (f.sinks.map Sink.outlet) (caller.trace n w).1 n) c ∧ c.Own network f n ∧
      c.handed = (f.call network caller n w).map Sent.handed ∧
      c.results? = some ((f.call network caller n w).map (·.result)) := by
  rw [call_eq]
  let sent := f.deliver network (caller.trace n w).1 n
  have sends : (start (f.sinks.map Sink.outlet) (caller.trace n w).1 n).sends =
      [] ++ sent.map fun s => .new s.handed := by
    simp only [start,← deliver_due network,List.map_map,List.nil_append]
    rfl
  refine ⟨_,reached_rest [] sent .refl sends,?_,rfl,?_⟩
  · intro i r answered
    obtain ⟨x,inside,same⟩ := List.mem_map.mp answered
    obtain ⟨j,s,found,_,rfl⟩ := ((deliver_serves network f _ n).own x).mp inside
    obtain ⟨rfl,rfl⟩ := Prod.mk.inj same
    exact ⟨s,_,found,List.mem_map.mpr ⟨_,inside,rfl⟩,rfl⟩
  · refine (results_eq_some _).mpr ?_
    simp [Sent.ended,Sending.result?,Function.comp_def,sent]

theorem trace_alike {type : String} (alike : n.Alike type n') : (caller.trace n w).1 = (caller.trace n' w).1 := by
  unfold Caller.trace
  rw [alike.traceId]

theorem call_alike {s : Sink} (found : f.sinks[i]? = some s) (alike : n.Alike s.type n') :
    (f.call network caller n w).filter (·.place == i) = (f.call network caller n' w).filter (·.place == i) := by
  rw [call_eq,call_eq,trace_alike alike]
  unfold Fanout.deliver
  rw [List.filter_map,List.filter_map]
  refine List.map_congr_left ?_
  intro p present
  obtain ⟨active,here⟩ := List.mem_filter.mp present
  have here : p.1 = i := by simpa [Fanout.sendTo] using here
  have same : p.2 = s := by
    obtain ⟨⟨s',j⟩,placed,rfl⟩ := List.mem_map.mp (List.mem_of_mem_filter active)
    obtain rfl : j = i := here
    exact Option.some.inj ((List.mk_mem_zipIdx_iff_getElem?.mp placed).symm.trans found)
  simp [Fanout.sendTo,same,alike.destinationFor,Sink.send_alike alike]

-- A call for a notification carries its own trace id, else that of its context, else a fresh one; at any time of its
-- run, whatever the sinks answer, it is sound; a sink is handed the same for notifications that differ only elsewhere;
-- the fanout's own call sends once through each active sink and returns what each made of it, and so does every run in
-- which the sinks answer for themselves.
theorem call_delivers (outlets : List Outlet) (caller : Caller) (n : Notification) (w : World) :
    ((∀ id, n.traceId = some id → caller.trace n w = (id,w)) ∧
      (∀ x, n.traceId = none → caller = .context x → caller.trace n w = (x.traceId,w)) ∧
      (n.traceId = none → caller = .alone → caller.trace n w = w.freshTrace)) ∧
    (∀ c, Reached (start outlets (caller.trace n w).1 n) c → Sound outlets (caller.trace n w).1 n c) ∧
    (∀ (n' : Notification) (i : Nat) (o : Outlet) (c c' : Call) rs rs', outlets[i]? = some o → n.Alike o.type n' →
      Reached (start outlets (caller.trace n w).1 n) c → c.results? = some rs →
      Reached (start outlets (caller.trace n' w).1 n') c' → c'.results? = some rs' →
      c.handed.filter (·.1 == i) = c'.handed.filter (·.1 == i)) ∧
    ∀ (network : Network) (f : Fanout), f.sinks.map Sink.outlet = outlets →
      Serves network f (caller.trace n w).1 n (f.call network caller n w) ∧
      (∃ c, Reached (start outlets (caller.trace n w).1 n) c ∧ c.Own network f n ∧
        c.handed = (f.call network caller n w).map Sent.handed ∧
        c.results? = some ((f.call network caller n w).map (·.result))) ∧
      (∀ c rs, Reached (start outlets (caller.trace n w).1 n) c → c.Own network f n → c.results? = some rs →
        rs = (f.call network caller n w).map (·.result)) ∧
      ∀ (n' : Notification) (i : Nat) (s : Sink), f.sinks[i]? = some s → n.Alike s.type n' →
        (f.call network caller n w).filter (·.place == i) = (f.call network caller n' w).filter (·.place == i) := by
  refine ⟨⟨?_,?_,?_⟩,?_,?_,?_⟩
  · intro id own
    simp [Caller.trace,own]
  · rintro x none rfl
    simp [Caller.trace,none]
  · rintro none rfl
    simp [Caller.trace,none]
  · intro c path
    exact reached_sound path
  · intro n' i o c c' rs rs' found alike path results path' results'
    have handed := ((reached_sound path).returned rs results).1 i
    have handed' := ((reached_sound path').returned rs' results').1 i
    rw [handed,handed',trace_alike alike,owed_alike found alike]
  · rintro network f rfl
    refine ⟨?_,call_reached network f caller n w,?_,?_⟩
    · rw [call_eq]
      exact deliver_serves network f _ n
    · intro c rs path own results
      rw [call_eq]
      exact (reached_standing path).results_own own results
    · intro n' i s found alike
      exact call_alike found alike

-- Three sinks are sent to; the one in the middle fails before the others have begun.
def outage : Fanout :=
  ⟨[.slack "https://hooks.test/all" true,.memory false,.failing true,
    .telegram "token" (some "room") "https://bot.test" true]⟩

def alert : Notification := (Notification.new "disk full").destination "slack" "https://hooks.test/ops"

theorem outage_delivers :
    (∃ c, Reached (start (outage.sinks.map Sink.outlet) (Caller.alone.trace alert .start).1 alert) c ∧
      c.answers = [(2,.error (.transport "failing"))] ∧
      Sound (outage.sinks.map Sink.outlet) (Caller.alone.trace alert .start).1 alert c) ∧
    (Notification.new "disk full").Alike "telegram" alert ∧
    ∀ network, (outage.call network .alone (.new "disk full") .start).filter (·.place == 3) =
      (outage.call network .alone alert .start).filter (·.place == 3) := by
  have alike : (Notification.new "disk full").Alike "telegram" alert := Notification.alike_destination (by decide)
  refine ⟨?_,alike,?_⟩
  · let first := start (outage.sinks.map Sink.outlet) (Caller.alone.trace alert .start).1 alert
    have begun := Reached.step .refl (@Step.begins first [_] _ [_] rfl rfl)
    have ended := Reached.step begun (@Step.ends _ [_] _ [_] (.error (.transport "failing")) rfl rfl)
    exact ⟨_,ended,rfl,(call_delivers _ .alone alert .start).2.1 _ ended⟩
  · intro network
    exact ((call_delivers _ .alone (.new "disk full") .start).2.2.2 network outage rfl).2.2.2 alert 3 _ rfl alike

end Dispatch
end ServiceKit
