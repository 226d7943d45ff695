import ServiceKit.Import.Job

namespace ServiceKit

namespace Notification

theorem foldl_field (key value : α → String) (l : List α) (n : Notification) :
    l.foldl (fun n a => n.field (key a) (value a)) n =
      { n with fields := n.fields ++ l.map fun a => makeField (key a) (value a) } := by
  induction l generalizing n with
  | nil => simp
  | cons a rest ih =>
    rw [List.foldl_cons,ih,List.map_cons]
    simp [field]

theorem foldl_destination (l : List (String × String)) (n : Notification) :
    l.foldl (fun n d => n.destination d.1 d.2) n =
      { n with destinations := l.foldl (fun ds d => putDestination d.1 d.2 ds) n.destinations } := by
  induction l generalizing n with
  | nil => rfl
  | cons d rest ih => rw [List.foldl_cons,ih]; rfl

theorem find?_putDestination (name address sink : String) (ds : List (String × String)) :
    (putDestination name address ds).find? (fun d => d.1 == sink) =
      if name = sink then some (name,address) else ds.find? fun d => d.1 == sink := by
  induction ds with
  | nil => by_cases same : name = sink <;> simp [putDestination,same]
  | cons d rest ih =>
    obtain ⟨s,a⟩ := d
    unfold putDestination
    split
    · next here =>
      subst here
      by_cases same : name = sink <;> simp [same]
    · next other =>
      split
      · by_cases same : name = sink <;> simp [same]
      · by_cases there : s = sink
        · subst there
          simp [other]
        · simp [there,ih]

theorem find?_destinations (l ds : List (String × String)) (sink : String) :
    (l.foldl (fun ds d => putDestination d.1 d.2 ds) ds).find? (fun d => d.1 == sink) =
      (l.reverse.find? fun d => d.1 == sink).or (ds.find? fun d => d.1 == sink) := by
  induction l generalizing ds with
  | nil => simp
  | cons d rest ih =>
    rw [List.foldl_cons,ih,find?_putDestination,List.reverse_cons,List.find?_append,Option.or_assoc]
    congr 1
    by_cases same : d.1 = sink
    · subst same
      simp
    · simp [same]

end Notification

namespace Import
open Notification

theorem Summary.notification_eq (s : Summary) (service : Service) (process : String) (claims : Option Json) :
    s.notification service process claims =
      ⟨s.title service process,if s.isClean then .info else .warn,
        [⟨"Process",process,true⟩,⟨"Total Data",toString s.total,true⟩,⟨"Total Failed",toString s.failed,true⟩,
          ⟨"Execution Time",s.seconds,true⟩] ++ (claims.map fun c => ⟨"Requested By",c.compact,false⟩).toList ++
          s.groups.map fun g => makeField ("-Failed: " ++ g.1) (Json.array g.2).pretty,none,[]⟩ := by
  unfold Summary.notification
  rw [foldl_field]
  cases claims with
  | none => rfl
  | some c => rfl

theorem key_failed (m value : String) : (makeField ("-Failed: " ++ m) value).key = "Failed: " ++ m := by
  have spelt : ("-Failed: " ++ m).toList = '-' :: ("Failed: " ++ m).toList := by
    rw [String.toList_append,String.toList_append]
    rfl
  unfold makeField
  rw [spelt]
  exact String.ofList_toList

theorem failed_ne_requested (m : String) : "Failed: " ++ m ≠ "Requested By" := by
  intro same
  have first := congrArg (fun s => s.toList.head?) same
  rw [String.toList_append] at first
  cases first

theorem Summary.get?_total (s : Summary) (service : Service) (process : String) (claims : Option Json) :
    (s.notification service process claims).get? "Total Data" = some (toString s.total) := by
  rw [notification_eq]
  rfl

theorem Summary.get?_failed (s : Summary) (service : Service) (process : String) (claims : Option Json) :
    (s.notification service process claims).get? "Total Failed" = some (toString s.failed) := by
  rw [notification_eq]
  rfl

theorem Summary.get?_requestedBy (s : Summary) (service : Service) (process : String) (claims : Option Json) :
    (s.notification service process claims).get? "Requested By" = claims.map Json.compact := by
  rw [notification_eq]
  cases claims with
  | some c => rfl
  | none =>
    have apart : ∀ m samples, (makeField ("-Failed: " ++ m) (Json.array samples).pretty).key ≠ "Requested By" := by
      intro m samples
      rw [key_failed]
      exact failed_ne_requested m
    simp [Notification.get?,apart]

theorem Job.notice?_eq (j : Job) (ctx : Context) (s : Summary) :
    j.notice? ctx s = if j.notify.wants s && ctx.notifier.isSome then
      some { s.notification j.service j.process ctx.claims with
             destinations := j.destinations.foldl (fun ds d => putDestination d.1 d.2 ds) [] }
    else none := by
  unfold notice?
  rw [foldl_destination,Summary.notification_eq]

structure Job.Notice (j : Job) (claims : Option Json) (s : Summary) (n : Notification) : Prop where
  traceId : n.traceId = none
  requestedBy : n.get? "Requested By" = claims.map Json.compact
  total : n.get? "Total Data" = some (toString s.total)
  failed : n.get? "Total Failed" = some (toString s.failed)
  destinations : ∀ sink, n.destinationFor sink = (j.destinations.reverse.find? fun d => d.1 == sink).map (·.2)

theorem Job.notice?_some {j : Job} {ctx : Context} {s : Summary} (sent : j.notice? ctx s = some n) :
    j.notify.wants s = true ∧ ctx.notifier.isSome = true ∧ j.Notice ctx.claims s n := by
  rw [notice?_eq] at sent
  split at sent
  · next wanted =>
    cases sent
    obtain ⟨wants,notifier⟩ := Bool.and_eq_true_iff.mp wanted
    refine ⟨wants,notifier,?_,s.get?_requestedBy _ _ _,s.get?_total _ _ _,s.get?_failed _ _ _,?_⟩
    · rw [Summary.notification_eq]
    · intro sink
      rw [destinationFor,find?_destinations]
      simp
  · cases sent

def Job.noticeFor (j : Job) (ctx : Context) : Option (Except ImportError Summary) → Option Notification
  | some (.ok s) => j.notice? ctx s
  | _ => none

theorem Job.leave_notice (j : Job) (ctx : Context) (span : Option Span) (f : Form.Upload) (kind : FileKind)
    (failure : Option ImportError) (millis : Nat) (s : Pool.State σ) :
    (j.leave ctx span f kind failure millis s).notice =
      j.noticeFor ctx (j.leave ctx span f kind failure millis s).result := by
  unfold leave
  rcases s.returns failure with _ | _ | _ <;> rfl

theorem Job.noticeFor_some {j : Job} {ctx : Context} (sent : j.noticeFor ctx result = some n) :
    ∃ s, result = some (.ok s) ∧ j.notice? ctx s = some n := by
  rcases result with _ | _ | s
  · cases sent
  · cases sent
  · exact ⟨s,rfl,sent⟩

end Import
end ServiceKit
