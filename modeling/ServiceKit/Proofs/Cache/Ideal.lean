import Mathlib.Data.List.Nodup
import ServiceKit.Cache.History
import ServiceKit.Proofs.Runs

namespace ServiceKit.Cache.History
variable {past : List Step} {s : Step} {c : Cache} {now later : Nat} {key value k v : String} {ttl : Option Nat}
  {holds : String → String → Prop} {op : Op} {answer other : Answer}

theorem holds_nil : ¬ Holds [] now key value := by
  rintro ⟨before,_,_,_,split,_⟩
  cases before <;> cases split

theorem holds_concat : Holds (past ++ [s]) now key value ↔
    (∃ ttl, s.op = .set key value ttl ∧ fits s.time ttl = true ∧ ∀ t, ttl = some t → now < s.time + t) ∨
      (s.writesTo key = false ∧ Holds past now key value) := by
  constructor
  · rintro ⟨before,time,ttl,later,split,can,since,lasts⟩
    rcases concat_split.mp split with ⟨_,_,rfl⟩ | ⟨rest,rfl,rfl⟩
    · exact .inl ⟨ttl,rfl,can,lasts⟩
    · obtain ⟨since,last⟩ := List.forall_mem_append.mp since
      exact .inr ⟨last s (List.mem_singleton_self s),before,time,ttl,rest,rfl,can,since,lasts⟩
  · rintro (⟨ttl,set,can,lasts⟩ | ⟨apart,before,time,ttl,rest,rfl,can,since,lasts⟩)
    · exact ⟨past,s.time,ttl,[],by rw [← set],can,nofun,lasts⟩
    · refine ⟨before,time,ttl,rest ++ [s],by simp,can,?_,lasts⟩
      exact List.forall_mem_append.mpr ⟨since,List.forall_mem_singleton.mpr apart⟩

theorem writesTo_set (set : s.op = .set key value ttl) (can : fits s.time ttl = true) : s.writesTo key = true := by
  simp [Step.writesTo,set,can]

theorem holds_untouched (untouched : s.writesTo key = false) :
    Holds (past ++ [s]) now key value ↔ Holds past now key value := by
  rw [holds_concat,or_iff_right]
  · exact and_iff_right untouched
  · rintro ⟨ttl,set,can,_⟩
    have touched := writesTo_set set can
    rw [untouched] at touched
    cases touched

theorem writesTo_of_read (read : s.writes = false) (key : String) : s.writesTo key = false := by
  unfold Step.writes at read
  unfold Step.writesTo
  cases op : s.op with
  | set _ _ ttl => simp_all
  | delete _ => simp [op] at read
  | get | len | isEmpty => rfl

theorem holds_writes (past : List Step) (now : Nat) : Holds (past.filter (·.writes)) now = Holds past now := by
  funext key value
  refine propext ?_
  induction past using List.reverseRecOn generalizing value with
  | nil => exact Iff.rfl
  | append_singleton past s ih =>
    rw [List.filter_append]
    cases written : s.writes with
    | true => simp [written,holds_concat,ih]
    | false => simp [written,holds_untouched (writesTo_of_read written key),ih]

theorem lookup_eq_some_iff (apart : (c.map (·.1)).Nodup) {e : CacheEntry} : c.lookup key = some e ↔ (key,e) ∈ c := by
  induction c with
  | nil => simp [Cache.lookup]
  | cons head rest ih =>
    obtain ⟨k,d⟩ := head
    rw [List.map_cons,List.nodup_cons] at apart
    by_cases here : k = key
    · subst here
      have absent : (k,e) ∉ rest := fun inside => apart.1 (List.mem_map_of_mem (f := (·.1)) inside)
      simp [Cache.lookup,absent,eq_comm]
    · simpa [Cache.lookup,here,Ne.symm here] using ih apart.2

def liveKeys (c : Cache) (now : Nat) : List String := (c.filter fun e => CacheEntry.live e.2 now).map (·.1)

theorem size_eq (c : Cache) (now : Nat) : c.size now = (liveKeys c now).length := by
  rw [liveKeys,List.length_map,Cache.size]

theorem nodup_liveKeys (apart : (c.map (·.1)).Nodup) (now : Nat) : (liveKeys c now).Nodup :=
  apart.sublist (List.filter_sublist.map _)

theorem mem_liveKeys (apart : (c.map (·.1)).Nodup) : key ∈ liveKeys c now ↔ ∃ v, (c.get now key).1 = some v := by
  simp only [liveKeys,List.mem_map,List.mem_filter,Cache.get_iff,lookup_eq_some_iff apart]
  constructor
  · rintro ⟨⟨k,e⟩,⟨inside,live⟩,rfl⟩
    exact ⟨e.value,e,inside,live,rfl⟩
  · rintro ⟨v,e,inside,live,rfl⟩
    exact ⟨(key,e),⟨inside,live⟩,rfl⟩

structure Sound (past : List Step) (now : Nat) (c : Cache) : Prop where
  apart : (c.map (·.1)).Nodup
  tells : ∀ later ≥ now, ∀ key value, (c.get later key).1 = some value ↔ Holds past later key value

theorem start_sound (now : Nat) : Sound [] now [] :=
  ⟨List.nodup_nil,fun _ _ _ _ => iff_of_false nofun holds_nil⟩

theorem apart_remove (apart : (c.map (·.1)).Nodup) (key : String) : ((c.remove key).map (·.1)).Nodup :=
  apart.sublist (List.filter_sublist.map _)

theorem Sound.elsewhere (sound : Sound past now c) (le : now ≤ s.time) {d : Cache} (from_ : s.time ≤ later)
    (untouched : s.writesTo k = false) (kept : d.lookup k = c.lookup k) :
    (d.get later k).1 = some v ↔ Holds (past ++ [s]) later k v := by
  rw [holds_untouched untouched,← sound.tells later (Nat.le_trans le from_) k v,Cache.get_iff,Cache.get_iff,kept]

theorem get_sound (sound : Sound past now c) (le : now ≤ s.time) (get : s.op = .get key) :
    Sound (past ++ [s]) s.time (c.get s.time key).2 where
  apart := by
    unfold Cache.get
    split
    · exact sound.apart
    · split
      · exact sound.apart
      · exact apart_remove sound.apart key
  tells later from_ k v := by
    have read : s.writes = false := by rw [Step.writes,get]
    rw [holds_untouched (writesTo_of_read read k),← sound.tells later (Nat.le_trans le from_) k v,
      Cache.get_iff,Cache.get_iff]
    refine exists_congr fun e => and_congr_left fun live => ?_
    exact Cache.lookup_get from_ live.1

theorem live_iff {time : Nat} : CacheEntry.live ⟨value,ttl.map (time + ·)⟩ later = true ↔
    ∀ t, ttl = some t → later < time + t := by
  cases ttl <;> simp [CacheEntry.live]

theorem set_sound (sound : Sound past now c) (le : now ≤ s.time) (set : s.op = .set key value ttl)
    (can : fits s.time ttl = true) : Sound (past ++ [s]) s.time (c.put key value (ttl.map (s.time + ·))) where
  apart := by
    refine List.nodup_cons.mpr ⟨?_,apart_remove sound.apart key⟩
    simp [Cache.remove]
  tells later from_ k v := by
    by_cases here : k = key
    · subst here
      rw [holds_concat,set,or_iff_left (by simp [writesTo_set set can]),Cache.get_iff,Cache.lookup_put_same]
      constructor
      · rintro ⟨_,⟨⟩,live,rfl⟩
        exact ⟨ttl,rfl,can,live_iff.mp live⟩
      · rintro ⟨_,⟨⟩,_,lasts⟩
        exact ⟨_,rfl,live_iff.mpr lasts,rfl⟩
    · have untouched : s.writesTo k = false := by simp [Step.writesTo,set,Ne.symm here]
      exact sound.elsewhere le from_ untouched (Cache.lookup_put_other c here value _)

theorem delete_sound (sound : Sound past now c) (le : now ≤ s.time) (delete : s.op = .delete key) :
    Sound (past ++ [s]) s.time (c.delete key) where
  apart := apart_remove sound.apart key
  tells later from_ k v := by
    by_cases here : k = key
    · subst here
      have touched : s.writesTo k = true := by simp [Step.writesTo,delete]
      simp [holds_concat,delete,Cache.get_iff,Cache.delete,Cache.lookup_remove_same,touched]
    · have untouched : s.writesTo k = false := by simp [Step.writesTo,delete,Ne.symm here]
      exact sound.elsewhere le from_ untouched (Cache.lookup_remove_other c here)

theorem Sound.still (sound : Sound past now c) (le : now ≤ s.time) (read : s.writes = false) :
    Sound (past ++ [s]) s.time c where
  apart := sound.apart
  tells _ from_ k _ := sound.elsewhere le from_ (writesTo_of_read read k) rfl

theorem step_sound (sound : Sound past now c) (le : now ≤ s.time) : Sound (past ++ [s]) s.time (act c s).2 := by
  cases op : s.op with
  | get key => simpa [act,op] using get_sound sound le op
  | set key value ttl =>
    cases can : fits s.time ttl with
    | true => simpa [act,op,Cache.set_fits c key value can] using set_sound sound le op can
    | false =>
      have read : s.writes = false := by rw [Step.writes,op]; exact can
      simpa [act,op,Cache.set_late c key value can] using sound.still le read
  | delete key => simpa [act,op] using delete_sound sound le op
  | len | isEmpty => simpa [act,op] using sound.still le (by rw [Step.writes,op])

theorem Sound.mono (sound : Sound past now c) (le : now ≤ later) : Sound past later c :=
  ⟨sound.apart,fun last from_ => sound.tells last (Nat.le_trans le from_)⟩

theorem after_concat (past : List Step) (s : Step) : after (past ++ [s]) = (act (after past) s).2 := by
  simp [after]

-- After any steps the cache and the ideal map agree from the last reading of the clock on.
theorem after_sound (ordered : past.Pairwise fun s t => s.time ≤ t.time) (ends : ∀ s ∈ past, s.time ≤ now) :
    Sound past now (after past) := by
  induction past using List.reverseRecOn generalizing now with
  | nil => exact start_sound now
  | append_singleton past s ih =>
    obtain ⟨before,_,last⟩ := List.pairwise_append.mp ordered
    have sound := ih before fun t inside => last t inside s (List.mem_singleton_self s)
    rw [after_concat]
    exact (step_sound sound (Nat.le_refl s.time)).mono (ends s (by simp))

theorem act_right (sound : Sound past s.time c) : Right (Holds past s.time) s.time s.op (act c s).1 := by
  have tells := sound.tells s.time (Nat.le_refl s.time)
  have counted : ∀ k, k ∈ liveKeys c s.time ↔ ∃ v, Holds past s.time k v := by
    intro k
    rw [mem_liveKeys sound.apart]
    exact exists_congr fun v => tells k v
  cases op : s.op with
  | get key => simpa [act,op] using Right.get (tells key)
  | set key value ttl =>
    cases can : fits s.time ttl with
    | true => simpa [act,op,Cache.set_fits c key value can] using Right.set can
    | false => simpa [act,op,Cache.set_late c key value can] using Right.panics can
  | delete key => simpa [act,op] using Right.delete
  | len => simpa [act,op,size_eq] using Right.len (nodup_liveKeys sound.apart s.time) counted
  | isEmpty =>
    have none_ : c.isEmpty s.time = true ↔ ∀ k v, ¬ Holds past s.time k v := by
      rw [Cache.isEmpty,size_eq,beq_iff_eq,List.length_eq_zero_iff,List.eq_nil_iff_forall_not_mem]
      simp [counted]
    simpa [act,op] using Right.isEmpty none_

theorem Right.unique (right : Right holds now op answer) (also : Right holds now op other) : answer = other := by
  cases right with
  | get told =>
    cases also with
    | get told' => exact congrArg Answer.found (Option.ext fun v => (told v).trans (told' v).symm)
  | set can =>
    cases also with
    | set => rfl
    | panics late => cases can.symm.trans late
  | panics late =>
    cases also with
    | set can => cases can.symm.trans late
    | panics => rfl
  | delete => cases also; rfl
  | len apart listed =>
    cases also with
    | len apart' listed' =>
      have perm := (List.perm_ext_iff_of_nodup apart apart').mpr fun k => (listed k).trans (listed' k).symm
      exact congrArg Answer.count perm.length_eq
  | isEmpty told =>
    cases also with
    | isEmpty told' => exact congrArg Answer.empty (Bool.eq_iff_iff.mpr (told.trans told'.symm))

theorem answers_eq (steps : List Step) (c : Cache) (i : Nat) : (answers c steps)[i]? =
    (steps[i]?).map fun s => (act ((steps.take i).foldl (fun c s => (act c s).2) c) s).1 := by
  induction steps generalizing c i with
  | nil => rfl
  | cons s rest ih =>
    cases i with
    | zero => rfl
    | succ i => simpa [answers] using ih (act c s).2 i

-- Every answer is the ideal map's. What was looked up before makes no difference to it, so that an entry that was
-- dropped on the way is not missed.
theorem answers_ideal {steps : List Step} (ordered : steps.Pairwise fun s t => s.time ≤ t.time) :
    ∀ i s, steps[i]? = some s → ∃ answer, (answers [] steps)[i]? = some answer ∧
      Right (Holds (steps.take i) s.time) s.time s.op answer ∧
      answer = (act (after ((steps.take i).filter (·.writes))) s).1 := by
  intro i s found
  obtain ⟨bound,rfl⟩ := List.getElem?_eq_some_iff.mp found
  have sorted : (steps.take i).Pairwise fun s t => s.time ≤ t.time := ordered.sublist (List.take_sublist i steps)
  have ends : ∀ t ∈ steps.take i, t.time ≤ steps[i].time := by
    intro t inside
    obtain ⟨j,less,rfl⟩ := List.mem_take_iff_getElem.mp inside
    exact List.pairwise_iff_getElem.mp ordered j i _ bound (by omega)
  have right := act_right (after_sound sorted ends)
  have quiet := act_right (after_sound (sorted.filter fun t => t.writes)
    fun t inside => ends t (List.mem_of_mem_filter inside))
  rw [holds_writes] at quiet
  exact ⟨_,by rw [answers_eq,found]; rfl,right,right.unique quiet⟩

-- An entry is there until its time is over, is dropped by a look at it then, and is set once more; a set whose time the
-- clock cannot tell leaves it as it is.
def fleeting : List Step :=
  [⟨0,.set "k" "a" (some 10)⟩,⟨9,.get "k"⟩,⟨9,.len⟩,⟨10,.isEmpty⟩,⟨10,.get "k"⟩,⟨10,.len⟩,⟨12,.set "k" "b" none⟩,
   ⟨20,.set "k" "c" (some Clock.last)⟩,⟨90,.get "k"⟩]

theorem fleeting_ideal : (fleeting.Pairwise fun s t => s.time ≤ t.time) ∧
    answers [] fleeting = [.done,.found (some "a"),.count 1,.empty true,.found none,.count 0,.done,.panicked,
      .found (some "b")] ∧
    ∀ i s, fleeting[i]? = some s → ∃ answer, (answers [] fleeting)[i]? = some answer ∧
      Right (Holds (fleeting.take i) s.time) s.time s.op answer ∧
      answer = (act (after ((fleeting.take i).filter (·.writes))) s).1 :=
  ⟨by decide,by decide,answers_ideal (by decide)⟩

end ServiceKit.Cache.History
