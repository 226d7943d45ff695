import ServiceKit.Clock

namespace ServiceKit

structure CacheEntry where
  value : String
  expires : Option Nat
deriving DecidableEq, Repr

-- A map of texts whose entries may expire. An expired entry is dropped when it is next looked up, and is not counted
-- before that either.
abbrev Cache := List (String × CacheEntry)

namespace Cache

def lookup (c : Cache) (key : String) : Option CacheEntry := (c.find? fun e => e.1 == key).map (·.2)

def remove (c : Cache) (key : String) : Cache := c.filter fun e => e.1 != key

def CacheEntry.live (e : CacheEntry) (now : Nat) : Bool :=
  match e.expires with
  | none => true
  | some at_ => decide (now < at_)

def get (c : Cache) (now : Nat) (key : String) : Option String × Cache :=
  match c.lookup key with
  | none => (none,c)
  | some e => if CacheEntry.live e now then (some e.value,c) else (none,c.remove key)

def put (c : Cache) (key value : String) (expires : Option Nat) : Cache := (key,⟨value,expires⟩) :: c.remove key

-- None where the clock cannot tell when the entry expires; the cache is left as it is then.
def set (c : Cache) (now : Nat) (key value : String) (ttl : Option Nat) : Option Cache :=
  (ttl.mapM (Clock.later? now)).map (c.put key value)

def delete (c : Cache) (key : String) : Cache := c.remove key

def size (c : Cache) (now : Nat) : Nat := (c.filter fun e => CacheEntry.live e.2 now).length

def isEmpty (c : Cache) (now : Nat) : Bool := c.size now == 0

variable {c : Cache} {key k value : String} {e : CacheEntry} {now later : Nat}

theorem lookup_remove_same (c : Cache) (key : String) : (c.remove key).lookup key = none := by
  simp [lookup,remove,List.find?_filter]

theorem lookup_remove_other (c : Cache) (other : k ≠ key) : (c.remove key).lookup k = c.lookup k := by
  induction c with
  | nil => rfl
  | cons head rest ih =>
    by_cases here : head.1 = key
    · simpa [lookup,remove,here,other.symm] using ih
    · by_cases found : head.1 = k
      · simp [lookup,remove,found,other]
      · simpa [lookup,remove,here,found] using ih

theorem lookup_put_same (c : Cache) (key value : String) (expires : Option Nat) :
    (c.put key value expires).lookup key = some ⟨value,expires⟩ := by
  simp [lookup,put]

theorem lookup_put_other (c : Cache) (other : k ≠ key) (value : String) (expires : Option Nat) :
    (c.put key value expires).lookup k = c.lookup k := by
  rw [← lookup_remove_other c other]
  simp [lookup,put,other.symm]

def fits (now : Nat) (ttl : Option Nat) : Bool := ttl.all fun t => decide (now + t ≤ Clock.last)

theorem set_fits (c : Cache) (key value : String) {ttl : Option Nat} (can : fits now ttl = true) :
    c.set now key value ttl = some (c.put key value (ttl.map (now + ·))) := by
  cases ttl with
  | none => rfl
  | some t => simp_all [set,fits,Clock.later?]

theorem set_late (c : Cache) (key value : String) {ttl : Option Nat} (late : fits now ttl = false) :
    c.set now key value ttl = none := by
  cases ttl with
  | none => cases late
  | some t => simp_all [set,fits,Clock.later?]

theorem get_iff : (c.get now key).1 = some value ↔
    ∃ e, c.lookup key = some e ∧ CacheEntry.live e now = true ∧ e.value = value := by
  unfold get
  cases c.lookup key with
  | none => simp
  | some e => cases live : CacheEntry.live e now <;> simp [live]

theorem live_of_le (le : now ≤ later) (live : CacheEntry.live e later = true) : CacheEntry.live e now = true := by
  unfold CacheEntry.live at live ⊢
  split
  · rfl
  · next t ends =>
    rw [ends] at live
    exact decide_eq_true (Nat.lt_of_le_of_lt le (of_decide_eq_true live))

theorem lookup_get (le : now ≤ later) (live : CacheEntry.live e later = true) :
    (c.get now key).2.lookup k = some e ↔ c.lookup k = some e := by
  unfold get
  cases found : c.lookup key with
  | none => rfl
  | some d =>
    cases lasts : CacheEntry.live d now with
    | true => simp [lasts]
    | false =>
      simp only [lasts,Bool.false_eq_true,if_false]
      by_cases same : k = key
      · subst same
        rw [lookup_remove_same,found]
        refine iff_of_false nofun ?_
        intro held
        cases held
        rw [live_of_le le live] at lasts
        cases lasts
      · rw [lookup_remove_other c same]

end Cache
end ServiceKit
