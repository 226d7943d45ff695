namespace ServiceKit.Clock

-- The last moment that the clock can tell, in milliseconds: it counts seconds in 64 bits with a sign.
def last : Nat := 9223372036854775807 * 1000 + 999

-- A moment that is so much later. Where the clock cannot tell it, asking for it panics.
def later? (now ms : Nat) : Option Nat := if now + ms ≤ last then some (now + ms) else none

variable {now ms moment : Nat}

theorem later?_eq_some_iff : later? now ms = some moment ↔ now + ms ≤ last ∧ now + ms = moment := by
  simp [later?]

end ServiceKit.Clock
