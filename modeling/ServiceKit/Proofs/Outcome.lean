namespace ServiceKit.Outcome
variable {ε ε' α β : Type} {x : Except ε α}

theorem mapError_ok {f : ε → ε'} {a : α} : x.mapError f = .ok a ↔ x = .ok a := by
  cases x with
  | ok b =>
    have same : (Except.ok b : Except ε α).mapError f = .ok a ↔ b = a := ⟨Except.ok.inj,congrArg _⟩
    exact same.trans ⟨congrArg _,Except.ok.inj⟩
  | error e => exact iff_of_false nofun nofun

theorem map_ok {f : α → β} {b : β} : x.map f = .ok b ↔ ∃ a, x = .ok a ∧ f a = b := by
  cases x <;> simp [Except.map]

theorem map_error {f : α → β} {e : ε} : x.map f = .error e ↔ x = .error e := by
  cases x <;> simp [Except.map]

theorem bind_ok {f : α → Except ε β} {b : β} : (x >>= f) = .ok b ↔ ∃ a, x = .ok a ∧ f a = .ok b := by
  cases x <;> simp [bind,Except.bind]

theorem bind_error {f : α → Except ε β} {e : ε} :
    (x >>= f) = .error e ↔ x = .error e ∨ ∃ a, x = .ok a ∧ f a = .error e := by
  cases x <;> simp [bind,Except.bind]

end ServiceKit.Outcome
