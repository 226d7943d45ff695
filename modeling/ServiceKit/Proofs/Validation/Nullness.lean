import ServiceKit.Validation.Datum

namespace ServiceKit.Validation
inductive Basic : Datum → Prop where
  | int {i} : Basic (.int i)
  | flag {b} : Basic (.flag b)
  | text {s} : Basic (.text s)
  | list {items} : Basic (.list items)
  | any {j} : Basic (.any j)
  | absent : Basic (.optional none)
  | null : Basic (.nullable none)
  | present {v} (inside : Basic v) : Basic (.optional (some v))
  | valid {v} (inside : Basic v) : Basic (.nullable (some v))

variable {v : Datum} {r : Rule}

def Datum.bareNull : Datum → Bool
  | .optional none | .nullable none | .any .null => true
  | _ => false

theorem inspect_of_null (basic : Basic v) (null : v.toJson = .null) :
    v.inspect = if v.bareNull then Inspection.absent else Inspection.absent.wrapped := by
  induction basic with
  | int | flag | text | list => cases null
  | @any j =>
    cases (show j = .null from null)
    rfl
  | absent | null => rfl
  | present _ ih | valid _ ih =>
    have inside := ih null
    simp only [Datum.inspect,inside,Datum.bareNull,Bool.false_eq_true,if_false]
    split <;> rfl

theorem holds_absent (other : r ≠ .required) : r.holds Inspection.absent = true := holds_of_null rfl r other

theorem holds_wrapped (other : r ≠ .required) : r.holds Inspection.absent.wrapped = false := by
  cases r with
  | required => exact absurd rfl other
  | _ => rfl

-- A value that is null in JSON is null to all rules if it is not wrapped, and to none if it is.
theorem null_seen (basic : Basic v) (null : v.toJson = .null) :
    v.inspect.null = v.bareNull ∧ Rule.required.holds v.inspect = !v.bareNull ∧
      ∀ r : Rule, r ≠ .required → r.holds v.inspect = v.bareNull := by
  rw [inspect_of_null basic null]
  cases v.bareNull with
  | true => exact ⟨rfl,rfl,fun r other => holds_absent other⟩
  | false => exact ⟨rfl,rfl,fun r other => holds_wrapped other⟩

theorem absent_seen : Basic (.nullable none) ∧ (Datum.nullable none).toJson = .null ∧
    (Datum.nullable none).inspect.null = true ∧ Rule.required.holds (Datum.nullable none).inspect = false ∧
    ∀ r : Rule, r ≠ .required → r.holds (Datum.nullable none).inspect = true :=
  ⟨.null,rfl,null_seen .null rfl⟩

-- An explicit null in an optional value: it is written as null, but is required with success and refused by all else.
theorem wrapped_unseen : ∃ v, Basic v ∧ v.toJson = .null ∧ v.inspect.null = false ∧
    Rule.required.holds v.inspect = true ∧ ∀ r : Rule, r ≠ .required → r.holds v.inspect = false :=
  ⟨.optional (some (.nullable none)),.present .null,rfl,rfl,rfl,fun _ other => holds_wrapped other⟩

end ServiceKit.Validation
