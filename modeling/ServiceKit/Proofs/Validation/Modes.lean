import Mathlib.Data.List.Sort
import ServiceKit.Proofs.Validation.Exactness

namespace ServiceKit.Validation
variable {mode : Mode} {v : Datum} {place : Place} {c : Call}

inductive Asked : Datum → Place → Field → Datum → Prop where
  | check {form fields i field v k} (declared : fields[i]? = some (field,v)) : Asked (.record form fields) [i,k] field v
  | dive {form fields i field v k place f w} (declared : fields[i]? = some (field,v)) (inside : Asked v place f w) :
      Asked (.record form fields) (i :: k :: place) f w
  | item {items i v place f w} (found : items[i]? = some v) (inside : Asked v place f w) :
      Asked (.list items) (i :: place) f w
  | optional {v place f w} (inside : Asked v place f w) : Asked (.optional (some v)) place f w
  | nullable {v place f w} (inside : Asked v place f w) : Asked (.nullable (some v)) place f w

def Lapsed (v : Datum) (place : Place) : Prop :=
  ∃ field w, Asked v place field w ∧ field.skipIfNull = true ∧ w.inspect.null = true

theorem Asked.place_ne {f : Field} {w : Datum} (asked : Asked v place f w) : place ≠ [] := by
  induction asked with
  | check _ | dive _ _ _ | item _ _ _ => exact List.cons_ne_nil _ _
  | optional _ ih | nullable _ ih => exact ih

theorem Active.place_ne (active : Active mode v place c) : place ≠ [] := by
  induction active with
  | rule _ _ _ | dive _ _ _ _ _ | item _ _ _ => exact List.cons_ne_nil _ _
  | optional _ ih | nullable _ ih => exact ih

-- Nothing is active in null, so that a field that is left alone hides no more than its own rules.
theorem null_inactive (null : v.inspect.null = true) : ¬ Active mode v place c := by
  intro active
  cases active with
  | rule _ _ _ | dive _ _ _ _ | item _ _ => cases null
  | optional _ | nullable _ => cases null

section
variable {f field : Field} {w : Datum} {form : Form} {fields : List (Field × Datum)} {items : List Datum} {i k : Nat}

theorem asked_check (declared : fields[i]? = some (field,v)) :
    Asked (.record form fields) [i,k] f w ↔ f = field ∧ w = v := by
  constructor
  · intro asked
    cases asked with
    | check declared' =>
      cases declared.symm.trans declared'
      exact ⟨rfl,rfl⟩
    | dive _ inside => exact absurd rfl inside.place_ne
  · rintro ⟨rfl,rfl⟩
    exact .check declared

theorem asked_dive (declared : fields[i]? = some (field,v)) (deeper : place ≠ []) :
    Asked (.record form fields) (i :: k :: place) f w ↔ Asked v place f w := by
  refine ⟨fun asked => ?_,.dive declared⟩
  cases asked with
  | check _ => exact absurd rfl deeper
  | dive declared' inside =>
    cases declared.symm.trans declared'
    exact inside

theorem asked_item (found : items[i]? = some v) : Asked (.list items) (i :: place) f w ↔ Asked v place f w := by
  refine ⟨fun asked => ?_,.item found⟩
  cases asked with
  | item found' inside =>
    cases found.symm.trans found'
    exact inside

theorem asked_optional : Asked (.optional (some v)) place f w ↔ Asked v place f w :=
  ⟨fun | .optional inside => inside,.optional⟩

theorem asked_nullable : Asked (.nullable (some v)) place f w ↔ Asked v place f w :=
  ⟨fun | .nullable inside => inside,.nullable⟩

theorem lapsed_check (declared : fields[i]? = some (field,v)) :
    Lapsed (.record form fields) [i,k] ↔ field.skipIfNull = true ∧ v.inspect.null = true := by
  simp [Lapsed,asked_check declared]

theorem lapsed_congr {u : Datum} {there : Place} (same : ∀ {f w}, Asked v place f w ↔ Asked u there f w) :
    Lapsed v place ↔ Lapsed u there := by
  simp only [Lapsed,same]

end

theorem Active.created (active : Active .update v place c) : Active .create v place c ∧ ¬ Lapsed v place := by
  induction active with
  | rule declared awake asked =>
    refine ⟨.rule declared (by simp) asked,?_⟩
    rw [lapsed_check declared]
    exact fun lapse => awake ⟨lapse.1,rfl,lapse.2⟩
  | dive declared _ asked inside ih =>
    rw [lapsed_congr (asked_dive declared inside.place_ne)]
    exact ⟨.dive declared (by simp) asked ih.1,ih.2⟩
  | item found _ ih =>
    rw [lapsed_congr (asked_item found)]
    exact ⟨.item found ih.1,ih.2⟩
  | optional _ ih =>
    rw [lapsed_congr asked_optional]
    exact ⟨.optional ih.1,ih.2⟩
  | nullable _ ih =>
    rw [lapsed_congr asked_nullable]
    exact ⟨.nullable ih.1,ih.2⟩

-- A field on the way to an active call is not null, so that only the last one may be left alone.
theorem Active.kept (active : Active .create v place c) (stays : ¬ Lapsed v place) : Active .update v place c := by
  induction active with
  | rule declared _ asked =>
    rw [lapsed_check declared] at stays
    exact .rule declared (fun lapse => stays ⟨lapse.1,lapse.2.2⟩) asked
  | dive declared _ asked inside ih =>
    rw [lapsed_congr (asked_dive declared inside.place_ne)] at stays
    exact .dive declared (fun lapse => null_inactive lapse.2.2 inside) asked (ih stays)
  | item found _ ih =>
    rw [lapsed_congr (asked_item found)] at stays
    exact .item found (ih stays)
  | optional _ ih =>
    rw [lapsed_congr asked_optional] at stays
    exact .optional (ih stays)
  | nullable _ ih =>
    rw [lapsed_congr asked_nullable] at stays
    exact .nullable (ih stays)

theorem Ordered.ext {sites others : List Site} (ordered : Ordered sites) (also : Ordered others)
    (same : ∀ s, s ∈ sites ↔ s ∈ others) : sites = others := by
  have irrefl : Std.Irrefl fun s t : Site => s.place < t.place := ⟨fun s => List.lt_irrefl s.place⟩
  have antisymm : Std.Antisymm fun s t : Site => s.place < t.place :=
    ⟨fun s t less more => absurd more (List.lt_asymm less)⟩
  exact List.Pairwise.eq_of_mem_iff ordered also same

open scoped Classical in
theorem failing_update (v : Datum) : v.failing .update = (v.failing .create).filter fun s => ¬ Lapsed v s.place := by
  refine Ordered.ext ((ordered_sites v .update).filter _) (((ordered_sites v .create).filter _).filter _) fun s => ?_
  rw [List.mem_filter,decide_eq_true_iff,mem_failing,mem_failing]
  constructor
  · rintro ⟨active,fails⟩
    exact ⟨⟨active.created.1,fails⟩,active.created.2⟩
  · rintro ⟨⟨active,fails⟩,stays⟩
    exact ⟨active.kept stays,fails⟩

open scoped Classical in
-- Of the calls that fail in create mode, those of lapsed fields are not reported in update mode, and all others are: the
-- same errors in the same order, at any path and after any errors.
theorem update_removes (v : Datum) : ∃ failing : List Site,
    (∀ s, s ∈ failing ↔ Active .create v s.place s.call ∧ s.call.holds = false) ∧
      (failing.Pairwise fun s t => s.place < t.place) ∧
      ∀ path errors,
        v.check path .create errors = errors ++ failing.map (fun s => s.call.error path) ∧
          v.check path .update errors =
            errors ++ (failing.filter fun s => ¬ Lapsed v s.place).map (fun s => s.call.error path) ∧
          (v.check path .update errors).Sublist (v.check path .create errors) ∧
          (v.check path .create errors = errors → v.check path .update errors = errors) := by
  refine ⟨v.failing .create,fun s => mem_failing,(ordered_sites v .create).filter _,?_⟩
  intro path errors
  have created := check_eq v path .create errors
  have updated := check_eq v path .update errors
  have fewer : (v.check path .update errors).Sublist (v.check path .create errors) := by
    rw [created,updated,failing_update]
    exact (List.filter_sublist.map _).append_left errors
  refine ⟨created,failing_update v ▸ updated,fewer,?_⟩
  intro valid
  have still : errors.Sublist (v.check path .update errors) := by
    rw [updated]
    exact List.sublist_append_left _ _
  rw [valid] at fewer
  exact fewer.antisymm still

example :
    let nickname : Field × Datum := ({ Field.plain "nickname" [.rule .required] with skipIfNull := true },.nullable none)
    let age : Field × Datum := (.plain "age" [.rule .required],.nullable none)
    (validateIn "Patch" (.record .named [nickname,age]) .create).map (·.field) = ["Patch.nickname","Patch.age"] ∧
      (validateIn "Patch" (.record .named [nickname,age]) .update).map (·.field) = ["Patch.age"] := by decide +kernel

end ServiceKit.Validation
