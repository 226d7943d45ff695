import ServiceKit.Record.Shape
import ServiceKit.Validation.Path

namespace ServiceKit
open Validation

-- A value of a shape; where the shape names a record type, field by field as the type declares them.
inductive Conforms (c : Catalog) : Shape → Datum → Prop where
  | text {s} : Conforms c .text (.text s)
  | choice {options s} (listed : s ∈ options) : Conforms c (.choice options) (.text s)
  | int {kind i} (fits : kind.fits i) : Conforms c (.int kind) (.int i)
  | real {x} : Conforms c .real (.real x)
  | flag {b} : Conforms c .flag (.flag b)
  | any {j} : Conforms c .any (.any j)
  | dictionary {entries} : Conforms c .dictionary (.dictionary entries)
  | absent {s} : Conforms c (.optional s) (.optional none)
  | present {s v} (inside : Conforms c s v) : Conforms c (.optional s) (.optional (some v))
  | null {s} : Conforms c (.nullable s) (.nullable none)
  | valid {s v} (inside : Conforms c s v) : Conforms c (.nullable s) (.nullable (some v))
  | list {s items} (inside : ∀ v ∈ items, Conforms c s v) : Conforms c (.list s) (.list items)
  | record {name fields} {t : RecordType} (declared : c.type? name = some t)
      (same : fields.map (·.1) = t.fields.map (·.field))
      (inside : ∀ (i : Nat) f p, t.fields[i]? = some f → fields[i]? = some p → Conforms c f.shape p.2) :
      Conforms c (.record name) (.record t.form fields)

namespace RecordType

def labels (t : RecordType) : List String := t.fields.map (·.field.label)

-- The fields of a tuple are labelled by their numbers.
structure Wired (t : RecordType) : Prop where
  named : t.name ≠ ""
  plain : ∀ label ∈ t.labels, PlainLabel label
  placed : t.form = .tuple → t.labels = (List.range t.fields.length).map toString
  empty : t.form = .unit → t.fields = []

theorem wired_iff (t : RecordType) : t.Wired ↔ t.name ≠ "" ∧ (∀ label ∈ t.labels, PlainLabel label) ∧
    (t.form = .tuple → t.labels = (List.range t.fields.length).map toString) ∧ (t.form = .unit → t.fields = []) :=
  ⟨fun ⟨a,b,c,d⟩ => ⟨a,b,c,d⟩,fun ⟨a,b,c,d⟩ => ⟨a,b,c,d⟩⟩

instance (t : RecordType) : Decidable t.Wired := decidable_of_iff _ t.wired_iff.symm

-- The type is written as it is labelled, each field always.
structure Mirrored (t : RecordType) : Prop where
  written : ∀ f ∈ t.fields, f.field.key = f.field.label ∧ f.field.omission = .never
  apart : t.labels.Nodup
  several : t.form = .tuple → t.fields.length ≠ 1

theorem mirrored_iff (t : RecordType) : t.Mirrored ↔
    (∀ f ∈ t.fields, f.field.key = f.field.label ∧ f.field.omission = .never) ∧ t.labels.Nodup ∧
      (t.form = .tuple → t.fields.length ≠ 1) :=
  ⟨fun ⟨a,b,c⟩ => ⟨a,b,c⟩,fun ⟨a,b,c⟩ => ⟨a,b,c⟩⟩

instance (t : RecordType) : Decidable t.Mirrored := decidable_of_iff _ t.mirrored_iff.symm

end RecordType

def Catalog.Wired (c : Catalog) : Prop := ∀ t ∈ c, t.Wired

def Catalog.Mirrored (c : Catalog) : Prop := ∀ t ∈ c, t.Mirrored

instance (c : Catalog) : Decidable c.Wired := inferInstanceAs (Decidable (∀ t ∈ c, _))

instance (c : Catalog) : Decidable c.Mirrored := inferInstanceAs (Decidable (∀ t ∈ c, _))

namespace Validation

def Field.Writes (field : Field) (v : Datum) : Prop := field.omits v.toJson = false

-- A field that its record's JSON has where the field's label says. Members written under one key come down to the last,
-- elements move up for one that is left out, and a tuple of one field is written as that field.
def Told (form : Form) (fields : List (Field × Datum)) (i : Nat) (field : Field) (v : Datum) : Prop :=
  match form with
  | .named => field.Writes v ∧ field.key = field.label ∧
      ∀ p ∈ fields.drop (i + 1), p.1.Writes p.2 → p.1.key ≠ field.label
  | .tuple => fields.length ≠ 1 ∧ ∀ p ∈ fields.take (i + 1), p.1.Writes p.2
  | .unit => False

-- Every field that a place passes is told.
inductive Legible : Datum → Place → Prop where
  | here {v} : Legible v []
  | field {form fields i field v k place} (declared : fields[i]? = some (field,v)) (told : Told form fields i field v)
      (inside : Legible v place) : Legible (.record form fields) (i :: k :: place)
  | item {items i v place} (found : items[i]? = some v) (inside : Legible v place) :
      Legible (.list items) (i :: place)
  | optional {v place} (inside : Legible v place) : Legible (.optional (some v)) place
  | nullable {v place} (inside : Legible v place) : Legible (.nullable (some v)) place

end Validation
end ServiceKit
