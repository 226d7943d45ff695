import ServiceKit.Record.FromText
import ServiceKit.Record.FromForm

namespace ServiceKit
open Validation

structure Schema (α : Type) where
  ofPairs : List (String × String) → Except String α
  ofJson : Text.Bytes → Except String α
  errors : Mode → α → List FieldError

def Schema.ofForm (t : Schema α) (bs : Text.Bytes) : Except String α := t.ofPairs (Form.decode bs)

def Shape.schema (c : Catalog) (s : Shape) : Schema Datum where
  ofPairs pairs := (Record.ofPairs c pairs s).mapError (·.message)
  ofJson bs := (Record.ofBytes c s bs).mapError (·.message)
  errors mode d := validateIn s.rootName d mode

end ServiceKit
