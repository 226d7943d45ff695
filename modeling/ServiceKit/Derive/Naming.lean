import ServiceKit.Text.Case
import ServiceKit.Text.Split

namespace ServiceKit.Derive
open Text

def capitalized : List Char → List Char
  | [] => []
  | c :: rest => upperChar c ++ rest

def pascal (field : List Char) : List Char := ((splitAll '_' field).map capitalized).flatten

def uncapitalized : List Char → List Char
  | [] => []
  | c :: rest => lowerChar c ++ rest

def dashed (field : String) : String := String.ofList (field.toList.map fun c => if c = '_' then '-' else c)

-- A convention that is not known leaves the name as it is.
def rename (convention field : String) : String :=
  match convention with
  | "lowercase" => toLower field
  | "UPPERCASE" | "SCREAMING_SNAKE_CASE" => toUpper field
  | "PascalCase" => String.ofList (pascal field.toList)
  | "camelCase" => String.ofList (uncapitalized (pascal field.toList))
  | "kebab-case" => dashed field
  | "SCREAMING-KEBAB-CASE" => toUpper (dashed field)
  | _ => field

end ServiceKit.Derive
