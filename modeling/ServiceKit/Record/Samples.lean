import ServiceKit.Record.Shape

namespace ServiceKit.Samples
open Validation

def bound (i : Int) : Binary64 := Binary64.ofInt i

def need (label : String) (shape : Shape) (rules : List Rule) : FieldType :=
  ⟨.plain label (rules.map .rule),shape,false⟩

def may (label : String) (shape : Shape) (rules : List Rule) : FieldType :=
  ⟨.plain label (rules.map .rule),shape,true⟩

def skippable (f : FieldType) : FieldType := { f with field := { f.field with skipIfNull := true } }

def dived (f : FieldType) (checks : List Check) : FieldType := { f with field := { f.field with checks := checks } }

def text : Shape := .text
def many (s : Shape) : Shape := .list s
def mail : Rule := .email

def person : RecordType := ⟨"Person",.named,[need "name" text [.required],need "age" text []]⟩

def newUser : RecordType :=
  ⟨"NewUser",.named,
   [need "name" text [.required,.max (bound 8)],need "age" (.int .u32) [.gt (bound 0),.lte (bound 150)],
    need "email" text [mail],need "role" text [.oneOf ["admin","member"]]]⟩

def address : RecordType := ⟨"Address",.named,[need "city" text [.required]]⟩

def customer : RecordType :=
  ⟨"Customer",.named,
   [need "name" text [.required],dived (need "address" (.record "Address") []) [.dive],
    dived (need "previous" (many (.record "Address")) []) [.dive,.rule (.max (bound 3))]]⟩

def userPatch : RecordType :=
  ⟨"UserPatch",.named,
   [skippable (may "nickname" (.nullable text) [.required]),
    may "age" (.nullable text) [.required,.gt (bound 17)],
    skippable (may "tags" (.optional (many text)) [.required,.min (bound 2),.max (bound 5)]),
    dived (may "address" (.nullable (.record "Address")) []) [.dive]]⟩

def signUp : RecordType :=
  ⟨"SignUp",.named,
   [need "login" text [.required],need "seatCount" (.int .u32) [.gt (bound 0)],
    may "promoCode" (.optional text) [.max (bound 4)]]⟩

def plain : RecordType := ⟨"Plain",.named,[need "note" text []]⟩

def search : RecordType :=
  ⟨"Search",.named,
   [need "q" text [.required],need "page" (.optional (.int .u32)) [.gte (bound 1),.lt (bound 1000)],
    may "exact" .flag []]⟩

def numbers : RecordType :=
  ⟨"Numbers",.named,
   [may "i" (.int .i64) [.gte (bound (-5)),.lt (Binary64.ofDecimal false 55 (-1))],
    may "f" .real [.gt (Binary64.ofDecimal true 5 (-1)),.lte (bound 1000)],
    may "code" (.optional text) [.gt (bound 10)],
    may "tags" (.nullable (many text)) [.min (bound 1),.max (bound 3)],
    may "score" (.optional (.int .i32)) [.min (bound (-2)),.max (bound 2)],
    may "level" (.int .u8) [.oneOf ["0","1","2.0","3"]],
    may "any" .any [.required,.max (bound 3)],
    may "mail" (.nullable text) [mail],
    may "flag" .flag [.required]]⟩

def tree : RecordType :=
  ⟨"Tree",.named,
   [need "name" text [.required,.max (bound 5)],
    dived (may "children" (many (.record "Tree")) []) [.dive],
    dived (may "left" (.optional (.record "Tree")) []) [.dive]]⟩

def apiHeaders : RecordType :=
  ⟨"ApiHeaders",.named,
   [need "x-api-key" text [.required,.min (bound 3)],need "x-count" (.optional (.int .u32)) [.gt (bound 1)]]⟩

def pair : RecordType := ⟨"Pair",.tuple,[need "0" text [.required],need "1" (.int .i32) [.gt (bound 0)]]⟩

def nothing : RecordType := ⟨"Nothing",.unit,[]⟩

def contact : RecordType :=
  ⟨"Contact",.named,
   [need "name" text [.required,.max (bound 12)],need "email" text [mail],
    may "age" (.nullable text) [.gte (bound 18)],may "Postal Code" (.optional text) [.min (bound 4)]]⟩

def page : RecordType :=
  ⟨"Page",.named,
   [dived (need "items" (many (.record "Address")) []) [.dive,.rule .required],
    need "page" (.int .u64) [.gt (bound 0)]]⟩

def catalog : Catalog :=
  [person,newUser,address,customer,userPatch,signUp,plain,search,numbers,tree,apiHeaders,pair,nothing,
   contact,page]

-- The shape that a type's name stands for, wrappers and plain types included.
def shape (name : String) : Shape :=
  match name with
  | "PageOfAddress" => .record "Page"
  | "VecOfAddress" => .list (.record "Address")
  | "OptionOfAddress" => .optional (.record "Address")
  | "NullableOfAddress" => .nullable (.record "Address")
  | "BoxOfAddress" => .record "Address"
  | "Value" => .any
  | "String" => .text
  | "Map" | "BTreeMap" => .dictionary
  | _ => .record name

end ServiceKit.Samples
