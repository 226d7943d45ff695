import ServiceKit.Http.Params
import ServiceKit.Text.Split

namespace ServiceKit.Server

def trimSlashes (s : String) : List Char :=
  ((s.toList.dropWhile (· == '/')).reverse.dropWhile (· == '/')).reverse

def pathPart (s : String) : List Char :=
  match trimSlashes s with
  | [] => []
  | cs => '/' :: cs

def fullPath (version : Nat) (controller suffix : String) : String :=
  "/v" ++ toString version ++ String.ofList (pathPart controller ++ pathPart suffix)

def pieces (path : String) : List String :=
  ((Text.splitAll '/' path.toList).filter fun p => !p.isEmpty).map String.ofList

inductive Segment where
  | literal (text : String)
  | param (name : String)
deriving DecidableEq, Repr

namespace Segment

def ofPiece (piece : String) : Segment :=
  match piece.toList with
  | '\x7b' :: rest =>
    if rest.getLast? = some '\x7d' then .param (String.ofList rest.dropLast) else .literal piece
  | _ => .literal piece

def isLiteral : Segment → Bool
  | .literal _ => true
  | .param _ => false

end Segment

abbrev Pattern := List Segment

namespace Pattern

def parse (path : String) : Pattern := (pieces path).map Segment.ofPiece

def literals (p : Pattern) : Nat := p.countP Segment.isLiteral

def capture : Pattern → List String → Option Http.Params
  | [],[] => some []
  | .literal text :: ss,piece :: rest => if text = piece then capture ss rest else none
  | .param name :: ss,piece :: rest => (capture ss rest).map ((name,piece) :: ·)
  | _,_ => none

def matchPath (p : Pattern) (path : String) : Option Http.Params := p.capture (pieces path)

end Pattern

structure Entry (α : Type) where
  method : String
  path : String
  target : α

namespace Entry

def pattern (e : Entry α) : Pattern := Pattern.parse e.path

def sameRoute (e f : Entry α) : Bool := e.method == f.method && e.path == f.path

end Entry

inductive Lookup (α : Type) where
  | found (e : Entry α) (params : Http.Params)
  | methodNotAllowed (allowed : List String)
  | notFound

namespace Lookup

def better (best : Option (Entry α × Http.Params)) (e : Entry α) (params : Http.Params) :
    Option (Entry α × Http.Params) :=
  match best with
  | none => some (e,params)
  | some (b,ps) => if b.pattern.literals < e.pattern.literals then some (e,params) else some (b,ps)

def best (method path : String) (table : List (Entry α)) : Option (Entry α × Http.Params) :=
  table.foldl (fun acc e =>
    match e.pattern.matchPath path with
    | none => acc
    | some params => if e.method = method then better acc e params else acc) none

def methods (path : String) (table : List (Entry α)) : List String :=
  table.foldl (fun acc e =>
    if (e.pattern.matchPath path).isSome && !acc.contains e.method then acc ++ [e.method] else acc) []

def of (method path : String) (table : List (Entry α)) : Lookup α :=
  match best method path table with
  | some (e,params) => .found e params
  | none =>
    match methods path table with
    | [] => .notFound
    | allowed => .methodNotAllowed allowed

end Lookup
end ServiceKit.Server
