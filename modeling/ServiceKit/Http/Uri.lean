import ServiceKit.Text.Ascii
import ServiceKit.Text.Split

namespace ServiceKit.Http

structure Uri where
  scheme : Option String
  authority : String
  rawPath : String
  query : Option String
deriving DecidableEq, Repr, Inhabited

inductive UriError where
  | invalidChar | invalidAuthority | invalidFormat | tooLong | empty | schemeTooLong
deriving DecidableEq, Repr

def UriError.message : UriError → String
  | .invalidChar => "invalid uri character"
  | .invalidAuthority => "invalid authority"
  | .invalidFormat => "invalid format"
  | .tooLong => "uri too long"
  | .empty => "empty string"
  | .schemeTooLong => "scheme too long"

namespace Uri

def pathChar (c : Char) : Bool :=
  let n := c.toNat
  n == 0x21 || n == 0x22 || decide (0x24 ≤ n ∧ n ≤ 0x3B) || n == 0x3D || decide (0x40 ≤ n ∧ n ≤ 0x5F) ||
    decide (0x61 ≤ n)

def queryChar (c : Char) : Bool :=
  let n := c.toNat
  n == 0x21 || decide (0x24 ≤ n ∧ n ≤ 0x3B) || n == 0x3D || decide (0x3F ≤ n)

def isPathEnd (c : Char) : Bool := c == '?' || c == '#'

def pathAndQuery (cs : List Char) : Except UriError (String × Option String) :=
  let path := cs.takeWhile fun c => !isPathEnd c
  if !path.all pathChar then .error .invalidChar
  else match cs.dropWhile fun c => !isPathEnd c with
    | '?' :: rest =>
      let query := rest.takeWhile (· != '#')
      if query.all queryChar then .ok (String.ofList path,some (String.ofList query)) else .error .invalidChar
    | _ => .ok (String.ofList path,none)

def authorityMarks : List Char :=
  ['!','$','&','\'','(',')','*','+',',','-','.',':',';','=','@','[',']','_','~']

structure AuthorityScan where
  colons : Nat
  opened : Bool
  closed : Bool
  percent : Bool
  lastAt : Bool

-- One character of an authority; a port colon or a percent sign counts only after the last at sign
-- and the closing bracket.
def scanChar (s : AuthorityScan) (c : Char) : Except UriError AuthorityScan :=
  let s := { s with lastAt := false }
  if c = ':' then (if s.colons ≥ 8 then .error .invalidAuthority else .ok { s with colons := s.colons + 1 })
  else if c = '[' then (if s.percent || s.opened then .error .invalidAuthority else .ok { s with opened := true })
  else if c = ']' then
    if !s.opened || s.closed then .error .invalidAuthority
    else .ok { s with closed := true,colons := 0,percent := false }
  else if c = '@' then .ok { s with lastAt := true,colons := 0,percent := false }
  else if c = '%' then .ok { s with percent := true }
  else if Text.isAlnum c || authorityMarks.contains c then .ok s
  else .error .invalidChar

def isAuthorityEnd (c : Char) : Bool := c == '/' || c == '?' || c == '#'

def authorityPart (cs : List Char) : Except UriError (List Char × List Char) := do
  let auth := cs.takeWhile fun c => !isAuthorityEnd c
  let s ← auth.foldlM scanChar ⟨0,false,false,false,false⟩
  if s.opened != s.closed || s.colons > 1 || s.lastAt || s.percent then .error .invalidAuthority
  else .ok (auth,cs.dropWhile fun c => !isAuthorityEnd c)

def schemeChar (c : Char) : Bool := Text.isAlnum c || c == '+' || c == '-' || c == '.'

def schemePart (cs : List Char) : Except UriError (Option String × List Char) :=
  let scheme := cs.takeWhile schemeChar
  match cs.dropWhile schemeChar with
  | ':' :: '/' :: '/' :: rest =>
    if Text.lowered (String.ofList scheme) = "http" ∨ Text.lowered (String.ofList scheme) = "https" then
      .ok (some (Text.lowered (String.ofList scheme)),rest)
    else if cs.length ≤ 3 then .ok (none,cs)
    else if scheme.length > 64 then .error .schemeTooLong
    else .ok (some (String.ofList scheme),rest)
  | _ => .ok (none,cs)

def onlyAuthority (cs : List Char) : Except UriError Uri := do
  let (auth,rest) ← authorityPart cs
  if rest.isEmpty then .ok ⟨none,String.ofList auth,"",none⟩ else .error .invalidFormat

def parse (s : String) : Except UriError Uri :=
  if s.utf8ByteSize > 65534 then .error .tooLong
  else match s.toList with
    | [] => .error .empty
    | ['*'] => .ok ⟨none,"","*",none⟩
    | '/' :: rest => do
      let (path,query) ← pathAndQuery ('/' :: rest)
      return ⟨none,"",path,query⟩
    | [c] =>
      match onlyAuthority [c] with
      | .error .invalidFormat => .error .invalidChar
      | r => r
    | cs => do
      let (scheme,rest) ← schemePart cs
      match scheme with
      | none => onlyAuthority rest
      | some scheme =>
        if rest.isEmpty then .error .empty
        else
          let (auth,rest) ← authorityPart rest
          if auth.isEmpty then .error .invalidFormat
          else
            let (path,query) ← pathAndQuery rest
            return ⟨some scheme,String.ofList auth,path,query⟩

def path (u : Uri) : String :=
  if !u.rawPath.isEmpty then u.rawPath
  else if u.scheme.isSome || u.query.isSome then "/" else ""

def host? (u : Uri) : Option String :=
  if u.authority.isEmpty then none
  else
    let afterAt := (Text.splitAll '@' u.authority.toList).getLast?.getD []
    match afterAt with
    | '[' :: _ => some (String.ofList (afterAt.takeWhile (· != ']') ++ [']']))
    | cs => some (String.ofList (cs.takeWhile (· != ':')))

def text (u : Uri) : String :=
  (match u.scheme with
    | some s => s ++ "://"
    | none => "") ++ u.authority ++ u.path ++
  (match u.query with
    | some q => "?" ++ q
    | none => "")

end Uri
end ServiceKit.Http
