import ServiceKit.Server.Settings
import ServiceKit.Text.Base64
import ServiceKit.Text.Blank
import ServiceKit.Text.Quoted
import ServiceKit.Text.Split

namespace ServiceKit.Server

inductive ServerError where
  | bind (address cause : String)
  | tls (path message : String)
  | shutdownTimedOut
  | io (cause : String)
deriving DecidableEq, Repr

namespace ServerError

def message : ServerError → String
  | .bind address cause => "failed to bind to " ++ address ++ ": " ++ cause
  | .tls path m => "invalid TLS material in " ++ path ++ ": " ++ m
  | .shutdownTimedOut => "shutdown timed out"
  | .io cause => "I/O error: " ++ cause

def kind : ServerError → String
  | .bind .. => "Bind"
  | .tls .. => "Tls"
  | .shutdownTimedOut => "ShutdownTimedOut"
  | .io _ => "Io"

end ServerError

structure Section where
  label : String
  data : Text.Bytes
deriving DecidableEq, Repr

namespace Section

def dashes : List Char := List.replicate 5 '-'

def labelOf (word : String) (line : List Char) : Option String :=
  let lead := dashes ++ word.toList ++ [' ']
  if lead.isPrefixOf line && dashes.isSuffixOf line && decide (lead.length + 5 ≤ line.length) then
    some (String.ofList ((line.drop lead.length).dropLast.dropLast.dropLast.dropLast.dropLast))
  else none

def lines (text : String) : List (List Char) :=
  (Text.splitAll '\n' text.toList).map fun l => (Text.trim (String.ofList l)).toList

def body (label : String) (acc : List Char) : List (List Char) → Except String (Section × List (List Char))
  | [] => .error ("section end " ++ Text.quote ("-----END " ++ label ++ "-----") ++ " missing")
  | l :: rest =>
    if labelOf "END" l = some label then
      match Text.ofBase64? acc with
      | some data => .ok (⟨label,data⟩,rest)
      | none => .error "InvalidTrailingPadding"
    else body label (acc ++ l) rest

def readLines : Nat → List (List Char) → Except String (List Section)
  | 0,_ | _,[] => .ok []
  | fuel + 1,l :: rest =>
    match labelOf "BEGIN" l with
    | none => readLines fuel rest
    | some label => do
      let (s,rest) ← body label [] rest
      return s :: (← readLines fuel rest)

def ofText (text : String) : Except String (List Section) :=
  readLines (text.length + 1) (lines text)

end Section

structure Identity where
  certificates : List Text.Bytes
  key : Text.Bytes
deriving DecidableEq, Repr

namespace Identity

def keyLabels : List String := ["RSA PRIVATE KEY","PRIVATE KEY","EC PRIVATE KEY"]

def missing : String := "No such file or directory (os error 2)"

def sections (files : String → Option String) (path : String) : Except ServerError (List Section) :=
  match files path with
  | none => .error (.tls path missing)
  | some text => (Section.ofText text).mapError (.tls path)

-- The certificates are looked for before the key file is opened.
def load (files : String → Option String) (t : TlsFiles) : Except ServerError Identity := do
  let certificates := ((← sections files t.cert).filter fun s => s.label == "CERTIFICATE").map (·.data)
  if certificates.isEmpty then throw (.tls t.cert "no certificates found")
  match (← sections files t.key).find? fun s => keyLabels.contains s.label with
  | none => throw (.tls t.key "no private key found")
  | some s => return ⟨certificates,s.data⟩

end Identity
end ServiceKit.Server
