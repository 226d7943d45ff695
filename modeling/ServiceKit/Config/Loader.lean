import ServiceKit.Config.File
import ServiceKit.Config.DotEnv
import ServiceKit.Config.Variables

namespace ServiceKit.Config
open Text (Bytes)

inductive Found where
  | missing
  | unreadable
  | content (bytes : Bytes)
deriving DecidableEq, Repr

structure Loader where
  base : Config
  environment : Variables
  given : Option Variables

namespace Loader

def start : Loader := ⟨defaults,[],none⟩

def withFile (l : Loader) (path : String) : Found → Except ConfigError Loader
  | .missing => .error (.notFound path)
  | .unreadable => .error (.unreadable path)
  | .content bytes =>
    match Text.ofUtf8? bytes with
    | none => .error (.unreadable path)
    | some text => return { l with base := ← ofFile text }

def withOptionalFile (l : Loader) (path : String) : Found → Except ConfigError Loader
  | .missing => .ok l
  | found => l.withFile path found

def withEnvironment (l : Loader) (vs : Variables) : Loader :=
  { l with environment := vs.foldl (fun env v => Variables.insert v.1 v.2 env) l.environment }

-- A file of assignments adds to the environment what is not set there yet.
def withDotEnv (l : Loader) (path : String) (bytes : Bytes) : Except ConfigError Loader :=
  match (Text.ofUtf8? bytes).bind (DotEnv.load l.environment) with
  | none => .error (.dotEnv (path ++ ": not a file of assignments"))
  | some env => .ok { l with environment := env }

def withVariables (l : Loader) (vs : Variables) : Loader := { l with given := some vs }

def chosen (l : Loader) : Variables := l.given.getD l.environment

def loadUnvalidated (l : Loader) : Except ConfigError Config := Config.loadUnvalidated l.base l.chosen

def load (l : Loader) : Except ConfigError Config := Config.load l.base l.chosen

end Loader
end ServiceKit.Config
