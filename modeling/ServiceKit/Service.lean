import ServiceKit.Json

namespace ServiceKit

structure Service where
  name : String
  env : String
  container : String
  version : String
deriving DecidableEq, Repr, Inhabited

namespace Service

def label (s : Service) : String :=
  if s.env.isEmpty then s.name
  else if s.name.isEmpty then "[" ++ s.env ++ "]"
  else "[" ++ s.env ++ "] " ++ s.name

def titled (s : Service) (title : String) : String :=
  if s.label.isEmpty then title else s.label ++ " " ++ title

def toJson (s : Service) : Json :=
  .object [("app_name",.string s.name),("env",.string s.env),("container",.string s.container),
    ("version",.string s.version)]

end Service
end ServiceKit
