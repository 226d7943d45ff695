namespace ServiceKit.Http

abbrev Params := List (String × String)

namespace Params

def get? (p : Params) (name : String) : Option String := (p.find? fun e => e.1 == name).map (·.2)

def push (p : Params) (name value : String) : Params := p ++ [(name,value)]

end Params
end ServiceKit.Http
