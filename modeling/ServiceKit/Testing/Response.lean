import ServiceKit.Testing.Request

namespace ServiceKit.Testing
open Text (Bytes)

namespace Answer

def text (r : Response) : Except TestError String :=
  match Text.ofUtf8? r.body with
  | some s => .ok s
  | none =>
    let k := (Text.firstBreak r.body).getD ⟨0,none⟩
    .error (.bodyRead ("invalid UTF-8: " ++ k.message))

def json (r : Response) : Except TestError Json :=
  match Json.readBytes r.body with
  | .ok j => .ok j
  | .error e => .error (.json e.message)

def envelope (r : Response) : Except TestError Envelope :=
  match Envelope.ofBytes r.body with
  | .ok e => .ok e
  | .error e => .error (.json e.message)

def data (r : Response) : Except TestError Json := do return ((← json r).member? "data").getD .null

def hasHeader (r : Response) (name value : String) : Bool := r.headers.text? (Text.lowered name) == some value

def hasErrorCode (r : Response) (code : String) : Bool :=
  match envelope r with
  | .ok e => e.code == code
  | .error _ => false

def hasField (r : Response) (pointer : String) (value : Json) : Bool :=
  match json r with
  | .ok j => ((j.pointer pointer).map fun v => v.same value).getD false
  | .error _ => false

def showByte (b : UInt8) : List Char :=
  if b = 34 then ['\\','"']
  else if (decide (32 ≤ b) && decide (b < 127)) || b == 9 then [Char.ofNat b.toNat]
  else '\\' :: 'x' :: Nat.toDigits 16 b.toNat

def showValue (bs : Bytes) : String := String.ofList ('"' :: (bs.flatMap showByte ++ ['"']))

-- Values of one name stand together, where the name first stands.
def grouped (h : Headers) : Headers := h.names.flatMap fun n => (h.all n).map fun v => (n,v)

def describe (r : Response) : String :=
  let headers := String.intercalate ", " ((grouped r.headers).map fun e => Text.quote e.1 ++ ": " ++ showValue e.2)
  "TestResponse \x7b status: " ++ toString r.status ++ ", headers: \x7b" ++ headers ++ "\x7d, body: " ++
    Text.quote (Text.lenient r.body) ++ " \x7d"

end Answer
end ServiceKit.Testing
