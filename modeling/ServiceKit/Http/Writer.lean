import ServiceKit.Http.Response

namespace ServiceKit

structure Writer where
  response : Option Response
deriving DecidableEq, Repr

inductive WriteError where
  | alreadyWritten
deriving DecidableEq, Repr

def WriteError.message : WriteError → String
  | .alreadyWritten => "response already written"

-- What a write puts into the slot; a value that cannot be encoded becomes a fixed internal error.
inductive Content where
  | json (status : Nat) (value : Json)
  | unencodable (status : Nat)
  | error (e : Envelope)
  | success (r : Reply)
  | text (status : Nat) (body : String)
  | raw (r : Response)
deriving DecidableEq, Repr

namespace Response

def encodeFailure : Response :=
  ofJson 500 (Envelope.internal "failed to encode response").toJson

def unwritten : Response := ofEnvelope (Envelope.internal "no response written")

def ofContent : Content → Response
  | .json status value => ofJson status value
  | .unencodable _ => encodeFailure
  | .error e => ofEnvelope e
  | .success r => ofReply r
  | .text status body => ofText status body
  | .raw r => r

end Response

namespace Writer

def empty : Writer := ⟨none⟩

def isWritten (w : Writer) : Bool := w.response.isSome

def status? (w : Writer) : Option Nat := w.response.map (·.status)

def store (w : Writer) (r : Response) : Except WriteError Unit × Writer :=
  match w.response with
  | some _ => (.error .alreadyWritten,w)
  | none => (.ok (),⟨some r⟩)

def guard (w : Writer) : Except WriteError Unit := if w.isWritten then .error .alreadyWritten else .ok ()

def make (w : Writer) (c : Content) : Except WriteError Unit × Writer :=
  match w.guard with
  | .error e => (.error e,w)
  | .ok _ => w.store (.ofContent c)

-- A response that is there already is stored as it is; every other content has to be made one first.
def write (w : Writer) : Content → Except WriteError Unit × Writer
  | .raw r => w.store r
  | c => w.make c

-- The written response, or an internal error when there was no write.
def finish (w : Writer) : Response := w.response.getD .unwritten

end Writer
end ServiceKit
