import ServiceKit.Text.Quoted

namespace ServiceKit.Derive

inductive Delimiter where
  | paren | bracket | brace
deriving DecidableEq, Repr

inductive Literal where
  | text (value : String)
  | number (digits : String)
  | other
deriving DecidableEq, Repr

inductive Token where
  | word (text : String)
  | mark (c : Char) (joint : Bool)
  | literal (source : String) (value : Literal)
  | group (d : Delimiter) (body : List Token)
deriving Repr, BEq, Inhabited

namespace Delimiter

def opening : Delimiter → String
  | .paren => "("
  | .bracket => "["
  | .brace => "\x7b "

def closing : Delimiter → String
  | .paren => ")"
  | .bracket => "]"
  | .brace => " \x7d"

end Delimiter

namespace Token

mutual

def print : Token → String
  | .word text => text
  | .mark c _ => c.toString
  | .literal source _ => source
  | .group .brace [] => "\x7b \x7d"
  | .group d body => d.opening ++ printAll body ++ d.closing

def printAll : List Token → String
  | [] => ""
  | [t] => t.print
  | .mark c true :: rest => c.toString ++ printAll rest
  | t :: rest => t.print ++ " " ++ printAll rest

end

def staysJoint (c : Char) (next : Option Token) : Bool :=
  match c,next with
  | ':',some (.mark ':' _) => true
  | '-',some (.mark '>' _) => true
  | '\'',_ => true
  | _,_ => false

mutual

-- Tokens as they are printed after they were read as a type; `last` tells of a mark that the one
-- before it was joint with it.
def settle : Token → Token
  | .group d body => .group d (settleAll false body)
  | t => t

def settleAll (last : Bool) : List Token → List Token
  | [] => []
  | .mark c _ :: rest =>
    let joint := !(last && c == ':') && staysJoint c rest.head?
    .mark c joint :: settleAll (joint && c != '\'') rest
  | t :: rest => t.settle :: settleAll false rest

end

end Token
end ServiceKit.Derive
