namespace ServiceKit

abbrev Token := Nat

-- The line of a token holds the token itself and all its ancestors.
structure TokenNode where
  line : List Token
  cancelled : Bool
deriving DecidableEq, Repr

structure TokenForest where
  nodes : List TokenNode
deriving DecidableEq, Repr, Inhabited

namespace TokenForest

def empty : TokenForest := ⟨[]⟩

def line (f : TokenForest) (t : Token) : List Token := ((f.nodes[t]?).map (·.line)).getD [t]

def isCancelled (f : TokenForest) (t : Token) : Bool := ((f.nodes[t]?).map (·.cancelled)).getD false

def root (f : TokenForest) : Token × TokenForest :=
  (f.nodes.length,⟨f.nodes ++ [⟨[f.nodes.length],false⟩]⟩)

def child (f : TokenForest) (parent : Token) : Token × TokenForest :=
  (f.nodes.length,⟨f.nodes ++ [⟨f.nodes.length :: f.line parent,f.isCancelled parent⟩]⟩)

def cancel (f : TokenForest) (t : Token) : TokenForest :=
  ⟨f.nodes.map fun n => if n.line.contains t then { n with cancelled := true } else n⟩

-- How a forest may change: it keeps the lines of its tokens and what was cancelled in it.
def Extends (f g : TokenForest) : Prop :=
  ∀ (t : Token) (n : TokenNode), f.nodes[t]? = some n →
    ∃ n', g.nodes[t]? = some n' ∧ n'.line = n.line ∧ (n.cancelled = true → n'.cancelled = true)

end TokenForest
end ServiceKit
