import Pseudonym.Log
import Pseudonym.Registry
import Pseudonym.Tree.Node

namespace Pseudonym

/-- How far a walk has come. A walk that has failed changes nothing any more. -/
structure Progress (σ : Type) where
  registry : Registry
  state : σ
  replaced : Nat := 0
  failure : Option Error := none
  log : Log := []

namespace Progress

variable {σ : Type}

def skipped (p : Progress σ) (type : String) (start : Nat) : Progress σ :=
  { p with log := p.log ++ [⟨.debug, .walking,
      "Skipping " ++ type ++ " node at byte " ++ toString start ++ " with no usable name"⟩] }

/-- The name that a node has after the walk has passed it. -/
def rename (supply : Supply σ) (p : Progress σ) (kind : Kind) (type : String) (start : Nat)
    (name : Value) : Value × Progress σ :=
  if p.failure.isSome || !kind.isRedactable then (name, p)
  else
    match Registry.usable? name with
    | none => (name, p.skipped type start)
    | some old =>
        match p.registry.substitute supply old p.state with
        | (.ok new, registry, state) =>
            (.text new, { p with registry, state, replaced := p.replaced + 1 })
        | (.error e, registry, state) => (name, { p with registry, state, failure := some e })

end Progress

namespace Node

variable {σ : Type} (supply : Supply σ)

mutual

def walk (p : Progress σ) : Node → Node × Progress σ
  | mk kind type start stop name sigil children =>
      let (name, p) := p.rename supply kind type start name
      let (children, p) := walkAll p children
      (mk kind type start stop name sigil children, p)

def walkAll (p : Progress σ) : List Node → List Node × Progress σ
  | [] => ([], p)
  | n :: ns =>
      let (n, p) := walk p n
      let (ns, p) := walkAll p ns
      (n :: ns, p)

end

end Node

namespace Tree

variable {σ : Type}

/-- Walks the whole tree. -/
def walk (t : Tree) (supply : Supply σ) (registry : Registry) (state : σ) : Tree × Progress σ :=
  let (root, p) := t.root.walk supply { registry, state }
  let p := match p.failure with
    | some _ => p
    | none =>
        { p with log := p.log ++ [⟨.debug, .walking, "Replaced " ++ toString p.replaced ++
            " identifier occurrences (" ++ toString p.registry.size ++ " distinct)"⟩] }
  ({ t with root }, p)

end Tree

end Pseudonym
