/-!
# Nesting of braces and substitutions

A closing brace ends either a group of code or a substitution inside a template literal, after
which template text goes on.  `Nesting` is what the scanner has to remember to tell the two apart.
`DepthCounter` remembers the depth of the open braces and the depths at which a substitution was
opened.  `BracketStack` remembers every open bracket.
-/

namespace InlineExpect.Comment

/-- A memory of the brackets that are open. -/
class Nesting (σ : Type) where
  /-- Nothing is open. -/
  none : σ
  /-- A brace opens a group. -/
  openGroup : σ → σ
  /-- A dollar sign and a brace open a substitution inside template text. -/
  openSubstitution : σ → σ
  /-- A brace closes what was opened last.  The answer is whether template text goes on. -/
  close : σ → σ × Bool

/-- The number of open braces, and the depths that belong to substitutions, innermost first. -/
structure DepthCounter where
  depth : Nat := 0
  substitutions : List Nat := []
deriving DecidableEq, Repr

instance : Nesting DepthCounter where
  none := {}
  openGroup n := { n with depth := n.depth + 1 }
  openSubstitution n := ⟨n.depth + 1, (n.depth + 1) :: n.substitutions⟩
  close n :=
    match n.substitutions with
    | d :: ds => if d = n.depth then (⟨n.depth - 1, ds⟩, true) else (⟨n.depth - 1, d :: ds⟩, false)
    | [] => (⟨n.depth - 1, []⟩, false)

/-- The two brackets that a closing brace can match. -/
inductive Bracket where
  | group
  | substitution
deriving DecidableEq, Repr

/-- The open brackets, innermost first. -/
structure BracketStack where
  brackets : List Bracket := []
deriving DecidableEq, Repr

instance : Nesting BracketStack where
  none := {}
  openGroup n := ⟨.group :: n.brackets⟩
  openSubstitution n := ⟨.substitution :: n.brackets⟩
  close n :=
    match n.brackets with
    | .substitution :: rest => (⟨rest⟩, true)
    | .group :: rest => (⟨rest⟩, false)
    | [] => (⟨[]⟩, false)

end InlineExpect.Comment
