import Mathlib
import InlineExpect.Proofs.Syntax.Preorder

/-!
# Node numbers of 32 bits

Nodes are numbered by natural numbers.  A builder that keeps its numbers in 32 bits begins at zero
again after `2 ^ 32` nodes, and up to so many it does the same steps
(`TreeBuilder.applyAllInWords_eq`).  No step takes a node away, so that the bound need only hold at
the end.
-/

namespace InlineExpect

namespace TreeBuilder

variable {b : TreeBuilder}

/-- The number of the next node in 32 bits. -/
def nextWord (b : TreeBuilder) : UInt32 := UInt32.ofNat b.nodes.size

/-- Adds a node without children, with a number of 32 bits. -/
def leafInWords (b : TreeBuilder) (kind : SyntaxKind) (span : Span) : TreeBuilder :=
  { b with
    nodes := (b.nodes.modify b.current (addChild b.nextWord.toNat)).push
      ⟨kind, span, some b.current, []⟩ }

/-- The builder after a step with numbers of 32 bits. -/
def applyInWords (b : TreeBuilder) : Step → TreeBuilder
  | .openNode kind span =>
    { b.leafInWords kind span with openNodes := b.nextWord.toNat :: b.openNodes }
  | .leaf kind span => b.leafInWords kind span
  | .closeNode => b.closeNode

/-- The builder after some steps with numbers of 32 bits. -/
def applyAllInWords (b : TreeBuilder) (steps : List Step) : TreeBuilder :=
  steps.foldl applyInWords b

/-- The number of the next node has 32 bits as long as there are less than `2 ^ 32` nodes. -/
lemma toNat_nextWord (h : b.nodes.size < 2 ^ 32) : b.nextWord.toNat = b.nextId :=
  UInt32.toNat_ofNat_of_lt' h

/-- No step takes a node away. -/
lemma size_le_size_apply (b : TreeBuilder) (step : Step) :
    b.nodes.size ≤ (b.apply step).nodes.size := by
  cases step with
  | openNode kind span | leaf kind span => exact (size_leaf b kind span).ge.trans' (Nat.le_succ _)
  | closeNode => exact le_rfl

/-- No run takes a node away. -/
lemma size_le_size_applyAll (b : TreeBuilder) (steps : List Step) :
    b.nodes.size ≤ (b.applyAll steps).nodes.size := by
  induction steps generalizing b with
  | nil => exact le_rfl
  | cons step steps ih => exact (b.size_le_size_apply step).trans (ih (b.apply step))

/-- A step is the same in 32 bits if there are at most `2 ^ 32` nodes after it. -/
lemma applyInWords_eq {step : Step} (h : (b.apply step).nodes.size ≤ 2 ^ 32) :
    b.applyInWords step = b.apply step := by
  cases step with
  | openNode kind span | leaf kind span =>
    have hlt : b.nodes.size < 2 ^ 32 := (size_leaf b kind span).symm.trans_le h
    rw [applyInWords, leafInWords, toNat_nextWord hlt]
    rfl
  | closeNode => rfl

/-- A run is the same in 32 bits if it leads to at most `2 ^ 32` nodes. -/
theorem applyAllInWords_eq {steps : List Step} (h : (b.applyAll steps).nodes.size ≤ 2 ^ 32) :
    b.applyAllInWords steps = b.applyAll steps := by
  induction steps generalizing b with
  | nil => rfl
  | cons step steps ih =>
    have hstep : (b.apply step).nodes.size ≤ 2 ^ 32 :=
      ((b.apply step).size_le_size_applyAll steps).trans h
    change (b.applyInWords step).applyAllInWords steps = (b.apply step).applyAll steps
    rw [applyInWords_eq hstep]
    exact ih h

end TreeBuilder

/-- A tree of at most `2 ^ 32` nodes is built with numbers of 32 bits if it is built at all. -/
theorem SyntaxTree.Built.inWords {t : SyntaxTree} (h : t.Built) (hsize : t.size ≤ 2 ^ 32) :
    ∃ file span steps, t = ((TreeBuilder.start file span).applyAllInWords steps).finish := by
  obtain ⟨file, span, steps, rfl⟩ := h
  exact ⟨file, span, steps, congrArg TreeBuilder.finish (TreeBuilder.applyAllInWords_eq hsize).symm⟩

end InlineExpect
