/-!
# Spans

A span is a stretch of a text, given by its first byte and its length in bytes.
-/

namespace InlineExpect

/-- A stretch of `length` bytes that begins at the byte offset `start`. -/
structure Span where
  start : Nat := 0
  length : Nat := 0
deriving DecidableEq, Repr, Inhabited

namespace Span

/-- The span from `start` up to and without `stop`. -/
def ofBounds (start stop : Nat) : Span := ⟨start, stop - start⟩

/-- The first offset past the span. -/
def stop (s : Span) : Nat := s.start + s.length

/-- A span without bytes. -/
def isEmpty (s : Span) : Bool := s.length == 0

/-- Whether the byte at an offset belongs to the span. -/
def contains (s : Span) (pos : Nat) : Bool := s.start ≤ pos && pos < s.stop

/-- The span as `start..stop`. -/
def boundsText (s : Span) : String := s!"{s.start}..{s.stop}"

/-- The span as `start+length`. -/
def text (s : Span) : String := s!"{s.start}+{s.length}"

@[simp] theorem start_ofBounds (a b : Nat) : (ofBounds a b).start = a := rfl

theorem stop_ofBounds {a b : Nat} (h : a ≤ b) : (ofBounds a b).stop = b := by
  simp only [ofBounds, stop]; omega

end Span

end InlineExpect
