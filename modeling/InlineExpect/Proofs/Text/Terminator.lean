import Mathlib
import InlineExpect.Proofs.Text.LineNumber

/-!
# Other line terminators

A text whose lines end with LF can be written with any other terminator instead.  `Text.terminate`
writes it so, and leaves all other characters as they are.  What comes out has the same lines
(`Text.lineBreaks_terminate`), and the beginning of the one text is the beginning of the other.
-/

namespace InlineExpect.Text

/-- The line terminators other than LF. -/
inductive Terminator where
  | crlf
  | cr
  | lineSeparator
  | paragraphSeparator
deriving DecidableEq, Repr

/-- The characters of a terminator. -/
def Terminator.chars : Terminator → List Char
  | .crlf => ['\r', '\n']
  | .cr => ['\r']
  | .lineSeparator => ['\u2028']
  | .paragraphSeparator => ['\u2029']

/-- A text with every LF replaced by a terminator. -/
def terminate (e : Terminator) (cs : List Char) : List Char :=
  cs.flatMap fun c => if c = '\n' then e.chars else [c]

/-- A text the lines of which all end with LF. -/
def OnlyLf (cs : List Char) : Prop := ∀ c ∈ cs, isLineBreak c = true → c = '\n'

namespace OnlyLf

variable {c : Char} {cs ds : List Char}

lemma tail (h : OnlyLf (c :: cs)) : OnlyLf cs := fun d hd => h d (List.mem_cons_of_mem c hd)

lemma drop (h : OnlyLf cs) (n : Nat) : OnlyLf (cs.drop n) :=
  fun d hd => h d (List.mem_of_mem_drop hd)

/-- A first character other than LF is no line break. -/
lemma head (h : OnlyLf (c :: cs)) (hc : c ≠ '\n') : isLineBreak c = false :=
  Bool.eq_false_iff.mpr fun hbreak => hc (h c List.mem_cons_self hbreak)

/-- A text without the other line breaks. -/
lemma of_not_mem (hcr : '\r' ∉ cs) (hls : '\u2028' ∉ cs) (hps : '\u2029' ∉ cs) : OnlyLf cs := by
  intro c hc hbreak
  simp only [isLineBreak, Bool.or_eq_true, beq_iff_eq] at hbreak
  rcases hbreak with ((rfl | rfl) | rfl) | rfl
  · rfl
  · exact absurd hc hcr
  · exact absurd hc hls
  · exact absurd hc hps

end OnlyLf

section Terminate

variable {e : Terminator} {c : Char} {cs : List Char}

@[simp] lemma terminate_nil (e : Terminator) : terminate e [] = [] := rfl

@[simp] lemma terminate_lf (e : Terminator) (cs : List Char) :
    terminate e ('\n' :: cs) = e.chars ++ terminate e cs := rfl

lemma terminate_cons (hc : c ≠ '\n') (cs : List Char) :
    terminate e (c :: cs) = c :: terminate e cs := by
  rw [terminate, List.flatMap_cons, if_neg hc]
  rfl

@[simp] lemma terminate_append (e : Terminator) (cs ds : List Char) :
    terminate e (cs ++ ds) = terminate e cs ++ terminate e ds := List.flatMap_append

/-- A text without line breaks stays as it is. -/
lemma terminate_eq_self (h : ∀ c ∈ cs, isLineBreak c = false) : terminate e cs = cs := by
  induction cs with
  | nil => rfl
  | cons c cs ih =>
    have hc : c ≠ '\n' := by
      rintro rfl
      exact absurd (h '\n' List.mem_cons_self) (by decide)
    rw [terminate_cons hc, ih fun d hd => h d (List.mem_cons_of_mem c hd)]

/-! ### The first character -/

/-- A terminator begins with a line break other than LF. -/
lemma Terminator.exists_chars_eq_cons (e : Terminator) :
    ∃ c cs, e.chars = c :: cs ∧ isLineBreak c = true ∧ c ≠ '\n' := by
  cases e with
  | crlf => exact ⟨_, _, rfl, by decide, by decide⟩
  | cr => exact ⟨_, _, rfl, by decide, by decide⟩
  | lineSeparator => exact ⟨_, _, rfl, by decide, by decide⟩
  | paragraphSeparator => exact ⟨_, _, rfl, by decide, by decide⟩

/-- No LF begins a text with another terminator. -/
lemma head?_terminate_ne (e : Terminator) (cs : List Char) :
    (terminate e cs).head? ≠ some '\n' := by
  cases cs with
  | nil => simp
  | cons c cs =>
    by_cases hc : c = '\n'
    · obtain ⟨d, ds, hchars, -, hd⟩ := e.exists_chars_eq_cons
      rw [hc, terminate_lf, hchars]
      exact fun h => hd (Option.some.inj h)
    · rw [terminate_cons hc]
      exact fun h => hc (Option.some.inj h)

/-- A text with another terminator begins with a character that is no line break if and only if it
did before. -/
lemma head?_terminate_eq_some_iff (hc : isLineBreak c = false) :
    (terminate e cs).head? = some c ↔ cs.head? = some c := by
  cases cs with
  | nil => rfl
  | cons d ds =>
    by_cases hd : d = '\n'
    · obtain ⟨d', ds', hchars, hbreak, -⟩ := e.exists_chars_eq_cons
      rw [hd, terminate_lf, hchars]
      constructor
      · intro h
        obtain rfl : d' = c := Option.some.inj h
        exact absurd hc (by rw [hbreak]; exact Bool.noConfusion)
      · intro h
        obtain rfl : '\n' = c := Option.some.inj h
        exact absurd hc (by decide)
    · rw [terminate_cons hd]
      rfl

/-! ### Beginnings of a text -/

/-- The length of the beginning of a text when it has another terminator. -/
def terminatedLength (e : Terminator) (n : Nat) (cs : List Char) : Nat :=
  (terminate e (cs.take n)).length

@[simp] lemma terminatedLength_zero (e : Terminator) (cs : List Char) :
    terminatedLength e 0 cs = 0 := rfl

lemma terminatedLength_lf (e : Terminator) (n : Nat) (cs : List Char) :
    terminatedLength e (1 + n) ('\n' :: cs) = e.chars.length + terminatedLength e n cs := by
  rw [terminatedLength, Nat.add_comm, List.take_succ_cons, terminate_lf, List.length_append]
  rfl

lemma terminatedLength_cons (hc : c ≠ '\n') (n : Nat) (cs : List Char) :
    terminatedLength e (1 + n) (c :: cs) = 1 + terminatedLength e n cs := by
  rw [terminatedLength, Nat.add_comm, List.take_succ_cons, terminate_cons hc, List.length_cons,
    Nat.add_comm]
  rfl

/-- The beginning of a text with another terminator. -/
lemma take_terminatedLength (e : Terminator) (n : Nat) (cs : List Char) :
    (terminate e cs).take (terminatedLength e n cs) = terminate e (cs.take n) := by
  have hsplit : terminate e cs = terminate e (cs.take n) ++ terminate e (cs.drop n) := by
    rw [← terminate_append, List.take_append_drop]
  rw [hsplit]
  exact List.take_left

/-- What follows the beginning of a text with another terminator. -/
lemma drop_terminatedLength (e : Terminator) (n : Nat) (cs : List Char) :
    (terminate e cs).drop (terminatedLength e n cs) = terminate e (cs.drop n) := by
  have hsplit : terminate e cs = terminate e (cs.take n) ++ terminate e (cs.drop n) := by
    rw [← terminate_append, List.take_append_drop]
  rw [hsplit]
  exact List.drop_left

end Terminate

/-! ### Lines -/

/-- A terminator ends one line. -/
lemma lineBreaks_chars_append (e : Terminator) {cs : List Char} (h : cs.head? ≠ some '\n') :
    lineBreaks (e.chars ++ cs) = lineBreaks cs + 1 := by
  cases e with
  | crlf => exact lineBreaks_crlf cs
  | cr => exact lineBreaks_cons_of_lineBreak (by decide) fun _ => h
  | lineSeparator => exact lineBreaks_cons_of_lineBreak (by decide) fun hr => absurd hr (by decide)
  | paragraphSeparator =>
    exact lineBreaks_cons_of_lineBreak (by decide) fun hr => absurd hr (by decide)

/-- A text with another terminator has the same lines. -/
theorem lineBreaks_terminate (e : Terminator) {cs : List Char} (h : OnlyLf cs) :
    lineBreaks (terminate e cs) = lineBreaks cs := by
  induction cs with
  | nil => rfl
  | cons c cs ih =>
    by_cases hc : c = '\n'
    · have hlf : lineBreaks ('\n' :: cs) = lineBreaks cs + 1 :=
        lineBreaks_cons_of_lineBreak (by decide) fun hr => absurd hr (by decide)
      rw [hc, terminate_lf, lineBreaks_chars_append e (head?_terminate_ne e cs), ih h.tail, hlf]
    · rw [terminate_cons hc, lineBreaks_cons_of_not_lineBreak (h.head hc),
        lineBreaks_cons_of_not_lineBreak (h.head hc), ih h.tail]

end InlineExpect.Text
