import Mathlib
import InlineExpect.Text.Blank

/-!
# Trimming

White space around a text goes, whatever the text is, and a text that neither begins nor ends with
white space stays.  Both together say what is left of a text that is padded (`Text.trim_padded`),
and every text is padded in this way, so that trimming is described by what it leaves
(`Text.trim_eq_iff`).
-/

namespace InlineExpect.Text

variable {cs ws : List Char}

/-- White space before a text is trimmed. -/
lemma trimLeft_append (hws : ∀ c ∈ ws, isBlank c = true) (cs : List Char) :
    trimLeft (ws ++ cs) = trimLeft cs :=
  List.dropWhile_append_of_pos hws

/-- Nothing is trimmed from the start of a text that does not begin with white space. -/
lemma trimLeft_eq_self (h : ∀ c ∈ cs.head?, isBlank c = false) : trimLeft cs = cs := by
  cases cs with
  | nil => rfl
  | cons c cs => exact List.dropWhile_cons_of_neg (Bool.eq_false_iff.mp (h c rfl))

/-- A text that begins with white space is trimmed behind it. -/
lemma trim_cons_of_blank {c : Char} (hc : isBlank c = true) (cs : List Char) :
    trim (c :: cs) = trim cs := by
  rw [trim, trim, trimLeft, List.dropWhile_cons_of_pos hc]
  rfl

/-- White space behind a text is trimmed. -/
lemma trimRight_append (hws : ∀ c ∈ ws, isBlank c = true) (cs : List Char) :
    trimRight (cs ++ ws) = trimRight cs := by
  have hreverse : ∀ c ∈ ws.reverse, isBlank c = true := fun c hc => hws c (List.mem_reverse.mp hc)
  rw [trimRight, List.reverse_append, List.dropWhile_append_of_pos hreverse]
  rfl

/-- Nothing is trimmed from the end of a text that does not end with white space. -/
lemma trimRight_eq_self (h : ∀ c ∈ cs.getLast?, isBlank c = false) : trimRight cs = cs := by
  have hreverse : trimLeft cs.reverse = cs.reverse :=
    trimLeft_eq_self fun c hc => h c (List.head?_reverse ▸ hc)
  rw [trimRight]
  exact (congrArg List.reverse hreverse).trans cs.reverse_reverse

/-- What is left of a text that neither begins nor ends with white space, with white space around
it, is the text. -/
theorem trim_padded {ws' : List Char} (hws : ∀ c ∈ ws, isBlank c = true)
    (hws' : ∀ c ∈ ws', isBlank c = true) (hhead : ∀ c ∈ cs.head?, isBlank c = false)
    (hlast : ∀ c ∈ cs.getLast?, isBlank c = false) : trim (ws ++ (cs ++ ws')) = cs := by
  rw [trim, trimLeft_append hws]
  cases cs with
  | nil =>
    have hnil : trimLeft ws' = [] := List.dropWhile_eq_nil_iff.mpr hws'
    rw [List.nil_append, hnil]
    rfl
  | cons c cs =>
    have hpadded : ∀ d ∈ (c :: cs ++ ws').head?, isBlank d = false := hhead
    rw [trimLeft_eq_self hpadded, trimRight_append hws', trimRight_eq_self hlast]

/-- A text is left of another one if white space has gone from both ends, and none is there any
more. -/
structure Trimmed (cs core : List Char) : Prop where
  padded : ∃ before after, (∀ c ∈ before, isBlank c = true) ∧ (∀ c ∈ after, isBlank c = true) ∧
    cs = before ++ (core ++ after)
  head_eq : ∀ c ∈ core.head?, isBlank c = false
  last_eq : ∀ c ∈ core.getLast?, isBlank c = false

/-- The white space at the start of a text, and what trimming leaves of it. -/
lemma exists_eq_append_trimLeft (cs : List Char) :
    ∃ before, (∀ c ∈ before, isBlank c = true) ∧ cs = before ++ trimLeft cs :=
  ⟨cs.takeWhile isBlank, fun _ hc => List.mem_takeWhile_imp hc,
    List.takeWhile_append_dropWhile.symm⟩

/-- What trimming leaves does not begin with white space. -/
lemma isBlank_of_head?_trimLeft (cs : List Char) :
    ∀ c ∈ (trimLeft cs).head?, isBlank c = false := by
  intro c hc
  have hhead := List.head?_dropWhile_not isBlank cs
  rw [show (cs.dropWhile isBlank).head? = some c from hc] at hhead
  exact hhead

/-- A text is what trimming leaves of it, and white space behind that. -/
lemma exists_eq_trimRight_append (cs : List Char) :
    ∃ after, (∀ c ∈ after, isBlank c = true) ∧ cs = trimRight cs ++ after := by
  obtain ⟨before, hblank, hreverse⟩ := exists_eq_append_trimLeft cs.reverse
  refine ⟨before.reverse, fun c hc => hblank c (List.mem_reverse.mp hc), ?_⟩
  rw [← List.reverse_inj, hreverse, List.reverse_append, List.reverse_reverse]
  exact congrArg (before ++ ·) (List.reverse_reverse _).symm

/-- What trimming leaves does not end with white space. -/
lemma isBlank_of_getLast?_trimRight (cs : List Char) :
    ∀ c ∈ (trimRight cs).getLast?, isBlank c = false := by
  intro c hc
  rw [trimRight, List.getLast?_reverse] at hc
  exact isBlank_of_head?_trimLeft cs.reverse c hc

/-- A text that does not begin with white space is trimmed behind its first character. -/
lemma exists_trimRight_eq_cons {c : Char} (hc : isBlank c = false) (cs : List Char) :
    ∃ front after, (∀ d ∈ after, isBlank d = true) ∧ trimRight (c :: cs) = c :: front ∧
      cs = front ++ after := by
  obtain ⟨after, hafter, happend⟩ := exists_eq_trimRight_append (c :: cs)
  cases htrim : trimRight (c :: cs) with
  | nil =>
    rw [htrim, List.nil_append] at happend
    have hblank := hafter c (happend ▸ List.mem_cons_self)
    rw [hc] at hblank
    cases hblank
  | cons d front =>
    rw [htrim, List.cons_append] at happend
    obtain ⟨rfl, hcs⟩ := List.cons.inj happend
    exact ⟨front, after, hafter, rfl, hcs⟩

/-- What is left of a text by trimming it. -/
lemma trimmed_trim (cs : List Char) : Trimmed cs (trim cs) := by
  obtain ⟨before, hbefore, hleft⟩ := exists_eq_append_trimLeft cs
  obtain ⟨after, hafter, hright⟩ := exists_eq_trimRight_append (trimLeft cs)
  refine ⟨⟨before, after, hbefore, hafter, ?_⟩, fun c hc => ?_, isBlank_of_getLast?_trimRight _⟩
  · rw [trim, ← hright, ← hleft]
  · apply isBlank_of_head?_trimLeft cs c
    rw [hright]
    exact List.mem_head?_append_of_mem_head? hc

/-- Trimming is described by what it leaves. -/
theorem trim_eq_iff {core : List Char} : trim cs = core ↔ Trimmed cs core := by
  constructor
  · rintro rfl
    exact trimmed_trim cs
  · intro h
    obtain ⟨before, after, hbefore, hafter, rfl⟩ := h.padded
    exact trim_padded hbefore hafter h.head_eq h.last_eq

end InlineExpect.Text
