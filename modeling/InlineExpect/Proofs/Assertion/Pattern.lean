import Mathlib
import InlineExpect.Assertion.Mark
import InlineExpect.Proofs.Text.Trim

/-!
# Marks by patterns

The two forms of marks can be written as patterns over characters, and a body is then a mark if a
pattern matches the whole of it.  Matching is a search with backtracking.  A repetition takes as
many characters as it can, or as few, and what counts is the first way in which the rest of the
pattern leads to the end of the text.

The search need not go back in these patterns.  White space is followed by something that does not
begin with white space, so that taking all of it is the only way on (`Pattern.takeMany_eq`).  The
expected type is taken character by character until nothing but white space is left, which is where
trimming ends it (`Pattern.takeFew_eq`).  So the patterns take what `expectedType?` and
`expectsError` read (`AssertionKind.captures_type`, `AssertionKind.captures_error`).
-/

namespace InlineExpect

open Text

/-- A pattern over characters. -/
inductive Pattern where
  /-- These characters. -/
  | text (cs : List Char)
  /-- One character of a class. -/
  | one (p : Char → Bool)
  /-- As many characters of a class as possible. -/
  | many (p : Char → Bool)
  /-- As few characters of a class as possible. -/
  | few (p : Char → Bool)
  /-- Another pattern, with a note of the characters that it takes. -/
  | group (a : Pattern)
  /-- One pattern behind another one. -/
  | seq (a b : Pattern)

namespace Pattern

/-! ### Matching -/

section Matching

variable {α : Type}

/-- Takes characters of a class and goes on, with as many of them as possible. -/
def takeMany (p : Char → Bool) (k : List Char → Option α) : List Char → Option α
  | [] => k []
  | c :: cs => if p c then (takeMany p k cs).or (k (c :: cs)) else k (c :: cs)

/-- Takes characters of a class and goes on, with as few of them as possible. -/
def takeFew (p : Char → Bool) (k : List Char → Option α) : List Char → Option α
  | [] => k []
  | c :: cs => (k (c :: cs)).or (if p c then takeFew p k cs else none)

/-- Matches a pattern at the start of a text and goes on with the rest.  The notes of groups are
handed on from the left to the right. -/
def matchThen : Pattern → (List (List Char) → List Char → Option α) → List (List Char) →
    List Char → Option α
  | text t, k, notes, cs => (t.isPrefixOf? cs).bind (k notes)
  | one _, _, _, [] => none
  | one p, k, notes, c :: cs => if p c then k notes cs else none
  | many p, k, notes, cs => takeMany p (k notes) cs
  | few p, k, notes, cs => takeFew p (k notes) cs
  | group a, k, notes, cs =>
    a.matchThen (fun notes rest => k (notes ++ [cs.take (cs.length - rest.length)]) rest) notes cs
  | seq a b, k, notes, cs => a.matchThen (b.matchThen k) notes cs

end Matching

/-- The end of a text, with the notes of the groups. -/
def atEnd (notes : List (List Char)) (cs : List Char) : Option (List (List Char)) :=
  if cs.isEmpty then some notes else none

/-- The notes of the groups where a pattern matches a whole text. -/
def captures (a : Pattern) (cs : List Char) : Option (List (List Char)) := a.matchThen atEnd [] cs

/-! ### Repetitions -/

section Repetitions

variable {α : Type} {p : Char → Bool} {k : List Char → Option α}

/-- All characters of a class are taken where what follows cannot begin with one of them. -/
lemma takeMany_eq (hk : ∀ c cs, p c = true → k (c :: cs) = none) (cs : List Char) :
    takeMany p k cs = k (cs.dropWhile p) := by
  induction cs with
  | nil => rfl
  | cons c cs ih =>
    unfold takeMany
    by_cases hc : p c = true
    · rw [if_pos hc, ih, hk c cs hc, Option.or_none, List.dropWhile_cons_of_pos hc]
    · rw [if_neg hc, List.dropWhile_cons_of_neg hc]

/-- Characters of a class are taken up to the end of the text if there are no others. -/
lemma takeMany_atEnd (p : Char → Bool) (notes : List (List Char)) (cs : List Char) :
    takeMany p (atEnd notes) cs = if cs.all p then some notes else none := by
  rw [takeMany_eq fun _ _ _ => rfl]
  have hempty : (cs.dropWhile p).isEmpty = true ↔ cs.all p = true := by
    rw [List.isEmpty_iff, List.dropWhile_eq_nil_iff, List.all_eq_true]
  exact if_congr hempty rfl rfl

/-- Characters of a class are taken up to the first place from which there is a way on. -/
lemma takeFew_eq {front rest : List Char} {a : α} (hfront : ∀ c ∈ front, p c = true)
    (hnone : ∀ behind, behind ≠ [] → behind <:+ front → k (behind ++ rest) = none)
    (hrest : k rest = some a) : takeFew p k (front ++ rest) = some a := by
  induction front with
  | nil =>
    rw [List.nil_append]
    cases rest with
    | nil => exact hrest
    | cons c cs => rw [takeFew, hrest, Option.some_or]
  | cons c front ih =>
    have hc : k (c :: (front ++ rest)) = none := hnone _ (List.cons_ne_nil c front) List.suffix_rfl
    rw [List.cons_append, takeFew, hc, Option.none_or, if_pos (hfront c List.mem_cons_self)]
    exact ih (fun d hd => hfront d (List.mem_cons_of_mem c hd)) fun behind hne hsuffix =>
      hnone behind hne (hsuffix.trans (List.suffix_cons c front))

end Repetitions

/-! ### The expected type -/

/-- The pattern of an expected type at the end of a text, with white space behind it. -/
def expectedType : Pattern :=
  .seq (.group (.seq (.one (!isBlank ·)) (.few (· != '\n')))) (.many isBlank)

variable {notes : List (List Char)} {c : Char} {cs : List Char}

/-- No expected type begins with white space. -/
lemma matchThen_expectedType_of_blank (hc : isBlank c = true) :
    expectedType.matchThen atEnd notes (c :: cs) = none := by
  simp only [expectedType, matchThen, hc]
  rfl

/-- An expected type ends where trimming ends the text. -/
lemma matchThen_expectedType (hc : isBlank c = false) (hlf : '\n' ∉ cs) :
    expectedType.matchThen atEnd notes (c :: cs) = some (notes ++ [trimRight (c :: cs)]) := by
  have hlast := isBlank_of_getLast?_trimRight (c :: cs)
  obtain ⟨front, after, hafter, hfront, rfl⟩ := exists_trimRight_eq_cons hc cs
  rw [hfront] at hlast ⊢
  have hclass : ∀ d ∈ front, (d != '\n') = true := by
    intro d hd
    rw [bne_iff_ne]
    rintro rfl
    exact hlf (List.mem_append_left _ hd)
  simp only [expectedType, matchThen, hc]
  rw [if_pos (by decide)]
  refine takeFew_eq hclass (fun behind hne hsuffix => ?_) ?_
  · -- The last character before the white space at the end is in the way.
    obtain ⟨start, rfl⟩ := hsuffix
    have hmem : behind.getLast hne ∈ (c :: (start ++ behind)).getLast? := by
      rw [← List.cons_append, List.getLast?_append_of_ne_nil _ hne]
      exact List.getLast?_eq_some_getLast hne
    rw [takeMany_atEnd, if_neg]
    intro hall
    have hblank := List.all_eq_true.mp hall _ (List.mem_append_left after (List.getLast_mem hne))
    rw [hlast _ hmem] at hblank
    cases hblank
  · rw [takeMany_atEnd, if_pos (List.all_eq_true.mpr hafter), ← List.cons_append,
      List.length_append, Nat.add_sub_cancel, List.take_left]

/-- An expected type behind white space is the text without the white space around it. -/
lemma matchThen_many_expectedType (notes : List (List Char)) (hlf : '\n' ∉ cs) :
    (Pattern.seq (.many isBlank) .expectedType).matchThen atEnd notes cs =
      if (trim cs).isEmpty then none else some (notes ++ [trim cs]) := by
  have htake : takeMany isBlank (expectedType.matchThen atEnd notes) cs =
      expectedType.matchThen atEnd notes (trimLeft cs) :=
    takeMany_eq (fun _ _ hd => matchThen_expectedType_of_blank hd) cs
  obtain ⟨before, -, hbefore⟩ := exists_eq_append_trimLeft cs
  have hhead := isBlank_of_head?_trimLeft cs
  refine htake.trans ?_
  rw [trim]
  cases hleft : trimLeft cs with
  | nil => rfl
  | cons d ds =>
    have hd : isBlank d = false := hhead d (by rw [hleft]; rfl)
    have hds : '\n' ∉ ds := fun hmem => hlf <| by
      rw [hbefore, hleft]
      exact List.mem_append_right _ (List.mem_cons_of_mem d hmem)
    obtain ⟨front, -, -, hfront, -⟩ := exists_trimRight_eq_cons hd ds
    rw [matchThen_expectedType hd hds, hfront]
    rfl

end Pattern

/-! ### The patterns of marks -/

/-- The pattern of the marks of a kind. -/
def AssertionKind.pattern : AssertionKind → Pattern
  | .type =>
    .seq (.many isBlank) <| .seq (.text "$ExpectType".toList) <| .seq (.one isBlank) <|
      .seq (.many isBlank) .expectedType
  | .error => .seq (.many isBlank) <| .seq (.text "$ExpectError".toList) <| .many isBlank

namespace AssertionKind

variable {kind : AssertionKind} {body rest : List Char}

/-- A keyword begins with a dollar sign, which is no white space. -/
lemma exists_keyword_eq_cons (kind : AssertionKind) :
    ∃ letters, kind.keyword.toList = '$' :: letters := by
  cases kind <;> exact ⟨_, rfl⟩

/-- White space before a keyword goes, and what stands after it is left. -/
lemma afterKeyword?_append (kind : AssertionKind) {before : List Char}
    (hbefore : ∀ c ∈ before, isBlank c = true) (rest : List Char) :
    afterKeyword? kind (before ++ (kind.keyword.toList ++ rest)) = some rest := by
  obtain ⟨letters, hletters⟩ := kind.exists_keyword_eq_cons
  have hhead : ∀ c ∈ (kind.keyword.toList ++ rest).head?, isBlank c = false := by
    intro c hc
    rw [hletters] at hc
    obtain rfl := Option.some.inj hc
    decide
  rw [afterKeyword?, trimLeft_append hbefore, trimLeft_eq_self hhead]
  exact List.isPrefixOf?_eq_some_iff_append_eq.mpr rfl

/-- What stands after a keyword, which may have white space before it. -/
lemma afterKeyword?_eq_some_iff : afterKeyword? kind body = some rest ↔
    ∃ before, (∀ c ∈ before, isBlank c = true) ∧
      body = before ++ (kind.keyword.toList ++ rest) := by
  constructor
  · intro h
    obtain ⟨before, hbefore, hbody⟩ := exists_eq_append_trimLeft body
    rw [afterKeyword?, List.isPrefixOf?_eq_some_iff_append_eq] at h
    exact ⟨before, hbefore, h ▸ hbody⟩
  · rintro ⟨before, hbefore, rfl⟩
    exact kind.afterKeyword?_append hbefore rest

/-- White space and a keyword are matched by what follows the keyword. -/
lemma captures_seq (kind : AssertionKind) (a : Pattern) (body : List Char) :
    Pattern.captures (.seq (.many isBlank) <| .seq (.text kind.keyword.toList) a) body =
      (afterKeyword? kind body).bind (a.matchThen Pattern.atEnd []) := by
  refine Pattern.takeMany_eq (fun c cs hc => ?_) body
  obtain ⟨letters, hletters⟩ := kind.exists_keyword_eq_cons
  have hne : kind.keyword.toList.isPrefixOf? (c :: cs) = none := by
    rw [hletters, List.isPrefixOf?, if_neg]
    rw [beq_iff_eq]
    rintro rfl
    exact absurd hc (by decide)
  rw [Pattern.matchThen, Pattern.matchThen, hne, Option.bind_none]

/-- The pattern of an expected type takes what is read as the expected type. -/
theorem captures_type (hlf : '\n' ∉ body) :
    type.pattern.captures body = (expectedType? body).map fun expected => [expected] := by
  rw [pattern, expectedType?]
  refine (captures_seq .type _ body).trans ?_
  cases hrest : afterKeyword? .type body with
  | none => rfl
  | some rest =>
    obtain ⟨before, -, rfl⟩ := afterKeyword?_eq_some_iff.mp hrest
    cases rest with
    | nil => rfl
    | cons c cs =>
      have hcs : '\n' ∉ cs := fun hmem => hlf <|
        List.mem_append_right _ (List.mem_append_right _ (List.mem_cons_of_mem c hmem))
      have hargument := Pattern.matchThen_many_expectedType [] hcs
      rw [Option.bind_some, Pattern.matchThen, Pattern.matchThen, hargument]
      dsimp only
      cases isBlank c <;> cases (trim cs).isEmpty <;> rfl

/-- The pattern of an expected diagnostic matches where one is expected. -/
theorem captures_error (body : List Char) :
    error.pattern.captures body = if expectsError body then some [] else none := by
  rw [pattern, expectsError]
  refine (captures_seq .error _ body).trans ?_
  cases afterKeyword? .error body with
  | none => rfl
  | some rest => exact Pattern.takeMany_atEnd isBlank [] rest

end AssertionKind

example :
    AssertionKind.type.pattern.captures " $ExpectType  a b ".toList = some ["a b".toList] := by
  decide

end InlineExpect
