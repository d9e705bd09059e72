import Mathlib
import InlineExpect.Proofs.Comment.PlainCode

/-!
# Divisions in front of a comment

On the line `x / 2; // note` the first slash divides, and the comment behind it has to be found.
The scanner tells a division from a regular expression by the word or the character that it has read
last, and the line shows for which operands this is enough.  It is enough for every operand that
ends in a word, unless the word is a keyword that an expression has to follow, and a digit is the
last character of most numbers.  It is not enough for `1.`, which ends in a point, nor for `x.in`,
where the name of a member is read as a keyword (`Operand.misleads`).  Behind such an operand
everything up to the first slash of the comment is taken for a regular expression, and what is left
of the comment for code: the comment is lost (`DivisionLine.found_iff_not_misleads`), and nothing
else is reported in its place as long as its body is plain
(`DivisionLine.scan_render_of_misleads_plain`).
-/

namespace InlineExpect.Comment

open Text

/-! ### Operands -/

/-- A name, a keyword or a number, as the scanner reads it. -/
def IsWord (cs : List Char) : Prop := cs ≠ [] ∧ ∀ c ∈ cs, isWordPart c = true

/-- One or more ASCII digits. -/
def IsNumeral (cs : List Char) : Prop := cs ≠ [] ∧ ∀ c ∈ cs, c.isDigit = true

/-- A stretch of a single line. -/
def IsUnbroken (cs : List Char) : Prop := ∀ c ∈ cs, isLineBreak c = false

instance : DecidablePred IsWord := fun cs =>
  have := List.decidableBAll (fun c => isWordPart c = true) cs
  inferInstanceAs (Decidable (cs ≠ [] ∧ ∀ c ∈ cs, isWordPart c = true))

instance : DecidablePred IsNumeral := fun cs =>
  have : Decidable (∀ c ∈ cs, c.isDigit = true) := List.decidableBAll _ cs
  inferInstanceAs (Decidable (cs ≠ [] ∧ ∀ c ∈ cs, c.isDigit = true))

instance : DecidablePred IsUnbroken := fun cs =>
  List.decidableBAll (fun c => isLineBreak c = false) cs

/-- What stands in front of a division. -/
inductive Operand where
  /-- A decimal number, maybe with a point and the digits behind it, of which there may be none. -/
  | decimal (whole : List Char) (fraction : Option (List Char))
  /-- A name, and the names of members behind points. -/
  | name (head : List Char) (members : List (List Char))
deriving DecidableEq, Repr

namespace Operand

/-- The members of a name as they are written, each behind a point. -/
def renderMembers (members : List (List Char)) : List Char := members.flatMap ('.' :: ·)

/-- An operand as it is written. -/
def render : Operand → List Char
  | .decimal whole none => whole
  | .decimal whole (some fraction) => whole ++ '.' :: fraction
  | .name head members => head ++ renderMembers members

/-- A number consists of digits, and a name of words, the first of which is no keyword that an
expression has to follow.  The names of members may be such keywords. -/
def WellFormed : Operand → Prop
  | .decimal whole none => IsNumeral whole
  | .decimal whole (some fraction) => IsNumeral whole ∧ ∀ c ∈ fraction, c.isDigit = true
  | .name head members =>
    IsWord head ∧ isKeywordBeforeExpression head = false ∧ ∀ member ∈ members, IsWord member

instance : DecidablePred WellFormed
  | .decimal whole none => inferInstanceAs (Decidable (IsNumeral whole))
  | .decimal whole (some fraction) =>
    have : Decidable (∀ c ∈ fraction, c.isDigit = true) := List.decidableBAll _ fraction
    inferInstanceAs (Decidable (IsNumeral whole ∧ ∀ c ∈ fraction, c.isDigit = true))
  | .name head members => inferInstanceAs (Decidable
    (IsWord head ∧ isKeywordBeforeExpression head = false ∧ ∀ member ∈ members, IsWord member))

/-- The scanner expects an expression behind the operand, although it is one: the operand ends in
the point of a number, or in a member that has the name of a keyword. -/
def misleads : Operand → Bool
  | .decimal _ fraction => fraction == some []
  | .name _ members => members.getLast?.any isKeywordBeforeExpression

end Operand

/-- A word has a first character. -/
lemma IsWord.exists_eq_cons {cs : List Char} (h : IsWord cs) :
    ∃ d ds, cs = d :: ds ∧ isWordPart d = true := by
  obtain ⟨d, ds, rfl⟩ := List.exists_cons_of_ne_nil h.1
  exact ⟨d, ds, rfl, h.2 d List.mem_cons_self⟩

/-- Digits are a word. -/
lemma IsNumeral.isWord {cs : List Char} (h : IsNumeral cs) : IsWord cs := by
  refine ⟨h.1, fun c hc => isWordPart_of_isAlphanum ?_⟩
  rw [Char.isAlphanum, h.2 c hc, Bool.or_true]

/-- No keyword begins with a digit. -/
lemma IsNumeral.isKeywordBeforeExpression_eq {cs : List Char} (h : IsNumeral cs) :
    isKeywordBeforeExpression cs = false := by
  have hletter : ∀ keyword ∈ expressionKeywords, keyword.toList.head?.any Char.isDigit = false := by
    decide
  obtain ⟨c, cs, rfl⟩ := List.exists_cons_of_ne_nil h.1
  rw [isKeywordBeforeExpression, List.any_eq_false]
  intro keyword hkeyword heq
  have hdigit : c.isDigit = false := by
    have hhead := hletter keyword hkeyword
    rwa [beq_iff_eq.mp heq] at hhead
  rw [h.2 c List.mem_cons_self] at hdigit
  cases hdigit

/-- An operand begins with a character of a word. -/
lemma Operand.WellFormed.exists_eq_cons {o : Operand} (h : o.WellFormed) :
    ∃ d ds, o.render = d :: ds ∧ isWordPart d = true := by
  match o with
  | .decimal whole none => exact IsWord.exists_eq_cons (IsNumeral.isWord h)
  | .decimal whole (some fraction) =>
    obtain ⟨d, ds, rfl, hd⟩ := h.1.isWord.exists_eq_cons
    exact ⟨d, ds ++ '.' :: fraction, rfl, hd⟩
  | .name head members =>
    obtain ⟨d, ds, rfl, hd⟩ := h.1.exists_eq_cons
    exact ⟨d, ds ++ renderMembers members, rfl, hd⟩

/-- A character that a word does not have ends the word in front of it. -/
lemma head?_cons_of_not_isWordPart {c : Char} (hc : isWordPart c = false) (cs : List Char) :
    ∀ d ∈ (c :: cs).head?, isWordPart d = false := by
  intro d hd
  rwa [← Option.some.inj hd]

section Scanning

variable {σ : Type} [Nesting σ] {s : ScanState σ} {tail : List Char} {allowed : Bool}

/-- A word is scanned, and the scanner expects an expression behind it if it is a keyword. -/
lemma scanFrom_isWord {cs : List Char} (h : IsWord cs)
    (htail : ∀ d ∈ tail.head?, isWordPart d = false) :
    scanFrom s (cs ++ tail) =
      scanFrom ⟨s.pos + byteLength cs, true, isKeywordBeforeExpression cs, s.nesting⟩ tail := by
  obtain ⟨hne, hcs⟩ := h
  obtain ⟨c, cs, rfl⟩ := List.exists_cons_of_ne_nil hne
  exact scanFrom_word hcs htail

/-- A point is scanned, and the scanner expects an expression behind it. -/
lemma scanFrom_point :
    scanFrom s ('.' :: tail) = scanFrom ⟨s.pos + byteLength ['.'], true, true, s.nesting⟩ tail :=
  scanFrom_punctuation (by decide) fun _ _ hsign => absurd hsign (by decide)

/-- Neither a word goes on with the members behind it nor, if there are none, with what follows. -/
lemma head?_renderMembers (htail : ∀ d ∈ tail.head?, isWordPart d = false)
    (members : List (List Char)) :
    ∀ d ∈ (Operand.renderMembers members ++ tail).head?, isWordPart d = false := by
  cases members with
  | nil => exact htail
  | cons member members => exact head?_cons_of_not_isWordPart (by decide) _

/-- Behind the members of a name the last of them counts. -/
lemma scanFrom_renderMembers {members : List (List Char)} (h : ∀ member ∈ members, IsWord member)
    (htail : ∀ d ∈ tail.head?, isWordPart d = false) (pos : Nat) (nesting : σ) :
    scanFrom ⟨pos, true, allowed, nesting⟩ (Operand.renderMembers members ++ tail) =
      scanFrom ⟨pos + byteLength (Operand.renderMembers members), true,
        members.getLast?.elim allowed isKeywordBeforeExpression, nesting⟩ tail := by
  induction members generalizing pos allowed with
  | nil => rfl
  | cons member members ih =>
    obtain ⟨hmember, hmembers⟩ := List.forall_mem_cons.mp h
    have hsplit : Operand.renderMembers (member :: members) ++ tail =
        '.' :: (member ++ (Operand.renderMembers members ++ tail)) := by
      simp [Operand.renderMembers]
    have hpos : pos + byteLength ['.'] + byteLength member +
        byteLength (Operand.renderMembers members) =
        pos + byteLength (Operand.renderMembers (member :: members)) := by
      simp [Operand.renderMembers, Nat.add_assoc]
    have hlast : members.getLast?.elim (isKeywordBeforeExpression member)
        isKeywordBeforeExpression =
        (member :: members).getLast?.elim allowed isKeywordBeforeExpression := by
      rw [List.getLast?_cons]
      cases members.getLast? <;> rfl
    rw [hsplit, scanFrom_point, scanFrom_isWord hmember (head?_renderMembers htail _), ih hmembers,
      hpos, hlast]

/-- An operand is scanned, and the scanner expects an expression behind it if it misleads. -/
lemma scanFrom_operand {o : Operand} (ho : o.WellFormed)
    (htail : ∀ d ∈ tail.head?, isWordPart d = false) :
    scanFrom s (o.render ++ tail) =
      scanFrom ⟨s.pos + byteLength o.render, true, o.misleads, s.nesting⟩ tail := by
  match o with
  | .decimal whole none =>
    rw [Operand.render, scanFrom_isWord (IsNumeral.isWord ho) htail,
      IsNumeral.isKeywordBeforeExpression_eq ho]
    rfl
  | .decimal whole (some fraction) =>
    obtain ⟨hwhole, hfraction⟩ := ho
    have hpoint : ∀ d ∈ ('.' :: (fraction ++ tail)).head?, isWordPart d = false :=
      head?_cons_of_not_isWordPart (by decide) _
    rw [Operand.render, List.append_assoc, List.cons_append, scanFrom_isWord hwhole.isWord hpoint,
      scanFrom_point, byteLength_append, ← Nat.add_assoc]
    cases fraction with
    | nil => rfl
    | cons c cs =>
      have hnumeral : IsNumeral (c :: cs) := ⟨List.cons_ne_nil c cs, hfraction⟩
      rw [scanFrom_isWord hnumeral.isWord htail, hnumeral.isKeywordBeforeExpression_eq,
        Nat.add_assoc _ (byteLength ['.'])]
      rfl
  | .name head members =>
    obtain ⟨hhead, hkeyword, hmembers⟩ := ho
    rw [Operand.render, List.append_assoc, scanFrom_isWord hhead (head?_renderMembers htail _),
      hkeyword, scanFrom_renderMembers hmembers htail, byteLength_append, Nat.add_assoc,
      Operand.misleads]
    cases members.getLast? <;> rfl

end Scanning

/-! ### Lines -/

/-- A comment has two characters at least that do not belong to its body. -/
lemma length_body_lt (c : Comment) : c.body.length + 1 < c.text.length := by
  unfold text
  split
  all_goals
    simp only [List.length_cons, List.length_append]
    omega

/-- What follows the first slash of a comment is too short for the comment. -/
lemma body_ne_of_mem_scanFrom {s : ScanState DepthCounter} {body : List Char} {c : Comment}
    (h : c ∈ scanFrom s ('/' :: body)) : c.body ≠ body := by
  obtain ⟨before, after, hsplit, -⟩ := occursIn_of_mem_scanFrom h
  have hlength := congrArg List.length hsplit
  have hlt := length_body_lt c
  rw [List.length_cons, List.length_append, List.length_append] at hlength
  rintro rfl
  omega

/-- A line on which an operand is divided by a number, with a comment behind the statement. -/
structure DivisionLine where
  operand : Operand
  divisor : List Char
  /-- The comment without its slashes. -/
  body : List Char
  wellFormed_operand : operand.WellFormed
  isNumeral_divisor : IsNumeral divisor
  isUnbroken_body : IsUnbroken body

namespace DivisionLine

/-- What stands between the slash of the division and the comment. -/
def remainder (l : DivisionLine) : List Char := ' ' :: (l.divisor ++ [';', ' '])

/-- The line up to the comment. -/
def statement (l : DivisionLine) : List Char := l.operand.render ++ ' ' :: '/' :: l.remainder

/-- The line as it is written. -/
def render (l : DivisionLine) : List Char := l.statement ++ '/' :: '/' :: l.body

/-- The comment that is written on the line. -/
def comment (l : DivisionLine) : Comment := ⟨.line, byteLength l.statement, l.body, false⟩

/-- The scanner finds exactly one comment on the line, up to its end and with the body that is
written there, and does not take it for the first thing on the line. -/
def Found (l : DivisionLine) : Prop :=
  ∃ c, scan l.render = [c] ∧ c.form = .line ∧ c.body = l.body ∧ c.firstOnLine = false

/-- The line is read up to the slash of the division. -/
lemma scan_render_eq (l : DivisionLine) : scan l.render =
    scanFrom (σ := DepthCounter)
      ⟨byteLength (l.operand.render ++ [' ']), true, l.operand.misleads, Nesting.none⟩
      ('/' :: (l.remainder ++ '/' :: '/' :: l.body)) := by
  have hshebang : ¬ ['#', '!'] <+: l.render := by
    obtain ⟨c, cs, hrender, hc⟩ := l.wellFormed_operand.exists_eq_cons
    rw [render, statement, hrender]
    intro hprefix
    obtain rfl : '#' = c := (List.cons_prefix_cons.mp hprefix).1
    exact absurd hc (by decide)
  have hsplit : l.render =
      l.operand.render ++ ' ' :: '/' :: (l.remainder ++ '/' :: '/' :: l.body) := by
    simp [render, statement]
  have hblank : ∀ d ∈ (' ' :: '/' :: (l.remainder ++ '/' :: '/' :: l.body)).head?,
      isWordPart d = false := head?_cons_of_not_isWordPart (by decide) _
  rw [scan, scanWith, shebangLength_eq_zero hshebang, List.drop_zero, hsplit,
    scanFrom_operand l.wellFormed_operand hblank,
    scanFrom_layout (.inr rfl) (Lexeme.ofText_blank (by decide)), byteLength_append,
    List.take_zero, byteLength_nil]
  dsimp only
  rw [Nat.zero_add]
  rfl

variable {pos : Nat} {nesting : DepthCounter}

/-- After a division the statement is read to its end, and the comment is found. -/
lemma scanFrom_division_line (l : DivisionLine) :
    scanFrom ⟨pos, true, false, nesting⟩ ('/' :: (l.remainder ++ '/' :: '/' :: l.body)) =
      [⟨.line, pos + byteLength ('/' :: l.remainder), l.body, false⟩] := by
  have hsplit : '/' :: (l.remainder ++ '/' :: '/' :: l.body) =
      '/' :: ' ' :: (l.divisor ++ ';' :: ' ' :: '/' :: '/' :: (l.body ++ [])) := by
    simp [remainder]
  have hdivision : ∀ d ∈ (' ' :: (l.divisor ++ ';' :: ' ' :: '/' :: '/' :: (l.body ++ []))).head?,
      d ≠ '/' ∧ d ≠ '*' := by
    intro d hd
    rw [← Option.some.inj hd]
    decide
  rw [hsplit, scanFrom_division rfl hdivision,
    scanFrom_layout (.inr rfl) (Lexeme.ofText_blank (by decide)),
    scanFrom_isWord l.isNumeral_divisor.isWord (head?_cons_of_not_isWordPart (by decide) _),
    scanFrom_punctuation (by decide) fun _ _ hsign => absurd hsign (by decide),
    scanFrom_layout (.inr rfl) (Lexeme.ofText_blank (by decide)),
    scanFrom_lineComment_of_end l.isUnbroken_body (by simp), scanFrom]
  have hpos : pos + byteLength ('/' :: l.remainder) = pos + byteLength (Element.division).render +
      byteLength [' '] + byteLength l.divisor + byteLength (Element.punctuation ';').render +
      byteLength [' '] := by
    simp only [remainder, Element.render, byteLength_cons, byteLength_append, byteLength_nil]
    omega
  rw [hpos]
  rfl

/-- Where a regular expression is expected, it goes on to the first slash of the comment. -/
lemma scanFrom_misled_line (l : DivisionLine) :
    scanFrom ⟨pos, true, true, nesting⟩ ('/' :: (l.remainder ++ '/' :: '/' :: l.body)) =
      scanFrom ⟨pos + byteLength ('/' :: (l.remainder ++ ['/'])), true, false, nesting⟩
        ('/' :: l.body) := by
  have hatom : ∀ c ∈ l.remainder, RegexItem.IsAtom (.plain c) := by
    intro c hc
    rw [remainder, List.mem_cons, List.mem_append] at hc
    rcases hc with rfl | hc | hc
    · decide
    · have hdigit := l.isNumeral_divisor.2 c hc
      have hword := l.isNumeral_divisor.isWord.2 c hc
      have hbreak : isLineBreak c = false := by
        rw [← Bool.not_eq_true]
        intro hbreak
        rw [isWordPart_of_isLineBreak hbreak] at hword
        cases hword
      refine ⟨hbreak, ?_, ?_, ?_⟩
      all_goals
        rintro rfl
        exact absurd hdigit (by decide)
    · rcases List.mem_pair.mp hc with rfl | rfl
      · decide
      · decide
  have hrender : (l.remainder.map fun c => RegexItem.piece (.plain c)).flatMap RegexItem.render =
      l.remainder := by
    rw [List.flatMap_map]
    exact List.flatMap_singleton' l.remainder
  set items : List RegexItem := l.remainder.map fun c => .piece (.plain c) with hitems
  have hscan : scanFrom ⟨pos, true, true, nesting⟩
      ('/' :: (items.flatMap RegexItem.render ++ '/' :: ([] ++ '/' :: l.body))) =
      scanFrom (ScanState.past ⟨pos, true, true, nesting⟩ (.regex items [])) ('/' :: l.body) :=
    scanFrom_regex rfl (by simp [hitems, remainder]) (by simp [hitems, remainder])
      (by simpa [hitems, RegexItem.WellFormed] using hatom) (by simp)
      (head?_cons_of_not_isWordPart (by decide) _)
  rw [hrender] at hscan
  refine hscan.trans ?_
  rw [ScanState.past, Element.render, hrender]
  rfl

/-- On a line with an operand that does not mislead the scanner, it finds the comment and nothing
else. -/
lemma scan_render_of_not_misleads (l : DivisionLine) (h : l.operand.misleads = false) :
    scan l.render = [l.comment] := by
  rw [scan_render_eq, h, scanFrom_division_line, comment, statement, ← byteLength_append,
    List.append_assoc]
  rfl

/-- Behind an operand that misleads the scanner, what follows the first slash of the comment is
scanned as code. -/
lemma scan_render_of_misleads (l : DivisionLine) (h : l.operand.misleads = true) :
    scan l.render = scanFrom (σ := DepthCounter)
      ⟨byteLength l.statement + 1, true, false, Nesting.none⟩ ('/' :: l.body) := by
  have hpos : byteLength (l.operand.render ++ [' ']) + byteLength ('/' :: (l.remainder ++ ['/'])) =
      byteLength l.statement + 1 := by
    have hslash : '/'.utf8Size = 1 := rfl
    simp only [statement, byteLength_append, byteLength_cons, byteLength_nil, hslash]
    omega
  rw [scan_render_eq, h, scanFrom_misled_line, hpos]

/-- A slash that is misread costs the whole comment, if no quote, backquote or slash stands in
it: the scanner finds no comment at all. -/
theorem scan_render_of_misleads_plain (l : DivisionLine) (h : l.operand.misleads = true)
    (hplain : ∀ c ∈ l.body, IsPlain c) (hstar : l.body.head? ≠ some '*') : scan l.render = [] := by
  have hdivision : ∀ d ∈ l.body.head?, d ≠ '/' ∧ d ≠ '*' := by
    intro d hd
    refine ⟨?_, ?_⟩
    · rintro rfl
      exact absurd (hplain '/' (List.mem_of_mem_head? hd)) (by decide)
    · rintro rfl
      exact hstar hd
  have hend : EndsPlain [] := by simp [EndsPlain]
  obtain ⟨t, -, -, -, hscan⟩ := exists_scanFrom_plain
    (ScanState.past ⟨byteLength l.statement + 1, true, false, Nesting.none⟩ .division) rfl hplain
    hend
  rw [scan_render_of_misleads l h, scanFrom_division rfl hdivision]
  rw [List.append_nil] at hscan
  rw [hscan, scanFrom]

/-- The scanner finds the comment behind a division exactly if the operand does not end in the point
of a number, nor in a member that has the name of a keyword.  Then it reports the comment at its
place.  Otherwise no comment that it reports has the body that is written on the line. -/
theorem found_iff_not_misleads (l : DivisionLine) :
    (l.Found ↔ l.operand.misleads = false) ∧
      (l.operand.misleads = false → scan l.render = [l.comment]) ∧
      (l.operand.misleads = true → ∀ c ∈ scan l.render, c.body ≠ l.body) := by
  have hlost : l.operand.misleads = true → ∀ c ∈ scan l.render, c.body ≠ l.body := by
    intro h c hc
    rw [scan_render_of_misleads l h] at hc
    exact body_ne_of_mem_scanFrom hc
  refine ⟨⟨?_, fun h => ?_⟩, l.scan_render_of_not_misleads, hlost⟩
  · rintro ⟨c, hscan, -, hbody, -⟩
    rw [← Bool.not_eq_true]
    intro h
    exact hlost h c (hscan ▸ List.mem_singleton_self c) hbody
  · exact ⟨l.comment, l.scan_render_of_not_misleads h, rfl, rfl, rfl⟩

/-- The line `1. / 2; // $ExpectType number`. -/
def pointLine : DivisionLine where
  operand := .decimal ['1'] (some [])
  divisor := ['2']
  body := " $ExpectType number".toList
  wellFormed_operand := by decide
  isNumeral_divisor := by decide
  isUnbroken_body := by decide

/-- The line `x.in / 2; // $ExpectType number`. -/
def memberLine : DivisionLine where
  operand := .name ['x'] [['i', 'n']]
  divisor := ['2']
  body := " $ExpectType number".toList
  wellFormed_operand := by decide
  isNumeral_divisor := by decide
  isUnbroken_body := by decide

/-- The assertions of two lines are lost: in the first one the number ends in its point, in the
second one a member is called `in`. -/
theorem not_found_pointLine_memberLine :
    pointLine.render = "1. / 2; // $ExpectType number".toList ∧ scan pointLine.render = [] ∧
      ¬ pointLine.Found ∧
      memberLine.render = "x.in / 2; // $ExpectType number".toList ∧ scan memberLine.render = [] ∧
      ¬ memberLine.Found := by
  have hplain : ∀ c ∈ " $ExpectType number".toList, IsPlain c :=
    @of_decide_eq_true _ (List.decidableBAll IsPlain _) rfl
  have hpoint : scan pointLine.render = [] :=
    scan_render_of_misleads_plain pointLine (by decide) hplain (by decide)
  have hmember : scan memberLine.render = [] :=
    scan_render_of_misleads_plain memberLine (by decide) hplain (by decide)
  refine ⟨by decide, hpoint, ?_, by decide, hmember, ?_⟩
  · rintro ⟨c, hscan, -⟩
    rw [hpoint] at hscan
    cases hscan
  · rintro ⟨c, hscan, -⟩
    rw [hmember] at hscan
    cases hscan

end DivisionLine

end InlineExpect.Comment
