import Mathlib
import InlineExpect.Proofs.Comment.Positions

/-!
# Counting braces and stacking brackets

Two memories of brackets that answer a closing brace alike, and stay related whatever is opened or
closed, cannot be told apart by a scan (`Nesting.IsSimulation`).  The scans then come through the
same places of the text in the same state, up to what they remember (`course`), and so find the same
comments.

A `DepthCounter` and a `BracketStack` are related in this way by `DepthCounter.Mirrors`: the depth
is the height of the stack, and the depths of the open substitutions are the positions at which they
stand in it.  A closing brace compares the innermost of these depths with the height.  The positions
of what is left of the stack are below the height, so that the two agree only if a substitution is
on top.  That no brace needs to be open is no exception, since then no substitution is.
-/

namespace InlineExpect.Comment

open Text

/-! ### The course of a scan -/

section Course

variable {σ : Type} [Nesting σ]

/-- The states of a scan before each lexeme and at the end, each with what is left of the text. -/
def courseFrom (s : ScanState σ) : List Char → List (ScanState σ × List Char)
  | [] => [(s, [])]
  | c :: cs =>
    let x := Lexeme.ofText s.regexAllowed s.nesting c cs
    (s, c :: cs) :: courseFrom (s.after x (c :: cs.take x.extra)) (cs.drop x.extra)
termination_by cs => cs.length
decreasing_by simp only [List.length_cons, List.length_drop]; omega

/-- The states through which a scan of a whole text comes. -/
def course (σ : Type) [Nesting σ] (text : List Char) : List (ScanState σ × List Char) :=
  let n := shebangLength text
  courseFrom ⟨byteLength (text.take n), decide (0 < n), true, (Nesting.none : σ)⟩ (text.drop n)

/-- The comment that comes next in a state of a scan, if the next lexeme is one. -/
def nextComment? : ScanState σ × List Char → Option Comment
  | (_, []) => none
  | (s, c :: cs) => s.comment? (Lexeme.ofText s.regexAllowed s.nesting c cs)

lemma filterMap_courseFrom (s : ScanState σ) (cs : List Char) :
    (courseFrom s cs).filterMap nextComment? = scanFrom s cs := by
  fun_induction courseFrom s cs with
  | case1 s =>
    rw [scanFrom]
    rfl
  | case2 s c cs x ih =>
    have hnext : nextComment? (s, c :: cs) = s.comment? x := rfl
    rw [scanFrom_cons, List.filterMap_cons, ih, hnext]
    cases s.comment? x <;> rfl

/-- The comments of a text are those that come next along the course of the scan. -/
theorem filterMap_course (text : List Char) :
    (course σ text).filterMap nextComment? = scanWith σ text := filterMap_courseFrom _ _

end Course

/-! ### Memories that cannot be told apart -/

variable {σ τ : Type} [Nesting σ] [Nesting τ] {R : σ → τ → Prop}

/-- Two memories of brackets stay related, and answer alike. -/
structure Nesting.IsSimulation (R : σ → τ → Prop) : Prop where
  none : R Nesting.none Nesting.none
  openGroup : ∀ {n m}, R n m → R (Nesting.openGroup n) (Nesting.openGroup m)
  openSubstitution : ∀ {n m}, R n m → R (Nesting.openSubstitution n) (Nesting.openSubstitution m)
  close : ∀ {n m}, R n m → R (Nesting.close n).1 (Nesting.close m).1
  resumes : ∀ {n m}, R n m → (Nesting.close n).2 = (Nesting.close m).2

namespace Lexeme

/-- Two lexemes are the same, up to what is remembered of the brackets. -/
structure Matches (R : σ → τ → Prop) (x : Lexeme σ) (y : Lexeme τ) : Prop where
  kind_eq : x.kind = y.kind
  extra_eq : x.extra = y.extra
  regexAllowed_eq : x.regexAllowed = y.regexAllowed
  nesting : R x.nesting y.nesting

variable {allowed : Bool} {n : σ} {m : τ} {c : Char} {cs : List Char}

omit [Nesting σ] [Nesting τ] in
/-- Pieces that differ only in their memories match. -/
lemma matches_mk {kind : Kind} {extra : Nat} (h : R n m) :
    (⟨kind, extra, allowed, n⟩ : Lexeme σ).Matches R ⟨kind, extra, allowed, m⟩ :=
  ⟨rfl, rfl, rfl, h⟩

omit [Nesting σ] [Nesting τ] in
/-- A choice between two lexemes is matched by the same choice. -/
lemma matches_ite {p : Prop} [Decidable p] {x x' : Lexeme σ} {y y' : Lexeme τ}
    (h : x.Matches R y) (h' : x'.Matches R y') :
    (if p then x else x').Matches R (if p then y else y') := by
  by_cases hp : p
  · rwa [if_pos hp, if_pos hp]
  · rwa [if_neg hp, if_neg hp]

omit [Nesting σ] [Nesting τ] in
/-- A lexeme that begins with a slash leaves the brackets alone. -/
lemma matches_slash (h : R n m) : (slash allowed n cs).Matches R (slash allowed m cs) := by
  unfold slash
  split
  · exact matches_mk h
  · exact matches_mk h
  · exact matches_ite (matches_mk h) (matches_mk h)

/-- Template text is matched. -/
lemma matches_template (hR : Nesting.IsSimulation R) (h : R n m) :
    (template allowed n cs).Matches R (template allowed m cs) := by
  unfold template
  split
  · exact matches_mk h
  · exact matches_mk (hR.openSubstitution h)
  · exact matches_mk h

/-- A closing brace is matched. -/
lemma matches_closeBrace (hR : Nesting.IsSimulation R) (h : R n m) :
    (closeBrace allowed n cs).Matches R (closeBrace allowed m cs) := by
  have houter := hR.close h
  have hresumes := hR.resumes h
  unfold closeBrace
  rcases hn : Nesting.close n with ⟨outer, resumes⟩
  rcases hm : Nesting.close m with ⟨outer', resumes'⟩
  rw [hn, hm] at houter hresumes
  obtain rfl : resumes = resumes' := hresumes
  cases resumes with
  | true => exact matches_template hR houter
  | false => exact matches_mk houter

/-- The first lexeme of a text is matched. -/
theorem matches_ofText (hR : Nesting.IsSimulation R) (h : R n m) :
    (ofText allowed n c cs).Matches R (ofText allowed m c cs) := by
  unfold ofText
  apply matches_ite (matches_mk h)
  apply matches_ite (matches_mk h)
  apply matches_ite (matches_slash h)
  apply matches_ite (matches_mk h)
  apply matches_ite (matches_template hR h)
  apply matches_ite (matches_mk (hR.openGroup h))
  apply matches_ite (matches_closeBrace hR h)
  apply matches_ite (matches_mk h)
  apply matches_ite (matches_mk h)
  apply matches_ite (matches_mk h)
  exact matches_ite (matches_mk h) (matches_mk h)

end Lexeme

/-- Two scans are at the same place of a text in the same state, up to what they remember of the
brackets. -/
structure InStep (R : σ → τ → Prop) (a : ScanState σ × List Char) (b : ScanState τ × List Char) :
    Prop where
  rest_eq : a.2 = b.2
  pos_eq : a.1.pos = b.1.pos
  lineHasContent_eq : a.1.lineHasContent = b.1.lineHasContent
  regexAllowed_eq : a.1.regexAllowed = b.1.regexAllowed
  nesting : R a.1.nesting b.1.nesting

namespace InStep

variable {s : ScanState σ} {t : ScanState τ} {c : Char} {cs : List Char}

/-- Two scans in step find the same lexeme. -/
lemma matches_next (hR : Nesting.IsSimulation R) (h : InStep R (s, c :: cs) (t, c :: cs)) :
    (Lexeme.ofText s.regexAllowed s.nesting c cs).Matches R
      (Lexeme.ofText t.regexAllowed t.nesting c cs) := by
  have hallowed : s.regexAllowed = t.regexAllowed := h.regexAllowed_eq
  rw [hallowed]
  exact Lexeme.matches_ofText hR h.nesting

omit [Nesting σ] [Nesting τ] in
/-- Two scans in step are in step behind the same characters. -/
lemma after {x : Lexeme σ} {y : Lexeme τ} (h : InStep R (s, c :: cs) (t, c :: cs))
    (hxy : x.Matches R y) (front rest : List Char) :
    InStep R (s.after x front, rest) (t.after y front, rest) := by
  have hpos : s.pos = t.pos := h.pos_eq
  have hcontent : s.lineHasContent = t.lineHasContent := h.lineHasContent_eq
  refine ⟨rfl, ?_, ?_, hxy.regexAllowed_eq, hxy.nesting⟩
  · dsimp only [ScanState.after]
    rw [hpos]
  · dsimp only [ScanState.after]
    rw [hcontent, hxy.kind_eq]

/-- The comment that comes next in two scans in step is the same. -/
lemma nextComment?_eq (hR : Nesting.IsSimulation R) {a : ScanState σ × List Char}
    {b : ScanState τ × List Char} (h : InStep R a b) : nextComment? a = nextComment? b := by
  obtain ⟨s, cs⟩ := a
  obtain ⟨t, cs'⟩ := b
  obtain rfl : cs = cs' := h.rest_eq
  cases cs with
  | nil => rfl
  | cons c cs =>
    have hpos : s.pos = t.pos := h.pos_eq
    have hcontent : s.lineHasContent = t.lineHasContent := h.lineHasContent_eq
    dsimp only [nextComment?, ScanState.comment?]
    rw [(h.matches_next hR).kind_eq, hpos, hcontent]

end InStep

/-- Two scans that start in step stay in step. -/
lemma forall₂_courseFrom (hR : Nesting.IsSimulation R) (s : ScanState σ) (t : ScanState τ)
    (cs : List Char) (h : InStep R (s, cs) (t, cs)) :
    List.Forall₂ (InStep R) (courseFrom s cs) (courseFrom t cs) := by
  fun_induction courseFrom s cs generalizing t with
  | case1 s =>
    rw [courseFrom]
    exact .cons h .nil
  | case2 s c cs x ih =>
    have hxy := h.matches_next hR
    rw [courseFrom]
    apply List.Forall₂.cons h
    rw [← hxy.extra_eq]
    apply ih
    exact h.after hxy _ _

/-- Scans whose memories cannot be told apart come through the same states. -/
theorem forall₂_course (hR : Nesting.IsSimulation R) (text : List Char) :
    List.Forall₂ (InStep R) (course σ text) (course τ text) :=
  forall₂_courseFrom hR _ _ _ ⟨rfl, rfl, rfl, rfl, hR.none⟩

/-- Scans whose memories cannot be told apart find the same comments. -/
theorem scanWith_eq_of_isSimulation (hR : Nesting.IsSimulation R) (text : List Char) :
    scanWith σ text = scanWith τ text := by
  have key : ∀ (as : List (ScanState σ × List Char)) (bs : List (ScanState τ × List Char)),
      List.Forall₂ (InStep R) as bs → as.filterMap nextComment? = bs.filterMap nextComment? := by
    intro as bs h
    induction h with
    | nil => rfl
    | cons hab _ ih => rw [List.filterMap_cons, List.filterMap_cons, hab.nextComment?_eq hR, ih]
  rw [← filterMap_course, ← filterMap_course]
  exact key _ _ (forall₂_course hR text)

/-! ### Depths and positions in the stack -/

/-- The positions of the open substitutions in a stack, counted from one at its bottom, in ascending
order. -/
def BracketStack.substitutionPositions (m : BracketStack) : List Nat :=
  (m.brackets.reverse.zipIdx 1).filterMap fun (b, i) => if b = .substitution then some i else none

namespace BracketStack

variable {bs : List Bracket}

/-- A bracket on top of a stack stands at the height of the stack. -/
lemma substitutionPositions_cons (b : Bracket) (bs : List Bracket) :
    substitutionPositions ⟨b :: bs⟩ =
      substitutionPositions ⟨bs⟩ ++ if b = .substitution then [bs.length + 1] else [] := by
  dsimp only [substitutionPositions]
  rw [List.reverse_cons, List.zipIdx_append, List.filterMap_append, List.length_reverse,
    Nat.add_comm 1]
  cases b <;> rfl

/-- Nothing stands above the top of a stack. -/
lemma le_of_mem_substitutionPositions {d : Nat} (h : d ∈ substitutionPositions ⟨bs⟩) :
    d ≤ bs.length := by
  induction bs with
  | nil => cases h
  | cons b bs ih =>
    rw [substitutionPositions_cons, List.mem_append] at h
    rw [List.length_cons]
    rcases h with h | h
    · exact Nat.le_succ_of_le (ih h)
    · cases b with
      | group => cases h
      | substitution => exact (List.mem_singleton.mp h).le

/-- The positions of the open substitutions ascend. -/
lemma pairwise_substitutionPositions (m : BracketStack) :
    m.substitutionPositions.Pairwise (· < ·) := by
  obtain ⟨bs⟩ := m
  induction bs with
  | nil => exact .nil
  | cons b bs ih =>
    rw [substitutionPositions_cons]
    cases b with
    | group => exact (List.append_nil _).symm ▸ ih
    | substitution =>
      refine List.pairwise_append.mpr ⟨ih, List.pairwise_singleton _ _, ?_⟩
      intro d hd e he
      rw [List.mem_singleton.mp he]
      exact Nat.lt_succ_of_le (le_of_mem_substitutionPositions hd)

end BracketStack

/-- The depth is the height of the stack, and the depths of the open substitutions are the positions
at which they stand in the stack. -/
structure DepthCounter.Mirrors (n : DepthCounter) (m : BracketStack) : Prop where
  depth_eq : n.depth = m.brackets.length
  substitutions_eq : n.substitutions.reverse = m.substitutionPositions

namespace DepthCounter.Mirrors

variable {n : DepthCounter} {m : BracketStack}

/-- A counter and a stack agree on what a closing brace belongs to, and mirror each other behind
it. -/
lemma close (h : n.Mirrors m) :
    (Nesting.close n).1.Mirrors (Nesting.close m).1 ∧
      (Nesting.close n).2 = (Nesting.close m).2 := by
  obtain ⟨depth, substitutions⟩ := n
  obtain ⟨bs⟩ := m
  obtain ⟨rfl, hsub⟩ : depth = bs.length ∧
    substitutions.reverse = BracketStack.substitutionPositions ⟨bs⟩ := ⟨h.1, h.2⟩
  rw [List.reverse_eq_iff] at hsub
  match bs with
  | [] =>
    obtain rfl : substitutions = [] := hsub
    exact ⟨⟨rfl, rfl⟩, rfl⟩
  | .substitution :: bs =>
    rw [BracketStack.substitutionPositions_cons, if_pos rfl, List.reverse_append] at hsub
    obtain rfl : substitutions =
      (bs.length + 1) :: (BracketStack.substitutionPositions ⟨bs⟩).reverse := hsub
    have hclose : Nesting.close (⟨bs.length + 1, (bs.length + 1) ::
        (BracketStack.substitutionPositions ⟨bs⟩).reverse⟩ : DepthCounter) =
        (⟨bs.length, (BracketStack.substitutionPositions ⟨bs⟩).reverse⟩, true) := if_pos rfl
    rw [List.length_cons, hclose]
    exact ⟨⟨rfl, List.reverse_reverse _⟩, rfl⟩
  | .group :: bs =>
    rw [BracketStack.substitutionPositions_cons, if_neg Bracket.noConfusion,
      List.append_nil] at hsub
    -- The open substitutions are below the top, so that none is as deep as the group.
    have hclose : Nesting.close (⟨bs.length + 1, substitutions⟩ : DepthCounter) =
        (⟨bs.length, substitutions⟩, false) := by
      cases substitutions with
      | nil => rfl
      | cons d ds =>
        have hd : d ∈ BracketStack.substitutionPositions ⟨bs⟩ := by
          rw [← List.mem_reverse, ← hsub]
          exact List.mem_cons_self
        have hle := BracketStack.le_of_mem_substitutionPositions hd
        have hne : d ≠ bs.length + 1 := by omega
        exact if_neg hne
    rw [List.length_cons, hclose]
    exact ⟨⟨rfl, List.reverse_eq_iff.mpr hsub⟩, rfl⟩

end DepthCounter.Mirrors

/-- A depth counter cannot be told from the stack that it mirrors. -/
theorem isSimulation_mirrors : Nesting.IsSimulation DepthCounter.Mirrors where
  none := ⟨rfl, rfl⟩
  openGroup := by
    intro n m h
    refine ⟨congrArg Nat.succ h.depth_eq, ?_⟩
    have hpositions := BracketStack.substitutionPositions_cons .group m.brackets
    rw [if_neg Bracket.noConfusion, List.append_nil] at hpositions
    exact h.substitutions_eq.trans hpositions.symm
  openSubstitution := by
    intro n m h
    refine ⟨congrArg Nat.succ h.depth_eq, ?_⟩
    have hpositions := BracketStack.substitutionPositions_cons .substitution m.brackets
    rw [if_pos rfl, ← h.depth_eq] at hpositions
    change ((n.depth + 1) :: n.substitutions).reverse = _
    rw [List.reverse_cons, h.substitutions_eq]
    exact hpositions.symm
  close := fun h => h.close.1
  resumes := fun h => h.close.2

/-- The scanner finds the comments that it would find with a stack of brackets instead of its
counter.  Both come through the same states, in which the counter is the height of the stack and the
depths that it keeps are the ascending positions of the open substitutions in the stack. -/
theorem scan_eq_scanWith_bracketStack (text : List Char) :
    scan text = scanWith BracketStack text ∧
      (course DepthCounter text).filterMap nextComment? = scan text ∧
      (course BracketStack text).filterMap nextComment? = scanWith BracketStack text ∧
      List.Forall₂ (InStep fun n m => n.depth = m.brackets.length ∧
          n.substitutions.reverse = m.substitutionPositions ∧
          n.substitutions.reverse.Pairwise (· < ·))
        (course DepthCounter text) (course BracketStack text) := by
  refine ⟨scanWith_eq_of_isSimulation isSimulation_mirrors text, filterMap_course text,
    filterMap_course text, ?_⟩
  apply (forall₂_course isSimulation_mirrors text).imp
  rintro a b ⟨hrest, hpos, hcontent, hallowed, hmirrors⟩
  refine ⟨hrest, hpos, hcontent, hallowed, hmirrors.depth_eq, hmirrors.substitutions_eq, ?_⟩
  rw [hmirrors.substitutions_eq]
  exact b.1.nesting.pairwise_substitutionPositions

end InlineExpect.Comment
