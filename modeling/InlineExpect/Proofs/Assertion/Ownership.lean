import Mathlib
import InlineExpect.Proofs.Assertion.Extraction
import InlineExpect.Proofs.Comment.Lines

/-!
# How many comments are about a line

At most one line comment starts on a line, so that at most two comments make an assertion about a
line: one that stands alone on the line above, and one behind the code of the line itself
(`exists_assertionsAbout_eq`).  A line with a duplicate has no room for anything else.
-/

namespace InlineExpect

/-! ### Comments with their lines -/

namespace Comment

/-- The assertion that a comment makes, if it makes one, bound to the line that it is about. -/
def binding? (index : LineIndex) (c : Comment) : Option Binding :=
  c.mark?.bind fun mark => (index.bind c mark).toOption

variable {index : LineIndex} {c : Comment} {b : Binding} {mark : Mark} {line : Nat}

/-- A comment that is no mark is not bound. -/
lemma binding?_of_none (h : c.mark? = none) : c.binding? index = none := by
  rw [binding?, h]
  rfl

/-- A comment that is a mark is bound to a line by the line that it starts on. -/
lemma binding?_of_some (h : c.mark? = some mark) (hline : index.lineOf c.start = .ok line) :
    c.binding? index = some ⟨c.owningLine line, mark⟩ := by
  have hbind : index.bind c mark = .ok ⟨c.owningLine line, mark⟩ := by
    rw [LineIndex.bind, hline]
    rfl
  rw [binding?, h, Option.bind_some, hbind]
  rfl

/-- Only line comments are bound, to the line that they start on or to the next one. -/
lemma exists_lineOf_of_binding? (h : c.binding? index = some b) :
    c.isLine = true ∧ ∃ line, index.lineOf c.start = .ok line ∧ b.line = c.owningLine line := by
  obtain ⟨mark, hmark, hbind⟩ := Option.bind_eq_some_iff.mp h
  have hisLine : c.isLine = true := by
    unfold mark? at hmark
    split at hmark
    · assumption
    · simp at hmark
  cases hline : index.lineOf c.start with
  | error e =>
    rw [LineIndex.bind, hline] at hbind
    simp [bind, Except.bind, Except.toOption] at hbind
  | ok line =>
    rw [binding?_of_some hmark hline] at h
    rw [← Option.some.inj h]
    exact ⟨hisLine, line, rfl, rfl⟩

/-- A comment is about the line that it starts on or about the next one. -/
lemma owningLine_bounds (c : Comment) (line : Nat) :
    line ≤ c.owningLine line ∧ c.owningLine line ≤ line + 1 := by
  unfold owningLine
  split
  · exact ⟨Nat.le_succ line, le_rfl⟩
  · exact ⟨le_rfl, Nat.le_succ line⟩

/-- Whether a comment makes an assertion about a line. -/
def isAbout (index : LineIndex) (line : Nat) (c : Comment) : Bool :=
  (c.binding? index).any (·.line == line)

/-- A comment stands alone on the line above a line. -/
def StandsAbove (index : LineIndex) (line : Nat) (c : Comment) : Prop :=
  c.firstOnLine = true ∧ ∃ l, index.lineOf c.start = .ok l ∧ line = l + 1

/-- A comment stands behind the code of a line. -/
def StandsBehind (index : LineIndex) (line : Nat) (c : Comment) : Prop :=
  c.firstOnLine = false ∧ index.lineOf c.start = .ok line

/-- A comment that makes an assertion about a line stands alone on the line above or behind the
code of the line. -/
lemma isLine_of_isAbout (h : c.isAbout index line = true) :
    c.isLine = true ∧ (c.StandsAbove index line ∨ c.StandsBehind index line) := by
  obtain ⟨b, hb, hline⟩ := (Option.any_eq_true _ _).mp h
  obtain rfl : b.line = line := by simpa using hline
  obtain ⟨hisLine, l, hl, howning⟩ := exists_lineOf_of_binding? hb
  refine ⟨hisLine, ?_⟩
  unfold owningLine at howning
  cases hfirst : c.firstOnLine with
  | true =>
    rw [hfirst, if_pos rfl] at howning
    exact .inl ⟨hfirst, l, hl, howning⟩
  | false =>
    rw [hfirst, if_neg Bool.false_ne_true] at howning
    exact .inr ⟨hfirst, howning ▸ hl⟩

/-- Of two comments on different lines that make an assertion about the same line, the first one
stands alone on the line above and the second one behind the code of the line. -/
lemma standsAbove_and_standsBehind {d : Comment} (hc : c.isAbout index line = true)
    (hd : d.isAbout index line = true)
    (hlt : ∀ l m, index.lineOf c.start = .ok l → index.lineOf d.start = .ok m → l < m) :
    c.StandsAbove index line ∧ d.StandsBehind index line := by
  rcases (isLine_of_isAbout hc).2 with hcabove | hcbehind
  · rcases (isLine_of_isAbout hd).2 with hdabove | hdbehind
    · obtain ⟨-, l, hl, hcl⟩ := hcabove
      obtain ⟨-, m, hm, hdm⟩ := hdabove
      have hlm := hlt l m hl hm
      omega
    · exact ⟨hcabove, hdbehind⟩
  · rcases (isLine_of_isAbout hd).2 with ⟨-, m, hm, hdm⟩ | hdbehind
    · have hlm := hlt line m hcbehind.2 hm
      omega
    · exact absurd (hlt line line hcbehind.2 hdbehind.2) (lt_irrefl line)

end Comment

/-- The comments of a text that make an assertion about a line, in source order. -/
def assertionsAbout (text : List Char) (line : Nat) : List Comment :=
  (Comment.scan text).filter (Comment.isAbout (LineIndex.ofText text) line)

/-! ### At most two comments are about a line -/

/-- At most one line comment of a text starts on a line. -/
lemma countP_lineComment_le_one (text : List Char) (line : Nat) :
    (Comment.scan text).countP
      (fun c => c.isLine && (LineIndex.ofText text).lineOf c.start = .ok line) ≤ 1 := by
  set p := fun c : Comment => c.isLine && (LineIndex.ofText text).lineOf c.start = .ok line
  have hmem : ∀ c ∈ (Comment.scan text).filter p,
      c.isLine = true ∧ (LineIndex.ofText text).lineOf c.start = .ok line := by
    intro c hc
    simpa [p] using (List.mem_filter.mp hc).2
  have hpairwise := (Comment.pairwise_line_scan text).filter p
  rw [List.countP_eq_length_filter]
  match hlist : (Comment.scan text).filter p with
  | [] => exact Nat.zero_le 1
  | [c] => exact le_rfl
  | c :: d :: rest =>
    rw [hlist] at hmem hpairwise
    have hc := hmem c List.mem_cons_self
    have hd := hmem d (List.mem_cons_of_mem c List.mem_cons_self)
    have hlt := (List.pairwise_cons.mp hpairwise).1 d List.mem_cons_self hc.1 line line hc.2 hd.2
    exact absurd hlt (lt_irrefl line)

/-- Of two comments of a text that make an assertion about the same line, the first one stands alone
on the line above and the second one behind the code of the line. -/
lemma pairwise_assertionsAbout (text : List Char) (line : Nat) :
    (assertionsAbout text line).Pairwise fun c d =>
      c.StandsAbove (LineIndex.ofText text) line ∧ d.StandsBehind (LineIndex.ofText text) line := by
  have hpairwise := (Comment.pairwise_line_scan text).filter
    (Comment.isAbout (LineIndex.ofText text) line)
  refine hpairwise.imp_of_mem fun {c d} hc hd hlt => ?_
  have hcabout := (List.mem_filter.mp hc).2
  have hdabout := (List.mem_filter.mp hd).2
  exact Comment.standsAbove_and_standsBehind hcabout hdabout
    (hlt (Comment.isLine_of_isAbout hcabout).1)

/-- A line has at most two comments that make an assertion about it: one that stands alone on the
line above, and one behind the code of the line itself. -/
lemma exists_assertionsAbout_eq (text : List Char) (line : Nat) :
    ∃ above behind : Option Comment,
      assertionsAbout text line = above.toList ++ behind.toList ∧
      (∀ c ∈ above, c.StandsAbove (LineIndex.ofText text) line) ∧
      (∀ c ∈ behind, c.StandsBehind (LineIndex.ofText text) line) := by
  have hpairwise := pairwise_assertionsAbout text line
  match hlist : assertionsAbout text line with
  | [] => exact ⟨none, none, rfl, by simp, by simp⟩
  | [c] =>
    have hmem : c ∈ assertionsAbout text line := hlist ▸ List.mem_singleton_self c
    rcases (Comment.isLine_of_isAbout (List.mem_filter.mp hmem).2).2 with habove | hbehind
    · exact ⟨some c, none, rfl, by simpa using habove, by simp⟩
    · exact ⟨none, some c, rfl, by simp, by simpa using hbehind⟩
  | [c, d] =>
    rw [hlist] at hpairwise
    obtain ⟨habove, hbehind⟩ := List.pairwise_pair.mp hpairwise
    exact ⟨some c, some d, rfl, by simpa using habove, by simpa using hbehind⟩
  | c :: d :: e :: rest =>
    -- The second comment would stand behind the code and alone on the line above.
    rw [hlist] at hpairwise
    obtain ⟨hc, hrest⟩ := List.pairwise_cons.mp hpairwise
    have hbehind := (hc d List.mem_cons_self).2.1
    have habove := ((List.pairwise_cons.mp hrest).1 e List.mem_cons_self).1.1
    rw [hbehind] at habove
    exact absurd habove Bool.false_ne_true

/-! ### The bindings of a text -/

/-- A text binds its comments to the lines that they are about. -/
lemma LineIndex.bindAll_eq {index : LineIndex} {cs : List Comment}
    (h : ∀ c ∈ cs, ∃ line, index.lineOf c.start = .ok line) :
    index.bindAll cs = .ok (cs.filterMap (Comment.binding? index)) := by
  induction cs with
  | nil => rfl
  | cons c cs ih =>
    have ih := ih fun d hd => h d (List.mem_cons_of_mem c hd)
    cases hmark : c.mark? with
    | none =>
      rw [bindAll_cons_of_none hmark, List.filterMap_cons_none (Comment.binding?_of_none hmark), ih]
    | some mark =>
      obtain ⟨line, hline⟩ := h c List.mem_cons_self
      rw [bindAll_cons_of_some hmark hline ih,
        List.filterMap_cons_some (Comment.binding?_of_some hmark hline)]

/-- The bindings of a text are those of its comments. -/
lemma bindings_eq_filterMap (text : List Char) :
    bindings (LineCursor.start (LineIndex.ofText text)) (Comment.scan text) =
      (Comment.scan text).filterMap (Comment.binding? (LineIndex.ofText text)) := by
  have hcursor := declaredBindings_eq text
  have hlookup : declaredBindings text =
      .ok ((Comment.scan text).filterMap (Comment.binding? (LineIndex.ofText text))) :=
    LineIndex.bindAll_eq fun c hc => Comment.exists_lineOf_of_mem_scan hc
  exact Except.ok.inj (hcursor.symm.trans hlookup)

end InlineExpect
