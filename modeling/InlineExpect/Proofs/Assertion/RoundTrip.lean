import Mathlib
import InlineExpect.Proofs.Assertion.Ownership
import InlineExpect.Proofs.Assertion.Written
import InlineExpect.Proofs.Text.LineNumber

/-!
# Reading what was written

The assertions of lines are extracted from the text that the lines are written as, each with the
line that it is about and with its type as it stands there.  The induction is on the lines.  It
carries the state of the scanner at the beginning of a line, of which only three things are known:
the number of the bytes read, that the line has no content, and that no substitution is open.
-/

namespace InlineExpect

open Text Comment

/-! ### Scanning a line -/

namespace SourceLine

variable {l : SourceLine} {s : ScanState DepthCounter} {before tail : List Char}

/-- The comment of a line that begins at an offset. -/
def comment? (pos : Nat) (l : SourceLine) : Option Comment :=
  l.written?.map fun w =>
    ⟨.line, pos + byteLength l.chars, w.body, !l.chars.any fun c => !isInlineBlank c⟩

/-- The comment of a line is found, and nothing else. -/
lemma exists_scanFrom_render (hl : l.WellFormed) (hs : s.nesting.substitutions = [])
    (hcontent : s.lineHasContent = false) (htail : ∀ d ∈ tail.head?, isLineBreak d = true) :
    ∃ t : ScanState DepthCounter, t.pos = s.pos + byteLength l.render ∧
      t.nesting.substitutions = [] ∧
      scanFrom s (l.render ++ tail) = (l.comment? s.pos).toList ++ scanFrom t tail := by
  have hplain := isPlain_of_mem_chars hl
  cases hw : l.written? with
  | none =>
    have hrender : l.render = l.chars := by
      rw [render, hw]
      exact List.append_nil _
    obtain ⟨t, hpos, -, hsub, hscan⟩ := exists_scanFrom_plain s hs hplain
      fun d hd => .inr (htail d hd)
    refine ⟨t, hrender ▸ hpos, hsub, ?_⟩
    rw [hrender, comment?, hw]
    exact hscan
  | some w =>
    have hrender : l.render = l.chars ++ w.render := by
      rw [render, hw]
      rfl
    have hslash : EndsPlain (w.render ++ tail) := fun d hd => .inl (Option.some.inj hd).symm
    obtain ⟨t, hpos, hcontent', hsub, hscan⟩ := exists_scanFrom_plain s hs hplain hslash
    rw [hcontent, Bool.false_or] at hcontent'
    have hbody := WrittenMark.isLineBreak_of_mem_body (wellFormed_of_written? hl hw)
    refine ⟨⟨t.pos + byteLength w.render, true, t.regexAllowed, t.nesting⟩, ?_, hsub, ?_⟩
    · rw [hrender, hpos, byteLength_append, Nat.add_assoc]
    · rw [hrender, List.append_assoc, hscan, comment?, hw, Option.map_some, ← hcontent', ← hpos]
      exact scanFrom_lineComment_of_end hbody htail

/-- The comment of a line makes the assertion of the line. -/
lemma comment?_bind_binding? (hl : l.WellFormed) (hbefore : '\r' ∉ before) (tail : List Char) :
    (l.comment? (byteLength before)).bind
        (Comment.binding? (LineIndex.ofText (before ++ (l.render ++ tail)))) =
      l.binding? (lineBreaks before) := by
  rw [binding?_eq hl, comment?]
  cases hw : l.written? with
  | none => rfl
  | some w =>
    have hmark : ∀ start first, mark? ⟨.line, start, w.body, first⟩ = some w.mark := fun _ _ =>
      WrittenMark.ofBody?_body (wellFormed_of_written? hl hw)
    have hsplit : before ++ (l.render ++ tail) = (before ++ l.chars) ++ (w.render ++ tail) := by
      rw [render, hw]
      simp only [Option.map_some, Option.getD_some, List.append_assoc]
    have hlines : lineBreaks (before ++ l.chars) = lineBreaks before := by
      have hchars := lineBreaks_eq_zero fun c hc => (isPlain_of_mem_chars hl c hc).1
      have hlast : before.getLast? ≠ some '\r' := fun h => hbefore (List.mem_of_getLast? h)
      rw [lineBreaks_append fun h => absurd h hlast, hchars, Nat.add_zero]
    have hline : (LineIndex.ofText (before ++ (l.render ++ tail))).lineOf
        (byteLength before + byteLength l.chars) = .ok (lineBreaks before) := by
      rw [hsplit, ← byteLength_append, ← hlines]
      exact LineIndex.lineOf_byteLength fun _ h => absurd (Option.some.inj h) (by decide)
    rw [Option.map_some, Option.map_some, Option.bind_some,
      Comment.binding?_of_some (hmark _ _) hline, Comment.owningLine]
    dsimp only
    cases l.chars.any fun c => !isInlineBlank c <;> rfl

/-! ### Scanning all lines -/

/-- The comments of lines make the assertions of the lines. -/
lemma filterMap_scanFrom_renderAll (before : List Char) (s : ScanState DepthCounter)
    (ls : List SourceLine) (hls : ∀ l ∈ ls, l.WellFormed) (hpos : s.pos = byteLength before)
    (hcontent : s.lineHasContent = false) (hs : s.nesting.substitutions = [])
    (hbefore : '\r' ∉ before) :
    (scanFrom s (renderAll ls)).filterMap
        (Comment.binding? (LineIndex.ofText (before ++ renderAll ls))) =
      declared (lineBreaks before) ls := by
  induction ls generalizing before s with
  | nil =>
    rw [renderAll_nil, scanFrom]
    rfl
  | cons l ls ih =>
    have hl := hls l List.mem_cons_self
    obtain ⟨t, htpos, htsub, hscan⟩ :=
      exists_scanFrom_render hl hs hcontent (head?_renderRest ls)
    have hfirst := comment?_bind_binding? hl hbefore (renderRest ls)
    have htoList : ∀ o : Option Comment, ∀ f : Comment → Option Binding,
        o.toList.filterMap f = (o.bind f).toList := by
      intro o f
      cases o with
      | none => rfl
      | some c => cases hf : f c <;> simp [hf]
    rw [renderAll_cons, hscan, List.filterMap_append, declared, htoList, hpos, hfirst]
    congr 1
    cases ls with
    | nil =>
      rw [renderRest, scanFrom]
      rfl
    | cons m ls =>
      -- The line break is passed over, and counts as one line.
      have hlf : isLineBreak '\n' = true := by decide
      have hrender := isLineBreak_of_mem_render hl
      have hbefore' : '\r' ∉ before ++ (l.render ++ ['\n']) := by
        simp only [List.mem_append, List.mem_singleton, not_or]
        refine ⟨hbefore, fun hmem => ?_, by decide⟩
        exact absurd (hrender _ hmem) (by decide)
      have hlines : lineBreaks (before ++ (l.render ++ ['\n'])) = lineBreaks before + 1 := by
        have hlast : before.getLast? ≠ some '\r' := fun h => hbefore (List.mem_of_getLast? h)
        have hlast' : l.render.getLast? ≠ some '\r' := fun h =>
          absurd (hrender _ (List.mem_of_getLast? h)) (by decide)
        rw [lineBreaks_append fun h => absurd h hlast, lineBreaks_append fun h => absurd h hlast',
          lineBreaks_eq_zero hrender, Nat.zero_add]
        rfl
      have htext : before ++ (l.render ++ renderRest (m :: ls)) =
          (before ++ (l.render ++ ['\n'])) ++ renderAll (m :: ls) := by
        simp only [renderRest, List.append_assoc, List.singleton_append]
      have hih := ih (before ++ (l.render ++ ['\n']))
        ⟨t.pos + byteLength ['\n'], false, t.regexAllowed, t.nesting⟩
        (fun k hk => hls k (List.mem_cons_of_mem l hk))
        (by rw [htpos, hpos, byteLength_append, byteLength_append, Nat.add_assoc]) rfl htsub
        hbefore'
      rw [htext, renderRest, scanFrom_layout (.inl rfl) (Lexeme.ofText_lineBreak hlf), ← hlines]
      exact hih

/-- The bindings of a text are those that its lines declare. -/
theorem bindings_renderAll {ls : List SourceLine} (hls : ∀ l ∈ ls, l.WellFormed)
    (hshebang : ¬ ['#', '!'] <+: renderAll ls) :
    bindings (LineCursor.start (LineIndex.ofText (renderAll ls))) (scan (renderAll ls)) =
      declared 0 ls := by
  rw [bindings_eq_filterMap, scan, scanWith, shebangLength_eq_zero hshebang]
  exact filterMap_scanFrom_renderAll [] _ ls hls rfl rfl rfl List.not_mem_nil

end SourceLine

/-! ### What is extracted -/

namespace AssertionSet

/-- What counts among some bindings, and what they compete for. -/
lemma ofBindings_eq (bs : List Binding) :
    ofBindings bs =
      { types := once Prod.fst (typeEntries bs),
        errorLines := once id (errorEntries bs),
        duplicates := seconds (bs.map Binding.key) } := by
  have h := Collector.collects_foldl bs
  rw [ofBindings, ← h.types.kept_eq, ← h.errors.kept_eq, ← h.duplicates]

/-- Where no line is bound twice by marks of one kind, all bindings count. -/
lemma ofBindings_of_nodup {bs : List Binding} (h : (bs.map Binding.key).Nodup) :
    ofBindings bs =
      { types := typeEntries bs, errorLines := errorEntries bs, duplicates := [] } := by
  have hcount := List.nodup_iff_count_le_one.mp h
  have htypes : ((typeEntries bs).map Prod.fst).Nodup :=
    List.nodup_iff_count_le_one.mpr fun line => count_key_type bs line ▸ hcount ⟨line, .type⟩
  have herrors : ((errorEntries bs).map id).Nodup := by
    rw [List.map_id]
    exact List.nodup_iff_count_le_one.mpr fun line =>
      count_key_error bs line ▸ hcount ⟨line, .error⟩
  rw [ofBindings_eq, once_eq_self htypes, once_eq_self herrors, seconds_eq_nil h]

/-- From a text that is written from lines, what the lines declare is extracted.  Each assertion
counts that does not share its line with another one of its kind, in the order of the lines, and
each line that several share is a duplicate.  Where no line is shared, this is all that is
declared. -/
theorem extract_renderAll (ls : List SourceLine) (hls : ∀ l ∈ ls, l.WellFormed)
    (hshebang : ¬ ['#', '!'] <+: SourceLine.renderAll ls) :
    extract (SourceLine.renderAll ls) =
      { types := once Prod.fst (typeEntries (SourceLine.declared 0 ls)),
        errorLines := once id (errorEntries (SourceLine.declared 0 ls)),
        duplicates := seconds ((SourceLine.declared 0 ls).map Binding.key) } ∧
    (((SourceLine.declared 0 ls).map Binding.key).Nodup →
      extract (SourceLine.renderAll ls) =
        { types := typeEntries (SourceLine.declared 0 ls),
          errorLines := errorEntries (SourceLine.declared 0 ls),
          duplicates := [] }) := by
  have hextract : extract (SourceLine.renderAll ls) = ofBindings (SourceLine.declared 0 ls) := by
    rw [extract_eq_ofComments, ofComments, SourceLine.bindings_renderAll hls hshebang]
  rw [hextract]
  exact ⟨ofBindings_eq _, ofBindings_of_nodup⟩

end AssertionSet

/-- Lines with a bracket that nothing opens, a type that looks like a comment and an assertion, and
assertions above and behind the same code. -/
def writtenSample : List SourceLine :=
  [.standalone ['\t'] { mark := .error, after := 2 },
    .code ['\x7d', ' ', 'a']
      (some { mark := .type ['$', '/', '/', '\x27'], before := 0, gap := 1 }),
    .code ['b', '+'] none]

/-- The sample is written and read back. -/
theorem extract_renderAll_writtenSample : (∀ l ∈ writtenSample, l.WellFormed) ∧
    ¬ ['#', '!'] <+: SourceLine.renderAll writtenSample ∧
    ((SourceLine.declared 0 writtenSample).map Binding.key).Nodup ∧
    String.ofList (SourceLine.renderAll writtenSample) =
      "\t// $ExpectError  \n\x7d a//$ExpectType  $//'\nb+" ∧
    AssertionSet.extract (SourceLine.renderAll writtenSample) =
      { types := [(1, "$//'")], errorLines := [1], duplicates := [] } := by
  have hwellFormed : ∀ l ∈ writtenSample, l.WellFormed := by
    have htype : IsTypeText ['$', '/', '/', '\x27'] :=
      ⟨by simp, by simp [isLineBreak], by simp [isBlank], by simp [isBlank]⟩
    intro l hl
    simp only [writtenSample, List.mem_cons, List.not_mem_nil, or_false] at hl
    rcases hl with rfl | rfl | rfl
    · exact ⟨by simp, trivial⟩
    · refine ⟨by simp [IsPlain, isLineBreak], fun w hw => ?_⟩
      obtain rfl := Option.some.inj hw
      exact ⟨⟨'a', by decide, by decide⟩, htype⟩
    · exact ⟨by simp [IsPlain, isLineBreak], fun w hw => absurd hw (by simp)⟩
  have hshebang : ¬ ['#', '!'] <+: SourceLine.renderAll writtenSample := by decide
  have hnodup : ((SourceLine.declared 0 writtenSample).map Binding.key).Nodup := by decide
  refine ⟨hwellFormed, hshebang, hnodup, by decide, ?_⟩
  exact (AssertionSet.extract_renderAll writtenSample hwellFormed hshebang).2 hnodup

end InlineExpect
