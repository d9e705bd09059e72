import Mathlib
import InlineExpect.Proofs.Assertion.Collector
import InlineExpect.Proofs.Comment.Positions
import InlineExpect.Proofs.Text.LineOf

/-!
# Extraction by counting

The assertions of a text are extracted in one pass, by a cursor that only moves at comments that
make an assertion and a collector that takes back what it has when a line is bound twice.
`declaredBindings` states what is extracted without either: each comment that makes an assertion is
bound by looking up the line of its start, and what counts for a line is how often it is bound.

The cursor is compared with the lookup through `LineIndex.Contains`, which both satisfy and at most
one line can.
-/

namespace InlineExpect

open Text

/-! ### The marker -/

/-- A text has the marker if and only if the marker is a stretch of it. -/
lemma hasMarker_iff {cs : List Char} : hasMarker cs = true ↔ marker <:+: cs := by
  induction cs with
  | nil => simp [hasMarker, marker]
  | cons c cs ih =>
    rw [hasMarker, Bool.or_eq_true, ih, List.isPrefixOf_iff_prefix, List.infix_cons_iff]

/-- A text has the marker if a stretch of it has. -/
lemma hasMarker_mono {cs ds : List Char} (hcs : cs <:+: ds) (h : hasMarker cs = true) :
    hasMarker ds = true :=
  hasMarker_iff.mpr ((hasMarker_iff.mp h).trans hcs)

/-- A text with a keyword at its start has the marker. -/
lemma hasMarker_of_afterKeyword? {kind : AssertionKind} {body rest : List Char}
    (h : afterKeyword? kind body = some rest) : hasMarker body = true := by
  have htrim : kind.keyword.toList ++ rest = trimLeft body :=
    List.isPrefixOf?_eq_some_iff_append_eq.mp h
  have hstart : kind.keyword.toList <+: trimLeft body := ⟨rest, htrim⟩
  have hrest : trimLeft body <:+ body := List.dropWhile_suffix isBlank
  have hkeyword : hasMarker kind.keyword.toList = true := by cases kind <;> decide
  exact hasMarker_mono (hstart.isInfix.trans hrest.isInfix) hkeyword

/-- The body of a comment that makes an assertion has the marker. -/
lemma hasMarker_of_ofBody? {body : List Char} {mark : Mark} (h : Mark.ofBody? body = some mark) :
    hasMarker body = true := by
  unfold Mark.ofBody? at h
  split at h
  · rename_i expected htype
    unfold expectedType? at htype
    split at htype
    · rename_i c cs hafter
      exact hasMarker_of_afterKeyword? hafter
    · simp at htype
  · split at h
    · rename_i herror
      unfold expectsError at herror
      split at herror
      · rename_i rest hafter
        exact hasMarker_of_afterKeyword? hafter
      · simp at herror
    · simp at h

/-! ### The cursor -/

namespace LineCursor

/-- A cursor follows an offset if it has not gone past the line of the offset, and knows where all
further lines start. -/
structure Follows (cursor : LineCursor) (index : LineIndex) (pos : Nat) : Prop where
  upcoming : cursor.upcoming = index.starts.toList.drop (cursor.line + 1)
  reached : ∃ start, index.starts[cursor.line]? = some start ∧ start ≤ pos

variable {cursor : LineCursor} {index : LineIndex} {pos pos' : Nat}

/-- A cursor at the first line follows every offset. -/
lemma follows_start (text : List Char) (pos : Nat) :
    (start (LineIndex.ofText text)).Follows (LineIndex.ofText text) pos := by
  have htail := List.drop_one (l := (LineIndex.ofText text).starts.toList)
  exact ⟨htail.symm, ⟨0, LineIndex.starts_zero text, Nat.zero_le pos⟩⟩

/-- A cursor that follows an offset follows any later one. -/
lemma Follows.mono (h : cursor.Follows index pos) (hle : pos ≤ pos') :
    cursor.Follows index pos' := by
  obtain ⟨start, hstart, hpos⟩ := h.reached
  exact ⟨h.upcoming, ⟨start, hstart, hpos.trans hle⟩⟩

/-- A cursor that follows an offset moves on to the line that contains it, and follows it still. -/
lemma follows_advance {line : Nat} {upcoming : List Nat}
    (h : (LineCursor.mk line upcoming).Follows index pos) :
    (advance line pos upcoming).Follows index pos ∧
      index.Contains (advance line pos upcoming).line pos := by
  obtain ⟨hupcoming, hreached⟩ := h
  dsimp only at hupcoming hreached
  induction upcoming generalizing line with
  | nil =>
    refine ⟨⟨hupcoming, hreached⟩, hreached, fun next hnext => ?_⟩
    have hlen := List.drop_eq_nil_iff.mp hupcoming.symm
    have hlt := (Array.getElem?_eq_some_iff.mp hnext).1
    rw [Array.length_toList] at hlen
    exact absurd hlt (not_lt.mpr hlen)
  | cons first rest ih =>
    have hfirst : index.starts[line + 1]? = some first := by
      rw [← Array.getElem?_toList, ← List.head?_drop, ← hupcoming]
      rfl
    have hrest : rest = index.starts.toList.drop (line + 1 + 1) := by
      rw [← List.tail_drop, ← hupcoming]
      rfl
    unfold advance
    by_cases hle : first ≤ pos
    · rw [if_pos hle]
      exact ih hrest ⟨first, hfirst, hle⟩
    · rw [if_neg hle]
      refine ⟨⟨hupcoming, hreached⟩, hreached, fun next hnext => ?_⟩
      have hsame : first = next := Option.some.inj (hfirst.symm.trans hnext)
      omega

end LineCursor

/-! ### Bindings by lookup -/

/-- The mark that a comment is. -/
def Comment.mark? (c : Comment) : Option Mark := if c.isLine then Mark.ofBody? c.body else none

/-- A comment together with the mark that it is. -/
def Comment.marked? (c : Comment) : Option (Comment × Mark) := c.mark?.map fun mark => (c, mark)

/-- A mark with the line that its comment is about, which is looked up in an index. -/
def LineIndex.bind (index : LineIndex) (c : Comment) (mark : Mark) :
    Except LookupError Binding := do
  let line ← index.lineOf c.start
  return ⟨c.owningLine line, mark⟩

/-- The marks among some comments, with the lines that they are about. -/
def LineIndex.bindAll (index : LineIndex) (cs : List Comment) : Except LookupError (List Binding) :=
  (cs.filterMap Comment.marked?).mapM fun p => index.bind p.1 p.2

/-- The assertions that the comments of a text make, in source order. -/
def declaredBindings (text : List Char) : Except LookupError (List Binding) :=
  (LineIndex.ofText text).bindAll (Comment.scan text)

/-- A comment that is no mark is not bound. -/
lemma LineIndex.bindAll_cons_of_none {index : LineIndex} {c : Comment} (h : c.mark? = none)
    (cs : List Comment) : index.bindAll (c :: cs) = index.bindAll cs := by
  have hnone : c.marked? = none := by rw [Comment.marked?, h]; rfl
  rw [bindAll, List.filterMap_cons_none hnone]
  rfl

/-- A comment that is a mark is bound to the line of its start. -/
lemma LineIndex.bindAll_cons_of_some {index : LineIndex} {c : Comment} {mark : Mark} {line : Nat}
    {cs : List Comment} {bs : List Binding} (h : c.mark? = some mark)
    (hline : index.lineOf c.start = .ok line) (hcs : index.bindAll cs = .ok bs) :
    index.bindAll (c :: cs) = .ok (⟨c.owningLine line, mark⟩ :: bs) := by
  have hsome : c.marked? = some (c, mark) := by rw [Comment.marked?, h]; rfl
  have hbind : index.bind c mark = .ok ⟨c.owningLine line, mark⟩ := by
    rw [bind, hline]
    rfl
  unfold bindAll at hcs ⊢
  rw [List.filterMap_cons_some hsome, List.mapM_cons, hbind, hcs]
  rfl

/-- The cursor stays where it is at a comment that is no mark. -/
lemma bindings_cons_of_none {c : Comment} (h : c.mark? = none) (cursor : LineCursor)
    (cs : List Comment) : bindings cursor (c :: cs) = bindings cursor cs := by
  have hmark : (if c.isLine then Mark.ofBody? c.body else none) = none := h
  rw [bindings, hmark]

/-- The cursor moves on at a comment that is a mark. -/
lemma bindings_cons_of_some {c : Comment} {mark : Mark} (h : c.mark? = some mark)
    (cursor : LineCursor) (cs : List Comment) :
    bindings cursor (c :: cs) =
      ⟨c.owningLine (LineCursor.advance cursor.line c.start cursor.upcoming).line, mark⟩ ::
        bindings (LineCursor.advance cursor.line c.start cursor.upcoming) cs := by
  have hmark : (if c.isLine then Mark.ofBody? c.body else none) = some mark := h
  rw [bindings, hmark]

/-- The cursor finds the lines that are looked up, at comments in a text one behind the other. -/
lemma bindAll_eq_bindings {text : List Char} {cursor : LineCursor} {pos : Nat} {cs : List Comment}
    (hcursor : cursor.Follows (LineIndex.ofText text) pos) (hpos : ∀ c ∈ cs, pos ≤ c.start)
    (hsize : ∀ c ∈ cs, c.start ≤ byteLength text)
    (hsorted : cs.Pairwise fun c d => c.start < d.start) :
    (LineIndex.ofText text).bindAll cs = .ok (bindings cursor cs) := by
  induction cs generalizing cursor pos with
  | nil => rfl
  | cons c cs ih =>
    obtain ⟨hnext, hsorted'⟩ := List.pairwise_cons.mp hsorted
    have hsize' : ∀ d ∈ cs, d.start ≤ byteLength text := fun d hd =>
      hsize d (List.mem_cons_of_mem c hd)
    cases hmark : c.mark? with
    | none =>
      rw [LineIndex.bindAll_cons_of_none hmark, bindings_cons_of_none hmark]
      exact ih hcursor (fun d hd => hpos d (List.mem_cons_of_mem c hd)) hsize' hsorted'
    | some mark =>
      obtain ⟨hfollows, hcontains⟩ :=
        LineCursor.follows_advance (hcursor.mono (hpos c List.mem_cons_self))
      rw [bindings_cons_of_some hmark]
      exact LineIndex.bindAll_cons_of_some hmark
        (LineIndex.lineOf_eq_ok_of_contains (hsize c List.mem_cons_self) hcontains)
        (ih hfollows (fun d hd => (hnext d hd).le) hsize' hsorted')

/-- The assertions of a text are bound to the lines that the cursor finds. -/
lemma declaredBindings_eq (text : List Char) : declaredBindings text =
    .ok (bindings (LineCursor.start (LineIndex.ofText text)) (Comment.scan text)) := by
  refine bindAll_eq_bindings (LineCursor.follows_start text 0) (fun _ _ => Nat.zero_le _) ?_
    (Comment.pairwise_scan text)
  intro c hc
  have := (Comment.occursIn_of_mem_scan hc).start_bounds.2
  rwa [Nat.zero_add] at this

/-! ### What is extracted -/

/-- A text with a comment that is a mark has the marker. -/
lemma hasMarker_of_mark? {text : List Char} {c : Comment} {mark : Mark}
    (hc : c ∈ Comment.scan text) (h : c.mark? = some mark) : hasMarker text = true := by
  unfold Comment.mark? at h
  split at h
  · exact hasMarker_mono (Comment.occursIn_of_mem_scan hc).body_infix_text (hasMarker_of_ofBody? h)
  · simp at h

/-- Comments that are no marks bind nothing. -/
lemma bindings_eq_nil {cs : List Comment} (h : ∀ c ∈ cs, c.mark? = none) (cursor : LineCursor) :
    bindings cursor cs = [] := by
  induction cs with
  | nil => rfl
  | cons c cs ih =>
    rw [bindings_cons_of_none (h c List.mem_cons_self)]
    exact ih fun d hd => h d (List.mem_cons_of_mem c hd)

/-- A text that need not be scanned has no assertions. -/
lemma AssertionSet.extract_eq_ofComments (text : List Char) : extract text = ofComments text := by
  unfold extract
  by_cases hmarker : hasMarker text = true
  · rw [if_pos hmarker]
  · have hnone : ∀ c ∈ Comment.scan text, c.mark? = none := by
      intro c hc
      by_contra hne
      obtain ⟨mark, hmark⟩ := Option.ne_none_iff_exists'.mp hne
      exact hmarker (hasMarker_of_mark? hc hmark)
    rw [if_neg hmarker, ofComments, bindings_eq_nil hnone]
    rfl

/-- What is extracted from a text is what is counted in the assertions that its comments make: the
expected types and the expected diagnostics whose lines occur once among those of their kind, in
source order, and the lines that occur more often, one for each kind, in the order in which they
occur for the second time.  The cursor finds the lines that are looked up. -/
theorem AssertionSet.extract_eq_counted (text : List Char) :
    ∃ bs, declaredBindings text = .ok bs ∧
      bindings (LineCursor.start (LineIndex.ofText text)) (Comment.scan text) = bs ∧
      (extract text).types = once Prod.fst (typeEntries bs) ∧
      (extract text).errorLines = once id (errorEntries bs) ∧
      (∀ d, d ∈ (extract text).duplicates ↔ 2 ≤ (bs.map Binding.key).count d) ∧
      (extract text).duplicates.Nodup ∧
      (extract text).duplicates.Pairwise fun d e =>
        secondPosition (bs.map Binding.key) d < secondPosition (bs.map Binding.key) e := by
  set bs := bindings (LineCursor.start (LineIndex.ofText text)) (Comment.scan text) with hbs
  have hextract : extract text = (bs.foldl Collector.add {}).set := extract_eq_ofComments text
  have hcollects := Collector.collects_foldl bs
  have hduplicates : (extract text).duplicates = seconds (bs.map Binding.key) := by
    rw [hextract, hcollects.duplicates]
  refine ⟨bs, declaredBindings_eq text, rfl, ?_, ?_, ?_, ?_, ?_⟩
  · rw [hextract, hcollects.types.kept_eq]
  · rw [hextract, hcollects.errors.kept_eq]
  · intro d
    rw [hduplicates, mem_seconds_iff]
  · rw [hduplicates]
    exact nodup_seconds _
  · rw [hduplicates]
    exact pairwise_seconds _

end InlineExpect
