import Mathlib
import InlineExpect.Proofs.Matching.Accounting
import InlineExpect.Proofs.Matching.Pairing
import InlineExpect.Proofs.Matching.Unordered
import InlineExpect.Proofs.Matching.Violation

/-!
# When a check fails

A check ends with an error when the oracle does not answer, and when an answer is about a place
behind the text.  It looks up places in three loops: through the diagnostics, through the nodes, and
through what is left to be rendered; and the first loop is left out if nothing is asserted, the
second ends early.  `CheckFault` says on what a check fails without speaking of these loops, and
`checkFile_fails_iff` proves that it fails on nothing else.

A walk through the nodes fails at the first node that faults it (`walkFault_of_matchTypes`).  If it
does not fail, none of the nodes that it visits does (`start_le_of_matchTypes`), and the mismatches
are those of the first nodes of all lines (`mem_mismatches_iff`).
-/

namespace InlineExpect

/-- A walk comes to a node while an expected type is pending, since none of the nodes before it
starts on the line of that type. -/
def SyntaxTree.VisitsPending (t : SyntaxTree) (index : LineIndex) (types : List (Nat × String))
    (ids : List NodeId) (id : NodeId) : Prop :=
  ∃ before after, ids = before ++ id :: after ∧
    ∃ q ∈ types, ∀ j ∈ before, index.lineOf (t.span j).start ≠ .ok q.1

/-- What a check of a file fails on, with the error that it ends with. -/
inductive CheckFault (o : Oracle Id) (f : SourceFile) : MatchError → Prop
  /-- The oracle does not say what is reported for the file. -/
  | unreported {cause : OracleError} (h : o.diagnostics f.name = Except.error cause) :
    CheckFault o f (.oracle o.version cause)
  /-- A diagnostic is located behind the text, whatever is asserted. -/
  | report {ds : List Diagnostic} {d : Diagnostic} {span : Span}
    (h : o.diagnostics f.name = Except.ok ds) (hd : d ∈ ds) (hspan : d.span = some span)
    (hlt : f.lineIndex.size < span.start) :
    CheckFault o f (.lookup o.version f.name (.offset span.start f.lineIndex.size))
  /-- A type is expected, and the oracle does not give the tree. -/
  | treeless {cause : OracleError} (htypes : f.assertions.types ≠ [])
    (h : o.tree f.name = Except.error cause) : CheckFault o f (.oracle o.version cause)
  /-- A node other than the root starts behind the text, and a type is pending before it. -/
  | node {t : SyntaxTree} {id : NodeId} (h : o.tree f.name = Except.ok t)
    (hid : t.VisitsPending f.lineIndex f.assertions.types t.preorder.tail id)
    (hlt : f.lineIndex.size < (t.span id).start) :
    CheckFault o f (.lookup o.version f.name (.offset (t.span id).start f.lineIndex.size))
  /-- The oracle does not give the type of what the first node on the line of an expected type
  stands for. -/
  | untyped {t : SyntaxTree} {q : Nat × String} {id : NodeId} {cause : OracleError}
    (h : o.tree f.name = Except.ok t) (hq : q ∈ f.assertions.types)
    (hid : t.FindsFirst f.lineIndex t.preorder.tail q.1 id)
    (htype : o.typeOf f.name (t.unwrap id) = Except.error cause) :
    CheckFault o f (.oracle o.version cause)
  /-- What such a node stands for has another type, and starts behind the text. -/
  | mismatch {t : SyntaxTree} {q : Nat × String} {id : NodeId} {actual : String}
    (h : o.tree f.name = Except.ok t) (hq : q ∈ f.assertions.types)
    (hid : t.FindsFirst f.lineIndex t.preorder.tail q.1 id)
    (htype : o.typeOf f.name (t.unwrap id) = Except.ok actual) (hne : actual ≠ q.2)
    (hlt : f.lineIndex.size < (t.span (t.unwrap id)).start) :
    CheckFault o f
      (.lookup o.version f.name (.offset (t.span (t.unwrap id)).start f.lineIndex.size))

/-! ### Walks that fail -/

/-- What a walk fails on, with the error that it ends with. -/
inductive WalkFault (o : Oracle Id) (file : String) (index : LineIndex) (t : SyntaxTree)
    (types : List (Nat × String)) (ids : List NodeId) : MatchError → Prop
  | node {id : NodeId} (hid : t.VisitsPending index types ids id)
    (hlt : index.size < (t.span id).start) :
    WalkFault o file index t types ids
      (.lookup o.version file (.offset (t.span id).start index.size))
  | untyped {q : Nat × String} {id : NodeId} {cause : OracleError} (hq : q ∈ types)
    (hid : t.FindsFirst index ids q.1 id)
    (htype : o.typeOf file (t.unwrap id) = Except.error cause) :
    WalkFault o file index t types ids (.oracle o.version cause)

section Walking

variable {o : Oracle Id} {file : String} {index : LineIndex} {t : SyntaxTree} {id j : NodeId}
  {ids : List NodeId} {types : List (Nat × String)} {line : Nat} {e : MatchError} {r : TypeMatch}

/-- A walk visits its first node if a type is pending at all. -/
lemma visitsPending_head (hne : types ≠ []) : t.VisitsPending index types (id :: ids) id := by
  obtain ⟨q, hq⟩ := List.exists_mem_of_ne_nil types hne
  exact ⟨[], ids, rfl, q, hq, by simp⟩

/-- A walk visits a node behind the first one if a type is pending that is not expected on the line
of the first. -/
lemma visitsPending_cons (hl : index.lineOf (t.span id).start = .ok line)
    (h : t.VisitsPending index (types.filter (·.1 != line)) ids j) :
    t.VisitsPending index types (id :: ids) j := by
  obtain ⟨before, after, rfl, q, hq, hbefore⟩ := h
  obtain ⟨hq, hne⟩ := List.mem_filter.mp hq
  refine ⟨id :: before, after, rfl, q, hq, List.forall_mem_cons.mpr ⟨?_, hbefore⟩⟩
  rw [hl]
  intro hline
  exact bne_iff_ne.mp hne (Except.ok.inj hline).symm

/-- A walk visits nothing but its first node and the nodes behind it. -/
lemma eq_or_visitsPending_of_cons (hl : index.lineOf (t.span id).start = .ok line)
    (h : t.VisitsPending index types (id :: ids) j) :
    j = id ∨ t.VisitsPending index (types.filter (·.1 != line)) ids j := by
  obtain ⟨before, after, hids, q, hq, hbefore⟩ := h
  cases before with
  | nil => exact .inl (List.cons.inj hids).1.symm
  | cons i before =>
    obtain ⟨rfl, rfl⟩ := List.cons.inj hids
    obtain ⟨hne, hbefore⟩ := List.forall_mem_cons.mp hbefore
    rw [hl] at hne
    refine .inr ⟨before, after, rfl, q, List.mem_filter.mpr ⟨hq, bne_iff_ne.mpr ?_⟩, hbefore⟩
    intro hline
    exact hne (congrArg Except.ok hline.symm)

/-- A walk that visits a node while a type is pending has expected types. -/
lemma types_ne_nil_of_visitsPending (h : t.VisitsPending index types ids j) : types ≠ [] := by
  obtain ⟨-, -, -, q, hq, -⟩ := h
  exact List.ne_nil_of_mem hq

/-- A walk fails on what it fails on behind its first node, when the line of this node is
forgotten. -/
lemma WalkFault.cons (hl : index.lineOf (t.span id).start = .ok line)
    (h : WalkFault o file index t (types.filter (·.1 != line)) ids e) :
    WalkFault o file index t types (id :: ids) e := by
  cases h with
  | node hid hlt => exact .node (visitsPending_cons hl hid) hlt
  | untyped hq hid htype =>
    obtain ⟨hq, hne⟩ := List.mem_filter.mp hq
    have hfirst := find?_startsOn_cons_of_ne ids hl (bne_iff_ne.mp hne)
    exact .untyped hq (hfirst.trans hid) htype

/-- A walk that ends with an error has a fault. -/
theorem walkFault_of_matchTypes
    (h : (matchTypes o file index t types ids).run = Except.error e) :
    WalkFault o file index t types ids e := by
  induction ids generalizing types with
  | nil => cases h
  | cons id ids ih =>
    by_cases hnil : types = []
    · subst hnil
      cases h
    have hempty : types.isEmpty = false := by simpa using hnil
    rw [matchTypes, hempty, if_neg Bool.false_ne_true] at h
    rcases run_bind_eq_error h with hl | ⟨line, hl, h⟩
    · obtain ⟨cause, hcause, rfl⟩ := eq_error_of_lookupIn hl
      obtain ⟨hlt, rfl⟩ := (index.lineOf_eq_error_iff _ _).mp hcause
      exact .node (visitsPending_head hnil) hlt
    have hl := eq_ok_of_lookupIn hl
    cases hlookup : types.lookup line with
    | none =>
      -- No type is expected on the line of this node.
      rw [hlookup] at h
      refine WalkFault.cons hl ?_
      rw [filter_line_ne_eq_self hlookup]
      exact ih h
    | some expected =>
      -- This is the first node on its line, and the walk forgets the line.
      rw [hlookup] at h
      rcases run_bind_eq_error h with htype | ⟨actual, -, h⟩
      · obtain ⟨cause, hcause, rfl⟩ := eq_error_of_askOracle htype
        have hfirst : t.FindsFirst index (id :: ids) line id :=
          List.find?_cons_of_pos (SyntaxTree.startsOn_iff.mpr hl)
        exact .untyped (mem_of_lookup_eq_some hlookup) hfirst hcause
      rcases run_bind_eq_error h with hrest | ⟨rest, -, h⟩
      · exact (ih hrest).cons hl
      · cases h

/-- A node that is visited by a walk without an error starts in the text. -/
lemma start_le_of_matchTypes (h : (matchTypes o file index t types ids).run = Except.ok r)
    (hj : t.VisitsPending index types ids j) : (t.span j).start ≤ index.size := by
  induction ids generalizing types r with
  | nil =>
    obtain ⟨before, after, hids, -⟩ := hj
    simp at hids
  | cons id ids ih =>
    have hnil := types_ne_nil_of_visitsPending hj
    have hempty : types.isEmpty = false := by simpa using hnil
    rw [matchTypes, hempty, if_neg Bool.false_ne_true] at h
    obtain ⟨line, hl, h⟩ := exists_of_run_bind_eq_ok h
    have hl := eq_ok_of_lookupIn hl
    rcases eq_or_visitsPending_of_cons hl hj with rfl | hj
    · by_contra hlt
      rw [(index.lineOf_eq_error_iff _ _).mpr ⟨not_le.mp hlt, rfl⟩] at hl
      cases hl
    cases hlookup : types.lookup line with
    | none =>
      rw [hlookup] at h
      rw [filter_line_ne_eq_self hlookup] at hj
      exact ih h hj
    | some expected =>
      rw [hlookup] at h
      obtain ⟨actual, -, h⟩ := exists_of_run_bind_eq_ok h
      obtain ⟨rest, hrest, -⟩ := exists_of_run_bind_eq_ok h
      exact ih hrest hj

/-- The type of the first node on the line of an expected type is known after a walk. -/
lemma exists_typeOf_of_matchTypes (hkeys : (types.map Prod.fst).Nodup)
    (h : (matchTypes o file index t types ids).run = Except.ok r) {q : Nat × String}
    (hq : q ∈ types) (hid : t.FindsFirst index ids q.1 id) :
    ∃ actual, o.typeOf file (t.unwrap id) = Except.ok actual := by
  obtain ⟨pairs, hpairs, -⟩ := exists_pairs_of_matchTypes hkeys h
  obtain ⟨actual, hone⟩ := hpairs.once q hq id hid
  have hmem : (⟨q.1, q.2, id, actual⟩ : Pairing) ∈ pairs :=
    List.mem_of_mem_filter (hone ▸ List.mem_singleton_self _)
  exact ⟨actual, hpairs.actual _ hmem⟩

/-- A walk finds a mismatch where the first node on the line of an expected type has another
type. -/
lemma mem_mismatches_iff (hkeys : (types.map Prod.fst).Nodup)
    (h : (matchTypes o file index t types ids).run = Except.ok r) {m : Mismatch} :
    m ∈ r.mismatches ↔ ∃ q ∈ types, ∃ id actual, t.FindsFirst index ids q.1 id ∧
      o.typeOf file (t.unwrap id) = Except.ok actual ∧ actual ≠ q.2 ∧
      m = ⟨t.unwrap id, t.span (t.unwrap id), q.2, actual⟩ := by
  obtain ⟨pairs, hpairs, hmismatches, -⟩ := exists_pairs_of_matchTypes hkeys h
  rw [hmismatches, List.mem_filterMap]
  constructor
  · rintro ⟨p, hp, hm⟩
    unfold Pairing.mismatch? at hm
    split at hm
    · cases hm
    · rename_i hne
      exact ⟨_, hpairs.expected p hp, p.node, p.actual, hpairs.first p hp, hpairs.actual p hp, hne,
        (Option.some.inj hm).symm⟩
  · rintro ⟨q, hq, id, actual, hid, htype, hne, rfl⟩
    obtain ⟨found, hone⟩ := hpairs.once q hq id hid
    have hmem : (⟨q.1, q.2, id, found⟩ : Pairing) ∈ pairs :=
      List.mem_of_mem_filter (hone ▸ List.mem_singleton_self _)
    obtain rfl : found = actual :=
      Except.ok.inj ((hpairs.actual _ hmem).symm.trans htype)
    exact ⟨_, hmem, if_neg hne⟩

end Walking

/-! ### Checks that fail -/

section Checking

variable {o : Oracle Id} {f : SourceFile} {ds : List Diagnostic} {e : MatchError}
  {r : MatchResult} {fs : List Failure}

/-- Diagnostics that are not matched are not all located in the text. -/
lemma exists_of_matchDiagnostics_eq_error {index : LineIndex} {s : AssertionSet}
    {cause : LookupError} (h : matchDiagnostics index s ds = .error cause) :
    ∃ d ∈ ds, ∃ span, d.span = some span ∧ index.size < span.start ∧
      cause = .offset span.start index.size := by
  cases hfirst : Diagnostic.firstOutside index.size ds with
  | none =>
    rw [matchDiagnostics_eq_ok (Diagnostic.startsWithin_of_firstOutside_eq_none hfirst)] at h
    cases h
  | some pos =>
    rw [matchDiagnostics_of_firstOutside hfirst] at h
    obtain rfl := Except.error.inj h
    have hlt : index.size < pos := by simpa using List.find?_some hfirst
    obtain ⟨d, hd, rfl⟩ := List.mem_map.mp (List.mem_of_find?_eq_some hfirst)
    obtain ⟨span, hspan, hstart⟩ := Diagnostic.exists_span_of_lt_start hlt
    exact ⟨d, hd, span, hspan, hstart ▸ hlt, by rw [hstart]⟩

/-- A match of the assertions of a file that ends with an error has a fault. -/
lemma checkFault_of_matchAssertions
    (h : (matchAssertions o f.name f.lineIndex f.assertions).run = Except.error e) :
    CheckFault o f e := by
  rcases run_bind_eq_error h with hds | ⟨ds, hds, h⟩
  · obtain ⟨cause, hcause, rfl⟩ := eq_error_of_askOracle hds
    exact .unreported hcause
  have hds := eq_ok_of_askOracle hds
  by_cases hempty : f.assertions.isEmpty = true
  · rw [if_pos hempty] at h
    cases h
  rw [if_neg hempty] at h
  rcases run_bind_eq_error h with hmatch | ⟨d, -, h⟩
  · obtain ⟨cause, hcause, rfl⟩ := eq_error_of_lookupIn hmatch
    obtain ⟨d, hd, span, hspan, hlt, rfl⟩ := exists_of_matchDiagnostics_eq_error hcause
    exact .report hds hd hspan hlt
  rcases run_bind_eq_error h with ht | ⟨m, -, h⟩
  · by_cases hnil : f.assertions.types = []
    · rw [hnil] at ht
      cases ht
    have hsome : f.assertions.types.isEmpty = false := by simpa using hnil
    rw [matchTree, hsome, if_neg Bool.false_ne_true] at ht
    rcases run_bind_eq_error ht with htree | ⟨t, htree, ht⟩
    · obtain ⟨cause, hcause, rfl⟩ := eq_error_of_askOracle htree
      exact .treeless hnil hcause
    have htree := eq_ok_of_askOracle htree
    cases walkFault_of_matchTypes ht with
    | node hid hlt => exact .node htree hid hlt
    | untyped hq hid htype => exact .untyped htree hq hid htype
  · cases h

/-- What is found to be misplaced when a result is rendered is a fault of the check. -/
lemma checkFault_of_misplaced {cause : LookupError}
    (hr : (matchAssertions o f.name f.lineIndex f.assertions).run = Except.ok r)
    (h : r.Misplaced f.lineIndex cause) :
    CheckFault o f (.lookup o.version f.name cause) := by
  obtain ⟨ds, hds, ⟨-, rfl⟩ | ⟨-, d, m, hd, hm, rfl⟩⟩ := exists_parts_of_matchAssertions hr
  · cases h with
    | mismatch hm hlt => cases hm
    | unexpected hd hspan hlt => exact .report hds hd hspan hlt
  · cases h with
    | mismatch hmem hlt =>
      have hnil : f.assertions.types ≠ [] := by
        intro hnil
        rw [hnil] at hm
        obtain rfl : {} = m := Except.ok.inj hm
        cases hmem
      obtain ⟨t, htree, hwalk⟩ := exists_walk_of_matchTree hnil hm
      obtain ⟨q, hq, id, actual, hid, htype, hne, rfl⟩ :=
        (mem_mismatches_iff f.nodup_types hwalk).mp hmem
      exact .mismatch htree hq hid htype hne hlt
    | unexpected hmem hspan hlt =>
      have hwithin := startsWithin_of_matchDiagnostics hd
      rw [matchDiagnostics_eq_ok hwithin] at hd
      obtain rfl := Except.ok.inj hd
      exact .report hds (List.mem_of_mem_filter hmem) hspan hlt

/-- A check that ends with an error has a fault. -/
lemma checkFault_of_checkFile (h : (checkFile o f).run = Except.error e) : CheckFault o f e := by
  rcases run_bind_eq_error h with hr | ⟨r, hr, h⟩
  · exact checkFault_of_matchAssertions hr
  · obtain ⟨cause, hcause, rfl⟩ := eq_error_of_lookupIn h
    exact checkFault_of_misplaced hr (MatchResult.misplaced_of_failures hcause)

/-- A check without an error has no fault. -/
lemma not_checkFault_of_checkFile (h : (checkFile o f).run = Except.ok fs) :
    ¬ CheckFault o f e := by
  obtain ⟨r, hr, hfailures⟩ := exists_result_of_checkFile h
  have hplaced : ∀ cause, ¬ r.Misplaced f.lineIndex cause := by
    intro cause hcause
    exact hcause.failures_ne_ok hfailures
  obtain ⟨ds, hds, hparts⟩ := exists_parts_of_matchAssertions hr
  -- With an expected type, there has been a walk through the tree.
  have hwalked : f.assertions.types ≠ [] → ∃ t m, o.tree f.name = Except.ok t ∧
      (matchTypes o f.name f.lineIndex t f.assertions.types t.preorder.tail).run = Except.ok m ∧
      r.mismatches = m.mismatches := by
    intro hnil
    obtain ⟨hempty, -⟩ | ⟨-, d, m, -, hm, rfl⟩ := hparts
    · simp [AssertionSet.isEmpty, hnil] at hempty
    · obtain ⟨t, htree, hwalk⟩ := exists_walk_of_matchTree hnil hm
      exact ⟨t, m, htree, hwalk, rfl⟩
  intro hfault
  cases hfault with
  | unreported hcause => cases hds.symm.trans hcause
  | report hds' hd hspan hlt =>
    obtain rfl := Except.ok.inj (hds.symm.trans hds')
    obtain ⟨-, rfl⟩ | ⟨-, d, m, hmatch, -⟩ := hparts
    · exact hplaced _ (.unexpected hd hspan hlt)
    · exact absurd (startsWithin_of_matchDiagnostics hmatch _ hd _ hspan) (not_le.mpr hlt)
  | treeless hnil hcause =>
    obtain ⟨t, m, htree, -⟩ := hwalked hnil
    cases htree.symm.trans hcause
  | node htree' hid hlt =>
    obtain ⟨t, m, htree, hwalk, -⟩ := hwalked (types_ne_nil_of_visitsPending hid)
    obtain rfl := Except.ok.inj (htree.symm.trans htree')
    exact absurd (start_le_of_matchTypes hwalk hid) (not_le.mpr hlt)
  | untyped htree' hq hid hcause =>
    obtain ⟨t, m, htree, hwalk, -⟩ := hwalked (List.ne_nil_of_mem hq)
    obtain rfl := Except.ok.inj (htree.symm.trans htree')
    obtain ⟨actual, hactual⟩ := exists_typeOf_of_matchTypes f.nodup_types hwalk hq hid
    cases hactual.symm.trans hcause
  | mismatch htree' hq hid htype hne hlt =>
    obtain ⟨t, m, htree, hwalk, hmismatches⟩ := hwalked (List.ne_nil_of_mem hq)
    obtain rfl := Except.ok.inj (htree.symm.trans htree')
    have hmem := (mem_mismatches_iff f.nodup_types hwalk).mpr
      ⟨_, hq, _, _, hid, htype, hne, rfl⟩
    rw [← hmismatches] at hmem
    exact hplaced _ (.mismatch hmem hlt)

/-- A check ends with an error if and only if it has a fault, and the error is that of a fault,
with the version of the oracle and the name of the file. -/
theorem checkFile_fails_iff (o : Oracle Id) (f : SourceFile) :
    ((∃ e, (checkFile o f).run = Except.error e) ↔ ∃ e, CheckFault o f e) ∧
      ∀ e, (checkFile o f).run = Except.error e → CheckFault o f e := by
  refine ⟨⟨?_, ?_⟩, fun e => checkFault_of_checkFile⟩
  · rintro ⟨e, he⟩
    exact ⟨e, checkFault_of_checkFile he⟩
  · rintro ⟨e, he⟩
    cases hrun : Id.run (checkFile o f).run with
    | error e' => exact ⟨e', hrun⟩
    | ok fs => exact absurd he (not_checkFault_of_checkFile hrun)

end Checking

end InlineExpect
