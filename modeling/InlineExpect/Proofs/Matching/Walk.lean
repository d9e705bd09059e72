import Mathlib
import InlineExpect.Matching.Match
import InlineExpect.Proofs.Text.LineOf

/-!
# The walk through the nodes

`matchTypes` pairs expected types with nodes in one walk that forgets each expected type as soon as
a node starts on its line, and ends when none is left.  Here it is compared with a definition that
looks at each expected type alone: the first node of the walk that starts on its line.  The walk
finds nothing to report exactly if each expected type has such a node, of that type
(`exists_matchTypes_eq_pure`).
-/

namespace InlineExpect

/-- Whether a node starts on a line. -/
def SyntaxTree.startsOn (t : SyntaxTree) (index : LineIndex) (line : Nat) (id : NodeId) : Bool :=
  (index.lineOf (t.span id).start).toOption == some line

/-- A node starts on the line that is looked up for the start of its span. -/
lemma SyntaxTree.startsOn_iff {t : SyntaxTree} {index : LineIndex} {line : Nat} {id : NodeId} :
    t.startsOn index line id = true ↔ index.lineOf (t.span id).start = .ok line := by
  unfold startsOn
  cases index.lineOf (t.span id).start <;> simp [Except.toOption]

section Asking

variable {α : Type}

/-- A question that is answered goes on with its answer. -/
lemma askOracle_ok (version : Version) (a : α) :
    (askOracle version (m := Id) (Except.ok a) : ExceptT MatchError Id α) = pure a := rfl

/-- A lookup in the text goes on with its result. -/
lemma lookupIn_ok (version : Version) (file : String) (a : α) :
    (lookupIn version file (.ok a) : ExceptT MatchError Id α) = pure a := rfl

/-- A question after which a match goes on has been answered. -/
lemma eq_ok_of_askOracle {version : Version} {answer : Id (Except OracleError α)} {a : α}
    (h : (askOracle version answer : ExceptT MatchError Id α).run = Except.ok a) :
    answer = Except.ok a := by
  cases answer with
  | error e => cases (h : Except.error (MatchError.oracle version e) = Except.ok a)
  | ok b => exact congrArg Except.ok (Except.ok.inj h)

/-- A lookup after which a match goes on has a result. -/
lemma eq_ok_of_lookupIn {version : Version} {file : String} {r : Except LookupError α} {a : α}
    (h : (lookupIn version file r : ExceptT MatchError Id α).run = Except.ok a) : r = .ok a := by
  cases r with
  | error e => cases (h : Except.error (MatchError.lookup version file e) = Except.ok a)
  | ok b => exact congrArg Except.ok (Except.ok.inj h)

/-- The first part of a match that ends without an error does so too. -/
lemma exists_of_run_bind_eq_ok {β : Type} {x : ExceptT MatchError Id α}
    {f : α → ExceptT MatchError Id β} {b : β} (h : (x >>= f).run = Except.ok b) :
    ∃ a, x.run = Except.ok a ∧ (f a).run = Except.ok b := by
  rw [ExceptT.run_bind] at h
  cases hx : x.run with
  | error e =>
    rw [hx] at h
    cases h
  | ok a =>
    rw [hx] at h
    exact ⟨a, rfl, h⟩

/-- A match that ends with an error does so in its first part or behind it. -/
lemma run_bind_eq_error {β : Type} {x : ExceptT MatchError Id α} {f : α → ExceptT MatchError Id β}
    {e : MatchError} (h : (x >>= f).run = Except.error e) :
    x.run = Except.error e ∨ ∃ a, x.run = Except.ok a ∧ (f a).run = Except.error e := by
  rw [ExceptT.run_bind] at h
  cases hx : x.run with
  | error e' =>
    rw [hx] at h
    obtain rfl := Except.error.inj h
    exact .inl rfl
  | ok a =>
    rw [hx] at h
    exact .inr ⟨a, rfl, h⟩

/-- A question at which a match ends has not been answered, and the error names the version. -/
lemma eq_error_of_askOracle {version : Version} {answer : Id (Except OracleError α)}
    {e : MatchError}
    (h : (askOracle version answer : ExceptT MatchError Id α).run = Except.error e) :
    ∃ cause, answer = Except.error cause ∧ e = .oracle version cause := by
  cases answer with
  | error cause => exact ⟨cause, rfl, (Except.error.inj h).symm⟩
  | ok a => cases (h : Except.ok a = Except.error e)

/-- A lookup at which a match ends has no result, and the error names the version and the file. -/
lemma eq_error_of_lookupIn {version : Version} {file : String} {r : Except LookupError α}
    {e : MatchError}
    (h : (lookupIn version file r : ExceptT MatchError Id α).run = Except.error e) :
    ∃ cause, r = .error cause ∧ e = .lookup version file cause := by
  cases r with
  | error cause => exact ⟨cause, rfl, (Except.error.inj h).symm⟩
  | ok a => cases (h : Except.ok a = Except.error e)

end Asking

/-! ### Expected types by line -/

section Pending

variable {pending : List (Nat × String)} {line : Nat} {expected : String}

/-- The expected type of a line is found by its line. -/
lemma mem_of_lookup_eq_some (h : pending.lookup line = some expected) :
    (line, expected) ∈ pending := by
  induction pending with
  | nil => simp at h
  | cons p ps ih =>
    obtain ⟨l, e⟩ := p
    rw [List.lookup_cons] at h
    by_cases hl : line = l
    · subst hl
      simp only [beq_self_eq_true] at h
      rw [Option.some.inj h]
      exact List.mem_cons_self
    · rw [beq_false_of_ne hl] at h
      exact List.mem_cons_of_mem _ (ih h)

/-- A line without an expected type is not the line of one. -/
lemma ne_of_lookup_eq_none (h : pending.lookup line = none) {p : Nat × String} (hp : p ∈ pending) :
    p.1 ≠ line := by
  have := List.lookup_eq_none_iff.mp h p hp
  intro he
  simp [he] at this

/-- A line without an expected type takes none away when it is forgotten. -/
lemma filter_line_ne_eq_self (h : pending.lookup line = none) :
    pending.filter (·.1 != line) = pending :=
  List.filter_eq_self.mpr fun _ hp => bne_iff_ne.mpr (ne_of_lookup_eq_none h hp)

end Pending

/-- The first node of a walk on a line other than that of the next node is found behind it. -/
lemma find?_startsOn_cons_of_ne {t : SyntaxTree} {index : LineIndex} {id : NodeId} {line l : Nat}
    (ids : List NodeId) (hl : index.lineOf (t.span id).start = .ok l) (hne : line ≠ l) :
    (id :: ids).find? (t.startsOn index line) = ids.find? (t.startsOn index line) := by
  refine List.find?_cons_of_neg fun h => ?_
  rw [SyntaxTree.startsOn_iff, hl] at h
  exact hne (Except.ok.inj h).symm

namespace TypeMatch

variable {r : TypeMatch} {node : NodeId} {span : Span} {expected actual : String}

/-- Nothing is reported for a node that has the expected type. -/
lemma note_eq_nil_iff :
    (r.note node span expected actual).mismatches = [] ∧
        (r.note node span expected actual).pending = [] ↔
      (actual = expected ∧ r.mismatches = []) ∧ r.pending = [] := by
  unfold note
  split <;> simp_all

/-- What is reported for a node is located at the node. -/
lemma span_of_mem_note {t : SyntaxTree} (h : ∀ x ∈ r.mismatches, ∃ id, x.span = t.span id) :
    ∀ x ∈ (r.note node (t.span node) expected actual).mismatches, ∃ id, x.span = t.span id := by
  unfold note
  split
  · exact h
  · intro x hx
    rcases List.mem_cons.mp hx with rfl | hx
    · exact ⟨node, rfl⟩
    · exact h x hx

end TypeMatch

/-- What the walk reports, compared with the first node of each line. -/
theorem exists_matchTypes_eq_pure (o : Oracle Id) (file : String) (index : LineIndex)
    (tree : SyntaxTree) (pending : List (Nat × String)) (ids : List NodeId)
    (hkeys : (pending.map Prod.fst).Nodup)
    (hstart : ∀ id ∈ ids, (tree.span id).start ≤ index.size)
    (htype : ∀ p ∈ pending, ∀ id, ids.find? (tree.startsOn index p.1) = some id →
      ∃ text, o.typeOf file (tree.unwrap id) = Except.ok text) :
    ∃ r, matchTypes o file index tree pending ids = pure r ∧
      (∀ x ∈ r.mismatches, ∃ id, x.span = tree.span id) ∧
      (r.mismatches = [] ∧ r.pending = [] ↔
        ∀ p ∈ pending, ∃ id, ids.find? (tree.startsOn index p.1) = some id ∧
          o.typeOf file (tree.unwrap id) = Except.ok p.2) := by
  induction ids generalizing pending with
  | nil =>
    refine ⟨{ pending }, rfl, by simp, ?_⟩
    constructor
    · rintro ⟨-, hp⟩ p hmem
      rw [show pending = [] from hp] at hmem
      simp at hmem
    · intro h
      refine ⟨rfl, List.eq_nil_iff_forall_not_mem.mpr fun p hmem => ?_⟩
      obtain ⟨id, hid, -⟩ := h p hmem
      simp at hid
  | cons id ids ih =>
    by_cases hnil : pending = []
    · subst hnil
      exact ⟨{}, rfl, by simp, by simp⟩
    obtain ⟨line, hline⟩ := LineIndex.exists_lineOf (hstart id List.mem_cons_self)
    have hstart' : ∀ id' ∈ ids, (tree.span id').start ≤ index.size := fun id' hid' =>
      hstart id' (List.mem_cons_of_mem id hid')
    have hskip : ∀ p ∈ pending, p.1 ≠ line → (id :: ids).find? (tree.startsOn index p.1) =
        ids.find? (tree.startsOn index p.1) := fun p _ hne =>
      find?_startsOn_cons_of_ne ids hline hne
    have hempty : pending.isEmpty = false := by simpa using hnil
    rw [matchTypes, hempty, hline, lookupIn_ok, if_neg Bool.false_ne_true, pure_bind]
    cases hlookup : pending.lookup line with
    | none =>
      -- No type is expected on the line of this node.
      have hne : ∀ p ∈ pending, p.1 ≠ line := fun p hp => ne_of_lookup_eq_none hlookup hp
      obtain ⟨r, hr, hspans, hiff⟩ := ih pending hkeys hstart' fun p hp id' hid' =>
        htype p hp id' (by rw [hskip p hp (hne p hp), hid'])
      refine ⟨r, hr, hspans, hiff.trans (forall₂_congr fun p hp => ?_)⟩
      rw [hskip p hp (hne p hp)]
    | some expected =>
      -- This is the first node on its line, and the walk forgets the line.
      have hmem : (line, expected) ∈ pending := mem_of_lookup_eq_some hlookup
      have hfirst : (id :: ids).find? (tree.startsOn index line) = some id :=
        List.find?_cons_of_pos (SyntaxTree.startsOn_iff.mpr hline)
      obtain ⟨actual, hactual⟩ := htype _ hmem id hfirst
      have hrest : ∀ p, p ∈ pending.filter (·.1 != line) ↔ p ∈ pending ∧ p.1 ≠ line := by
        intro p
        rw [List.mem_filter, bne_iff_ne]
      obtain ⟨r, hr, hspans, hiff⟩ := ih (pending.filter (·.1 != line))
        (hkeys.sublist (List.filter_sublist.map Prod.fst)) hstart' fun p hp id' hid' => by
          obtain ⟨hp, hne⟩ := (hrest p).mp hp
          exact htype p hp id' (by rw [hskip p hp hne, hid'])
      refine ⟨r.note (tree.unwrap id) (tree.span (tree.unwrap id)) expected actual, ?_, ?_, ?_⟩
      · dsimp only
        rw [hactual, askOracle_ok, pure_bind, hr, pure_bind]
      · exact TypeMatch.span_of_mem_note hspans
      · rw [TypeMatch.note_eq_nil_iff, and_assoc, hiff]
        constructor
        · rintro ⟨rfl, hall⟩ p hp
          by_cases hpl : p.1 = line
          · obtain rfl : p = (line, actual) := List.inj_on_of_nodup_map hkeys hp hmem hpl
            exact ⟨id, hfirst, hactual⟩
          · rw [hskip p hp hpl]
            exact hall p ((hrest p).mpr ⟨hp, hpl⟩)
        · intro hall
          refine ⟨?_, fun p hp => ?_⟩
          · obtain ⟨id', hid', htext⟩ := hall _ hmem
            rw [hfirst] at hid'
            rw [← Option.some.inj hid', hactual] at htext
            exact Except.ok.inj htext
          · obtain ⟨hp, hne⟩ := (hrest p).mp hp
            rw [← hskip p hp hne]
            exact hall p hp

/-! ### The parts of a match -/

/-- What has happened when the expected types of a file are compared without an error, if there are
any. -/
lemma exists_walk_of_matchTree {o : Oracle Id} {file : String} {index : LineIndex}
    {types : List (Nat × String)} {r : TypeMatch} (hne : types ≠ [])
    (h : (matchTree o file index types).run = Except.ok r) :
    ∃ t, o.tree file = Except.ok t ∧
      (matchTypes o file index t types t.preorder.tail).run = Except.ok r := by
  have hempty : types.isEmpty = false := by simpa using hne
  rw [matchTree, hempty, if_neg Bool.false_ne_true] at h
  obtain ⟨t, htree, h⟩ := exists_of_run_bind_eq_ok h
  exact ⟨t, eq_ok_of_askOracle htree, h⟩

/-- What has happened when the assertions of a file are matched without an error. -/
lemma exists_parts_of_matchAssertions {o : Oracle Id} {file : String} {index : LineIndex}
    {s : AssertionSet} {r : MatchResult}
    (h : (matchAssertions o file index s).run = Except.ok r) :
    ∃ ds, o.diagnostics file = Except.ok ds ∧
      ((s.isEmpty = true ∧ r = { unexpected := ds }) ∨
        (s.isEmpty = false ∧ ∃ d t, matchDiagnostics index s ds = .ok d ∧
          (matchTree o file index s.types).run = Except.ok t ∧ r = .ofParts s d t)) := by
  obtain ⟨ds, hds, h⟩ := exists_of_run_bind_eq_ok h
  refine ⟨ds, eq_ok_of_askOracle hds, ?_⟩
  cases hempty : s.isEmpty with
  | true =>
    rw [if_pos hempty] at h
    exact .inl ⟨rfl, (Except.ok.inj h).symm⟩
  | false =>
    rw [if_neg (Bool.eq_false_iff.mp hempty)] at h
    obtain ⟨d, hd, h⟩ := exists_of_run_bind_eq_ok h
    obtain ⟨t, ht, h⟩ := exists_of_run_bind_eq_ok h
    exact .inr ⟨rfl, d, t, eq_ok_of_lookupIn hd, ht, (Except.ok.inj h).symm⟩

/-- The line index of a source file. -/
abbrev SourceFile.lineIndex (f : SourceFile) : LineIndex := LineIndex.ofText f.text.toList

/-- What has happened when a file is checked without an error. -/
lemma exists_result_of_checkFile {o : Oracle Id} {f : SourceFile} {fs : List Failure}
    (h : (checkFile o f).run = Except.ok fs) :
    ∃ r, (matchAssertions o f.name f.lineIndex f.assertions).run = Except.ok r ∧
      r.failures f.name f.lineIndex o.version = .ok fs := by
  obtain ⟨r, hr, h⟩ := exists_of_run_bind_eq_ok h
  exact ⟨r, hr, eq_ok_of_lookupIn h⟩

end InlineExpect
