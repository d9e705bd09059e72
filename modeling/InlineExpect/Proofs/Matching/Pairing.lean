import Mathlib
import InlineExpect.Proofs.Matching.Pass

/-!
# Expected types and the nodes they are paired with

The walk through a tree removes expected types while it goes on, and ends when none is left.  Each
expected type is compared with the type of one node all the same: the first one that starts on its
line.  Here the oracle keeps a log, which shows that it is asked for the types of these nodes alone,
for each of them once and in their order.
-/

namespace InlineExpect

/-! ### An oracle that keeps a log -/

/-- A question that an oracle is asked. -/
inductive Query where
  | diagnostics (file : String)
  | tree (file : String)
  | typeOf (file : String) (node : NodeId)
deriving DecidableEq, Repr

/-- An oracle that answers as before, and writes what it is asked at the end of a log. -/
def Oracle.recorded (o : Oracle Id) : Oracle (StateM (List Query)) where
  version := o.version
  tree file := do
    modify fun log => log ++ [.tree file]
    return o.tree file
  diagnostics file := do
    modify fun log => log ++ [.diagnostics file]
    return o.diagnostics file
  typeOf file node := do
    modify fun log => log ++ [.typeOf file node]
    return o.typeOf file node

/-- The result of a part of a match, and the log after it. -/
def logged {α : Type} (x : ExceptT MatchError (StateM (List Query)) α) (log : List Query) :
    Except MatchError α × List Query := x.run.run log

section Logged

variable {α β : Type} {o : Oracle Id} {file : String} {log log' : List Query}

/-- A match goes on with the result of its first part. -/
lemma logged_bind {x : ExceptT MatchError (StateM (List Query)) α}
    {f : α → ExceptT MatchError (StateM (List Query)) β} {a : α}
    (h : logged x log = (.ok a, log')) : logged (x >>= f) log = logged (f a) log' := by
  unfold logged at h ⊢
  rw [ExceptT.run_bind, StateT.run_bind]
  simp only [bind, h]

/-- The end of a match leaves the log as it is. -/
lemma logged_pure (a : α) : logged (pure a) log = (.ok a, log) := rfl

/-- A lookup leaves the log as it is. -/
lemma logged_lookupIn (version : Version) {r : Except LookupError α} {a : α} (h : r = .ok a) :
    logged (lookupIn version file r) log = (.ok a, log) := by
  rw [h]
  rfl

/-- The diagnostics of a file are asked for. -/
lemma logged_diagnostics {ds : List Diagnostic} (h : o.diagnostics file = Except.ok ds) :
    logged (askOracle o.recorded.version (o.recorded.diagnostics file)) log =
      (.ok ds, log ++ [.diagnostics file]) := by
  change (Except.mapError _ (o.diagnostics file), _) = _
  rw [h]
  rfl

/-- The tree of a file is asked for. -/
lemma logged_tree {t : SyntaxTree} (h : o.tree file = Except.ok t) :
    logged (askOracle o.recorded.version (o.recorded.tree file)) log =
      (.ok t, log ++ [.tree file]) := by
  change (Except.mapError _ (o.tree file), _) = _
  rw [h]
  rfl

/-- The type of a node is asked for. -/
lemma logged_typeOf {node : NodeId} {text : String} (h : o.typeOf file node = Except.ok text) :
    logged (askOracle o.recorded.version (o.recorded.typeOf file node)) log =
      (.ok text, log ++ [.typeOf file node]) := by
  change (Except.mapError _ (o.typeOf file node), _) = _
  rw [h]
  rfl

end Logged

/-! ### Pairings -/

/-- An expected type with its line, the node it is compared with, and the type that is found. -/
structure Pairing where
  line : Nat
  expected : String
  node : NodeId
  actual : String
deriving DecidableEq, Repr

/-- What is reported of a pairing. -/
def Pairing.mismatch? (t : SyntaxTree) (p : Pairing) : Option Mismatch :=
  if p.actual = p.expected then none
  else some ⟨t.unwrap p.node, t.span (t.unwrap p.node), p.expected, p.actual⟩

/-- The question that is asked for a pairing. -/
def Pairing.query (file : String) (t : SyntaxTree) (p : Pairing) : Query :=
  .typeOf file (t.unwrap p.node)

/-- Each expected type is paired once if its line has a first node, with this node and with the type
of the expression that the node stands for.  The pairings follow the order of their nodes. -/
structure Pairs (o : Oracle Id) (file : String) (t : SyntaxTree)
    (IsFirst : Nat → NodeId → Prop) (ids : List NodeId) (types : List (Nat × String))
    (pairs : List Pairing) : Prop where
  expected : ∀ p ∈ pairs, (p.line, p.expected) ∈ types
  first : ∀ p ∈ pairs, IsFirst p.line p.node
  actual : ∀ p ∈ pairs, o.typeOf file (t.unwrap p.node) = Except.ok p.actual
  once : ∀ q ∈ types, ∀ id, IsFirst q.1 id →
    ∃ actual, pairs.filter (·.line = q.1) = [⟨q.1, q.2, id, actual⟩]
  order : (pairs.map Pairing.node).Sublist ids

/-- A node of a walk is the first one that starts on a line. -/
def SyntaxTree.FindsFirst (t : SyntaxTree) (index : LineIndex) (ids : List NodeId) (line : Nat)
    (id : NodeId) : Prop :=
  ids.find? (t.startsOn index line) = some id

section Walking

variable {o : Oracle Id} {file : String} {index : LineIndex} {t : SyntaxTree} {id : NodeId}
  {ids : List NodeId} {pending : List (Nat × String)} {pairs : List Pairing} {line : Nat}
  {expected actual : String}

/-- A node on a line without an expected type is passed over. -/
lemma Pairs.skip (h : Pairs o file t (t.FindsFirst index ids) ids pending pairs)
    (hl : index.lineOf (t.span id).start = .ok line) (hne : ∀ q ∈ pending, q.1 ≠ line) :
    Pairs o file t (t.FindsFirst index (id :: ids)) (id :: ids) pending pairs where
  expected := h.expected
  first p hp := by
    have hfirst := find?_startsOn_cons_of_ne ids hl (hne _ (h.expected p hp))
    exact hfirst.trans (h.first p hp)
  actual := h.actual
  once q hq i hi := by
    have hfirst := find?_startsOn_cons_of_ne ids hl (hne q hq)
    exact h.once q hq i (hfirst.symm.trans hi)
  order := h.order.cons id

/-- A node on a line with an expected type is paired with it, and the line is forgotten. -/
lemma Pairs.pair (hkeys : (pending.map Prod.fst).Nodup) (hmem : (line, expected) ∈ pending)
    (h : Pairs o file t (t.FindsFirst index ids) ids (pending.filter (·.1 != line)) pairs)
    (hl : index.lineOf (t.span id).start = .ok line)
    (hactual : o.typeOf file (t.unwrap id) = Except.ok actual) :
    Pairs o file t (t.FindsFirst index (id :: ids)) (id :: ids) pending
      (⟨line, expected, id, actual⟩ :: pairs) := by
  have hfirst : t.FindsFirst index (id :: ids) line id :=
    List.find?_cons_of_pos (SyntaxTree.startsOn_iff.mpr hl)
  have hrest : ∀ p ∈ pairs, (p.line, p.expected) ∈ pending ∧ p.line ≠ line := by
    intro p hp
    obtain ⟨hp, hne⟩ := List.mem_filter.mp (h.expected p hp)
    exact ⟨hp, bne_iff_ne.mp hne⟩
  refine ⟨?_, ?_, ?_, fun q hq i hi => ?_, h.order.cons_cons id⟩
  · exact List.forall_mem_cons.mpr ⟨hmem, fun p hp => (hrest p hp).1⟩
  · refine List.forall_mem_cons.mpr ⟨hfirst, fun p hp => ?_⟩
    exact (find?_startsOn_cons_of_ne ids hl (hrest p hp).2).trans (h.first p hp)
  · exact List.forall_mem_cons.mpr ⟨hactual, h.actual⟩
  · by_cases hline : q.1 = line
    · obtain rfl : q = (line, expected) := List.inj_on_of_nodup_map hkeys hq hmem hline
      obtain rfl := Option.some.inj (hfirst.symm.trans hi)
      have hnone : pairs.filter (·.line = line) = [] := by
        refine List.filter_eq_nil_iff.mpr fun p hp => ?_
        rw [decide_eq_true_iff]
        exact (hrest p hp).2
      refine ⟨actual, ?_⟩
      rw [List.filter_cons_of_pos (by simp), hnone]
    · have hskip : (id :: ids).find? (t.startsOn index q.1) = ids.find? (t.startsOn index q.1) :=
        find?_startsOn_cons_of_ne ids hl hline
      have hmem' : q ∈ pending.filter (·.1 != line) :=
        List.mem_filter.mpr ⟨hq, bne_iff_ne.mpr hline⟩
      obtain ⟨found, hfound⟩ := h.once q hmem' i (hskip.symm.trans hi)
      refine ⟨found, ?_⟩
      rw [List.filter_cons_of_neg (by simpa using Ne.symm hline), hfound]

/-- What is reported after a pairing is reported of the pairing or of those behind it. -/
lemma mismatches_note {r : TypeMatch} (h : r.mismatches = pairs.filterMap (·.mismatch? t)) :
    (r.note (t.unwrap id) (t.span (t.unwrap id)) expected actual).mismatches =
      (⟨line, expected, id, actual⟩ :: pairs).filterMap (·.mismatch? t) := by
  unfold TypeMatch.note
  by_cases hactual : actual = expected
  · have hnone : Pairing.mismatch? t ⟨line, expected, id, actual⟩ = none := if_pos hactual
    rw [if_pos hactual, List.filterMap_cons_none hnone, h]
  · have hsome : Pairing.mismatch? t ⟨line, expected, id, actual⟩ =
        some ⟨t.unwrap id, t.span (t.unwrap id), expected, actual⟩ := if_neg hactual
    rw [if_neg hactual, List.filterMap_cons_some hsome, h]

/-- A pairing leaves the expected types that are still to be paired. -/
lemma pending_note (r : TypeMatch) (node : NodeId) (span : Span) :
    (r.note node span expected actual).pending = r.pending := by
  unfold TypeMatch.note
  split <;> rfl

/-- A line with an expected type takes one away when it is forgotten. -/
lemma length_filter_line_ne (hkeys : (pending.map Prod.fst).Nodup)
    (hmem : (line, expected) ∈ pending) :
    (pending.filter (·.1 != line)).length + 1 = pending.length := by
  have hother : pending.filter (·.1 != line) = pending.filter (· != (line, expected)) := by
    refine List.filter_congr fun q hq => Bool.eq_iff_iff.mpr ?_
    rw [bne_iff_ne, bne_iff_ne]
    exact not_congr ⟨fun hline => List.inj_on_of_nodup_map hkeys hq hmem hline, congrArg Prod.fst⟩
  rw [hother, ← (hkeys.of_map _).erase_eq_filter, List.length_erase_of_mem hmem]
  exact Nat.sub_add_cancel (List.length_pos_of_mem hmem)

/-- The expected types on whose lines a walk finds no node. -/
def SyntaxTree.unfound (t : SyntaxTree) (index : LineIndex) (ids : List NodeId)
    (types : List (Nat × String)) : List (Nat × String) :=
  types.filter fun q => (ids.find? (t.startsOn index q.1)).isNone

/-- A node at the beginning of a walk takes the expected types of its line away. -/
lemma unfound_cons (hl : index.lineOf (t.span id).start = .ok line) :
    t.unfound index (id :: ids) pending = t.unfound index ids (pending.filter (·.1 != line)) := by
  unfold SyntaxTree.unfound
  rw [List.filter_filter]
  refine List.filter_congr fun q _ => ?_
  by_cases hline : q.1 = line
  · have hfirst : (id :: ids).find? (t.startsOn index q.1) = some id :=
      List.find?_cons_of_pos (SyntaxTree.startsOn_iff.mpr (hline ▸ hl))
    rw [hfirst, bne_eq_false_iff_eq.mpr hline, Bool.and_false]
    rfl
  · rw [find?_startsOn_cons_of_ne ids hl hline, bne_iff_ne.mpr hline, Bool.and_true]

/-- What a walk that ends without an error reports and asks. -/
lemma exists_pairs_of_matchTypes (hkeys : (pending.map Prod.fst).Nodup) {r : TypeMatch}
    (h : (matchTypes o file index t pending ids).run = Except.ok r) :
    ∃ pairs, Pairs o file t (t.FindsFirst index ids) ids pending pairs ∧
      r.mismatches = pairs.filterMap (·.mismatch? t) ∧
      r.pending = t.unfound index ids pending ∧
      pairs.length + r.pending.length = pending.length ∧
      ∀ log, logged (matchTypes o.recorded file index t pending ids) log =
        (.ok r, log ++ pairs.map (·.query file t)) := by
  induction ids generalizing pending r with
  | nil =>
    obtain rfl : { pending } = r := Except.ok.inj h
    refine ⟨[], ⟨by simp, by simp, by simp, fun _ _ _ hid => ?_, .slnil⟩, rfl, ?_, ?_, ?_⟩
    · cases hid
    · simp [SyntaxTree.unfound]
    · simp
    · intro log
      rw [List.map_nil, List.append_nil]
      rfl
  | cons id ids ih =>
    by_cases hnil : pending = []
    · subst hnil
      obtain rfl : {} = r := Except.ok.inj h
      refine ⟨[], ⟨by simp, by simp, by simp, by simp, List.nil_sublist _⟩, rfl, rfl, rfl, ?_⟩
      intro log
      rw [List.map_nil, List.append_nil]
      rfl
    have hempty : pending.isEmpty = false := by simpa using hnil
    rw [matchTypes, hempty, if_neg Bool.false_ne_true] at h
    obtain ⟨line, hl, h⟩ := exists_of_run_bind_eq_ok h
    have hl := eq_ok_of_lookupIn hl
    cases hlookup : pending.lookup line with
    | none =>
      -- No type is expected on the line of this node.
      have hne : ∀ q ∈ pending, q.1 ≠ line := fun q hq => ne_of_lookup_eq_none hlookup hq
      rw [hlookup] at h
      obtain ⟨pairs, hpairs, hm, hp, hlen, hlog⟩ := ih hkeys h
      refine ⟨pairs, hpairs.skip hl hne, hm, ?_, hlen, fun log => ?_⟩
      · rw [hp, unfound_cons hl, filter_line_ne_eq_self hlookup]
      · rw [matchTypes, hempty, if_neg Bool.false_ne_true, logged_bind (logged_lookupIn _ hl),
          hlookup]
        exact hlog log
    | some expected =>
      -- This is the first node on its line, and the walk forgets the line.
      have hmem : (line, expected) ∈ pending := mem_of_lookup_eq_some hlookup
      rw [hlookup] at h
      obtain ⟨actual, hactual, h⟩ := exists_of_run_bind_eq_ok h
      obtain ⟨rest, hrest, h⟩ := exists_of_run_bind_eq_ok h
      have hactual := eq_ok_of_askOracle hactual
      obtain rfl := Except.ok.inj h
      obtain ⟨pairs, hpairs, hm, hp, hlen, hlog⟩ :=
        ih (hkeys.sublist (List.filter_sublist.map Prod.fst)) hrest
      refine ⟨⟨line, expected, id, actual⟩ :: pairs, hpairs.pair hkeys hmem hl hactual,
        mismatches_note hm, ?_, ?_, fun log => ?_⟩
      · rw [pending_note, hp, unfound_cons hl]
      · have hone := length_filter_line_ne hkeys hmem
        rw [pending_note, List.length_cons]
        omega
      · rw [matchTypes, hempty, if_neg Bool.false_ne_true, logged_bind (logged_lookupIn _ hl),
          hlookup]
        dsimp only
        rw [logged_bind (logged_typeOf hactual), logged_bind (hlog _), List.append_assoc]
        rfl

end Walking

/-! ### Pairings in a tree -/

section Trees

variable {o : Oracle Id} {file : String} {index : LineIndex} {t : SyntaxTree}

/-- No node but the root starts on a line. -/
def SyntaxTree.Skips (t : SyntaxTree) (index : LineIndex) (line : Nat) : Prop :=
  ∀ id < t.size, id ≠ root → index.lineOf (t.span id).start ≠ .ok line

instance (t : SyntaxTree) (index : LineIndex) : DecidablePred (t.Skips index) := fun line =>
  inferInstanceAs (Decidable (∀ id < t.size, id ≠ SyntaxTree.root →
    index.lineOf (t.span id).start ≠ .ok line))

/-- The walk through a built tree finds no node on a line that the tree skips. -/
lemma SyntaxTree.isNone_find?_iff (ht : t.Built) {line : Nat} :
    (t.preorder.tail.find? (t.startsOn index line)).isNone = true ↔ t.Skips index line := by
  rw [Option.isNone_iff_eq_none, List.find?_eq_none, preorder_eq_range ht, List.tail_range]
  unfold Skips
  refine forall_congr' fun id => ?_
  rw [List.mem_range'_1, startsOn_iff, ne_root_iff]
  constructor
  · intro h hlt hpos
    exact h ⟨hpos, by omega⟩
  · rintro h ⟨hpos, hlt⟩
    exact h (by omega) hpos

/-- A line that a built tree does not skip has a first node. -/
lemma SyntaxTree.exists_isFirstOn (ht : t.Built) {line : Nat} (h : ¬ t.Skips index line) :
    ∃ id, t.IsFirstOn index line id := by
  cases hfind : t.preorder.tail.find? (t.startsOn index line) with
  | none => exact absurd ((isNone_find?_iff ht).mp (hfind ▸ rfl)) h
  | some id => exact ⟨id, (find?_startsOn_eq_some_iff ht).mp hfind⟩

/-- Pairings report a mismatch or agree. -/
lemma length_filterMap_mismatch? (t : SyntaxTree) (pairs : List Pairing) :
    (pairs.filterMap (·.mismatch? t)).length +
      (pairs.filter fun p => p.actual = p.expected).length = pairs.length := by
  induction pairs with
  | nil => rfl
  | cons p pairs ih =>
    by_cases h : p.actual = p.expected
    · have hnone : p.mismatch? t = none := if_pos h
      rw [List.filterMap_cons_none hnone, List.filter_cons_of_pos (by simpa using h),
        List.length_cons, List.length_cons, ← Nat.add_assoc]
      exact congrArg (· + 1) ih
    · have hsome : p.mismatch? t =
          some ⟨t.unwrap p.node, t.span (t.unwrap p.node), p.expected, p.actual⟩ := if_neg h
      rw [List.filterMap_cons_some hsome, List.filter_cons_of_neg (by simpa using h),
        List.length_cons, List.length_cons, Nat.add_right_comm]
      exact congrArg (· + 1) ih

/-- What the comparison of expected types reports and asks in any tree, if there are any. -/
lemma exists_findsFirst_of_matchTree {types : List (Nat × String)} {r : TypeMatch}
    (hne : types ≠ []) (hkeys : (types.map Prod.fst).Nodup)
    (h : (matchTree o file index types).run = Except.ok r) :
    ∃ t pairs, o.tree file = Except.ok t ∧
      Pairs o file t (t.FindsFirst index t.preorder.tail) t.preorder.tail types pairs ∧
      r.mismatches = pairs.filterMap (·.mismatch? t) ∧
      r.pending = t.unfound index t.preorder.tail types ∧
      pairs.length + r.pending.length = types.length ∧
      ∀ log, logged (matchTree o.recorded file index types) log =
        (.ok r, log ++ .tree file :: pairs.map (·.query file t)) := by
  have hempty : types.isEmpty = false := by simpa using hne
  obtain ⟨t, htree, h⟩ := exists_walk_of_matchTree hne h
  obtain ⟨pairs, hpairs, hm, hp, hlen, hlog⟩ := exists_pairs_of_matchTypes hkeys h
  refine ⟨t, pairs, htree, hpairs, hm, hp, hlen, fun log => ?_⟩
  rw [matchTree, hempty, if_neg Bool.false_ne_true, logged_bind (logged_tree htree), hlog,
    List.append_assoc]
  rfl

/-- What the comparison of expected types reports and asks in a built tree, if there are any. -/
lemma exists_pairs_of_matchTree {types : List (Nat × String)} {r : TypeMatch} (hne : types ≠ [])
    (hkeys : (types.map Prod.fst).Nodup) (hbuilt : ∀ t, o.tree file = Except.ok t → t.Built)
    (h : (matchTree o file index types).run = Except.ok r) :
    ∃ t pairs, o.tree file = Except.ok t ∧
      Pairs o file t (t.IsFirstOn index) t.preorder types pairs ∧
      r.mismatches = pairs.filterMap (·.mismatch? t) ∧
      r.pending.map Prod.fst = (types.map Prod.fst).filter (t.Skips index ·) ∧
      r.mismatches.length + (pairs.filter fun p => p.actual = p.expected).length +
        r.pending.length = types.length ∧
      ∀ log, logged (matchTree o.recorded file index types) log =
        (.ok r, log ++ .tree file :: pairs.map (·.query file t)) := by
  obtain ⟨t, pairs, htree, hpairs, hm, hp, hlen, hlog⟩ :=
    exists_findsFirst_of_matchTree hne hkeys h
  have ht := hbuilt t htree
  have hfirst : t.FindsFirst index t.preorder.tail = t.IsFirstOn index := by
    funext line id
    exact propext (SyntaxTree.find?_startsOn_eq_some_iff ht)
  rw [hfirst] at hpairs
  refine ⟨t, pairs, htree, ?_, hm, ?_, ?_, hlog⟩
  · exact { hpairs with order := hpairs.order.trans (List.tail_sublist _) }
  · rw [hp, SyntaxTree.unfound, List.filter_map]
    refine congrArg (List.map Prod.fst) (List.filter_congr fun q _ => Bool.eq_iff_iff.mpr ?_)
    rw [SyntaxTree.isNone_find?_iff ht, Function.comp_apply, decide_eq_true_iff]
  · rw [hm, length_filterMap_mismatch?, hlen]

/-- When the assertions of a file are matched without an error, each expected type is paired with
the first node on its line or reported as unused if there is none, the mismatches are those of the
pairings, in the order of the nodes, and the oracle is asked for the types of these nodes alone.
Without an expected type it is not even asked for the tree. -/
theorem matchAssertions_pairs (o : Oracle Id) (file : String) (index : LineIndex) (s : AssertionSet)
    (r : MatchResult) (hkeys : (s.types.map Prod.fst).Nodup)
    (hbuilt : ∀ t, o.tree file = Except.ok t → t.Built)
    (h : (matchAssertions o file index s).run = Except.ok r) :
    ∃ queries,
      (∀ log, logged (matchAssertions o.recorded file index s) log =
        (.ok r, log ++ .diagnostics file :: queries)) ∧
      if s.types = [] then r.mismatches = [] ∧ r.unusedLines = [] ∧ queries = []
      else ∃ t pairs, o.tree file = Except.ok t ∧
        Pairs o file t (t.IsFirstOn index) t.preorder s.types pairs ∧
        r.mismatches = pairs.filterMap (·.mismatch? t) ∧
        r.unusedLines = (s.types.map Prod.fst).filter (t.Skips index ·) ∧
        (∀ q ∈ s.types, q.1 ∉ r.unusedLines → ∃ id, t.IsFirstOn index q.1 id) ∧
        queries = .tree file :: pairs.map (·.query file t) ∧
        r.mismatches.length + (pairs.filter fun p => p.actual = p.expected).length +
          r.unusedLines.length = s.types.length := by
  obtain ⟨ds, hds, ⟨hempty, rfl⟩ | ⟨hempty, d, m, hd, hm, rfl⟩⟩ :=
    exists_parts_of_matchAssertions h
  · have htypes : s.types = [] := by
      unfold AssertionSet.isEmpty at hempty
      simp_all
    refine ⟨[], fun log => ?_, ?_⟩
    · rw [matchAssertions, logged_bind (logged_diagnostics hds), if_pos hempty]
      rfl
    · rw [if_pos htypes]
      exact ⟨rfl, rfl, rfl⟩
  -- The log of the comparison of types is that of the whole match, behind the first question.
  have hlogged : ∀ {queries : List Query},
      (∀ log, logged (matchTree o.recorded file index s.types) log = (.ok m, log ++ queries)) →
      ∀ log, logged (matchAssertions o.recorded file index s) log =
        (.ok (.ofParts s d m), log ++ .diagnostics file :: queries) := by
    intro queries hlog log
    rw [matchAssertions, logged_bind (logged_diagnostics hds),
      if_neg (Bool.eq_false_iff.mp hempty), logged_bind (logged_lookupIn _ hd),
      logged_bind (hlog _), logged_pure, List.append_assoc]
    rfl
  by_cases hnil : s.types = []
  · rw [hnil] at hm
    obtain rfl : {} = m := Except.ok.inj hm
    refine ⟨[], hlogged fun log => ?_, ?_⟩
    · rw [hnil, List.append_nil]
      rfl
    · rw [if_pos hnil]
      exact ⟨rfl, rfl, rfl⟩
  · obtain ⟨t, pairs, htree, hpairs, hmis, hunused, hcount, hlog⟩ :=
      exists_pairs_of_matchTree hnil hkeys hbuilt hm
    refine ⟨_, hlogged hlog, ?_⟩
    rw [if_neg hnil]
    refine ⟨t, pairs, htree, hpairs, hmis, hunused, fun q hq hused => ?_, rfl, ?_⟩
    · refine SyntaxTree.exists_isFirstOn (hbuilt t htree) fun hskips => hused ?_
      rw [MatchResult.ofParts, hunused, List.mem_filter, decide_eq_true_iff]
      exact ⟨List.mem_map_of_mem hq, hskips⟩
    · rw [← hcount, MatchResult.ofParts, List.length_map]

end Trees

/-- Expected types for the lines of the sample file, of which one is wrong, and for the line behind
them. -/
def sampleTypes : AssertionSet where
  types := [(0, "number"), (1, "string"), (2, "boolean")]

/-- What does not match of the sample types: the second type, the third line, and the diagnostic. -/
def sampleTypesResult : MatchResult where
  mismatches := [⟨4, ⟨25, 1⟩, "string", "any"⟩]
  unusedLines := [2]
  unexpected := [.located "a.ts" ⟨25, 1⟩ 2304 "unknown name"]

/-- The sample types are matched without an error, and the oracle is asked for two of them. -/
theorem matchAssertions_sampleTypes :
    (matchAssertions (Engine.sampleEngine.oracle .next) "a.ts" ⟨#[0, 25, 44], 44⟩ sampleTypes).run =
      Except.ok sampleTypesResult ∧
    (sampleTypes.types.map Prod.fst).Nodup ∧
    (∀ t, (Engine.sampleEngine.oracle .next).tree "a.ts" = Except.ok t → t.Built) ∧
    ∃ queries,
      (∀ log, logged (matchAssertions (Engine.sampleEngine.oracle .next).recorded "a.ts"
        ⟨#[0, 25, 44], 44⟩ sampleTypes) log =
          (.ok sampleTypesResult, log ++ .diagnostics "a.ts" :: queries)) ∧
      queries.length = 3 := by
  have hrun : Id.run (matchAssertions (Engine.sampleEngine.oracle .next) "a.ts"
      ⟨#[0, 25, 44], 44⟩ sampleTypes).run = Except.ok sampleTypesResult := by decide +kernel
  have hkeys : (sampleTypes.types.map Prod.fst).Nodup := by decide
  refine ⟨hrun, hkeys, Engine.built_sampleEngine, ?_⟩
  obtain ⟨queries, hlog, h⟩ := matchAssertions_pairs (Engine.sampleEngine.oracle .next) "a.ts"
    ⟨#[0, 25, 44], 44⟩ sampleTypes _ hkeys Engine.built_sampleEngine hrun
  refine ⟨queries, hlog, ?_⟩
  rw [if_neg (by decide)] at h
  obtain ⟨t, pairs, -, -, hmis, -, -, hqueries, hcount⟩ := h
  have hsplit := length_filterMap_mismatch? t pairs
  have hone : sampleTypesResult.mismatches.length = 1 := rfl
  have hunused : sampleTypesResult.unusedLines.length = 1 := rfl
  have hthree : sampleTypes.types.length = 3 := rfl
  rw [hqueries, List.length_cons, List.length_map, ← hsplit, ← hmis]
  omega

end InlineExpect
