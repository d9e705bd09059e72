import Mathlib
import InlineExpect.Proofs.Matching.Pass
import InlineExpect.Proofs.Matching.StableSort

/-!
# Reports in any order

An engine may report the diagnostics of a file in any order, and mix them with reports about the
emission of code.  A check filters and sorts them, goes through them once, renders what is left and
sorts again, and it stops at the first diagnostic that is located behind the text.  What comes out
depends on the order all the same only within the diagnostics at one position
(`Engine.checkFile_sameUpToOrder`).

Two checks are compared step by step, each step with results that the next one cannot tell apart
(`SameOutcome`).  The step that stops is the same, since the sorted diagnostics are located at the
same offsets one by one, and those without a span count as located at the start of the text.
-/

namespace InlineExpect

/-! ### Outcomes up to a relation of results -/

section SameOutcome

variable {ε α β : Type}

/-- Two outcomes are the same error, or results that are related. -/
inductive SameOutcome (R : α → α → Prop) : Except ε α → Except ε α → Prop
  | error (e : ε) : SameOutcome R (.error e) (.error e)
  | ok {a b : α} (h : R a b) : SameOutcome R (.ok a) (.ok b)

namespace SameOutcome

variable {R : α → α → Prop} {S : β → β → Prop} {x y : Except ε α}

/-- The same outcome is related to itself if each result is. -/
lemma refl (h : ∀ a, R a a) (x : Except ε α) : SameOutcome R x x := by
  cases x with
  | error e => exact .error e
  | ok a => exact .ok (h a)

/-- Outcomes with equal results are equal. -/
lemma eq (h : SameOutcome Eq x y) : x = y := by
  cases h with
  | error e => rfl
  | ok h => exact congrArg Except.ok h

/-- Outcomes that are related in two ways are related in both. -/
lemma and {R' : α → α → Prop} (hxy : SameOutcome R x y) (hxy' : SameOutcome R' x y) :
    SameOutcome (fun a b => R a b ∧ R' a b) x y := by
  cases hxy with
  | error e => exact .error e
  | ok h =>
    cases hxy' with
    | ok h' => exact .ok ⟨h, h'⟩

/-- Related outcomes go on to related outcomes. -/
lemma bind {f g : α → Except ε β} (hxy : SameOutcome R x y)
    (h : ∀ a b, R a b → SameOutcome S (f a) (g b)) : SameOutcome S (x >>= f) (y >>= g) := by
  cases hxy with
  | error e => exact .error e
  | ok hab => exact h _ _ hab

/-- What is made of related results is related. -/
lemma map {f g : α → β} (hxy : SameOutcome R x y) (h : ∀ a b, R a b → S (f a) (g b)) :
    SameOutcome S (x.map f) (y.map g) := by
  cases hxy with
  | error e => exact .error e
  | ok hab => exact .ok (h _ _ hab)

/-- Errors that are put in other words are the same errors. -/
lemma mapError {ε' : Type} (hxy : SameOutcome R x y) (f : ε → ε') :
    SameOutcome R (x.mapError f) (y.mapError f) := by
  cases hxy with
  | error e => exact .error (f e)
  | ok hab => exact .ok hab

/-- Related matches go on to related matches. -/
lemma run_bind {x y : ExceptT MatchError Id α} {f g : α → ExceptT MatchError Id β}
    (hxy : SameOutcome R x.run y.run) (h : ∀ a b, R a b → SameOutcome S (f a).run (g b).run) :
    SameOutcome S (x >>= f).run (y >>= g).run := by
  have hrun : ∀ {x : ExceptT MatchError Id α} {f : α → ExceptT MatchError Id β},
      (x >>= f).run = Except.bind x.run fun a => (f a).run := by
    intro x f
    rw [ExceptT.run_bind]
    cases x.run <;> rfl
  rw [hrun, hrun]
  exact hxy.bind h

end SameOutcome

end SameOutcome

/-- Questions that are all answered are answered alike in another order. -/
lemma perm_of_mapM_eq_ok {ε α β : Type} {f : α → Except ε β} {xs ys : List α} {us vs : List β}
    (h : xs.Perm ys) (hus : xs.mapM f = .ok us) (hvs : ys.mapM f = .ok vs) : us.Perm vs := by
  have hok : Function.Injective (Except.ok : β → Except ε β) := fun _ _ => Except.ok.inj
  refine (List.map_perm_map_iff hok).mp ?_
  rw [← mapM_eq_ok_iff.mp hus, ← mapM_eq_ok_iff.mp hvs]
  exact h.map f

/-! ### The first diagnostic behind the text -/

namespace Diagnostic

variable {size : Nat} {d : Diagnostic} {ds : List Diagnostic}

/-- A diagnostic that is not located at all starts in every text. -/
lemma startsWithin_iff : d.StartsWithin size ↔ d.start ≤ size := by
  unfold StartsWithin start
  cases d.span with
  | none => exact iff_of_true nofun (Nat.zero_le _)
  | some span => exact ⟨fun h => h span rfl, fun h s hs => Option.some.inj hs ▸ h⟩

/-- The offset of the first diagnostic that is located behind a text. -/
def firstOutside (size : Nat) (ds : List Diagnostic) : Option Nat :=
  (ds.map start).find? fun pos => size < pos

/-- If no diagnostic is located behind a text, they are all located in it. -/
lemma startsWithin_of_firstOutside_eq_none (h : firstOutside size ds = none) :
    ∀ d ∈ ds, d.StartsWithin size := by
  intro d hd
  have hpos := List.find?_eq_none.mp h d.start (List.mem_map_of_mem hd)
  rw [decide_eq_true_eq, not_lt] at hpos
  exact startsWithin_iff.mpr hpos

/-- The first diagnostic is located behind the text, or else a later one is. -/
lemma firstOutside_cons_eq_some {pos : Nat} (h : firstOutside size (d :: ds) = some pos) :
    (size < d.start ∧ d.start = pos) ∨ (d.StartsWithin size ∧ firstOutside size ds = some pos) := by
  by_cases hd : size < d.start
  · rw [firstOutside, List.map_cons, List.find?_cons_of_pos (by simpa using hd)] at h
    exact .inl ⟨hd, Option.some.inj h⟩
  · rw [firstOutside, List.map_cons, List.find?_cons_of_neg (by simpa using hd)] at h
    exact .inr ⟨startsWithin_iff.mpr (not_lt.mp hd), h⟩

/-- A diagnostic behind a text has a span that starts there. -/
lemma exists_span_of_lt_start (h : size < d.start) :
    ∃ span, d.span = some span ∧ span.start = d.start := by
  unfold start at h ⊢
  cases hspan : d.span with
  | none =>
    rw [hspan] at h
    exact absurd h (Nat.not_lt_zero _)
  | some span => exact ⟨span, rfl, rfl⟩

end Diagnostic

section Outside

variable {index : LineIndex} {s : AssertionSet} {ds : List Diagnostic} {pos : Nat}

/-- Diagnostics are matched up to the first one that is located behind the text. -/
lemma matchDiagnostics_of_firstOutside (h : Diagnostic.firstOutside index.size ds = some pos) :
    matchDiagnostics index s ds = .error (.offset pos index.size) := by
  induction ds with
  | nil => cases h
  | cons d ds ih =>
    rcases Diagnostic.firstOutside_cons_eq_some h with ⟨hlt, rfl⟩ | ⟨hd, hds⟩
    · obtain ⟨span, hspan, hstart⟩ := Diagnostic.exists_span_of_lt_start hlt
      have herror := (index.lineOf_eq_error_iff span.start _).mpr ⟨hstart ▸ hlt, rfl⟩
      simp only [matchDiagnostics, hspan, herror]
      rw [hstart]
      rfl
    · have ih := ih hds
      cases hspan : d.span with
      | none =>
        simp only [matchDiagnostics, hspan, ih]
        rfl
      | some span =>
        obtain ⟨line, hl⟩ := LineIndex.exists_lineOf (hd span hspan)
        simp only [matchDiagnostics, hspan, hl, ih]
        rfl

/-- Diagnostics are rendered up to the first one that is located behind the text. -/
lemma mapM_diagnosticFailure_of_firstOutside (file : String) (version : Version)
    (h : Diagnostic.firstOutside index.size ds = some pos) :
    ds.mapM (MatchResult.diagnosticFailure file index version) =
      .error (.offset pos index.size) := by
  induction ds with
  | nil => cases h
  | cons d ds ih =>
    rw [List.mapM_cons]
    rcases Diagnostic.firstOutside_cons_eq_some h with ⟨hlt, rfl⟩ | ⟨hd, hds⟩
    · obtain ⟨span, hspan, hstart⟩ := Diagnostic.exists_span_of_lt_start hlt
      have herror := (index.lineOf_eq_error_iff span.start _).mpr ⟨hstart ▸ hlt, rfl⟩
      rw [MatchResult.diagnosticFailure, hspan, Option.getD_some, MatchResult.spanFailure,
        LineIndex.positionOf, herror, hstart]
      rfl
    · obtain ⟨g, hg⟩ := MatchResult.exists_diagnosticFailure_eq_ok file version hd
      rw [hg, ih hds]
      rfl

end Outside

/-! ### Diagnostics in order -/

/-- Two lists hold the same diagnostics, both in order. -/
structure Diagnostic.SameInOrder (ds₁ ds₂ : List Diagnostic) : Prop where
  perm : ds₁.Perm ds₂
  left : ds₁.Pairwise fun d e => le d e = true
  right : ds₂.Pairwise fun d e => le d e = true

namespace Diagnostic.SameInOrder

variable {ds₁ ds₂ : List Diagnostic}

/-- The pre-emission diagnostics of two lists come out the same, in order, if they go in the
same. -/
lemma preEmit (h : (ds₁.filter isPreEmit).Perm (ds₂.filter isPreEmit)) :
    SameInOrder (Diagnostic.preEmit ds₁) (Diagnostic.preEmit ds₂) where
  perm := (sort_perm _).trans (h.trans (sort_perm _).symm)
  left := List.pairwise_mergeSort ordersBy_position.trans ordersBy_position.total _
  right := List.pairwise_mergeSort ordersBy_position.trans ordersBy_position.total _

/-- A part of the same diagnostics is the same diagnostics. -/
lemma filter (h : SameInOrder ds₁ ds₂) (p : Diagnostic → Bool) :
    SameInOrder (ds₁.filter p) (ds₂.filter p) :=
  ⟨h.perm.filter p, h.left.filter p, h.right.filter p⟩

/-- The same diagnostics in order are located at the same offsets, one by one. -/
lemma firstOutside_eq (h : SameInOrder ds₁ ds₂) (size : Nat) :
    firstOutside size ds₁ = firstOutside size ds₂ := by
  have hstart : ∀ ds : List Diagnostic, ds.map start = (ds.map position).map Prod.snd := by
    intro ds
    rw [List.map_map]
    rfl
  have hpositions := ordersBy_position.map_key_eq h.perm h.left h.right
  rw [firstOutside, firstOutside, hstart, hstart, hpositions]

end Diagnostic.SameInOrder

/-! ### Steps of a check -/

/-- Results of matching diagnostics that differ at most in the order. -/
structure DiagnosticMatch.Same (r₁ r₂ : DiagnosticMatch) : Prop where
  mem_seenLines_iff : ∀ line, line ∈ r₁.seenLines ↔ line ∈ r₂.seenLines
  unexpected : Diagnostic.SameInOrder r₁.unexpected r₂.unexpected

/-- Results of a match that differ at most in the order of the unexpected diagnostics. -/
structure MatchResult.Same (r₁ r₂ : MatchResult) : Prop where
  mismatches_eq : r₁.mismatches = r₂.mismatches
  unusedLines_eq : r₁.unusedLines = r₂.unusedLines
  unseenErrorLines_eq : r₁.unseenErrorLines = r₂.unseenErrorLines
  duplicates_eq : r₁.duplicates = r₂.duplicates
  unexpected : Diagnostic.SameInOrder r₁.unexpected r₂.unexpected

/-- Failures that differ at most in the order of those with the same line, column and kind. -/
structure Failure.Same (fs₁ fs₂ : List Failure) : Prop where
  perm : fs₁.Perm fs₂
  map_key_eq : fs₁.map key = fs₂.map key

section Steps

variable {index : LineIndex} {s : AssertionSet} {ds₁ ds₂ : List Diagnostic}

/-- The same diagnostics in order are matched alike. -/
lemma Diagnostic.SameInOrder.matchDiagnostics (h : SameInOrder ds₁ ds₂) :
    SameOutcome DiagnosticMatch.Same (matchDiagnostics index s ds₁)
      (InlineExpect.matchDiagnostics index s ds₂) := by
  have hfirst := h.firstOutside_eq index.size
  cases h₁ : firstOutside index.size ds₁ with
  | some pos =>
    rw [matchDiagnostics_of_firstOutside h₁, matchDiagnostics_of_firstOutside (hfirst ▸ h₁)]
    exact .error _
  | none =>
    rw [matchDiagnostics_eq_ok (startsWithin_of_firstOutside_eq_none h₁),
      matchDiagnostics_eq_ok (startsWithin_of_firstOutside_eq_none (hfirst ▸ h₁))]
    exact .ok ⟨fun line => ((h.perm.filterMap _).filter _).mem_iff, h.filter _⟩

/-- Results that differ at most in the order make match results that do so too. -/
lemma DiagnosticMatch.Same.ofParts {r₁ r₂ : DiagnosticMatch} (h : r₁.Same r₂) (s : AssertionSet)
    (t : TypeMatch) : (MatchResult.ofParts s r₁ t).Same (.ofParts s r₂ t) where
  mismatches_eq := rfl
  unusedLines_eq := rfl
  unseenErrorLines_eq := by
    refine List.filter_congr fun line _ => congrArg (!·) ?_
    rw [Bool.eq_iff_iff, List.contains_iff_mem, List.contains_iff_mem, h.mem_seenLines_iff]
  duplicates_eq := rfl
  unexpected := h.unexpected

/-- The same diagnostics in order are rendered alike. -/
lemma Diagnostic.SameInOrder.mapM_diagnosticFailure (h : SameInOrder ds₁ ds₂) (file : String)
    (version : Version) :
    SameOutcome List.Perm (ds₁.mapM (MatchResult.diagnosticFailure file index version))
      (ds₂.mapM (MatchResult.diagnosticFailure file index version)) := by
  have hfirst := h.firstOutside_eq index.size
  cases h₁ : firstOutside index.size ds₁ with
  | some pos =>
    rw [mapM_diagnosticFailure_of_firstOutside file version h₁,
      mapM_diagnosticFailure_of_firstOutside file version (hfirst ▸ h₁)]
    exact .error _
  | none =>
    have hok : ∀ {ds : List Diagnostic}, firstOutside index.size ds = none →
        ∃ gs, ds.mapM (MatchResult.diagnosticFailure file index version) = .ok gs := by
      intro ds hds
      obtain ⟨gs, hgs, -⟩ := exists_mapM_eq_ok fun d hd =>
        MatchResult.exists_diagnosticFailure_eq_ok file version
          (startsWithin_of_firstOutside_eq_none hds d hd)
      exact ⟨gs, hgs⟩
    obtain ⟨us, hus⟩ := hok h₁
    obtain ⟨vs, hvs⟩ := hok (hfirst ▸ h₁)
    rw [hus, hvs]
    exact .ok (perm_of_mapM_eq_ok h.perm hus hvs)

/-- Failures are sorted alike in whatever order they come. -/
lemma Failure.same_sort {fs₁ fs₂ : List Failure} (h : fs₁.Perm fs₂) :
    Same (sort fs₁) (sort fs₂) where
  perm := (List.mergeSort_perm fs₁ le).trans (h.trans (List.mergeSort_perm fs₂ le).symm)
  map_key_eq := ordersBy_key.map_key_mergeSort h

/-- Match results that differ at most in the order of the unexpected diagnostics are rendered
alike. -/
lemma MatchResult.Same.failures {r₁ r₂ : MatchResult} (h : r₁.Same r₂) (file : String)
    (index : LineIndex) (version : Version) :
    SameOutcome Failure.Same (r₁.failures file index version) (r₂.failures file index version) := by
  have hkinds : SameOutcome List.Perm (r₁.failuresByKind file index version)
      (r₂.failuresByKind file index version) := by
    unfold failuresByKind
    rw [h.mismatches_eq, h.unusedLines_eq, h.unseenErrorLines_eq, h.duplicates_eq]
    refine SameOutcome.bind (SameOutcome.refl (R := Eq) (fun _ => rfl) _) ?_
    rintro mismatches _ rfl
    refine SameOutcome.bind (h.unexpected.mapM_diagnosticFailure file version) fun us vs huv => ?_
    exact .ok (huv.append_left _)
  exact hkinds.map fun _ _ => Failure.same_sort

end Steps

/-! ### The types of a file -/

section Types

variable {m : Type → Type} [Monad m] {o₁ o₂ : Oracle m} {file : String}

/-- The walk through the nodes asks an oracle only for types. -/
lemma matchTypes_congr (hversion : o₁.version = o₂.version)
    (htype : o₁.typeOf file = o₂.typeOf file) (index : LineIndex) (tree : SyntaxTree)
    (pending : List (Nat × String)) (ids : List NodeId) :
    matchTypes o₁ file index tree pending ids = matchTypes o₂ file index tree pending ids := by
  induction ids generalizing pending with
  | nil => rfl
  | cons id ids ih =>
    unfold matchTypes
    simp only [hversion, htype, ih]

/-- The comparison of types asks an oracle for nothing but the tree and types. -/
lemma matchTree_congr (hversion : o₁.version = o₂.version) (htree : o₁.tree file = o₂.tree file)
    (htype : o₁.typeOf file = o₂.typeOf file) (index : LineIndex) (types : List (Nat × String)) :
    matchTree o₁ file index types = matchTree o₂ file index types := by
  unfold matchTree
  simp only [hversion, htree, matchTypes_congr hversion htype]

end Types

/-! ### Engines that report in another order -/

namespace Engine

/-- Two engines say the same of a file, except for the order in which they report diagnostics and
for what they report about the emission of code. -/
structure SameUpToOrder (f : SourceFile) (e₁ e₂ : Engine) : Prop where
  tree_eq : e₁.tree f.name = e₂.tree f.name
  fullType_eq : ∀ node, e₁.fullType f.name node = e₂.fullType f.name node
  diagnostics : SameOutcome
    (fun ds₁ ds₂ => (ds₁.filter Diagnostic.isPreEmit).Perm (ds₂.filter Diagnostic.isPreEmit))
    (e₁.diagnostics f.name) (e₂.diagnostics f.name)

/-- Two engines report the diagnostics at each position of a file in the same order. -/
def KeepOrder (f : SourceFile) (e₁ e₂ : Engine) : Prop :=
  SameOutcome
    (fun ds₁ ds₂ => ∀ p, (ds₁.filter Diagnostic.isPreEmit).filter (fun d => d.position = p) =
      (ds₂.filter Diagnostic.isPreEmit).filter fun d => d.position = p)
    (e₁.diagnostics f.name) (e₂.diagnostics f.name)

/-- The oracle that an engine is has the version that it is given. -/
@[simp] lemma version_oracle (e : Engine) (version : Version) :
    (e.oracle version).version = version := rfl

namespace SameUpToOrder

variable {f : SourceFile} {e₁ e₂ : Engine} (h : SameUpToOrder f e₁ e₂) (version : Version)
include h

/-- The types of a file are compared alike with the answers of such engines. -/
lemma matchTree_eq (index : LineIndex) (types : List (Nat × String)) :
    matchTree (e₁.oracle version) f.name index types =
      matchTree (e₂.oracle version) f.name index types := by
  have htree : (e₁.oracle version).tree f.name = (e₂.oracle version).tree f.name := h.tree_eq
  have htype : (e₁.oracle version).typeOf f.name = (e₂.oracle version).typeOf f.name :=
    funext h.fullType_eq
  refine matchTree_congr ?_ htree htype index types
  rfl

/-- The oracles of such engines give the same diagnostics in order. -/
lemma sameInOrder : SameOutcome Diagnostic.SameInOrder ((e₁.oracle version).diagnostics f.name)
    ((e₂.oracle version).diagnostics f.name) :=
  h.diagnostics.map fun _ _ => Diagnostic.SameInOrder.preEmit

/-- The oracles of such engines give the same diagnostics if the order at each position is kept. -/
lemma diagnostics_eq (hkeep : KeepOrder f e₁ e₂) :
    (e₁.oracle version).diagnostics f.name = (e₂.oracle version).diagnostics f.name := by
  refine SameOutcome.eq ((h.diagnostics.and hkeep).map ?_)
  rintro ds₁ ds₂ ⟨hperm, hfilter⟩
  exact Diagnostic.ordersBy_position.mergeSort_eq_mergeSort hperm hfilter

/-- The assertions of a file are matched alike with the answers of such engines. -/
lemma matchAssertions (index : LineIndex) (s : AssertionSet) :
    SameOutcome MatchResult.Same (matchAssertions (e₁.oracle version) f.name index s).run
      (InlineExpect.matchAssertions (e₂.oracle version) f.name index s).run := by
  unfold InlineExpect.matchAssertions
  refine SameOutcome.run_bind ((h.sameInOrder version).mapError _) fun ds₁ ds₂ hds => ?_
  by_cases hempty : s.isEmpty = true
  · rw [if_pos hempty, if_pos hempty]
    exact .ok ⟨rfl, rfl, rfl, rfl, hds⟩
  · rw [if_neg hempty, if_neg hempty, h.matchTree_eq version]
    refine SameOutcome.run_bind (hds.matchDiagnostics.mapError _) fun r₁ r₂ hr => ?_
    refine SameOutcome.run_bind (SameOutcome.refl (R := Eq) (fun _ => rfl) _) ?_
    rintro t _ rfl
    exact .ok (hr.ofParts s t)

end SameUpToOrder

/-- If two engines say the same of a file, except for the order of what they report, the checks of
the file end with the same error, or with the same failures, which have the same lines, columns and
kinds one by one.  If the engines moreover report the diagnostics at each position in the same
order, the checks end alike. -/
theorem checkFile_sameUpToOrder {f : SourceFile} {e₁ e₂ : Engine} (h : SameUpToOrder f e₁ e₂)
    (version : Version) :
    SameOutcome Failure.Same (checkFile (e₁.oracle version) f).run
        (checkFile (e₂.oracle version) f).run ∧
      (KeepOrder f e₁ e₂ →
        (checkFile (e₁.oracle version) f).run = (checkFile (e₂.oracle version) f).run) := by
  refine ⟨?_, fun hkeep => ?_⟩
  · refine SameOutcome.run_bind (h.matchAssertions version _ _) fun r₁ r₂ hr => ?_
    exact (hr.failures f.name _ version).mapError _
  · unfold checkFile matchAssertions
    simp only [version_oracle, h.diagnostics_eq version hkeep, h.matchTree_eq version]

/-- The order at each position is kept if neighbours at different positions change places. -/
lemma filter_position_swap {d d' : Diagnostic} (h : d.position ≠ d'.position)
    (ds : List Diagnostic) (p : Option String × Nat) :
    (d :: d' :: ds).filter (fun x => x.position = p) =
      (d' :: d :: ds).filter fun x => x.position = p := by
  by_cases hd : d.position = p
  · have hd' : d'.position ≠ p := fun hd' => h (hd.trans hd'.symm)
    rw [List.filter_cons_of_pos (by simpa using hd), List.filter_cons_of_neg (by simpa using hd'),
      List.filter_cons_of_neg (by simpa using hd'), List.filter_cons_of_pos (by simpa using hd)]
  · rw [List.filter_cons_of_neg (by simpa using hd), List.filter_cons, List.filter_cons,
      List.filter_cons_of_neg (by simpa using hd)]

/-- The sample engine with other diagnostics. -/
def reporting (ds : List Diagnostic) : Engine :=
  { sampleEngine with diagnostics := fun _ => .ok ds }

/-- Two diagnostics at the start of the second line of the sample file, with one on the first line
between them. -/
def sampleReports : List Diagnostic :=
  [.located "a.ts" ⟨25, 1⟩ 2304 "unknown name", .located "a.ts" ⟨0, 1⟩ 2454 "used too early",
    .located "a.ts" ⟨25, 1⟩ 2695 "no effect"]

/-- The sample reports in another order, behind a report about the emission of code that is located
nowhere in the file. -/
def mixedReports : List Diagnostic :=
  [⟨some "a.ts", some ⟨900, 1⟩, "emission skipped", 4094, .message, .emit⟩,
    .located "a.ts" ⟨0, 1⟩ 2454 "used too early", .located "a.ts" ⟨25, 1⟩ 2304 "unknown name",
    .located "a.ts" ⟨25, 1⟩ 2695 "no effect"]

/-- The sample file is checked alike with the reports in either order. -/
theorem checkFile_mixedReports :
    SameUpToOrder sampleFile (reporting sampleReports) (reporting mixedReports) ∧
      KeepOrder sampleFile (reporting sampleReports) (reporting mixedReports) ∧
      SameOutcome Failure.Same
        (checkFile ((reporting sampleReports).oracle .next) sampleFile).run
        (checkFile ((reporting mixedReports).oracle .next) sampleFile).run ∧
      (checkFile ((reporting sampleReports).oracle .next) sampleFile).run =
        (checkFile ((reporting mixedReports).oracle .next) sampleFile).run := by
  have hsame : SameUpToOrder sampleFile (reporting sampleReports) (reporting mixedReports) :=
    ⟨rfl, fun _ => rfl, .ok (by decide)⟩
  have hkeep : KeepOrder sampleFile (reporting sampleReports) (reporting mixedReports) :=
    .ok fun p => filter_position_swap (by decide) _ p
  obtain ⟨hfailures, hrun⟩ := checkFile_sameUpToOrder hsame .next
  exact ⟨hsame, hkeep, hfailures, hrun hkeep⟩

end Engine

end InlineExpect
