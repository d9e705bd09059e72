import Mathlib
import InlineExpect.Proofs.Boundary.Trace

/-!
# Exactness of a search under monotonicity

A search skips versions.  It takes those between two passing ends to pass, and those below a failing
version to fail.  Both are right where failing goes downward (`Search.FailsDownward`), and then the
outcome speaks of all versions, the skipped ones included: it passes if and only if all versions do,
and the boundary that it reports is the only place of the list where failing turns into passing
(`Search.exec_run_of_failsDownward`).
-/

namespace InlineExpect

namespace Search

/-! ### Failing that goes downward -/

/-- With a version of the list every lower one fails. -/
def FailsDownward (answers : Version → List Failure) (l : VersionList) : Prop :=
  ∀ v ∈ l.versions, ∀ w ∈ l.versions, w < v → answers v ≠ [] → answers w ≠ []

/-- Failing turns into passing between two neighbours of a list: every version up to the first one
fails, and every version from the second one on passes. -/
structure IsTransition (answers : Version → List Failure) (l : VersionList)
    (failing passing : Version) : Prop where
  failing_mem : failing ∈ l.versions
  passing_mem : passing ∈ l.versions
  fails : ∀ v ∈ l.versions, v ≤ failing → answers v ≠ []
  passes : ∀ v ∈ l.versions, passing ≤ v → answers v = []
  lt : failing < passing
  not_between : ∀ v ∈ l.versions, ¬ (failing < v ∧ v < passing)

/-- An outcome is exact if it speaks of all versions of a list, checked or not. -/
structure Exact (answers : Version → List Failure) (l : VersionList) (o : Outcome) : Prop where
  isPass_iff : o.isPass = true ↔ ∀ v ∈ l.versions, answers v = []
  transition : ∀ a b, o.lowestFailing = some a → o.highestPassing = some b →
    IsTransition answers l a b ∧ ∀ a' b', IsTransition answers l a' b' → a' = a ∧ b' = b
  all_fail : ∀ a, o.lowestFailing = some a → o.highestPassing = none →
    a = l.highest ∧ ∀ v ∈ l.versions, answers v ≠ []

variable {answers : Version → List Failure} {l : VersionList}

/-- With a version of the list every version that is not above it fails. -/
lemma FailsDownward.fails_of_le (h : FailsDownward answers l) {v w : Version}
    (hv : v ∈ l.versions) (hw : w ∈ l.versions) (hle : w ≤ v) (hfails : answers v ≠ []) :
    answers w ≠ [] := by
  rcases hle.lt_or_eq with hlt | rfl
  · exact h v hv w hw hlt hfails
  · exact hfails

/-- There is only one place where failing turns into passing. -/
lemma IsTransition.unique {a b a' b' : Version} (h : IsTransition answers l a b)
    (h' : IsTransition answers l a' b') : a' = a ∧ b' = b := by
  -- Whatever fails is below the second version, and whatever passes is above the first one.
  have key : ∀ {a b a' b' : Version}, IsTransition answers l a b → IsTransition answers l a' b' →
      ¬ a < a' ∧ ¬ b' < b := by
    intro a b a' b' h h'
    have hfails : answers a' ≠ [] := h'.fails a' h'.failing_mem le_rfl
    have hpasses : answers b' = [] := h'.passes b' h'.passing_mem le_rfl
    constructor
    · intro hlt
      have hle : b ≤ a' := not_lt.mp fun hb => h.not_between a' h'.failing_mem ⟨hlt, hb⟩
      exact hfails (h.passes a' h'.failing_mem hle)
    · intro hlt
      have hle : b' ≤ a := not_lt.mp fun ha => h.not_between b' h'.passing_mem ⟨ha, hlt⟩
      exact h.fails b' h'.passing_mem hle hpasses
  obtain ⟨haa', hb'b⟩ := key h h'
  obtain ⟨ha'a, hbb'⟩ := key h' h
  constructor
  · exact le_antisymm (not_lt.mp haa') (not_lt.mp ha'a)
  · exact le_antisymm (not_lt.mp hbb') (not_lt.mp hb'b)

/-- Where failing goes downward, the boundary of a search is a transition. -/
lemma BoundaryAt.isTransition (h : FailsDownward answers l) {k : Nat} {a b : Version}
    (hk : BoundaryAt answers l k a b) : IsTransition answers l a b where
  failing_mem := VersionList.mem_of_get? hk.get?_failing
  passing_mem := VersionList.mem_of_get? hk.get?_passing
  fails v hv hle := h.fails_of_le (VersionList.mem_of_get? hk.get?_failing) hv hle hk.fails
  passes v hv hle := by
    obtain ⟨i, hi⟩ := VersionList.exists_get?_of_mem hv
    have hki : k + 1 ≤ i := VersionList.index_le_of_le hk.get?_passing hi hle
    exact hk.passes i v hki hi
  lt := VersionList.lt_of_get? hk.get?_failing hk.get?_passing (Nat.lt_succ_self k)
  not_between v hv := by
    rintro ⟨hlow, hhigh⟩
    obtain ⟨i, hi⟩ := VersionList.exists_get?_of_mem hv
    have hki : k < i := VersionList.index_lt_of_lt hk.get?_failing hi hlow
    have hik : i < k + 1 := VersionList.index_lt_of_lt hi hk.get?_passing hhigh
    omega

/-- Failures with a note are as many as without. -/
lemma isPass_annotated_iff {failures : List Failure} {note : String} {a b : Option Version}
    {checked : List Version} :
    (Outcome.mk (failures.map (·.annotate note)) a b checked).isPass = true ↔ failures = [] := by
  rw [Outcome.isPass, List.isEmpty_iff, List.map_eq_nil_iff]

/-- Where failing goes downward, what a search finds is exact. -/
lemma Finds.exact (h : FailsDownward answers l) {o : Outcome} (ho : Finds answers l o) :
    Exact answers l o := by
  cases ho with
  | failsAtNewest hhigh =>
    have hall : ∀ v ∈ l.versions, answers v ≠ [] := by
      intro v hv
      rcases VersionList.eq_highest_or_lt hv with rfl | hlt
      · exact hhigh
      · exact h l.highest l.highest_mem v hv hlt hhigh
    refine ⟨?_, by simp, fun a ha _ => ⟨(Option.some.inj ha).symm, hall⟩⟩
    rw [isPass_annotated_iff]
    exact ⟨fun hpass => absurd hpass hhigh, fun hpass => hpass _ l.highest_mem⟩
  | single hhigh hlen =>
    refine ⟨⟨fun _ v hv => ?_, fun _ => rfl⟩, by simp, by simp⟩
    obtain ⟨i, hi⟩ := VersionList.exists_get?_of_mem hv
    have hlt : i < l.length := (List.getElem?_eq_some_iff.mp hi).1
    have hlast : i = l.length - 1 := by omega
    rw [hlast, l.get?_last] at hi
    exact Option.some.inj hi ▸ hhigh
  | bothEndsPass hhigh hlen hlow =>
    refine ⟨⟨fun _ v hv => ?_, fun _ => rfl⟩, by simp, by simp⟩
    rcases VersionList.eq_lowest_or_lt hv with rfl | hlt
    · exact hlow
    · by_contra hfails
      exact h v hv l.lowest l.lowest_mem hlt hfails hlow
  | boundary hlow k failing passing hk =>
    have htransition := hk.isTransition h
    refine ⟨?_, fun a b ha hb => ?_, by simp⟩
    · rw [isPass_annotated_iff]
      exact ⟨fun hpass => absurd hpass hk.fails, fun hpass => hpass _ htransition.failing_mem⟩
    · obtain rfl := Option.some.inj ha
      obtain rfl := Option.some.inj hb
      exact ⟨htransition, fun a' b' h' => htransition.unique h'⟩

/-- Where failing goes downward, a search ends with an exact outcome: it passes if and only if all
versions do, and the boundary that it reports is the only transition, although not all versions are
checked. -/
theorem exec_run_of_failsDownward (answers : Version → List Failure) (package : String)
    (l : VersionList) (s : Search) (calls : List Version) (h : FailsDownward answers l) :
    ∃ o, exec (run (recorded answers) package l) s calls =
        ((.ok o, { state := .done, checked := [] }), calls ++ o.checked) ∧
      Exact answers l o := by
  obtain ⟨o, ho, hrun⟩ := exec_run package s calls answers l
  exact ⟨o, hrun, ho.exact h⟩

/-- Four versions. -/
def sampleVersions : VersionList where
  versions := [.release 4 0, .release 4 5, .release 5 0, .next]
  ne_nil := by simp
  ascending := by decide

/-- The two lower ones of the sample versions fail. -/
def sampleAnswers (v : Version) : List Failure :=
  if v < .release 5 0 then [⟨"a.ts", ⟨0, 1⟩, 0, 0, .unmatchedAssertion, "no node"⟩] else []

/-- Failing goes downward in the sample versions, and the outcome of a search is exact. -/
theorem exec_run_sampleVersions : FailsDownward sampleAnswers sampleVersions ∧
    ∃ o, exec (run (recorded sampleAnswers) "sample" sampleVersions) {} [] =
        ((.ok o, { state := .done, checked := [] }), [] ++ o.checked) ∧
      Exact sampleAnswers sampleVersions o := by
  have hdown : FailsDownward sampleAnswers sampleVersions := by
    unfold FailsDownward
    decide
  exact ⟨hdown, exec_run_of_failsDownward sampleAnswers "sample" sampleVersions {} [] hdown⟩

end Search

end InlineExpect
