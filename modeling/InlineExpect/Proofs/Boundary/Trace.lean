import Mathlib
import InlineExpect.Boundary.Search
import InlineExpect.Proofs.Version.Order

/-!
# The trace of a search

A search is run here with a checker that knows the failures of each version and keeps a record of
the versions it is called for.  Whatever the failures are, monotonic or not, the search ends with an
outcome that `Search.Finds` describes by the indices of the versions, and calls the checker for the
versions of `Outcome.checked` in their order and for no others.

The invariant of the descent is a split of the version list: the versions above the current one are
all known to pass, and those that are still to be checked lie between it and the lowest one.
-/

namespace InlineExpect

/-! ### Ranges of versions -/

namespace VersionList

/-- The versions with indices from `lo` up to and without `hi`, from the top down. -/
def downward (l : VersionList) (lo hi : Nat) : List Version :=
  ((l.versions.take hi).drop lo).reverse

variable {l : VersionList} {lo hi i : Nat} {v : Version}

/-- A range without indices has no versions. -/
lemma downward_self (l : VersionList) (i : Nat) : l.downward i i = [] := by
  have hlen : (l.versions.take i).length ≤ i := List.length_take_le i l.versions
  rw [downward, List.drop_eq_nil_of_le hlen]
  rfl

/-- A range begins with its topmost version. -/
lemma downward_succ (hv : l.get? hi = some v) (hle : lo ≤ hi) :
    l.downward lo (hi + 1) = v :: l.downward lo hi := by
  have hlt : hi < l.versions.length := (List.getElem?_eq_some_iff.mp hv).1
  have hlo : lo ≤ (l.versions.take hi).length := by
    rw [List.length_take]
    omega
  have hlast : l.versions[hi]?.toList = [v] := by
    rw [show l.versions[hi]? = some v from hv]
    rfl
  unfold downward
  rw [List.take_add_one, hlast, List.drop_append_of_le_length hlo, List.reverse_append]
  rfl

/-- A version is in the range around its index. -/
lemma mem_downward (hv : l.get? i = some v) (hle : lo ≤ i) (hlt : i < hi) :
    v ∈ l.downward lo hi := by
  have htake : (l.versions.take hi)[i]? = some v := by
    rw [List.getElem?_take_of_lt hlt]
    exact hv
  have hdrop : ((l.versions.take hi).drop lo)[i - lo]? = some v := by
    rw [List.getElem?_drop, Nat.add_sub_cancel' hle, htake]
  exact List.mem_reverse.mpr (List.mem_of_getElem? hdrop)

/-- The versions of a list with more than one version: the ends and what lies between them. -/
lemma versions_eq (hlen : 1 < l.length) :
    l.versions = l.lowest :: (l.versions.tail.dropLast ++ [l.highest]) := by
  have htail : l.versions.tail ≠ [] := by
    intro h
    have hlen' : l.versions.tail.length = l.length - 1 := List.length_tail
    rw [h, List.length_nil] at hlen'
    omega
  have hlast : l.versions.tail.getLast htail = l.highest := List.getLast_tail htail
  rw [← hlast, List.dropLast_append_getLast htail]
  exact (List.cons_head_tail l.ne_nil).symm

/-- No version occurs twice among the ends and what lies between them. -/
lemma nodup_ends (hlen : 1 < l.length) (hlo : 1 ≤ lo) :
    (l.highest :: l.lowest :: l.downward lo (l.length - 1)).Nodup := by
  have hnodup : l.versions.Nodup := by
    refine l.ascending.imp fun {v w} hlt he => ?_
    rw [he] at hlt
    exact lt_irrefl w hlt
  set between := l.versions.tail.dropLast
  have hversions : l.versions = l.lowest :: between ++ [l.highest] := l.versions_eq hlen
  have htake : l.versions.take (l.length - 1) = l.lowest :: between := by
    rw [length, ← List.dropLast_eq_take]
    exact (congrArg List.dropLast hversions).trans List.dropLast_concat
  have hdown : l.downward lo (l.length - 1) = (between.drop (lo - 1)).reverse := by
    obtain ⟨j, rfl⟩ := Nat.exists_eq_add_of_le' hlo
    rw [downward, htake, List.drop_succ_cons, Nat.add_sub_cancel]
  have hsub : (l.lowest :: between.drop (lo - 1) ++ [l.highest]).Sublist l.versions := by
    rw [hversions]
    exact ((List.drop_sublist _ _).cons_cons _).append (.refl _)
  have hperm : (l.highest :: l.lowest :: (between.drop (lo - 1)).reverse).Perm
      (l.lowest :: between.drop (lo - 1) ++ [l.highest]) :=
    (((List.reverse_perm _).cons _).cons _).trans (List.perm_append_singleton _ _).symm
  rw [hdown]
  exact hperm.nodup_iff.mpr (hnodup.sublist hsub)

end VersionList

namespace Search

/-! ### What a search finds -/

/-- The boundary lies above the version with index `k`: this version fails, the next one passes, and
so do all that follow. -/
structure BoundaryAt (answers : Version → List Failure) (l : VersionList) (k : Nat)
    (failing passing : Version) : Prop where
  get?_failing : l.get? k = some failing
  get?_passing : l.get? (k + 1) = some passing
  fails : answers failing ≠ []
  passes : ∀ i v, k < i → l.get? i = some v → answers v = []

/-- The outcome that the failures of the versions lead to. -/
inductive Finds (answers : Version → List Failure) (l : VersionList) : Outcome → Prop
  | failsAtNewest (h : answers l.highest ≠ []) :
    Finds answers l
      { failures := (answers l.highest).map
          (·.annotate (Template.failsAtNewest.format [l.highest.text]))
        lowestFailing := some l.highest
        highestPassing := none
        checked := [l.highest] }
  | single (h : answers l.highest = []) (hlen : l.length = 1) :
    Finds answers l
      { failures := []
        lowestFailing := none
        highestPassing := some l.highest
        checked := [l.highest] }
  | bothEndsPass (h : answers l.highest = []) (hlen : 1 < l.length)
      (hlow : answers l.lowest = []) :
    Finds answers l
      { failures := []
        lowestFailing := none
        highestPassing := some l.highest
        checked := [l.highest, l.lowest] }
  | boundary (hlow : answers l.lowest ≠ []) (k : Nat) (failing passing : Version)
      (h : BoundaryAt answers l k failing passing) :
    Finds answers l
      { failures := (answers failing).map
          (·.annotate (Template.boundary.format [passing.text, failing.text]))
        lowestFailing := some failing
        highestPassing := some passing
        checked := l.highest :: l.lowest :: l.downward (max k 1) (l.length - 1) }

/-! ### Running a search -/

/-- A checker that knows the failures of each version and records the versions it is called for. -/
def recorded (answers : Version → List Failure) (v : Version) :
    StateM (List Version) (Except CheckError (List Failure)) := do
  modify fun calls => calls ++ [v]
  return .ok (answers v)

/-- The result, the search and the recorded calls after a part of a run. -/
def exec {α : Type} (x : SearchM (StateM (List Version)) α) (s : Search) (calls : List Version) :
    (Except CheckError α × Search) × List Version := (x.run.run s).run calls

variable {α β : Type} {answers : Version → List Failure} {s s' : Search}
  {calls calls' : List Version}

/-- A run goes on with the result of its first part. -/
lemma exec_bind {x : SearchM (StateM (List Version)) α} {f : α → SearchM (StateM (List Version)) β}
    {a : α} (h : exec x s calls = ((.ok a, s'), calls')) :
    exec (x >>= f) s calls = exec (f a) s' calls' := by
  unfold exec at h ⊢
  rw [ExceptT.run_bind, StateT.run_bind, StateT.run_bind]
  simp only [bind, h]

/-- A check appends to the checked versions and to the recorded calls. -/
lemma exec_checkVersion (v : Version) :
    exec (checkVersion (recorded answers) v) s calls =
      ((.ok (answers v), { s with checked := s.checked ++ [v] }), calls ++ [v]) := rfl

/-- Another state is entered without a call. -/
lemma exec_enter (state : SearchState) :
    exec (enter state) s calls = ((.ok (), { s with state }), calls) := rfl

/-- The end of a run reports the checked versions and forgets them. -/
lemma exec_finish (failures : List Failure) (lowestFailing highestPassing : Option Version) :
    exec (finish failures lowestFailing highestPassing) s calls =
      ((.ok ⟨failures, lowestFailing, highestPassing, s.checked⟩, ⟨.done, []⟩), calls) := rfl

/-- The end of a run at a boundary reports the failures with a note. -/
lemma exec_finishAt (failing passing : Version) (failures : List Failure) :
    exec (finishAt failing passing failures) s calls =
      ((.ok ⟨failures.map (·.annotate (Template.boundary.format [passing.text, failing.text])),
        some failing, some passing, s.checked⟩, ⟨.done, []⟩), calls) := rfl

/-- A descent finds the boundary, and checks the versions down to it.  The versions `rest` and the
one before them have been found to pass, and `vs` are those that are left. -/
lemma exec_descend (s : Search) (calls : List Version) {l : VersionList} {above : Version}
    {vs rest : List Version}
    (hsplit : l.versions = l.lowest :: (vs.reverse ++ above :: rest))
    (hlow : answers l.lowest ≠ []) (hpass : ∀ v ∈ above :: rest, answers v = []) :
    ∃ k failing passing, BoundaryAt answers l k failing passing ∧ k ≤ vs.length ∧
      exec (descend (recorded answers) l.lowest (answers l.lowest) above vs) s calls =
        ((.ok ⟨(answers failing).map
            (·.annotate (Template.boundary.format [passing.text, failing.text])),
          some failing, some passing, s.checked ++ l.downward (max k 1) (vs.length + 1)⟩,
          ⟨.done, []⟩), calls ++ l.downward (max k 1) (vs.length + 1)) := by
  induction vs generalizing above rest s calls with
  | nil =>
    refine ⟨0, l.lowest, above, ⟨l.get?_zero, ?_, hlow, ?_⟩, le_rfl, ?_⟩
    · rw [VersionList.get?, hsplit]
      rfl
    · intro i v hi hv
      rw [VersionList.get?, hsplit, List.getElem?_cons, if_neg hi.ne'] at hv
      exact hpass v (List.mem_of_getElem? hv)
    · have hnone : l.downward (max 0 1) (List.length ([] : List Version) + 1) = [] :=
        l.downward_self 1
      rw [hnone, List.append_nil, List.append_nil, descend, exec_finishAt]
  | cons v vs ih =>
    have hsplit' : l.versions = (l.lowest :: vs.reverse) ++ v :: above :: rest := by
      rw [hsplit, List.reverse_cons, List.append_assoc]
      rfl
    have hlen : (l.lowest :: vs.reverse).length = vs.length + 1 := by
      rw [List.length_cons, List.length_reverse]
    have hv : l.get? (vs.length + 1) = some v := by
      rw [VersionList.get?, hsplit', ← hlen, List.getElem?_append_right le_rfl, Nat.sub_self]
      rfl
    have htop : ∀ k ≤ vs.length + 1, l.downward (max k 1) (vs.length + 1 + 1) =
        v :: l.downward (max k 1) (vs.length + 1) := fun k hk =>
      VersionList.downward_succ hv (by omega)
    rw [descend, exec_bind (exec_checkVersion v), List.length_cons]
    by_cases hfails : answers v = []
    · -- This version passes, and the descent goes on below it.
      have hpass' : ∀ w ∈ v :: above :: rest, answers w = [] := by
        intro w hw
        rcases List.mem_cons.mp hw with rfl | hw
        · exact hfails
        · exact hpass w hw
      obtain ⟨k, failing, passing, hk, hle, hrun⟩ :=
        ih { s with checked := s.checked ++ [v] } (calls ++ [v]) hsplit' hpass'
      refine ⟨k, failing, passing, hk, by omega, ?_⟩
      rw [hfails, List.isEmpty_nil, if_pos rfl, hrun, htop k (by omega)]
      simp only [List.append_assoc, List.singleton_append]
    · refine ⟨vs.length + 1, v, above, ⟨hv, ?_, hfails, ?_⟩, le_rfl, ?_⟩
      · rw [VersionList.get?, hsplit', ← hlen, List.getElem?_append_right (by omega)]
        simp
      · intro i w hi hw
        rw [VersionList.get?, hsplit', List.getElem?_append_right (by omega), hlen,
          List.getElem?_cons, if_neg (by omega)] at hw
        exact hpass w (List.mem_of_getElem? hw)
      · have hnonempty : (answers v).isEmpty = false := by simpa using hfails
        have hmax : max (vs.length + 1) 1 = vs.length + 1 := by omega
        rw [hnonempty, if_neg Bool.false_ne_true, exec_finishAt, htop _ le_rfl, hmax,
          VersionList.downward_self]

section States

variable (package : String) {l : VersionList} (s : Search) (calls : List Version)

/-- A search goes down from the highest version once the lowest one is known to fail. -/
lemma exec_resume_bisecting (hhigh : answers l.highest = []) (hlow : answers l.lowest ≠ []) :
    ∃ k failing passing, BoundaryAt answers l k failing passing ∧
      exec (resume (recorded answers) package l .bisecting (some (answers l.lowest))) s calls =
        ((.ok ⟨(answers failing).map
            (·.annotate (Template.boundary.format [passing.text, failing.text])),
          some failing, some passing, s.checked ++ l.downward (max k 1) (l.length - 1)⟩,
          ⟨.done, []⟩), calls ++ l.downward (max k 1) (l.length - 1)) := by
  have hlen : 1 < l.length := by
    by_contra hle
    have hone : l.length - 1 = 0 := by omega
    -- The only version would have to pass and to fail.
    have hsame : some l.lowest = some l.highest := by
      rw [← l.get?_zero, ← hone, l.get?_last]
    exact hlow (Option.some.inj hsame ▸ hhigh)
  have hsplit : l.versions = l.lowest :: ((interior l).reverse ++ l.highest :: []) := by
    rw [interior, List.reverse_reverse]
    exact l.versions_eq hlen
  have hinterior : (interior l).length + 1 = l.length - 1 := by
    have hlength : l.length = (interior l).length + 1 + 1 := by
      rw [VersionList.length, hsplit]
      simp
    omega
  obtain ⟨k, failing, passing, hk, -, hrun⟩ :=
    exec_descend { s with state := .bisecting } calls hsplit hlow (by simpa using hhigh)
  refine ⟨k, failing, passing, hk, ?_⟩
  rw [resume, exec_bind (exec_enter _), hrun, hinterior]

/-- A search is run from its second check on. -/
lemma exec_resume_checkLowest (hhigh : answers l.highest = []) (hlen : 1 < l.length)
    (hs : s.checked = [l.highest]) :
    ∃ o rest, Finds answers l o ∧ o.checked = l.highest :: rest ∧
      exec (resume (recorded answers) package l .checkLowest none) s calls =
        ((.ok o, ⟨.done, []⟩), calls ++ rest) := by
  rw [resume, exec_bind (exec_enter _), exec_bind (exec_checkVersion _)]
  by_cases hlow : answers l.lowest = []
  · refine ⟨_, [l.lowest], .bothEndsPass hhigh hlen hlow, rfl, ?_⟩
    rw [hlow, List.isEmpty_nil, if_pos rfl, exec_finish, hs]
    rfl
  · obtain ⟨k, failing, passing, hk, hrun⟩ := exec_resume_bisecting package
      ⟨.checkLowest, s.checked ++ [l.lowest]⟩ (calls ++ [l.lowest]) hhigh hlow
    refine ⟨_, l.lowest :: l.downward (max k 1) (l.length - 1),
      .boundary hlow k failing passing hk, rfl, ?_⟩
    have hnonempty : (answers l.lowest).isEmpty = false := by simpa using hlow
    rw [hnonempty, if_neg Bool.false_ne_true, hrun, hs, List.append_assoc, List.append_assoc]
    rfl

/-- A search is run from its first check on. -/
lemma exec_run (answers : Version → List Failure) (l : VersionList) : ∃ o, Finds answers l o ∧
    exec (run (recorded answers) package l) s calls =
      ((.ok o, ⟨.done, []⟩), calls ++ o.checked) := by
  have hset : exec (set ({} : Search) : SearchM (StateM (List Version)) PUnit) s calls =
      ((.ok (), {}), calls) := rfl
  rw [run, exec_bind hset, resume, exec_bind (exec_enter _), exec_bind (exec_checkVersion _)]
  by_cases hhigh : answers l.highest = []
  · rw [hhigh, List.isEmpty_nil, Bool.not_true, if_neg Bool.false_ne_true]
    by_cases hlen : l.length = 1
    · refine ⟨_, .single hhigh hlen, ?_⟩
      rw [if_pos hlen, exec_finish]
      rfl
    · have hlen' : 1 < l.length := lt_of_le_of_ne l.length_pos (Ne.symm hlen)
      obtain ⟨o, rest, ho, hchecked, hrun⟩ := exec_resume_checkLowest package
        ⟨.checkHighest, [l.highest]⟩ (calls ++ [l.highest]) hhigh hlen' rfl
      refine ⟨o, ho, ?_⟩
      rw [if_neg hlen, hchecked]
      exact hrun.trans (by rw [List.append_assoc, List.singleton_append])
  · refine ⟨_, .failsAtNewest hhigh, ?_⟩
    have hnonempty : (answers l.highest).isEmpty = false := by simpa using hhigh
    rw [hnonempty, Bool.not_false, if_pos rfl, exec_finish]
    rfl

end States

namespace Finds

variable {l : VersionList} {o : Outcome}

/-- No version is checked twice. -/
lemma nodup_checked (h : Finds answers l o) : o.checked.Nodup := by
  cases h with
  | failsAtNewest h => exact List.nodup_singleton _
  | single h hlen => exact List.nodup_singleton _
  | bothEndsPass h hlen hlow =>
    have := VersionList.nodup_ends hlen (Nat.le_sub_one_of_lt hlen)
    rwa [VersionList.downward_self] at this
  | boundary hlow k failing passing hk =>
    have hlt : k + 1 < l.length := (List.getElem?_eq_some_iff.mp hk.get?_passing).1
    exact VersionList.nodup_ends (by omega) (le_max_right k 1)

/-- The version that is reported to pass has been checked, and passes. -/
lemma passing_mem_checked (h : Finds answers l o) {v : Version} (hv : o.highestPassing = some v) :
    v ∈ o.checked ∧ answers v = [] := by
  cases h with
  | failsAtNewest h => simp at hv
  | single h hlen =>
    obtain rfl := Option.some.inj hv
    exact ⟨List.mem_cons_self, h⟩
  | bothEndsPass h hlen hlow =>
    obtain rfl := Option.some.inj hv
    exact ⟨List.mem_cons_self, h⟩
  | boundary hlow k failing passing hk =>
    obtain rfl := Option.some.inj hv
    refine ⟨?_, hk.passes _ _ (Nat.lt_succ_self k) hk.get?_passing⟩
    have hlt : k + 1 < l.length := (List.getElem?_eq_some_iff.mp hk.get?_passing).1
    rcases Nat.lt_or_ge (k + 1) (l.length - 1) with hlast | hlast
    · exact List.mem_cons_of_mem _ (List.mem_cons_of_mem _
        (VersionList.mem_downward hk.get?_passing (by omega) hlast))
    · have hk' : k + 1 = l.length - 1 := by omega
      have hsame : some passing = some l.highest := by
        rw [← hk.get?_passing, hk', l.get?_last]
      exact Option.some.inj hsame ▸ List.mem_cons_self

end Finds

/-- A search ends with the outcome that the failures of the versions lead to, whatever they are.  It
calls the checker for the versions that it reports as checked, in their order, and for no version
twice, and the version that it reports to pass is one of them. -/
theorem exec_run_recorded (answers : Version → List Failure) (package : String) (l : VersionList)
    (s : Search) (calls : List Version) :
    ∃ o, exec (run (recorded answers) package l) s calls =
        ((.ok o, { state := .done, checked := [] }), calls ++ o.checked) ∧
      Finds answers l o ∧ o.checked.Nodup ∧
      ∀ v, o.highestPassing = some v → v ∈ o.checked ∧ answers v = [] := by
  obtain ⟨o, ho, hrun⟩ := exec_run package s calls answers l
  exact ⟨o, hrun, ho, ho.nodup_checked, fun v hv => ho.passing_mem_checked hv⟩

end Search

end InlineExpect
