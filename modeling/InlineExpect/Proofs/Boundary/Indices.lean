import Mathlib
import InlineExpect.Proofs.Boundary.Trace

/-!
# Versions by their indices

`Search.run` takes the versions of a list from the list itself.  The same search can be written with
indices into the list (`Search.runByIndex`): the ends of the list are looked up, and so are the
versions of the descent and the version above the one that fails.  Any of these lookups could fall
outside the list, and a list of one version has nothing above its lowest one.

None of them does: the two searches are the same program (`Search.runByIndex_eq`).  The reason is
the invariant of the descent, a split of the list around the version that is known to pass, and that
no search gets as far as a descent in a list of one version.
-/

namespace InlineExpect.Search

/-! ### The search by indices -/

/-- What breaks off a search that looks versions up by their indices. -/
inductive Interruption where
  /-- A check comes to an error. -/
  | check (e : CheckError)
  /-- The list has no version with the index. -/
  | outside (index : Nat)
deriving DecidableEq, Repr

section Definitions

variable {m : Type → Type} [Monad m]

/-- A step of a search by indices. -/
abbrev IndexedM (m : Type → Type) : Type → Type := ExceptT Interruption (StateT Search m)

/-- A step of a search without a lookup. -/
def indexed {α : Type} (x : SearchM m α) : IndexedM m α :=
  ExceptT.mk (Except.mapError Interruption.check <$> x.run)

/-- Looks up the version at an index. -/
def versionAt (l : VersionList) (i : Nat) : IndexedM m Version :=
  match l.get? i with
  | some v => return v
  | none => throw (.outside i)

/-- Checks the versions from an index down to the second one.  If none of them fails, the lowest
version does. -/
def descendByIndex (check : Version → m (Except CheckError (List Failure))) (l : VersionList)
    (lowestFailures : List Failure) : Nat → IndexedM m Outcome
  | 0 => do
    let failing ← versionAt l 0
    let passing ← versionAt l 1
    indexed (finishAt failing passing lowestFailures)
  | i + 1 => do
    let v ← versionAt l (i + 1)
    let failures ← indexed (checkVersion check v)
    if failures.isEmpty then descendByIndex check l lowestFailures i
    else
      let above ← versionAt l (i + 2)
      indexed (finishAt v above failures)

/-- Goes on from a state to the end. -/
def resumeByIndex (check : Version → m (Except CheckError (List Failure))) (package : String)
    (l : VersionList) (highest lowest : Version) (state : SearchState)
    (lowestFailures : Option (List Failure)) : IndexedM m Outcome := do
  indexed (enter state)
  match state with
  | .checkHighest =>
    let failures ← indexed (checkVersion check highest)
    if !failures.isEmpty then
      let note := Template.failsAtNewest.format [highest.text]
      indexed (finish (failures.map (·.annotate note)) (some highest) none)
    else if l.length = 1 then indexed (finish [] none (some highest))
    else resumeByIndex check package l highest lowest .checkLowest none
  | .checkLowest =>
    let failures ← indexed (checkVersion check lowest)
    if failures.isEmpty then indexed (finish [] none (some highest))
    else resumeByIndex check package l highest lowest .bisecting (some failures)
  | .bisecting =>
    match lowestFailures with
    | some failures => descendByIndex check l failures (l.length - 2)
    | none =>
      throw (.check (.unreachable package
        s!"bisecting without a failure at TypeScript@{lowest.text}"))
  | .done => throw (.check (.unreachable package "bisection resumed after it finished"))
termination_by state.remaining
decreasing_by all_goals simp [SearchState.remaining]

/-- Runs a search from the start, with the ends of the list looked up first. -/
def runByIndex (check : Version → m (Except CheckError (List Failure))) (package : String)
    (l : VersionList) : IndexedM m Outcome := do
  indexed (set ({} : Search))
  let highest ← versionAt l (l.length - 1)
  let lowest ← versionAt l 0
  resumeByIndex check package l highest lowest .checkHighest none

end Definitions

/-! ### The two searches are the same -/

section Equality

variable {m : Type → Type} [Monad m]

/-- A version of the list is looked up. -/
lemma versionAt_eq_pure {l : VersionList} {i : Nat} {v : Version} (h : l.get? i = some v) :
    (versionAt l i : IndexedM m Version) = pure v := by
  unfold versionAt
  rw [h]

variable [LawfulMonad m]

/-- A step without a lookup is run as the step itself. -/
lemma run_indexed {α : Type} (x : SearchM m α) (s : Search) :
    (indexed x).run.run s = (fun r => (r.1.mapError .check, r.2)) <$> x.run.run s :=
  StateT.run_map _ x.run s

/-- The steps of a search follow each other without a lookup between them. -/
lemma indexed_bind {α β : Type} (x : SearchM m α) (f : α → SearchM m β) :
    indexed (x >>= f) = indexed x >>= fun a => indexed (f a) := by
  refine ExceptT.ext ?_
  rw [ExceptT.run_bind]
  change Except.mapError _ <$> (x >>= f).run = (Except.mapError _ <$> x.run) >>= _
  rw [ExceptT.run_bind, map_bind, bind_map_left]
  congr 1
  funext r
  cases r with
  | error e => exact map_pure _ _
  | ok a => rfl

/-- A search breaks off without a lookup. -/
lemma indexed_throw {α : Type} (e : CheckError) :
    indexed (throw e : SearchM m α) = throw (.check e) := by
  refine ExceptT.ext ?_
  change Except.mapError Interruption.check <$> (throw e : SearchM m α).run = _
  rw [ExceptT.run_throw, map_pure, ExceptT.run_throw]
  rfl

variable (check : Version → m (Except CheckError (List Failure)))

/-- A descent by indices is a descent.  The versions between the lowest one and `above` are those
that are left, so that all indices in use are those of versions. -/
lemma descendByIndex_eq {l : VersionList} {lowestFailures : List Failure} {above : Version}
    {vs rest : List Version} (hsplit : l.versions = l.lowest :: (vs.reverse ++ above :: rest)) :
    descendByIndex check l lowestFailures vs.length =
      indexed (descend check l.lowest lowestFailures above vs) := by
  induction vs generalizing above rest with
  | nil =>
    have habove : l.get? 1 = some above := by
      rw [VersionList.get?, hsplit]
      rfl
    rw [List.length_nil, descendByIndex, versionAt_eq_pure l.get?_zero, pure_bind,
      versionAt_eq_pure habove, pure_bind, descend]
  | cons v vs ih =>
    have hsplit' : l.versions = l.lowest :: (vs.reverse ++ v :: above :: rest) := by
      rw [hsplit, List.reverse_cons, List.append_assoc]
      rfl
    have hget (i : Nat) : l.get? (vs.length + (i + 1)) = (v :: above :: rest)[i]? := by
      rw [VersionList.get?, hsplit', ← Nat.add_assoc, List.getElem?_cons_succ,
        List.getElem?_append_right (by simp), List.length_reverse, Nat.add_sub_cancel_left]
    rw [List.length_cons, descendByIndex, versionAt_eq_pure (hget 0), pure_bind, descend,
      indexed_bind]
    refine bind_congr fun failures => ?_
    by_cases hpass : failures.isEmpty = true
    · rw [if_pos hpass, if_pos hpass, ih hsplit']
    · rw [if_neg hpass, if_neg hpass, versionAt_eq_pure (hget 1), pure_bind]

section States

variable (package : String) {l : VersionList}

/-- In a list of several versions a search goes down by indices as it goes down. -/
lemma resumeByIndex_bisecting_eq (hlen : 1 < l.length) (lowestFailures : Option (List Failure)) :
    resumeByIndex check package l l.highest l.lowest .bisecting lowestFailures =
      indexed (resume check package l .bisecting lowestFailures) := by
  have hsplit : l.versions = l.lowest :: ((interior l).reverse ++ l.highest :: []) := by
    rw [interior, List.reverse_reverse]
    exact l.versions_eq hlen
  have hinterior : l.length - 2 = (interior l).length := by
    rw [VersionList.length, hsplit]
    simp
  rw [resumeByIndex.eq_def, resume.eq_def, indexed_bind]
  refine bind_congr fun _ => ?_
  cases lowestFailures with
  | none => exact (indexed_throw _).symm
  | some failures =>
    rw [hinterior]
    exact descendByIndex_eq check hsplit

/-- In a list of several versions a search goes on by indices as it does from its second check. -/
lemma resumeByIndex_checkLowest_eq (hlen : 1 < l.length) :
    resumeByIndex check package l l.highest l.lowest .checkLowest none =
      indexed (resume check package l .checkLowest none) := by
  rw [resumeByIndex.eq_def, resume.eq_def, indexed_bind]
  refine bind_congr fun _ => ?_
  dsimp only
  rw [indexed_bind]
  refine bind_congr fun failures => ?_
  by_cases hpass : failures.isEmpty = true
  · rw [if_pos hpass, if_pos hpass]
  · rw [if_neg hpass, if_neg hpass, resumeByIndex_bisecting_eq check package hlen]

/-- A search goes on by indices as it does from its first check. -/
lemma resumeByIndex_checkHighest_eq (l : VersionList) :
    resumeByIndex check package l l.highest l.lowest .checkHighest none =
      indexed (resume check package l .checkHighest none) := by
  rw [resumeByIndex.eq_def, resume.eq_def, indexed_bind]
  refine bind_congr fun _ => ?_
  dsimp only
  rw [indexed_bind]
  refine bind_congr fun failures => ?_
  by_cases hfails : (!failures.isEmpty) = true
  · rw [if_pos hfails, if_pos hfails]
  · rw [if_neg hfails, if_neg hfails]
    by_cases hone : l.length = 1
    · rw [if_pos hone, if_pos hone]
    · have hlen : 1 < l.length := lt_of_le_of_ne l.length_pos (Ne.symm hone)
      rw [if_neg hone, if_neg hone, resumeByIndex_checkLowest_eq check package hlen]

/-- A search by indices is the search itself, and no index in it falls outside the list. -/
theorem runByIndex_eq (l : VersionList) :
    runByIndex check package l = indexed (run check package l) := by
  rw [runByIndex, run, indexed_bind, versionAt_eq_pure l.get?_last, versionAt_eq_pure l.get?_zero]
  refine bind_congr fun _ => ?_
  rw [pure_bind, pure_bind, resumeByIndex_checkHighest_eq]

end States

end Equality

end InlineExpect.Search
