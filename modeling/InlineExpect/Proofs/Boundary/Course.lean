import Mathlib
import InlineExpect.Proofs.Boundary.Dialogue
import InlineExpect.Proofs.Boundary.Trace

/-!
# The course of a search

Checks may come to errors here, and a version that is checked twice may have two answers.  Whatever
the answers are, a search has a fixed order in which it can check versions (`VersionList.route`),
and it checks the first ones of them: it stops at the first error, which is its own, or at a point
where it has found its outcome (`Search.Proceeds`).  Where the search stands is read off its
dialogue, which is why no checker occurs in `Search.proceeds_run`.

What a search does with a checker can be noted along the way (`Search.noted`), and the search does
not notice (`Dialogue.forget_conduct_noted`).
-/

namespace InlineExpect

/-! ### The order of the checks -/

namespace VersionList

/-- The order in which a search checks versions, as far as it gets: the highest one, the lowest one
if it is another one, and from the top down those between. -/
def route (l : VersionList) : List Version :=
  l.highest :: if l.length = 1 then [] else l.lowest :: Search.interior l

/-- The versions between the lowest and the highest one are a range of versions. -/
lemma downward_one_eq_interior (l : VersionList) :
    l.downward 1 (l.length - 1) = Search.interior l := by
  rw [downward, Search.interior, length, ← List.dropLast_eq_take, List.drop_one,
    List.tail_dropLast]

/-- No version comes twice in the order of the checks. -/
lemma nodup_route (l : VersionList) : l.route.Nodup := by
  rw [route]
  split
  · exact List.nodup_singleton _
  · rename_i hone
    have hlen : 1 < l.length := lt_of_le_of_ne l.length_pos (Ne.symm hone)
    rw [← l.downward_one_eq_interior]
    exact nodup_ends hlen le_rfl

end VersionList

namespace Search

/-! ### Going along an order -/

/-- A search that has checked some versions goes along those ahead of it.  It may end where it
stands.  Otherwise it checks the next version, and breaks off there if the check does. -/
inductive Proceeds :
    List Version → List Version → Dialogue (Except CheckError Outcome × Search) → Prop
  | ended {checked : List Version} {o : Outcome} (ahead : List Version) (s : Search)
    (h : o.checked = checked) : Proceeds checked ahead (.result (.ok o, s))
  | next {checked ahead : List Version} {v : Version}
    {next : Verdict → Dialogue (Except CheckError Outcome × Search)}
    (aborted : ∀ e, ∃ s, next (.error e) = .result (.error e, s) ∧ s.checked = checked ++ [v])
    (passed : ∀ failures, Proceeds (checked ++ [v]) ahead (next (.ok failures))) :
    Proceeds checked (v :: ahead) (.ask v next)

/-- From everywhere, a part of a search goes along the versions `ahead` to the end of the search. -/
def StaysOn (ahead : List Version) (x : SearchM Dialogue Outcome) : Prop :=
  ∀ s : Search, Proceeds s.checked ahead (x.run.run s)

/-- A search ends where it stands. -/
lemma staysOn_finish (ahead : List Version) (failures : List Failure)
    (lowestFailing highestPassing : Option Version) :
    StaysOn ahead (finish failures lowestFailing highestPassing) :=
  fun _ => .ended ahead _ rfl

namespace StaysOn

variable {ahead : List Version}

/-- Another state is entered on the way. -/
lemma enter {x : SearchM Dialogue Outcome} (h : StaysOn ahead x) (state : SearchState) :
    StaysOn ahead (Search.enter state >>= fun _ => x) :=
  fun s => h { s with state }

/-- A check is a step on the way. -/
lemma check {f : List Failure → SearchM Dialogue Outcome}
    (h : ∀ failures, StaysOn ahead (f failures)) (v : Version) :
    StaysOn (v :: ahead) (checkVersion Dialogue.check v >>= f) :=
  fun s => .next (fun _ => ⟨{ s with checked := s.checked ++ [v] }, rfl, rfl⟩)
    fun failures => h failures { s with checked := s.checked ++ [v] }

end StaysOn

/-- A descent goes along its versions. -/
lemma staysOn_descend (lowest : Version) (lowestFailures : List Failure) (above : Version)
    (vs : List Version) : StaysOn vs (descend Dialogue.check lowest lowestFailures above vs) := by
  induction vs generalizing above with
  | nil => exact staysOn_finish [] _ _ _
  | cons v vs ih =>
    refine StaysOn.check (fun failures => ?_) v
    split
    · exact ih v
    · exact staysOn_finish vs _ _ _

section States

variable (package : String) (l : VersionList)

/-- A search that knows the failures of the lowest version goes down from the highest one. -/
lemma staysOn_resume_bisecting (lowestFailures : List Failure) :
    StaysOn (interior l)
      (resume Dialogue.check package l .bisecting (some lowestFailures)) := by
  rw [resume.eq_def]
  exact (staysOn_descend _ _ _ _).enter .bisecting

/-- From its second check on, a search goes along the lowest version and those between. -/
lemma staysOn_resume_checkLowest :
    StaysOn (l.lowest :: interior l) (resume Dialogue.check package l .checkLowest none) := by
  rw [resume.eq_def]
  refine (StaysOn.check (fun failures => ?_) l.lowest).enter .checkLowest
  split
  · exact staysOn_finish _ _ _ _
  · exact staysOn_resume_bisecting package l failures

/-- From its first check on, a search goes along the order of its checks. -/
lemma staysOn_resume_checkHighest :
    StaysOn l.route (resume Dialogue.check package l .checkHighest none) := by
  rw [resume.eq_def]
  refine (StaysOn.check (fun failures => ?_) l.highest).enter .checkHighest
  by_cases hfails : !failures.isEmpty
  · rw [if_pos hfails]
    exact staysOn_finish _ _ _ _
  · rw [if_neg hfails]
    split
    · exact staysOn_finish _ _ _ _
    · exact staysOn_resume_checkLowest package l

/-- A run goes along the order of its checks from the start, whatever was left of an earlier run. -/
theorem proceeds_run (s : Search) :
    Proceeds [] l.route ((run Dialogue.check package l).run.run s) :=
  staysOn_resume_checkHighest package l {}

end States

end Search

/-! ### Taking notes -/

section Noted

variable {m : Type → Type} [Monad m]

/-- A checker that notes the versions it is called for. -/
def Search.noted (c : Version → m Verdict) (v : Version) : StateT (List Version) m Verdict := do
  modify fun vs => vs ++ [v]
  StateT.lift (c v)

variable [LawfulMonad m] {α : Type} (c : Version → m Verdict)

/-- A note is taken before the check. -/
lemma Search.run_noted (v : Version) (vs : List Version) :
    (noted c v).run vs = c v >>= fun verdict => pure (verdict, vs ++ [v]) := by
  rw [noted, StateT.run_bind, StateT.run_modify, pure_bind]
  rfl

/-- Without the notes, a dialogue with a checker that takes notes is one with the checker itself. -/
lemma Dialogue.forget_conduct_noted (d : Dialogue α) (vs : List Version) :
    Prod.fst <$> (d.conduct (Search.noted c)).run vs = d.conduct c := by
  induction d generalizing vs with
  | result a => exact map_pure _ _
  | ask v next ih =>
    rw [conduct, conduct, StateT.run_bind, Search.run_noted]
    simp only [map_bind, bind_assoc, pure_bind, ih]

end Noted

end InlineExpect
