import InlineExpect.Version.Basic

/-!
# Version lists

The versions under which a package is checked: at least one, and each older than the next.
-/

namespace InlineExpect

/-- Versions from the lowest to the highest. -/
structure VersionList where
  versions : List Version
  ne_nil : versions ≠ []
  ascending : versions.Pairwise (· < ·)
deriving DecidableEq, Repr

namespace VersionList

/-- The first neighbours of which the first is not older than the second. -/
def firstDescent? : List Version → Option (Version × Version)
  | v :: w :: vs => if v < w then firstDescent? (w :: vs) else some (v, w)
  | _ => none

theorem pairwise_of_firstDescent?_eq_none :
    ∀ {vs : List Version}, firstDescent? vs = none → vs.Pairwise (· < ·)
  | [], _ => .nil
  | [_], _ => by simp
  | v :: w :: vs, h => by
    unfold firstDescent? at h
    split at h
    · rename_i hvw
      have ih := pairwise_of_firstDescent?_eq_none h
      refine List.pairwise_cons.2 ⟨fun u hu => ?_, ih⟩
      rcases List.mem_cons.1 hu with rfl | hu
      · exact hvw
      · exact Version.lt_trans hvw ((List.pairwise_cons.1 ih).1 u hu)
    · simp at h

/-- The list of some versions, which have to ascend. -/
def ofList (vs : List Version) : Except VersionError VersionList :=
  if hne : vs = [] then .error .empty
  else
    match h : firstDescent? vs with
    | some (v, w) => .error (.notAscending v w)
    | none => .ok ⟨vs, hne, pairwise_of_firstDescent?_eq_none h⟩

/-- The list of the versions with the given names.  The first name that is refused is the error. -/
def ofTexts (texts : List String) : Except VersionError VersionList := do
  ofList (← texts.mapM Version.ofText)

/-- The lowest version. -/
def lowest (l : VersionList) : Version := l.versions.head l.ne_nil

/-- The highest version. -/
def highest (l : VersionList) : Version := l.versions.getLast l.ne_nil

/-- The number of versions. -/
def length (l : VersionList) : Nat := l.versions.length

/-- The version at an index, counted from the lowest. -/
def get? (l : VersionList) (i : Nat) : Option Version := l.versions[i]?

theorem length_pos (l : VersionList) : 0 < l.length := List.length_pos_iff.2 l.ne_nil

theorem versions_of_ofList_eq_ok {vs : List Version} {l : VersionList} (h : ofList vs = .ok l) :
    l.versions = vs := by
  unfold ofList at h
  split at h
  · simp at h
  · split at h
    · simp at h
    · cases h; rfl

end VersionList

end InlineExpect
