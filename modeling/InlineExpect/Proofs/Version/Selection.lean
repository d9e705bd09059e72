import Mathlib
import InlineExpect.Version.Selection
import InlineExpect.Proofs.Traversal
import InlineExpect.Proofs.Version.Order

/-!
# What the options select

The options of a run declare versions, may ask for the unreleased one, and may set a cap.  What they
select is stated here version by version (`VersionList.IsSelected`), without the filtering and the
appending that bring it about: the selection is a list of exactly these versions, or nothing is
selected, or some declared neighbours descend (`VersionList.Selection`).

Lowering the cap cuts such a list.  The versions that stay are those up to the lower cap, also where
the unreleased version was appended, and in a list that ascends they are a front
(`VersionList.select_eq_filter`, `VersionList.CutTo`).
-/

namespace InlineExpect

/-- Options that do not ask for the unreleased version alone, the versions that they declare, and
the newest version that they allow. -/
structure RunOptions.Declares (o : RunOptions) (declared : List Version) (cap : Version) :
    Prop where
  onlyTestNext : o.onlyTestNext = false
  versions : o.versions.map Version.ofText = declared.map .ok
  maxVersion : ∀ text, o.maxVersion = some text → Version.ofText text = .ok cap
  noMaxVersion : o.maxVersion = none → cap = .next

namespace VersionList

/-! ### Lists that ascend -/

/-- The first neighbours of which the first is not older than the second. -/
def IsFirstDescent (vs : List Version) (v w : Version) : Prop :=
  ∃ front rest, vs = front ++ v :: w :: rest ∧ (front ++ [v]).Pairwise (· < ·) ∧ w ≤ v

/-- What is found is the first descent. -/
lemma isFirstDescent_of_firstDescent? {vs : List Version} {v w : Version}
    (h : firstDescent? vs = some (v, w)) : IsFirstDescent vs v w := by
  fun_induction firstDescent? vs with
  | case1 a b vs hlt ih =>
    obtain ⟨front, rest, hvs, hfront, hle⟩ := ih h
    refine ⟨a :: front, rest, by rw [hvs, List.cons_append], ?_, hle⟩
    rw [List.cons_append, List.pairwise_cons]
    refine ⟨fun c hc => ?_, hfront⟩
    -- The front begins with the neighbour of the first version.
    cases front with
    | nil =>
      obtain ⟨rfl, -⟩ := List.cons.inj hvs
      rwa [List.mem_singleton.mp hc]
    | cons d front =>
      obtain ⟨rfl, -⟩ := List.cons.inj hvs
      rcases List.mem_cons.mp hc with rfl | hc
      · exact hlt
      · exact hlt.trans ((List.pairwise_cons.mp hfront).1 c hc)
  | case2 a b vs hlt =>
    obtain ⟨rfl, rfl⟩ := Prod.mk.inj (Option.some.inj h)
    exact ⟨[], vs, rfl, List.pairwise_singleton _ _, not_lt.mp hlt⟩
  | case3 vs => cases h

/-- Versions that ascend have no descent. -/
lemma firstDescent?_eq_none {vs : List Version} (h : vs.Pairwise (· < ·)) :
    firstDescent? vs = none := by
  rw [Option.eq_none_iff_forall_ne_some]
  rintro ⟨v, w⟩ hdescent
  obtain ⟨front, rest, rfl, -, hle⟩ := isFirstDescent_of_firstDescent? hdescent
  have hlt : v < w :=
    (List.pairwise_cons.mp (List.pairwise_append.mp h).2.1).1 w List.mem_cons_self
  exact hlt.not_ge hle

/-- No version makes no list. -/
lemma ofList_nil : ofList [] = .error .empty := rfl

/-- Versions that ascend are made a list. -/
lemma ofList_versions (l : VersionList) : ofList l.versions = .ok l := by
  have hnone : firstDescent? l.versions = none := firstDescent?_eq_none l.ascending
  unfold ofList
  rw [dif_neg l.ne_nil]
  split
  · rename_i hsome
    rw [hnone] at hsome
    cases hsome
  · rfl

/-- Versions that descend are refused at their first descent. -/
lemma ofList_of_descent {vs : List Version} {v w : Version} (hne : vs ≠ [])
    (h : firstDescent? vs = some (v, w)) : ofList vs = .error (.notAscending v w) := by
  unfold ofList
  rw [dif_neg hne]
  split
  · rename_i hsome
    rw [h] at hsome
    cases hsome
    rfl
  · rename_i hnone
    rw [h] at hnone
    cases hnone

/-! ### The versions that are selected -/

/-- A version is selected if it is declared and not above the cap, or if it is the unreleased one
and is asked for without a lower cap. -/
def IsSelected (declared : List Version) (includeNext : Bool) (cap v : Version) : Prop :=
  (v ∈ declared ∧ v ≤ cap) ∨ (v = .next ∧ includeNext = true ∧ cap = .next)

variable {declared : List Version} {includeNext : Bool} {cap cap' : Version}

/-- Below the unreleased version nothing is appended. -/
lemma select_of_ne (h : cap ≠ .next) :
    select declared includeNext cap = declared.filter (· ≤ cap) := by
  have hnext : cap.isNext = false := beq_eq_false_iff_ne.mpr h
  rw [select, hnext, Bool.and_false, Bool.false_and]
  rfl

/-- Without a lower cap all declared versions are selected, and the unreleased one is appended
unless it stands at the end. -/
lemma select_next : select declared includeNext .next =
    if includeNext = true ∧ declared.getLast? ≠ some .next then declared ++ [.next]
    else declared := by
  have hkept : declared.filter (· ≤ .next) = declared :=
    List.filter_eq_self.mpr fun v _ => decide_eq_true (Version.le_next v)
  have hcond : (includeNext && Version.isNext .next && declared.getLast? != some .next) = true ↔
      includeNext = true ∧ declared.getLast? ≠ some .next := by
    simp [Version.isNext]
  rw [select, hkept]
  exact if_congr hcond rfl rfl

/-- Filtering and appending select the versions that are to be selected. -/
lemma mem_select_iff {v : Version} :
    v ∈ select declared includeNext cap ↔ IsSelected declared includeNext cap v := by
  unfold IsSelected
  by_cases hcap : cap = .next
  · subst hcap
    have hle : v ∈ declared ∧ v ≤ .next ↔ v ∈ declared := and_iff_left (Version.le_next v)
    rw [select_next, hle]
    split
    · rename_i happend
      rw [List.mem_append, List.mem_singleton]
      exact or_congr_right ⟨fun h => ⟨h, happend.1, rfl⟩, fun h => h.1⟩
    · rename_i happend
      refine ⟨.inl, fun h => h.elim id ?_⟩
      -- Where it is asked for and not appended, it is declared as the last version.
      rintro ⟨rfl, hinclude, -⟩
      have hlast : declared.getLast? = some .next := by
        by_contra hlast
        exact happend ⟨hinclude, hlast⟩
      exact List.mem_of_getLast? hlast
  · rw [select_of_ne hcap, List.mem_filter, decide_eq_true_eq]
    exact ⟨.inl, fun h => h.resolve_right fun h' => hcap h'.2.2⟩

/-- A lower cap selects the versions up to it of those that a higher cap selects. -/
lemma select_eq_filter (h : cap' ≤ cap) : select declared includeNext cap' =
    (select declared includeNext cap).filter (· ≤ cap') := by
  by_cases hcap' : cap' = .next
  · subst hcap'
    obtain rfl := Version.next_le_iff.mp h
    exact (List.filter_eq_self.mpr fun v _ => decide_eq_true (Version.le_next v)).symm
  rw [select_of_ne hcap']
  by_cases hcap : cap = .next
  · subst hcap
    have hnext : [Version.next].filter (· ≤ cap') = [] :=
      List.filter_eq_nil_iff.mpr fun v hv => by
        rw [List.mem_singleton.mp hv, decide_eq_true_eq, Version.next_le_iff]
        exact hcap'
    rw [select_next]
    split
    · rw [List.filter_append, hnext, List.append_nil]
    · rfl
  · rw [select_of_ne hcap, List.filter_filter]
    refine List.filter_congr fun v _ => ?_
    rw [← Bool.decide_and, decide_eq_decide]
    exact ⟨fun hv => ⟨hv, hv.trans h⟩, fun hv => hv.1⟩

/-! ### The list that is selected -/

/-- A list of selected versions: it is not empty and ascends from its lowest to its highest version,
it consists of all selected versions, and the unreleased one is there at most once. -/
structure Selects (declared : List Version) (includeNext : Bool) (cap : Version)
    (l : VersionList) : Prop where
  ne_nil : l.versions ≠ []
  ascends : ∀ i j v w, i < j → l.get? i = some v → l.get? j = some w → v < w
  lowest : IsLeast {v | v ∈ l.versions} l.lowest
  highest : IsGreatest {v | v ∈ l.versions} l.highest
  mem_iff : ∀ v, v ∈ l.versions ↔ IsSelected declared includeNext cap v
  count_next : l.versions.count .next ≤ 1

/-- What selecting comes to: a list, or a refusal because no version is selected, or one because of
the first descent among those that are. -/
inductive Selection (declared : List Version) (includeNext : Bool) (cap : Version) :
    Except VersionError VersionList → Prop
  | list {l : VersionList} (h : Selects declared includeNext cap l) :
      Selection declared includeNext cap (.ok l)
  | empty (h : ∀ v, ¬ IsSelected declared includeNext cap v) :
      Selection declared includeNext cap (.error .empty)
  | descent {v w : Version} (h : IsFirstDescent (select declared includeNext cap) v w) :
      Selection declared includeNext cap (.error (.notAscending v w))

/-- What a lower cap leaves of a list: the front up to the cap, or nothing. -/
inductive CutTo (cap : Version) (l : VersionList) : Except VersionError VersionList → Prop
  | front {l' : VersionList} {rest : List Version} (happend : l.versions = l'.versions ++ rest)
      (hle : ∀ v ∈ l'.versions, v ≤ cap) (hlt : ∀ v ∈ rest, cap < v) : CutTo cap l (.ok l')
  | empty (hlt : ∀ v ∈ l.versions, cap < v) : CutTo cap l (.error .empty)

/-- A list of the versions that filtering and appending select is what it should be. -/
lemma selects_of_versions {l : VersionList} (h : l.versions = select declared includeNext cap) :
    Selects declared includeNext cap l where
  ne_nil := l.ne_nil
  ascends _ _ _ _ hij hi hj := lt_of_get? hi hj hij
  lowest := l.isLeast_lowest
  highest := l.isGreatest_highest
  mem_iff v := by rw [h, mem_select_iff]
  count_next := List.nodup_iff_count_le_one.mp (l.ascending.imp fun hlt => hlt.ne) .next

/-- Making a list of what is selected comes to what it should. -/
lemma selection_ofList : Selection declared includeNext cap
    (ofList (select declared includeNext cap)) := by
  by_cases hempty : select declared includeNext cap = []
  · rw [hempty, ofList_nil]
    refine .empty fun v hv => ?_
    rw [← mem_select_iff, hempty] at hv
    exact absurd hv List.not_mem_nil
  · cases hdescent : firstDescent? (select declared includeNext cap) with
    | none =>
      have hlist := ofList_versions
        ⟨select declared includeNext cap, hempty, pairwise_of_firstDescent?_eq_none hdescent⟩
      rw [hlist]
      exact .list (selects_of_versions rfl)
    | some p =>
      rw [ofList_of_descent hempty hdescent]
      exact .descent (isFirstDescent_of_firstDescent? hdescent)

/-- Making a list of what a lower cap selects cuts the list. -/
lemma cutTo_ofList {l : VersionList} (hl : l.versions = select declared includeNext cap)
    (hle : cap' ≤ cap) : CutTo cap' l (ofList (select declared includeNext cap')) := by
  obtain ⟨rest, hrest, hlt⟩ := Version.exists_eq_filter_append l.ascending cap'
  have hfront : select declared includeNext cap' = l.versions.filter (· ≤ cap') := by
    rw [select_eq_filter hle, hl]
  by_cases hempty : l.versions.filter (· ≤ cap') = []
  · rw [hfront, hempty, ofList_nil]
    rw [hempty, List.nil_append] at hrest
    exact .empty (hrest ▸ hlt)
  · have hlist := ofList_versions
      ⟨l.versions.filter (· ≤ cap'), hempty, l.ascending.sublist List.filter_sublist⟩
    rw [hfront, hlist]
    refine .front hrest (fun v hv => ?_) hlt
    exact of_decide_eq_true (List.mem_filter.mp hv).2

/-- Options whose versions and cap can be read make a list of what they select. -/
lemma ofOptions_eq {o : RunOptions} (h : o.Declares declared cap) :
    ofOptions o = ofList (select declared o.includeNext cap) := by
  have hcap : VersionList.cap o = .ok cap := by
    unfold VersionList.cap
    cases hmax : o.maxVersion with
    | none => rw [h.noMaxVersion hmax]
    | some text => exact h.maxVersion text hmax
  rw [ofOptions, h.onlyTestNext, hcap, mapM_eq_ok_iff.mpr h.versions]
  rfl

/-- Options whose versions and cap can be read select a list of exactly the versions that are
declared up to the cap or asked for, unless there are none or some neighbours among them descend.  A
lower cap cuts this list to the versions up to it. -/
theorem ofOptions_selects {o : RunOptions} (h : o.Declares declared cap) :
    Selection declared o.includeNext cap (ofOptions o) ∧
      ∀ l, ofOptions o = .ok l → ∀ maxVersion cap',
        RunOptions.Declares { o with maxVersion := maxVersion } declared cap' → cap' ≤ cap →
          CutTo cap' l (ofOptions { o with maxVersion := maxVersion }) := by
  rw [ofOptions_eq h]
  refine ⟨selection_ofList, fun l hl maxVersion cap' h' hle => ?_⟩
  rw [ofOptions_eq h']
  exact cutTo_ofList (versions_of_ofList_eq_ok hl) hle

/-- Three declared versions, the last of them unreleased. -/
def sampleOptions : RunOptions := { versions := ["4.9", " 4.10", "next"], includeNext := true }

/-- The versions that the sample options declare. -/
def sampleDeclared : List Version := [.release 4 9, .release 4 10, .next]

/-- The sample options select each declared version once, and the first two of them up to the
version 4.10. -/
theorem ofOptions_sampleOptions :
    sampleOptions.Declares sampleDeclared .next ∧
      Selection sampleDeclared true .next (ofOptions sampleOptions) ∧
      ∃ l, ofOptions sampleOptions = .ok l ∧ l.versions = sampleDeclared ∧
        RunOptions.Declares { sampleOptions with maxVersion := some "4.10" } sampleDeclared
          (.release 4 10) ∧
        .release 4 10 ≤ Version.next ∧
        CutTo (.release 4 10) l (ofOptions { sampleOptions with maxVersion := some "4.10" }) := by
  have hversions : sampleOptions.versions.map Version.ofText = sampleDeclared.map .ok := by decide
  have hsample : sampleOptions.Declares sampleDeclared .next :=
    ⟨rfl, hversions, fun _ h => (nomatch h), fun _ => rfl⟩
  have hcapped : RunOptions.Declares { sampleOptions with maxVersion := some "4.10" }
      sampleDeclared (.release 4 10) := by
    refine ⟨rfl, hversions, fun text h => ?_, fun h => nomatch h⟩
    obtain rfl := Option.some.inj h
    decide
  have hle : Version.release 4 10 ≤ .next := Version.le_next _
  obtain ⟨hselection, hcut⟩ := ofOptions_selects hsample
  obtain ⟨l, hl, hlist⟩ : ∃ l, ofOptions sampleOptions = .ok l ∧ l.versions = sampleDeclared :=
    ⟨⟨sampleDeclared, by decide, by decide⟩, by decide, rfl⟩
  exact ⟨hsample, hselection, l, hl, hlist, hcapped, hle, hcut l hl _ _ hcapped hle⟩

end VersionList

end InlineExpect
