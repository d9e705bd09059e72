import Mathlib
import InlineExpect.Proofs.Package.Steady

/-!
# Packages that share a cache

Packages are checked over one cache of environments, one after the other or in turns: a turn of a
package is one check of a version, and the order of the turns is arbitrary.  What one package leaves
in the cache and with the installer is found by all others.

Over a steady installer none of this can be seen in the results (`TestPackage.sharesUnobservably`):
each package has the result that it has alone, on a new cache.  Every turn answers a question of a
dialogue with the verdict that it would have had in the beginning, so that the end of the dialogue
stays the same, and there are no more questions than versions.
-/

namespace InlineExpect

variable {W α β : Type}

namespace TestPackage

/-! ### Taking turns -/

/-- The check of a package under some versions as a dialogue. -/
def dialogue (p : TestPackage) (l : VersionList) : Dialogue (Except CheckError Outcome) := do
  let (outcome, _) ← (Search.run Dialogue.check p.name l).run.run {}
  return outcome

/-- A package and what is left of its check. -/
structure Session where
  package : TestPackage
  rest : Dialogue (Except CheckError Outcome)

section Turns

variable {m : Type → Type} [Monad m] [MonadStateOf EnvironmentCache m]

/-- Checks the version that a package asks for. -/
def Session.turn (i : Installer m) (s : Session) : m Session := do
  return { s with rest := ← s.rest.turn (s.package.checkCached i) }

/-- The turn of the package at an index. -/
def takeTurn (i : Installer m) (ss : List Session) (j : Nat) : m (List Session) := do
  match ss[j]? with
  | none => return ss
  | some s => return ss.set j (← s.turn i)

/-- Checks packages in turns, and returns the results of those that have come to their end. -/
def checkInTurns (i : Installer m) (ps : List TestPackage) (l : VersionList) (order : List Nat) :
    m (List (Option (Except CheckError Outcome))) := do
  let ss ← order.foldlM (takeTurn i) (ps.map fun p => ⟨p, p.dialogue l⟩)
  return ss.map fun s => s.rest.result?

/-- The check of a package is its dialogue, conducted without a pause. -/
lemma conduct_dialogue [LawfulMonad m] (i : Installer m) (p : TestPackage) (l : VersionList) :
    (p.dialogue l).conduct (p.checkCached i) = p.check i l := by
  have hrun := (Search.isDialogueOf_run (p.checkCached i) p.name l).conduct_run {}
  rw [dialogue, Dialogue.conduct_bind, hrun]
  rfl

end Turns

/-- The check of a package asks for at most as many versions as there are. -/
lemma asksAtMost_dialogue (p : TestPackage) (l : VersionList) :
    (p.dialogue l).AsksAtMost l.length := by
  have hrun := (Search.isDialogueOf_run (m := Id) (fun _ => .ok []) p.name l).asksAtMost {}
  exact hrun.bind fun _ => .result 0 _

/-! ### What cannot be seen -/

/-- The result of a computation on a new cache. -/
def fresh (x : CacheM W α) (w : W) : α := ((x.run {}).run w).1.1

/-- The result of a package that is checked alone. -/
def alone (i : Installer (StateM W)) (w : W) (l : VersionList) (p : TestPackage) :
    Except CheckError Outcome := fresh (p.check i.lift l) w

/-- Packages that share a cache have the results that each of them has alone. -/
structure SharesUnobservably (i : Installer (StateM W)) (w : W) (l : VersionList)
    (ps : List TestPackage) : Prop where
  checkAll_eq : fresh (checkAll i.lift ps l) w = ps.map (alone i w l)
  /-- In any order of turns, a package that has come to a result has the one that it has alone. -/
  eq_alone : ∀ (order : List Nat) (j : Nat) p r, ps[j]? = some p →
    (fresh (checkInTurns i.lift ps l order) w)[j]? = some (some r) → r = alone i w l p
  /-- In any order of turns, a package that has enough of them comes to its result. -/
  finished : ∀ (order : List Nat) (j : Nat) p, ps[j]? = some p → l.length ≤ order.count j →
    (fresh (checkInTurns i.lift ps l order) w)[j]? = some (some (alone i w l p))
  /-- Packages in another order take their results with them. -/
  perm : ∀ qs, ps.Perm qs → (ps.zip (fresh (checkAll i.lift ps l) w)).Perm
    (qs.zip (fresh (checkAll i.lift qs l) w))

variable {i : Installer (StateM W)} {a : SteadyAnswers W} {w : W} {l : VersionList}

/-- What is yielded from all states that can be reached is the result on a new cache. -/
lemma fresh_eq_of_yields {x : CacheM W α} {b : α} (h : Yields (a.Reached w) x b) :
    fresh x w = b := by
  obtain ⟨c', w', hrun, -⟩ := h {} w (a.reached_empty w)
  rw [fresh, hrun]

/-- The check of a package comes to the end of its dialogue with the verdicts of the beginning. -/
lemma yields_check (hi : i.Steady a) (w : W) (l : VersionList) (p : TestPackage) :
    Yields (a.Reached w) (p.check i.lift l) ((p.dialogue l).ending (p.verdict a w)) := by
  rw [← conduct_dialogue]
  exact yields_conduct (yields_checkCached hi p w) (p.dialogue l)

/-! ### Sessions over a steady installer -/

/-- A session after one question, if it still has one. -/
def Session.answered (a : SteadyAnswers W) (w : W) (s : Session) : Session :=
  { s with rest := s.rest.answered (s.package.verdict a w) }

/-- A turn answers one question of one session with the verdict of the beginning. -/
lemma yields_takeTurn (hi : i.Steady a) (w : W) (ss : List Session) (j : Nat) :
    Yields (a.Reached w) (takeTurn i.lift ss j) (ss.modify j (Session.answered a w)) := by
  rw [takeTurn]
  cases hs : ss[j]? with
  | none =>
    rw [List.modify_eq_self (List.getElem?_eq_none_iff.mp hs)]
    exact yields_pure _ ss
  | some s =>
    have hmodify : ss.modify j (Session.answered a w) = ss.set j (s.answered a w) := by
      rw [List.modify_eq_set_getElem?, hs]
      rfl
    have hturn : Yields (a.Reached w) (s.turn i.lift) (s.answered a w) :=
      (yields_turn (yields_checkCached hi s.package w) s.rest).bind (yields_pure _ _)
    rw [hmodify]
    exact hturn.bind (yields_pure _ _)

/-- A session of a package that has come some way, with at most `n` questions left. -/
structure Session.IsOf (a : SteadyAnswers W) (w : W) (l : VersionList) (p : TestPackage) (n : Nat)
    (s : Session) : Prop where
  package_eq : s.package = p
  ending_eq : s.rest.ending (p.verdict a w) = (p.dialogue l).ending (p.verdict a w)
  asksAtMost : s.rest.AsksAtMost n

namespace Session.IsOf

variable {p : TestPackage} {n : Nat} {s : Session}

/-- The invariant of a session is kept by an answer. -/
lemma answered (h : s.IsOf a w l p n) : (s.answered a w).IsOf a w l p (n - 1) := by
  obtain ⟨rfl, hending, hasks⟩ := h
  refine ⟨rfl, ?_, hasks.answered _⟩
  rw [← hending]
  exact Dialogue.ending_answered _ s.rest

/-- The invariant of a session is kept by all answers. -/
lemma iterate (h : s.IsOf a w l p n) (k : Nat) :
    ((Session.answered a w)^[k] s).IsOf a w l p (n - k) := by
  induction k with
  | zero => exact h
  | succ k ih =>
    rw [Function.iterate_succ_apply', ← Nat.sub_sub]
    exact ih.answered

end Session.IsOf

/-- Turns in any order answer questions of the sessions with the verdicts of the beginning. -/
lemma yields_checkInTurns (hi : i.Steady a) (w : W) (l : VersionList) (ps : List TestPackage)
    (order : List Nat) :
    Yields (a.Reached w) (checkInTurns i.lift ps l order)
      ((order.foldl (fun ss k => ss.modify k (Session.answered a w))
        (ps.map fun p => ⟨p, p.dialogue l⟩)).map fun s => s.rest.result?) :=
  (yields_foldlM (yields_takeTurn hi w) order _).bind (yields_pure _ _)

/-- The entry at an index after some entries have been modified, one after the other. -/
lemma getElem?_foldl_modify (f : α → α) (order : List Nat) (as : List α) (j : Nat) :
    (order.foldl (fun as k => as.modify k f) as)[j]? = as[j]?.map f^[order.count j] := by
  induction order generalizing as with
  | nil => exact Option.map_id'.symm
  | cons k order ih =>
    rw [List.foldl_cons, ih, List.getElem?_modify]
    by_cases hkj : k = j
    · subst hkj
      simp only [if_true, List.count_cons_self, Function.iterate_succ]
      exact Option.map_map _ _ _
    · simp only [if_neg hkj, List.count_cons_of_ne hkj]
      exact congrArg _ (id_map as[j]?)

/-- After some turns, a session has answered as many questions as it has had turns. -/
lemma exists_session_of_turns (hi : i.Steady a) (w : W) (l : VersionList)
    {ps : List TestPackage} (order : List Nat) {j : Nat} {p : TestPackage}
    (hp : ps[j]? = some p) :
    ∃ s : Session, s.IsOf a w l p (l.length - order.count j) ∧
      (fresh (checkInTurns i.lift ps l order) w)[j]? = some s.rest.result? := by
  have hbegin : Session.IsOf a w l p l.length ⟨p, p.dialogue l⟩ :=
    ⟨rfl, rfl, p.asksAtMost_dialogue l⟩
  refine ⟨_, hbegin.iterate (order.count j), ?_⟩
  rw [fresh_eq_of_yields (yields_checkInTurns hi w l ps order), List.getElem?_map,
    getElem?_foldl_modify, List.getElem?_map, hp]
  rfl

/-- Over a steady installer, packages that share a cache have the results that each of them has
alone, whatever the order of their checks is. -/
theorem sharesUnobservably (hi : i.Steady a) (w : W) (l : VersionList) (ps : List TestPackage) :
    SharesUnobservably i w l ps := by
  have halone (p : TestPackage) : alone i w l p = (p.dialogue l).ending (p.verdict a w) :=
    fresh_eq_of_yields (yields_check hi w l p)
  have hall (ps : List TestPackage) :
      fresh (checkAll i.lift ps l) w = ps.map (alone i w l) := by
    rw [funext halone]
    exact fresh_eq_of_yields (yields_mapM (yields_check hi w l) ps)
  refine ⟨hall ps, fun order j p r hp hr => ?_, fun order j p hp hcount => ?_, fun qs hqs => ?_⟩
  · obtain ⟨s, hs, hfresh⟩ := exists_session_of_turns hi w l order hp
    rw [hfresh] at hr
    rw [halone, ← hs.ending_eq, Dialogue.ending_eq_of_result? (Option.some.inj hr)]
  · obtain ⟨s, hs, hfresh⟩ := exists_session_of_turns hi w l order hp
    have hasks := hs.asksAtMost
    rw [Nat.sub_eq_zero_of_le hcount] at hasks
    rw [hfresh, halone, ← hs.ending_eq, hasks.result?_eq (p.verdict a w)]
  · rw [hall, hall, ← List.map_prod_left_eq_zip, ← List.map_prod_left_eq_zip]
    exact hqs.map _

/-- The answers of an installer that cannot get one version, and whose engines find nothing to
report. -/
def sampleAnswers : SteadyAnswers (List Version) where
  installed w v := w.contains v
  installs v := if v = .release 4 8 then .error ⟨v, "no such release"⟩ else .ok ()
  loads _ := .ok fun _ => .ok
    { tree := fun file => .error (.unknownFile file)
      diagnostics := fun _ => .ok []
      typeText := fun file _ _ => .error (.unknownFile file) }

/-- Two packages share a cache over an installer that has one version, can get another one and
cannot get the third one. -/
theorem sharesUnobservably_sample :
    SharesUnobservably (Installer.ofAnswers sampleAnswers.installs sampleAnswers.loads)
      [.release 5 0] ⟨[.release 4 8, .release 4 9, .release 5 0], by decide, by decide⟩
      [{ name := "a", program := {} },
        { name := "b", program := {}, testFileNames := some ["b.ts"] }] :=
  sharesUnobservably (Installer.steady_ofAnswers sampleAnswers.installs sampleAnswers.loads) _ _ _

end TestPackage

end InlineExpect
