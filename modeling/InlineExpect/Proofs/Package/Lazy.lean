import Mathlib
import InlineExpect.Proofs.Boundary.Course
import InlineExpect.Proofs.Environment.Consultation
import InlineExpect.Proofs.Package.Sharing

/-!
# Lazy installation

The check of a package consults the installer only for versions that its search checks.  Here the
installer is arbitrary: its answers may differ from call to call, and each of them may be a failure
or a crash.  The check is observed from both sides (`TestPackage.observe`): the versions for which
the search calls its checker are noted, and so are the calls that reach the installer.

On a new cache the two records agree, version by version (`Observation.Lazy`).  What carries this
over is that a search never comes back to a version: as long as the cache has the environments of
the versions checked so far and no others (`EnvironmentCache.Holds`), the next version is one that
it does not have, so that the check of it is exactly one attempt.
-/

namespace InlineExpect

variable {W : Type}

/-! ### Attempts one after the other -/

/-- The calls of an installer that has been consulted for some versions, one attempt for each. -/
inductive Consults : List Version → List InstallerCall → Prop
  | never : Consults [] []
  | next {asked : List Version} {calls block : List InstallerCall} {v : Version}
    {made : Except InstallFault (Bool × EngineFactory)} (h : Consults asked calls)
    (hattempt : Attempt v block made) : Consults (asked ++ [v]) (calls ++ block)

/-- An attempt asks for its version, and for no other. -/
lemma Attempt.exists_call_iff {u v : Version} {calls : List InstallerCall}
    {made : Except InstallFault (Bool × EngineFactory)} (h : Attempt v calls made) :
    (∃ call ∈ calls, call.version = u) ↔ u = v := by
  constructor
  · rintro ⟨call, hcall, rfl⟩
    exact h.version_eq call hcall
  · rintro rfl
    have hne : calls ≠ [] := by cases h <;> exact List.cons_ne_nil _ _
    obtain ⟨call, hcall⟩ := List.exists_mem_of_ne_nil calls hne
    exact ⟨call, hcall, h.version_eq call hcall⟩

/-- The calls are for the versions for which the installer has been consulted. -/
lemma Consults.mem_iff {asked : List Version} {calls : List InstallerCall}
    (h : Consults asked calls) (v : Version) :
    v ∈ asked ↔ ∃ call ∈ calls, call.version = v := by
  induction h with
  | never => simp
  | next h hattempt ih =>
    simp only [List.mem_append, List.mem_singleton, or_and_right, exists_or, ih,
      hattempt.exists_call_iff]

/-! ### A check of a new version -/

/-- A cache has the environments of some versions, and of no others. -/
structure EnvironmentCache.Holds (c : EnvironmentCache) (vs : List Version) : Prop where
  oneSlotEach : c.OneSlotEach
  exists_environment?_iff : ∀ v, (∃ e, c.environment? v = some e) ↔ v ∈ vs

namespace EnvironmentCache.Holds

variable {c : EnvironmentCache} {vs : List Version} {v : Version}

lemma new : Holds {} [] where
  oneSlotEach := List.nodup_nil
  exists_environment?_iff _ := ⟨nofun, nofun⟩

/-- There is nothing in the cache for another version. -/
lemma environment?_eq_none (h : c.Holds vs) (hv : v ∉ vs) : c.environment? v = none :=
  Option.eq_none_iff_forall_ne_some.mpr fun e he => hv ((h.exists_environment?_iff v).mp ⟨e, he⟩)

/-- One more version has an environment. -/
lemma store (h : c.Holds vs) (e : Environment) :
    ((c.withSlot e.version).store e).Holds (vs ++ [e.version]) where
  oneSlotEach := (h.oneSlotEach.withSlot _).store e
  exists_environment?_iff u := by
    rw [environment?_store, environment?_withSlot, List.mem_append, List.mem_singleton,
      ← h.exists_environment?_iff]
    split
    · rename_i hu
      simp [hu]
    · rename_i hu
      simp [hu]

/-- The size of a cache is the number of versions that it has. -/
lemma size_eq (h : c.Holds vs) (hnodup : vs.Nodup) : c.size = vs.length := by
  have hset : {v | ∃ e, c.environment? v = some e} = (vs.toFinset : Set Version) := by
    ext v
    rw [List.coe_toFinset]
    exact h.exists_environment?_iff v
  rw [h.oneSlotEach.size_eq_ncard, hset, Set.ncard_coe_finset, List.toFinset_card_of_nodup hnodup]

end EnvironmentCache.Holds

/-- The check of a version that is not in the cache makes one attempt, and has no result unless the
environment has been stored. -/
lemma TestPackage.exists_run_checkCached (i : Installer (StateM W)) (p : TestPackage) {v : Version}
    {c : EnvironmentCache} (hv : c.environment? v = none) (w : W) (log : List InstallerCall) :
    ∃ verdict c' w' calls made,
      ((p.checkCached i.recorded.lift v).run c).run (w, log) = ((verdict, c'), w', log ++ calls) ∧
      Attempt v calls made ∧
      ∀ failures, verdict = .ok failures →
        ∃ e : Environment, e.version = v ∧ c' = (c.withSlot e.version).store e := by
  obtain ⟨calls, hattempt, hrecorded⟩ := exists_attempt_recorded i v w log
  rw [run_checkCached, EnvironmentCache.exec_get, hv]
  dsimp only
  rw [hrecorded]
  rcases i.attempt v w with ⟨fault | x, w'⟩
  · exact ⟨_, _, _, calls, _, rfl, hattempt, nofun⟩
  · exact ⟨_, _, _, calls, _, rfl, hattempt, fun _ _ => ⟨_, rfl, rfl⟩⟩

/-! ### Observing a check -/

/-- All that can be seen of the check of a package. -/
structure Observation (W : Type) where
  result : Except CheckError Outcome
  /-- The search after its run. -/
  search : Search
  /-- The versions for which the search has called its checker, in order. -/
  asked : List Version
  cache : EnvironmentCache
  world : W
  /-- The calls that have reached the installer, in order. -/
  calls : List InstallerCall

namespace Observation

/-- What is left after the run of a search with a checker that takes notes, over an installer that
keeps a log. -/
def ofRun : (((Except CheckError Outcome × Search) × List Version) × EnvironmentCache) ×
    W × List InstallerCall → Observation W
  | ((((result, search), asked), cache), world, calls) =>
    { result, search, asked, cache, world, calls }

/-- The versions that a search reports as checked, or keeps as such when it is broken off. -/
def checked (r : Observation W) : List Version :=
  match r.result with
  | .ok o => o.checked
  | .error _ => r.search.checked

/-- Nothing is installed or loaded that the search does not check. -/
structure Lazy (l : VersionList) (r : Observation W) : Prop where
  checked_eq : r.checked = r.asked
  /-- Each version that is checked leads to one attempt, in the order of the checks. -/
  consults : Consults r.asked r.calls
  mem_asked_iff : ∀ v, v ∈ r.asked ↔ ∃ call ∈ r.calls, call.version = v
  nodup_asked : r.asked.Nodup
  isPrefix : r.asked <+: l.route
  exists_environment?_iff : ∀ o, r.result = .ok o →
    ∀ v, (∃ e, r.cache.environment? v = some e) ↔ v ∈ o.checked
  size_eq : ∀ o, r.result = .ok o → r.cache.size = o.checked.length

/-- How a search ends that goes along some versions. -/
structure EndsAlong (route : List Version) (r : Observation W) : Prop where
  checked_eq : r.checked = r.asked
  consults : Consults r.asked r.calls
  isPrefix : r.asked <+: route
  holds : ∀ o, r.result = .ok o → r.cache.Holds r.asked

/-- A search that goes along different versions has checked what it has consulted the installer
for. -/
lemma EndsAlong.lazy {l : VersionList} {r : Observation W} (h : r.EndsAlong l.route) :
    r.Lazy l := by
  have hnodup : r.asked.Nodup := l.nodup_route.sublist h.isPrefix.sublist
  have hchecked (o : Outcome) (ho : r.result = .ok o) : o.checked = r.asked := by
    rw [← h.checked_eq, checked, ho]
  refine ⟨h.checked_eq, h.consults, h.consults.mem_iff, hnodup, h.isPrefix, fun o ho => ?_,
    fun o ho => ?_⟩
  · rw [hchecked o ho]
    exact (h.holds o ho).exists_environment?_iff
  · rw [hchecked o ho]
    exact (h.holds o ho).size_eq hnodup

end Observation

namespace TestPackage

/-- The check of a package on a new cache, as it is seen from both sides. -/
def observe (i : Installer (StateM W)) (p : TestPackage) (l : VersionList) (w : W) :
    Observation W :=
  let search := Search.run (Search.noted (p.checkCached i.recorded.lift)) p.name l
  .ofRun ((((search.run.run {}).run []).run {}).run (w, []))

/-- The rest of such a check: a dialogue of its search, the versions asked for so far, the cache,
the world and the calls so far. -/
def observeFrom (i : Installer (StateM W)) (p : TestPackage)
    (d : Dialogue (Except CheckError Outcome × Search)) (asked : List Version)
    (c : EnvironmentCache) (w : W) (calls : List InstallerCall) : Observation W :=
  let search := d.conduct (Search.noted (p.checkCached i.recorded.lift))
  .ofRun (((search.run asked).run c).run (w, calls))

variable (i : Installer (StateM W)) (p : TestPackage)

/-- A check is observed from the start of the dialogue of its search. -/
lemma observe_eq (l : VersionList) (w : W) :
    p.observe i l w =
      p.observeFrom i ((Search.run Dialogue.check p.name l).run.run {}) [] {} w [] := by
  have hconduct := (Search.isDialogueOf_run
    (Search.noted (p.checkCached i.recorded.lift)) p.name l).conduct_run {}
  rw [observe, observeFrom, hconduct]

/-- A check is observed on behind the answer to its next question. -/
lemma observeFrom_ask {v : Version} {c c' : EnvironmentCache} {w w' : W}
    {calls calls' : List InstallerCall} {verdict : Verdict}
    (h : ((p.checkCached i.recorded.lift v).run c).run (w, calls) = ((verdict, c'), w', calls'))
    (next : Verdict → Dialogue (Except CheckError Outcome × Search)) (asked : List Version) :
    p.observeFrom i (.ask v next) asked c w calls =
      p.observeFrom i (next verdict) (asked ++ [v]) c' w' calls' := by
  rw [observeFrom, Dialogue.conduct, StateT.run_bind, Search.run_noted, bind_assoc, StateT.run_bind,
    StateT.run_bind, h]
  rfl

/-- A search that goes along versions that differ makes an attempt for each of those that it
checks.  The cache has the environments of those that it has checked. -/
lemma endsAlong_observeFrom {checked ahead : List Version}
    {d : Dialogue (Except CheckError Outcome × Search)} (hd : Search.Proceeds checked ahead d)
    (hnodup : (checked ++ ahead).Nodup) {c : EnvironmentCache} (hc : c.Holds checked)
    {calls : List InstallerCall} (hcalls : Consults checked calls) (w : W) :
    (p.observeFrom i d checked c w calls).EndsAlong (checked ++ ahead) := by
  induction hd generalizing c calls w with
  | ended ahead s h => exact ⟨h, hcalls, List.prefix_append _ _, fun _ _ => hc⟩
  | @next checked ahead v next aborted passed ih =>
    have hv : v ∉ checked := fun hmem =>
      List.disjoint_of_nodup_append hnodup hmem List.mem_cons_self
    obtain ⟨verdict, c', w', block, made, hrun, hattempt, hstored⟩ :=
      p.exists_run_checkCached i (hc.environment?_eq_none hv) w calls
    have hsplit : checked ++ v :: ahead = checked ++ [v] ++ ahead := by
      rw [List.append_assoc, List.singleton_append]
    rw [hsplit] at hnodup ⊢
    rw [observeFrom_ask i p hrun]
    cases verdict with
    | error e =>
      -- The search breaks off with this version as the last one.
      obtain ⟨s, hs, hchecked⟩ := aborted e
      rw [hs]
      exact ⟨hchecked, hcalls.next hattempt, List.prefix_append _ _, nofun⟩
    | ok failures =>
      obtain ⟨e, rfl, rfl⟩ := hstored failures rfl
      exact ih failures hnodup (hc.store e) (hcalls.next hattempt) w'

/-- A check with notes of the versions asked for is the same check. -/
lemma run_check_recorded (l : VersionList) (w : W) :
    ((p.check i.recorded.lift l).run {}).run (w, []) =
      (((p.observe i l w).result, (p.observe i l w).cache), (p.observe i l w).world,
        (p.observe i l w).calls) := by
  have hconduct := (Search.isDialogueOf_run (p.checkCached i.recorded.lift) p.name l).conduct_run {}
  rw [check, ← hconduct, ← Dialogue.forget_conduct_noted _ _ [], observe_eq, observeFrom]
  rfl

/-- The check of a version does not notice that the calls of its installer are written to a log. -/
lemma forget_log_checkCached (v : Version) (c : EnvironmentCache) (w : W)
    (log : List InstallerCall) :
    Prod.map id Prod.fst (((p.checkCached i.recorded.lift v).run c).run (w, log)) =
      ((p.checkCached i.lift v).run c).run w := by
  rw [run_checkCached, run_checkCached, EnvironmentCache.exec_get, EnvironmentCache.exec_get]
  cases c.environment? v with
  | some e => rfl
  | none =>
    obtain ⟨calls, -, hrecorded⟩ := exists_attempt_recorded i v w log
    dsimp only
    rw [hrecorded]
    rcases i.attempt v w with ⟨_ | x, w'⟩
    · rfl
    · rfl

/-- A dialogue does not notice that the calls of the installer are written to a log. -/
lemma forget_log_conduct {α : Type} (d : Dialogue α) (c : EnvironmentCache) (w : W)
    (log : List InstallerCall) :
    Prod.map id Prod.fst (((d.conduct (p.checkCached i.recorded.lift)).run c).run (w, log)) =
      ((d.conduct (p.checkCached i.lift)).run c).run w := by
  induction d generalizing c w log with
  | result a => rfl
  | ask v next ih =>
    have hcheck := p.forget_log_checkCached i v c w log
    rw [Dialogue.conduct, Dialogue.conduct, StateT.run_bind, StateT.run_bind, StateT.run_bind,
      StateT.run_bind, ← hcheck]
    exact ih _ _ _ _

/-- The check of a package does not notice that the calls of its installer are written to a log. -/
lemma forget_log_checkWith (o : RunOptions) (w : W) :
    Prod.map id Prod.fst (((p.checkWith i.recorded.lift o).run {}).run (w, [])) =
      ((p.checkWith i.lift o).run {}).run w := by
  rw [checkWith, checkWith]
  cases VersionList.ofOptions o with
  | error e => rfl
  | ok l =>
    dsimp only
    rw [← conduct_dialogue, ← conduct_dialogue]
    exact p.forget_log_conduct i (p.dialogue l) {} w []

/-- Whatever the answers of the installer are, the check of a package on a new cache installs and
loads nothing but what it checks.  Options that select no versions lead to their error, before
anything is asked of the installer.  Under the versions of all other options, the installer is
consulted once for each version that the search checks, in the same order, and after a search that
is not broken off the cache has these versions and no others. -/
theorem installsLazily_checkWith (o : RunOptions) (w : W) :
    Prod.map id Prod.fst (((p.checkWith i.recorded.lift o).run {}).run (w, [])) =
        ((p.checkWith i.lift o).run {}).run w ∧
      match VersionList.ofOptions o with
      | .error e =>
        ((p.checkWith i.recorded.lift o).run {}).run (w, []) = ((.error (.versions e), {}), w, [])
      | .ok l =>
        ((p.checkWith i.recorded.lift o).run {}).run (w, []) =
            (((p.observe i l w).result, (p.observe i l w).cache), (p.observe i l w).world,
              (p.observe i l w).calls) ∧
          (p.observe i l w).Lazy l := by
  refine ⟨p.forget_log_checkWith i o w, ?_⟩
  rw [checkWith]
  cases VersionList.ofOptions o with
  | error e => rfl
  | ok l =>
    refine ⟨p.run_check_recorded i l w, ?_⟩
    rw [observe_eq]
    have hroute := Search.proceeds_run p.name l {}
    exact (p.endsAlong_observeFrom i hroute l.nodup_route .new .never w).lazy

end TestPackage

end InlineExpect
