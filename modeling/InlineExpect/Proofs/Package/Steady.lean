import Mathlib
import InlineExpect.Package.Check
import InlineExpect.Proofs.Boundary.Dialogue
import InlineExpect.Proofs.Environment.Request

/-!
# Steady installers

An installer is steady if its answers depend on the version alone (`Installer.Steady`).  Packages
that share a cache over such an installer leave it in different states, by what they have asked for,
but in none of these states a package can tell the difference (`SteadyAnswers.Reached`): whatever
is memoized, installed or has failed before, the check of a version has the verdict that it has in
the beginning (`TestPackage.yields_checkCached`).
-/

namespace InlineExpect

variable {W α β : Type}

/-! ### Computations with a steady result -/

/-- From every state of a kind, a computation has the result `a` and stays in this kind. -/
def Yields (good : EnvironmentCache → W → Prop) (x : CacheM W α) (a : α) : Prop :=
  ∀ c w, good c w → ∃ c' w', (x.run c).run w = ((a, c'), w') ∧ good c' w'

section Yields

variable {good : EnvironmentCache → W → Prop} {x : CacheM W α} {a : α}

lemma yields_pure (good : EnvironmentCache → W → Prop) (a : α) :
    Yields good (pure a : CacheM W α) a :=
  fun c w h => ⟨c, w, rfl, h⟩

/-- Computations with steady results follow each other. -/
lemma Yields.bind (h : Yields good x a) {f : α → CacheM W β} {b : β} (hf : Yields good (f a) b) :
    Yields good (x >>= f) b := by
  intro c w hgood
  obtain ⟨c', w', hrun, hgood'⟩ := h c w hgood
  obtain ⟨c'', w'', hrun', hgood''⟩ := hf c' w' hgood'
  refine ⟨c'', w'', ?_, hgood''⟩
  rw [StateT.run_bind, StateT.run_bind, hrun]
  exact hrun'

/-- A steady computation for each entry of a list. -/
lemma yields_mapM {f : α → CacheM W β} {g : α → β} (h : ∀ a, Yields good (f a) (g a))
    (as : List α) : Yields good (as.mapM f) (as.map g) := by
  induction as with
  | nil => exact yields_pure good []
  | cons a as ih =>
    rw [List.mapM_cons]
    exact (h a).bind (ih.bind (yields_pure good _))

/-- A steady computation for each entry of a list, on what the last one has left. -/
lemma yields_foldlM {f : β → α → CacheM W β} {g : β → α → β}
    (h : ∀ b a, Yields good (f b a) (g b a)) (as : List α) (b : β) :
    Yields good (as.foldlM f b) (as.foldl g b) := by
  induction as generalizing b with
  | nil => exact yields_pure good b
  | cons a as ih =>
    rw [List.foldlM_cons]
    exact (h b a).bind (ih (g b a))

/-- A dialogue that is conducted with steady verdicts has a steady end. -/
lemma yields_conduct {check : Version → CacheM W Verdict} {verdicts : Version → Verdict}
    (h : ∀ v, Yields good (check v) (verdicts v)) (d : Dialogue α) :
    Yields good (d.conduct check) (d.ending verdicts) := by
  induction d with
  | result a => exact yields_pure good a
  | ask v next ih => exact (h v).bind (ih (verdicts v))

/-- A turn of a dialogue with steady verdicts. -/
lemma yields_turn {check : Version → CacheM W Verdict} {verdicts : Version → Verdict}
    (h : ∀ v, Yields good (check v) (verdicts v)) (d : Dialogue α) :
    Yields good (d.turn check) (d.answered verdicts) := by
  cases d with
  | result a => exact yields_pure good _
  | ask v next => exact (h v).bind (yields_pure good _)

end Yields

/-! ### Installers with steady answers -/

/-- What the answers of an installer are taken from. -/
structure SteadyAnswers (W : Type) where
  installed : W → Version → Bool
  installs : Version → Except InstallationError Unit
  loads : Version → Except InstallationError EngineFactory

/-- The answers of an installer depend on the version alone.  A version is installed if it was from
the start, or has been installed since. -/
structure Installer.Steady (i : Installer (StateM W)) (a : SteadyAnswers W) : Prop where
  isInstalled : ∀ v w, ((i.isInstalled v).run w).1 = .ok (a.installed w v)
  install : ∀ v w, ((i.install v).run w).1 = (a.installs v).mapError .failed
  load : ∀ v w, ((i.load v).run w).1 = (a.loads v).mapError .failed
  installed_isInstalled : ∀ v w, a.installed ((i.isInstalled v).run w).2 = a.installed w
  installed_install : ∀ v w u, a.installed ((i.install v).run w).2 u =
    (a.installed w u || (u == v && (a.installs v).toBool))
  installed_load : ∀ v w, a.installed ((i.load v).run w).2 = a.installed w

namespace SteadyAnswers

variable (a : SteadyAnswers W) {w₀ w w' : W} {c : EnvironmentCache} {v : Version}

/-- What a version comes to in a world: it is installed if it has to be, and loaded. -/
def obtained (w : W) (v : Version) : Except InstallationError EngineFactory :=
  if a.installed w v then a.loads v else a.installs v >>= fun _ => a.loads v

/-- All versions come to the same in two worlds: what is installed in the first one is installed in
the second one, and what is installed in the second one is installed in the first one or can be. -/
def Alike (w₀ w : W) : Prop :=
  ∀ v, (a.installed w₀ v → a.installed w v) ∧
    (a.installed w v → a.installed w₀ v ∨ a.installs v = .ok ())

/-- A cache and a world that requests can lead to from an empty cache and the world `w₀`. -/
structure Reached (w₀ : W) (c : EnvironmentCache) (w : W) : Prop where
  alike : a.Alike w₀ w
  environment : ∀ v e, c.environment? v = some e →
    e.version = v ∧ a.obtained w₀ v = .ok e.factory

variable {a}

lemma reached_empty (a : SteadyAnswers W) (w : W) : a.Reached w {} w where
  alike v := ⟨id, .inl⟩
  environment v e h := by cases h

/-- A version that is installed is only loaded, in the beginning as well. -/
lemma Alike.obtained_of_installed (h : a.Alike w₀ w) (hv : a.installed w v = true) :
    a.obtained w₀ v = a.loads v := by
  rw [obtained]
  rcases (h v).2 hv with hv₀ | hinstalls
  · rw [if_pos hv₀]
  · rw [hinstalls]
    exact ite_self _

/-- A version that is not installed is installed first, in the beginning as well. -/
lemma Alike.obtained_of_not_installed (h : a.Alike w₀ w) (hv : a.installed w v = false) :
    a.obtained w₀ v = a.installs v >>= fun _ => a.loads v := by
  have hv₀ : ¬ a.installed w₀ v = true := fun hv₀ => by
    rw [(h v).1 hv₀] at hv
    cases hv
  rw [obtained, if_neg hv₀]

/-- Worlds with the same installed versions are alike to the same worlds. -/
lemma Alike.of_installed_eq (h : a.Alike w₀ w) (hw : a.installed w' = a.installed w) :
    a.Alike w₀ w' := by
  intro v
  rw [hw]
  exact h v

/-- An installation leads to a world that is alike. -/
lemma Alike.install {i : Installer (StateM W)} (hi : i.Steady a) (h : a.Alike w₀ w)
    (v : Version) : a.Alike w₀ ((i.install v).run w).2 := by
  intro u
  rw [hi.installed_install]
  constructor
  · intro hu
    rw [(h u).1 hu, Bool.true_or]
  · intro hu
    rcases Bool.or_eq_true_iff.mp hu with hu | hu
    · exact (h u).2 hu
    · obtain ⟨huv, hinstalls⟩ := Bool.and_eq_true_iff.mp hu
      obtain rfl := beq_iff_eq.mp huv
      right
      cases hu : a.installs u with
      | ok x => rfl
      | error e =>
        rw [hu] at hinstalls
        cases hinstalls

end SteadyAnswers

namespace Installer.Steady

variable {i : Installer (StateM W)} {a : SteadyAnswers W} {w₀ w : W}

/-- An attempt comes to what the version came to in the beginning. -/
lemma attempt_eq (hi : i.Steady a) (h : a.Alike w₀ w) (v : Version) :
    ∃ installedHere w', a.Alike w₀ w' ∧ i.attempt v w =
      (((a.obtained w₀ v).mapError .failed).map (installedHere, ·), w') := by
  have hinstalled := hi.isInstalled v w
  have halike := h.of_installed_eq (hi.installed_isInstalled v w)
  rw [Installer.attempt]
  rcases hrun : (i.isInstalled v).run w with ⟨answer, w₁⟩
  rw [hrun] at hinstalled halike
  obtain rfl : answer = .ok (a.installed w v) := hinstalled
  cases hv : a.installed w v with
  | true =>
    refine ⟨false, _, halike.of_installed_eq (hi.installed_load v w₁), ?_⟩
    rw [h.obtained_of_installed hv]
    exact congrArg (·.map (false, ·), _) (hi.load v w₁)
  | false =>
    have hinstall := hi.install v w₁
    have halike' := halike.install hi v
    rw [h.obtained_of_not_installed hv]
    dsimp only
    rcases hrun : (i.install v).run w₁ with ⟨answer, w₂⟩
    rw [hrun] at hinstall halike'
    obtain rfl : answer = (a.installs v).mapError .failed := hinstall
    cases a.installs v with
    | error e => exact ⟨true, w₂, halike', rfl⟩
    | ok x =>
      refine ⟨true, _, halike'.of_installed_eq (hi.installed_load v w₂), ?_⟩
      exact congrArg (·.map (true, ·), _) (hi.load v w₂)

/-- A request comes to what the version came to in the beginning, whether it is answered from the
cache or not. -/
lemma exec_get_eq (hi : i.Steady a) {c : EnvironmentCache} (h : a.Reached w₀ c w) (v : Version) :
    ∃ result c' w',
      EnvironmentCache.exec (EnvironmentCache.get i.lift v) c w = ((result, c'), w') ∧
      a.Reached w₀ c' w' ∧
      result.map (fun e => (e.version, e.factory)) =
        ((a.obtained w₀ v).mapError .failed).map (v, ·) := by
  rw [EnvironmentCache.exec_get]
  cases he : c.environment? v with
  | some e =>
    obtain ⟨hversion, hfactory⟩ := h.environment v e he
    refine ⟨.ok e, c.withSlot v, w, rfl, ⟨h.alike, fun u e' he' => ?_⟩, ?_⟩
    · exact h.environment u e' ((EnvironmentCache.environment?_withSlot c u v).symm.trans he')
    · rw [hfactory, ← hversion]
      rfl
  | none =>
    obtain ⟨installedHere, w', halike, hattempt⟩ := hi.attempt_eq h.alike v
    dsimp only
    rw [hattempt]
    cases hobtained : a.obtained w₀ v with
    | error e =>
      refine ⟨.error (.failed e), c.withSlot v, w', rfl, ⟨halike, fun u e' he' => ?_⟩, rfl⟩
      exact h.environment u e' ((EnvironmentCache.environment?_withSlot c u v).symm.trans he')
    | ok factory =>
      set made : Environment := ⟨v, installedHere, factory, c.made⟩
      refine ⟨.ok made, (c.withSlot v).store made, w', rfl, ⟨halike, fun u e' he' => ?_⟩, rfl⟩
      rw [EnvironmentCache.environment?_store, EnvironmentCache.environment?_withSlot] at he'
      split at he'
      · rename_i huv
        obtain rfl := Option.some.inj he'
        exact ⟨huv.symm, huv ▸ hobtained⟩
      · exact h.environment u e' he'

end Installer.Steady

/-- An installer that remembers nothing but the versions that it has installed. -/
def Installer.ofAnswers (installs : Version → Except InstallationError Unit)
    (loads : Version → Except InstallationError EngineFactory) :
    Installer (StateM (List Version)) where
  isInstalled v w := (.ok (w.contains v), w)
  install v w := ((installs v).mapError .failed, if (installs v).toBool then v :: w else w)
  load v w := ((loads v).mapError .failed, w)

/-- An installer that remembers nothing but the versions that it has installed is steady. -/
lemma Installer.steady_ofAnswers (installs : Version → Except InstallationError Unit)
    (loads : Version → Except InstallationError EngineFactory) :
    (Installer.ofAnswers installs loads).Steady ⟨fun w v => w.contains v, installs, loads⟩ where
  isInstalled _ _ := rfl
  install _ _ := rfl
  load _ _ := rfl
  installed_isInstalled _ _ := rfl
  installed_install v w u := by
    change (if (installs v).toBool then v :: w else w).contains u = _
    cases (installs v).toBool with
    | false => rw [if_neg Bool.false_ne_true, Bool.and_false, Bool.or_false]
    | true => rw [if_pos rfl, List.contains_cons, Bool.and_true, Bool.or_comm]
  installed_load _ _ := rfl

/-! ### Checks over a steady installer -/

namespace TestPackage

/-- The check of a package does not see whether a version had to be installed, nor when. -/
lemma checkVersion_congr (p : TestPackage) {e e' : Environment} (hversion : e.version = e'.version)
    (hfactory : e.factory = e'.factory) : p.checkVersion e = p.checkVersion e' := by
  rw [checkVersion, checkVersion, Environment.oracle, Environment.oracle, hversion, hfactory]

/-- What the check of a version comes to in a world. -/
def verdict (p : TestPackage) (a : SteadyAnswers W) (w : W) (v : Version) : Verdict :=
  match a.obtained w v with
  | .error e => .error (.installation e)
  | .ok factory => p.checkVersion ⟨v, false, factory, 0⟩

variable {i : Installer (StateM W)} {a : SteadyAnswers W}

/-- A check is a request for the environment and the check under it. -/
lemma run_checkCached (i : Installer (CacheM W)) (p : TestPackage) (v : Version)
    (c : EnvironmentCache) (w : W) :
    ((p.checkCached i v).run c).run w =
      match EnvironmentCache.exec (EnvironmentCache.get i v) c w with
      | ((.error fault, c'), w') => ((.error (.ofInstallFault fault), c'), w')
      | ((.ok e, c'), w') => ((p.checkVersion e, c'), w') := by
  rw [checkCached, StateT.run_bind, StateT.run_bind, EnvironmentCache.exec]
  rcases ((EnvironmentCache.get i v).run.run c).run w with ⟨⟨_ | e, c'⟩, w'⟩
  · rfl
  · rfl

/-- The check of a version has the verdict that it has in the beginning. -/
lemma yields_checkCached (hi : i.Steady a) (p : TestPackage) (w₀ : W) (v : Version) :
    Yields (a.Reached w₀) (p.checkCached i.lift v) (p.verdict a w₀ v) := by
  intro c w h
  obtain ⟨result, c', w', hget, hreached, hresult⟩ := hi.exec_get_eq h v
  refine ⟨c', w', ?_, hreached⟩
  rw [run_checkCached, hget, verdict]
  cases hobtained : a.obtained w₀ v with
  | error e =>
    rw [hobtained] at hresult
    cases result with
    | error fault =>
      obtain rfl : fault = .failed e := Except.error.inj hresult
      rfl
    | ok e' => cases hresult
  | ok factory =>
    rw [hobtained] at hresult
    cases result with
    | error fault => cases hresult
    | ok e =>
      obtain ⟨hversion, hfactory⟩ := Prod.mk.inj (Except.ok.inj hresult)
      have hsame : p.checkVersion e = p.checkVersion ⟨v, false, factory, 0⟩ :=
        p.checkVersion_congr hversion hfactory
      dsimp only
      rw [hsame]

end TestPackage

end InlineExpect
