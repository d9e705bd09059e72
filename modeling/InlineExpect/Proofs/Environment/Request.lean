import Mathlib
import InlineExpect.Proofs.Environment.Slots

/-!
# Requests of a cache

An installer is taken here as a machine with a state of its own, the world, in which every call may
have any answer.  What a request of a cache does is then an equation: `EnvironmentCache.exec_get`
says it in terms of what the cache has and of an attempt of the installer (`Installer.attempt`),
which is the only part of a request that reaches the world.
-/

namespace InlineExpect

variable {W α β : Type}

/-- Computations on a cache, in a world that is changed by an installer. -/
abbrev CacheM (W : Type) : Type → Type := StateT EnvironmentCache (StateM W)

namespace Installer

/-- The installer of a cache, which it cannot reach itself. -/
def lift (i : Installer (StateM W)) : Installer (CacheM W) where
  isInstalled v := StateT.lift (i.isInstalled v)
  install v := StateT.lift (i.install v)
  load v := StateT.lift (i.load v)

/-- An attempt to install and load a version: whether it had to be installed and what was loaded, or
the first fault, and the world after it. -/
def attempt (i : Installer (StateM W)) (v : Version) (w : W) :
    Except InstallFault (Bool × EngineFactory) × W :=
  match (i.isInstalled v).run w with
  | (.error fault, w₁) => (.error fault, w₁)
  | (.ok true, w₁) => (((i.load v).run w₁).1.map (false, ·), ((i.load v).run w₁).2)
  | (.ok false, w₁) =>
    match (i.install v).run w₁ with
    | (.error fault, w₂) => (.error fault, w₂)
    | (.ok (), w₂) => (((i.load v).run w₂).1.map (true, ·), ((i.load v).run w₂).2)

end Installer

namespace EnvironmentCache

/-- The result, the cache and the world after a part of a request. -/
def exec (x : ExceptT InstallFault (CacheM W) α) (c : EnvironmentCache) (w : W) :
    (Except InstallFault α × EnvironmentCache) × W := (x.run.run c).run w

/-- A request goes on with the result of its first part, or ends with its fault. -/
lemma exec_bind (x : ExceptT InstallFault (CacheM W) α) (f : α → ExceptT InstallFault (CacheM W) β)
    (c : EnvironmentCache) (w : W) :
    exec (x >>= f) c w =
      match exec x c w with
      | ((.ok a, c'), w') => exec (f a) c' w'
      | ((.error fault, c'), w') => ((.error fault, c'), w') := by
  unfold exec
  rw [ExceptT.run_bind, StateT.run_bind, StateT.run_bind]
  simp only [bind]
  rcases (x.run.run c).run w with ⟨⟨_ | a, c'⟩, w'⟩
  · rfl
  · rfl

/-- A call of the installer leaves the cache as it is. -/
lemma exec_lift (x : StateM W (Except InstallFault α)) (c : EnvironmentCache) (w : W) :
    exec (ExceptT.mk (StateT.lift x)) c w = (((x.run w).1, c), (x.run w).2) := rfl

variable (i : Installer (StateM W)) (v : Version) (c : EnvironmentCache) (w : W)

lemma exec_load (installedHere : Bool) :
    exec (do return (installedHere, ← ExceptT.mk (i.lift.load v))) c w =
      ((((i.load v).run w).1.map (installedHere, ·), c), ((i.load v).run w).2) := by
  rw [exec_bind, Installer.lift, exec_lift]
  rcases (i.load v).run w with ⟨_ | factory, w'⟩
  · rfl
  · rfl

/-- The making of an environment is an attempt of the installer. -/
lemma exec_construct :
    exec (construct i.lift v) c w = (((i.attempt v w).1, c), (i.attempt v w).2) := by
  have hinstalled : exec (ExceptT.mk (i.lift.isInstalled v)) c w = _ :=
    exec_lift (i.isInstalled v) c w
  rw [construct, exec_bind, hinstalled, Installer.attempt]
  rcases (i.isInstalled v).run w with ⟨_ | _ | _, w₁⟩
  · rfl
  · have hinstall : exec (ExceptT.mk (i.lift.install v)) c w₁ = _ :=
      exec_lift (i.install v) c w₁
    change exec (ExceptT.mk (i.lift.install v) >>= fun _ => _) c w₁ = _
    rw [exec_bind, hinstall]
    dsimp only
    rcases (i.install v).run w₁ with ⟨_ | _, w₂⟩
    · rfl
    · exact exec_load i v c w₂ true
  · exact exec_load i v c w₁ false

/-- A request is answered from the cache, or by an attempt of the installer that is stored if it
succeeds. -/
lemma exec_get :
    exec (get i.lift v) c w =
      match c.environment? v with
      | some e => ((.ok e, c.withSlot v), w)
      | none =>
        match i.attempt v w with
        | (.error fault, w') => ((.error fault, c.withSlot v), w')
        | (.ok x, w') =>
          ((.ok ⟨v, x.1, x.2, c.made⟩, (c.withSlot v).store ⟨v, x.1, x.2, c.made⟩), w') := by
  have hslot : exec (modifyThe EnvironmentCache (·.withSlot v) :
      ExceptT InstallFault (CacheM W) Unit) c w = ((.ok (), c.withSlot v), w) := rfl
  have hcache : exec (getThe EnvironmentCache : ExceptT InstallFault (CacheM W) EnvironmentCache)
      (c.withSlot v) w = ((.ok (c.withSlot v), c.withSlot v), w) := rfl
  rw [get, exec_bind, hslot]
  dsimp only
  rw [exec_bind, hcache]
  dsimp only
  rw [environment?_withSlot]
  cases c.environment? v with
  | some e => rfl
  | none =>
    dsimp only
    rw [exec_bind, exec_construct]
    rcases i.attempt v w with ⟨_ | x, w'⟩
    · rfl
    · rfl

end EnvironmentCache

end InlineExpect
