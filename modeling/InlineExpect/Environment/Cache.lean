import InlineExpect.Environment.Installer

/-!
# The environment cache

Installing a version is expensive, so that every version is installed and loaded at most once.  The
cache has a slot for each version that was asked for.  A slot stays empty while no attempt to make
its environment has succeeded; a failed attempt is forgotten, and the next request tries again.
-/

namespace InlineExpect

/-- The environments that have been made since the cache was cleared. -/
structure EnvironmentCache where
  slots : List (Version × Option Environment) := []
  /-- The number of environments that were ever made. -/
  made : Nat := 0

namespace EnvironmentCache

/-- Sets the slot of a version. -/
def setSlot (v : Version) (slot : Option Environment) :
    List (Version × Option Environment) → List (Version × Option Environment)
  | [] => [(v, slot)]
  | (w, s) :: slots => if w = v then (v, slot) :: slots else (w, s) :: setSlot v slot slots

/-- The environment of a version, if it has been made. -/
def environment? (c : EnvironmentCache) (v : Version) : Option Environment :=
  (c.slots.lookup v).join

/-- The cache with a slot for a version, an empty one if there was none. -/
def withSlot (c : EnvironmentCache) (v : Version) : EnvironmentCache :=
  { c with slots := setSlot v (c.environment? v) c.slots }

/-- The cache with an environment in its slot. -/
def store (c : EnvironmentCache) (e : Environment) : EnvironmentCache :=
  ⟨setSlot e.version (some e) c.slots, c.made + 1⟩

/-- The cache without its slots. -/
def clear (c : EnvironmentCache) : EnvironmentCache := { c with slots := [] }

/-- The number of environments in the cache. -/
def size (c : EnvironmentCache) : Nat := (c.slots.filter (·.2.isSome)).length

/-- Whether the cache has no environment. -/
def isEmpty (c : EnvironmentCache) : Bool := c.size == 0

/-- A cache in a few words. -/
def summary (c : EnvironmentCache) : String :=
  s!"EnvironmentCache \x7b slots: {c.slots.length}, .. \x7d"

variable {m : Type → Type} [Monad m]

/-- Installs a version unless it is installed already, and loads it.  The answer is whether it had
to be installed, and what was loaded. -/
def construct (i : Installer m) (v : Version) : ExceptT InstallFault m (Bool × EngineFactory) := do
  let installed ← ExceptT.mk (i.isInstalled v)
  unless installed do
    ExceptT.mk (i.install v)
  let factory ← ExceptT.mk (i.load v)
  return (!installed, factory)

/-- The environment of a version, which is made on the first request. -/
def get [MonadStateOf EnvironmentCache m] (i : Installer m) (v : Version) :
    ExceptT InstallFault m Environment := do
  modifyThe EnvironmentCache (·.withSlot v)
  match (← getThe EnvironmentCache).environment? v with
  | some e => return e
  | none =>
    let (installedHere, factory) ← construct i v
    let e : Environment := ⟨v, installedHere, factory, (← getThe EnvironmentCache).made⟩
    modifyThe EnvironmentCache (·.store e)
    return e

end EnvironmentCache

end InlineExpect
