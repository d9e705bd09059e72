import InlineExpect.Package.Error
import InlineExpect.Version.List

/-!
# Searching for the boundary

The version at which a package stops passing is looked for from above: first the highest version is
checked, then the lowest.  If both pass, those between are taken to pass as well.  If the lowest one
fails, the search goes down from the highest version to the first that fails.
-/

namespace InlineExpect

/-- The states of a search. -/
inductive SearchState where
  | checkHighest
  | checkLowest
  | bisecting
  | done
deriving DecidableEq, Repr, Inhabited

/-- A state in words. -/
def SearchState.text : SearchState → String
  | .checkHighest => "check-highest"
  | .checkLowest => "check-lowest"
  | .bisecting => "bisecting"
  | .done => "done"

/-- The number of states before the end of a search. -/
def SearchState.remaining : SearchState → Nat
  | .checkHighest => 3
  | .checkLowest => 2
  | .bisecting => 1
  | .done => 0

/-- What a search has found when it comes to its end.  The state is `SearchState.done` then, and a
boundary is always known, if only as the highest version where nothing fails, so that neither the
state nor the presence of a boundary is a field of its own. -/
structure Outcome where
  /-- The failures under the lowest failing version that was found, each with a note. -/
  failures : List Failure
  lowestFailing : Option Version
  /-- The version above it, or the highest one where nothing fails. -/
  highestPassing : Option Version
  /-- The versions that were checked, in order. -/
  checked : List Version
deriving DecidableEq, Repr

/-- Whether a package passes. -/
def Outcome.isPass (o : Outcome) : Bool := o.failures.isEmpty

/-- A search that can be run again and again. -/
structure Search where
  state : SearchState := .checkHighest
  /-- The versions that the current run has checked. -/
  checked : List Version := []
deriving DecidableEq, Repr

namespace Search

variable {m : Type → Type} [Monad m]

/-- A step of a search, which may break off. -/
abbrev SearchM (m : Type → Type) : Type → Type := ExceptT CheckError (StateT Search m)

/-- Checks a version. -/
def checkVersion (check : Version → m (Except CheckError (List Failure))) (v : Version) :
    SearchM m (List Failure) := do
  modify fun s => { s with checked := s.checked ++ [v] }
  ExceptT.mk (StateT.lift (check v))

/-- Goes over to another state. -/
def enter (state : SearchState) : SearchM m Unit := modify fun s => { s with state }

/-- Ends a run. -/
def finish (failures : List Failure) (lowestFailing highestPassing : Option Version) :
    SearchM m Outcome := do
  let s ← get
  set { s with state := .done, checked := [] : Search }
  return ⟨failures, lowestFailing, highestPassing, s.checked⟩

/-- Ends a run that found the boundary between two neighbours. -/
def finishAt (failing passing : Version) (failures : List Failure) : SearchM m Outcome :=
  let note := Template.boundary.format [passing.text, failing.text]
  finish (failures.map (·.annotate note)) (some failing) (some passing)

/-- Checks versions from the top down, the first of which lies below the version `above`.  If none
of them fails, the lowest version does. -/
def descend (check : Version → m (Except CheckError (List Failure))) (lowest : Version)
    (lowestFailures : List Failure) (above : Version) : List Version → SearchM m Outcome
  | [] => finishAt lowest above lowestFailures
  | v :: vs => do
    let failures ← checkVersion check v
    if failures.isEmpty then descend check lowest lowestFailures v vs
    else finishAt v above failures

/-- The versions between the lowest and the highest one, from the top down. -/
def interior (versions : VersionList) : List Version := versions.versions.tail.dropLast.reverse

/-- Goes on from a state to the end.  The failures of the lowest version are known as soon as the
search goes down. -/
def resume (check : Version → m (Except CheckError (List Failure))) (package : String)
    (versions : VersionList) (state : SearchState) (lowestFailures : Option (List Failure)) :
    SearchM m Outcome := do
  enter state
  match state with
  | .checkHighest =>
    let failures ← checkVersion check versions.highest
    if !failures.isEmpty then
      let note := Template.failsAtNewest.format [versions.highest.text]
      finish (failures.map (·.annotate note)) (some versions.highest) none
    else if versions.length = 1 then finish [] none (some versions.highest)
    else resume check package versions .checkLowest none
  | .checkLowest =>
    let failures ← checkVersion check versions.lowest
    if failures.isEmpty then finish [] none (some versions.highest)
    else resume check package versions .bisecting (some failures)
  | .bisecting =>
    match lowestFailures with
    | some failures =>
      descend check versions.lowest failures versions.highest (interior versions)
    | none =>
      throw (.unreachable package
        s!"bisecting without a failure at TypeScript@{versions.lowest.text}")
  | .done => throw (.unreachable package "bisection resumed after it finished")
termination_by state.remaining
decreasing_by all_goals simp [SearchState.remaining]

/-- Runs a search from the start. -/
def run (check : Version → m (Except CheckError (List Failure))) (package : String)
    (versions : VersionList) : SearchM m Outcome := do
  set ({} : Search)
  resume check package versions .checkHighest none

end Search

end InlineExpect
