import InlineExpect.Options.Basic
import InlineExpect.Version.List

/-!
# Selecting versions

The versions that the options of a run select: the declared ones up to the newest one supported, and
the unreleased one where it is asked for.
-/

namespace InlineExpect.VersionList

/-- The newest version that the options allow, the unreleased one unless they say otherwise. -/
def cap (o : RunOptions) : Except VersionError Version :=
  match o.maxVersion with
  | some text => Version.ofText text
  | none => .ok .next

/-- The declared versions up to a cap, and `next` where it is asked for and allowed. -/
def select (declared : List Version) (includeNext : Bool) (cap : Version) : List Version :=
  let kept := declared.filter fun v => v ≤ cap
  if includeNext && cap.isNext && kept.getLast? != some .next then kept ++ [.next] else kept

/-- The versions that the options of a run select. -/
def ofOptions (o : RunOptions) : Except VersionError VersionList :=
  if o.onlyTestNext then ofList [.next]
  else do
    let cap ← cap o
    let declared ← o.versions.mapM Version.ofText
    ofList (select declared o.includeNext cap)

end InlineExpect.VersionList
