import JavaOutline.Depth
import JavaOutline.Error
import JavaOutline.Glob.Match
import JavaOutline.Glob.Parser

/-!
The settings of an inspection: how deep it descends, which paths it leaves out, and whether it looks
at types that are not public. This is `Config` with `validate`, `exclusions` and `is_path_excluded`.
-/
namespace JavaOutline

structure Settings where
  maxDepth : Nat := defaultDepth
  excludedPaths : List String := []
  includeNonPublic : Bool := false
deriving DecidableEq, Repr, Inhabited

namespace Settings

def exclusion (text : String) : Except SettingsFault Glob.Pattern :=
  (Glob.parse text).mapError (SettingsFault.badPattern text)

/-- The patterns of the paths that are left out; the first bad one is reported. -/
def exclusions (settings : Settings) : Except SettingsFault (List Glob.Pattern) :=
  settings.excludedPaths.mapM exclusion

/-- Whether a path is left out. With a bad pattern among them, the patterns leave out nothing. -/
def isExcluded (settings : Settings) (path : String) : Bool :=
  match settings.exclusions with
  | .ok patterns => patterns.any fun pattern => Glob.isMatch pattern path
  | .error _ => false

/-- Refuses settings with a depth out of range or a bad pattern; the depth is looked at first. -/
def checked (settings : Settings) : Except SettingsFault Settings :=
  if settings.maxDepth = 0 || settings.maxDepth > largestDepth then .error .depthOutOfRange
  else settings.exclusions.map fun _ => settings

end Settings

end JavaOutline
