import JavaOutline.Span
import JavaOutline.Text.Quoted

/-!
What can go wrong, as causes, and the one wording of each cause. Messages are those of `Error`, and
those of Linux for files. Where a syntax error is, and what is wrong with a text in YAML, stays
outside: both have one wording each.
-/
namespace JavaOutline

inductive FileFault where
  | notFound
  | alreadyExists
  | notDirectory
  | isDirectory
  | notText
  | denied
  | noSpace
  | nameTooLong
  | tooManyLinks
deriving DecidableEq, Repr, Inhabited

def FileFault.message : FileFault → String
  | .notFound => "No such file or directory (os error 2)"
  | .alreadyExists => "File exists (os error 17)"
  | .notDirectory => "Not a directory (os error 20)"
  | .isDirectory => "Is a directory (os error 21)"
  | .notText => "stream did not contain valid UTF-8"
  | .denied => "Permission denied (os error 13)"
  | .noSpace => "No space left on device (os error 28)"
  | .nameTooLong => "File name too long (os error 36)"
  | .tooManyLinks => "Too many levels of symbolic links (os error 40)"

/-- Why the files below a path cannot be told. -/
inductive Obstacle where
  | missing (path : String)
  | unreadable (path : String) (fault : FileFault)
  | unopened (fault : FileFault)
  /-- A link leads back to a folder above it. -/
  | loop (path ancestor : String)
deriving DecidableEq, Repr, Inhabited

def Obstacle.message : Obstacle → String
  | .missing path => "cannot access path " ++ path
  | .unreadable path fault => "IO error for operation on " ++ path ++ ": " ++ fault.message
  | .unopened fault => fault.message
  | .loop path ancestor =>
    "File system loop found: " ++ path ++ " points to an ancestor " ++ ancestor

inductive GlobFault where
  | unclosedClass
  | invalidRange (low high : Char)
  | unclosedGroup
  | unopenedGroup
  | danglingEscape
deriving DecidableEq, Repr, Inhabited

def GlobFault.message : GlobFault → String
  | .unclosedClass => "unclosed character class; missing ']'"
  | .invalidRange low high =>
    "invalid range; '" ++ low.toString ++ "' > '" ++ high.toString ++ "'"
  | .unclosedGroup =>
    "unclosed alternate group; missing '\x7d' (maybe escape '\x7b' with '[\x7b]'?)"
  | .unopenedGroup =>
    "unopened alternate group; missing '\x7b' (maybe escape '\x7d' with '[\x7d]'?)"
  | .danglingEscape => "dangling '\\'"

def GlobFault.report (fault : GlobFault) (pattern : String) : String :=
  "error parsing glob '" ++ pattern ++ "': " ++ fault.message

inductive SourceFault where
  | ungrammatical
  /-- A node lacks a part that its outline needs. -/
  | missing (kind part : String) (place : Position)
  | unreadable (fault : FileFault)
deriving DecidableEq, Repr, Inhabited

def SourceFault.message : SourceFault → String
  | .ungrammatical => "syntax error"
  | .missing kind part place => "`" ++ kind ++ "` without " ++ part ++ " at " ++ place.render
  | .unreadable fault => "cannot read file: " ++ fault.message

inductive SettingsFault where
  | depthOutOfRange
  | badPattern (pattern : String) (fault : GlobFault)
  | unreadable (fault : FileFault)
  | malformed
deriving DecidableEq, Repr, Inhabited

def SettingsFault.message : SettingsFault → String
  | .depthOutOfRange => "max_depth must be between 1 and 1024"
  | .badPattern pattern fault =>
    "invalid excluded_paths pattern " ++ Text.quoted pattern ++ ": " ++ fault.report pattern
  | .unreadable fault => fault.message
  | .malformed => "invalid yaml"

inductive NameRole where
  | className
  | packageName
  | methodName
  | parameterName
  | typeName
deriving DecidableEq, Repr, Inhabited

def NameRole.text : NameRole → String
  | .className => "class"
  | .packageName => "package"
  | .methodName => "method"
  | .parameterName => "parameter"
  | .typeName => "type"

inductive Error where
  | parse (path : String) (fault : SourceFault)
  | missingPackage (path : String)
  | depthExceeded (limit : Nat)
  | settings (path : String) (fault : SettingsFault)
  | invalidName (role : NameRole) (value : String)
  | file (fault : FileFault)
  | inaccessible (obstacle : Obstacle)
deriving DecidableEq, Repr, Inhabited

def Error.message : Error → String
  | .parse path fault => "failed to parse " ++ path ++ ": " ++ fault.message
  | .missingPackage path => "no package declaration in " ++ path
  | .depthExceeded limit => "nesting depth exceeds limit of " ++ toString limit
  | .settings path fault => "invalid config " ++ path ++ ": " ++ fault.message
  | .invalidName role value => "invalid " ++ role.text ++ " name: " ++ Text.quoted value
  | .file fault => "I/O error: " ++ fault.message
  | .inaccessible obstacle => obstacle.message

end JavaOutline
