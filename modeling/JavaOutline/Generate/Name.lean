import JavaOutline.Error
import JavaOutline.Text.Lines

/-!
Names in generated files. A name is checked for the role it plays, and the check depends on its
characters alone: no name outside ASCII passes. The checks are `check_identifier`, `check_package`
and `check_type`.
-/
namespace JavaOutline.Generate

def reservedWords : List String :=
  ["abstract", "assert", "boolean", "break", "byte", "case", "catch", "char", "class", "const",
    "continue", "default", "do", "double", "else", "enum", "extends", "final", "finally", "float",
    "for", "goto", "if", "implements", "import", "instanceof", "int", "interface", "long", "native",
    "new", "package", "private", "protected", "public", "return", "short", "static", "strictfp",
    "super", "switch", "synchronized", "this", "throw", "throws", "transient", "try", "void",
    "volatile", "while", "true", "false", "null", "_"]

def isReserved (word : String) : Bool :=
  reservedWords.contains word

def isNameStart (c : Char) : Bool :=
  c.isAlpha || c == '_' || c == '$'

def isNamePart (c : Char) : Bool :=
  isNameStart c || c.isDigit

def isIdentifier (word : String) : Bool :=
  (match word.toList with
    | [] => false
    | c :: rest => isNameStart c && rest.all isNamePart) && !isReserved word

/-- Identifiers separated by dots. The empty text is the package without a name. -/
def isPackageName (name : String) : Bool :=
  name.isEmpty || (Text.pieces '.' name.toList).all fun part => isIdentifier (String.ofList part)

def isTypePart (c : Char) : Bool :=
  isNamePart c || ['.', '<', '>', ',', '?', '[', ']', ' '].contains c

/-- A type as written: it starts like a name, and its brackets are equally many on both sides. -/
def isTypeName (name : String) : Bool :=
  let chars := name.toList
  (match chars with
    | [] => false
    | c :: rest => isNameStart c && rest.all isTypePart) &&
    chars.count '<' == chars.count '>' && chars.count '[' == chars.count ']'

def accepts : NameRole → String → Bool
  | .packageName, name => isPackageName name
  | .typeName, name => isTypeName name
  | .className, name | .methodName, name | .parameterName, name => isIdentifier name

def checkName (role : NameRole) (name : String) : Except Error Unit :=
  if accepts role name then .ok () else .error (.invalidName role name)

end JavaOutline.Generate
