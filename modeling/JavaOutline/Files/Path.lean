import JavaOutline.Text.Lines

/-!
Paths as texts: pieces between slashes, joined with one slash. `join` and `parentNames` follow
`Path::join` and `Path::parent`, and `extension?` is `Path::extension` of a last name. Paths here
are texts; paths whose bytes are none stay outside.
-/
namespace JavaOutline.Files

def pieces (path : String) : List String :=
  (Text.pieces '/' path.toList).map String.ofList

/-- A path below another. An absolute path stands for itself, and a slash at the end of the first
is not repeated. -/
def join (base path : String) : String :=
  if path.toList.head? = some '/' || base.isEmpty then path
  else if base.toList.getLast? = some '/' then base ++ path
  else base ++ "/" ++ path

def isSilent (piece : String) : Bool :=
  piece == "" || piece == "."

/-- The pieces in front of the last name of a path. The empty piece in front of an absolute path is
one of them. -/
def parentNames (path : String) : List String :=
  ((pieces path).reverse.dropWhile isSilent).tail.reverse

/-- What follows the last dot of a file name, unless nothing stands before that dot. -/
def extension? (name : String) : Option String :=
  let cut := Text.pieces '.' name.toList
  match cut.reverse with
  | [] | [_] => none
  | [_, []] => none
  | last :: _ => some (String.ofList last)

end JavaOutline.Files
